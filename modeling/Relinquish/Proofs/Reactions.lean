import Relinquish.Proofs.Invocations
import Relinquish.Proofs.Discipline

/-!
Reactions in a run. Whatever a slot invokes in a reaction, it invokes because its initializer has
failed, at one moment of the run; and to each such failure there is one reaction.
-/

namespace Relinquish

variable {σ ν : Type}

/-! ## Where a thread is in reactions -/

def Selection.slot? : Selection σ ν → Option SlotId
  | links s | handlers s _ => some s
  | numbers _ => none

def Task.reaction? : Task σ ν → Option (SlotId × Error)
  | consult selection error | sift selection error _ _ => selection.slot?.map (·, error)
  | links s error _ _ _ | handlers s error _ _ => some (s, error)
  | unlockValue _ next | leave _ next => next.reaction?
  | _ => none

def Control.reaction? : Control σ ν → Option (SlotId × Error)
  | code _ => none
  | task work => work.reaction?

def Frame.reaction? : Frame σ ν → Option (SlotId × Error)
  | .judging selection error _ _ _ => selection.slot?.map (·, error)
  | .linking s error _ _ _ | .handling s error _ _ => some (s, error)
  | _ => none

/-- The reaction that goes on, or begins, when a frame gets the end of what was above it. -/
def Frame.reactionTo? (exit : Exit) : Frame σ ν → Option (SlotId × Error)
  | .initializing s =>
      match exit with
      | .returned (.failed error) => some (s, error)
      | _ => none
  | frame => frame.reaction?

/-- A move goes on with a reaction that was going on, and begins no other. -/
inductive Move.Reacts (before : Option (SlotId × Error)) (move : Move σ ν) : Prop
  | idle (control : move.control.reaction? = none)
      (frames : move.frames.filterMap Frame.reaction? = [])
  | works {work : Task σ ν} (control : move.control = .task work) (frames : move.frames = [])
      (same : work.reaction? = before)
  | waits {frame : Frame σ ν} (control : move.control.reaction? = none)
      (frames : move.frames = [frame]) (same : frame.reaction? = before)

theorem Call.start_idle (world : World σ ν) (call : Call σ ν) :
    Ensures (call.start world) fun move =>
      move.control.reaction? = none ∧ move.frames.filterMap Frame.reaction? = [] := by
  cases call <;> simp only [start]
  case access =>
    split
    · unfold Accessor.frame
      split <;> rw [Ensures.borrow_iff] <;> exact ⟨rfl, rfl⟩
    · rw [Ensures.answer_iff]
      exact ⟨rfl, rfl⟩
  case dropAccessed | forgetAccessor | dispose | forgetParcel | matchKind =>
    split <;> simp only [Ensures.borrow_iff, Ensures.go_iff, Ensures.push_iff, Ensures.run_iff,
      Ensures.answer_iff] <;> exact ⟨rfl, rfl⟩
  case dropThrough | releaseGuard | disarmGuard | forgetGuard =>
    simp only [Ensures.whenConsumable_iff, Ensures.ite_iff, Guard.close]
    split <;> simp [Control.reaction?, Task.reaction?, Frame.reaction?]
  all_goals
    simp only [Ensures.whenUsable_iff, Ensures.whenFree_iff, Ensures.operate_iff, Ensures.ite_iff,
      Ensures.go_iff, Ensures.run_iff, Ensures.answer_iff, Control.reaction?,
      Task.reaction?, Selection.slot?, Option.map_none, Frame.reaction?, List.filterMap_nil,
      List.filterMap_cons, List.nil_append, List.cons_append, and_self, implies_true]

theorem Task.step_reacts (world : World σ ν) (id : ThreadId) (task : Task σ ν) :
    Ensures (task.step world id) (Move.Reacts task.reaction?) := by
  cases task with
  | start call => exact (call.start_idle world).imp fun _ idle => .idle idle.1 idle.2
  | consult selection error =>
      simp only [step, Ensures.whenFree_iff, Ensures.go_iff]
      exact fun _ => .works rfl rfl rfl
  | sift selection error rest places =>
      cases rest <;> simp only [step, Ensures.proceed_iff, Ensures.ask_iff]
      · refine ⟨?_, ?_, fun _ _ => .idle rfl rfl⟩
        · rintro s rfl
          exact .works rfl rfl rfl
        · rintro s links rfl
          exact .works rfl rfl rfl
      · exact ⟨fun _ => .works rfl rfl rfl, fun _ => .works rfl rfl rfl,
          fun _ _ => .waits rfl rfl rfl⟩
  | links s error rest callbacks =>
      cases rest <;> simp only [step, Ensures.go_iff, Ensures.push_iff]
      · exact .works rfl rfl rfl
      · exact .waits rfl rfl rfl
  | handlers s error rest =>
      cases rest <;> simp only [step, Ensures.answer_iff, Ensures.run_iff]
      · exact .idle rfl rfl
      · exact .waits rfl rfl rfl
  | unlockValue s following | leave s following =>
      simp only [step, Ensures.go_iff]
      exact .works rfl rfl rfl
  | enter s =>
      simp only [step, Ensures.bind_iff, Ensures.ite_iff, Ensures.go_iff]
      exact fun _ _ => ⟨fun _ => .idle rfl rfl, fun _ => .idle rfl rfl⟩
  | look s | lookAgain s | take s | copy s cloner | copyValue s made cloner =>
      simp only [step, Ensures.whenFree_iff]
      intro _
      split <;> simp only [Ensures.go_iff, Ensures.run_iff, Ensures.answer_iff, Ensures.endDrop_iff] <;>
        exact .idle rfl rfl
  | drain sc ran failures =>
      simp only [step]
      split <;> rw [Ensures.go_iff] <;> exact .idle rfl rfl
  | letGo handles exit =>
      exact .letGo (fun _ => .idle rfl rfl) (fun _ _ _ _ => .idle rfl rfl)
        (fun _ _ _ _ => .idle rfl rfl) fun _ _ _ => .idle rfl rfl
  | dispose droppable =>
      cases droppable <;> simp only [step, Ensures.go_iff, Ensures.run_iff, Ensures.answer_iff] <;>
        exact .idle rfl rfl
  | disposeAll rest failures =>
      cases rest <;> simp only [step, Ensures.push_iff, Ensures.answer_iff] <;> exact .idle rfl rfl
  | batch sc rest ran failures =>
      rcases rest with - | ⟨⟨action, job⟩, rest⟩
      · simp only [step, Ensures.go_iff]
        exact .idle rfl rfl
      · cases job <;> simp only [step, Ensures.run_iff, Ensures.push_iff] <;> exact .idle rfl rfl
  | produce s | swap s | confirm s value =>
      simp only [step, Ensures.ite_iff, Ensures.go_iff, Ensures.run_iff, Ensures.endDrop_iff]
      exact ⟨fun _ => .idle rfl rfl, fun _ => .idle rfl rfl⟩
  | lockValue s value =>
      simp only [step, Ensures.whenFree_iff, Ensures.go_iff]
      exact fun _ => .idle rfl rfl
  | finish exit => simp [step]
  | store | releaseLate | deliver | report =>
      simp only [step, Ensures.go_iff, Ensures.run_iff, Ensures.answer_iff]
      exact .idle rfl rfl

theorem Frame.resume_reacts (world : World σ ν) (exit : Exit) (frame : Frame σ ν) :
    Ensures (frame.resume world exit) (Move.Reacts (frame.reactionTo? exit)) := by
  cases frame with
  | initializing s =>
      simp only [resume, Ensures.initializerEnded_iff]
      refine ⟨?_, ?_⟩
      · rintro payload rfl
        exact .idle rfl rfl
      · rintro reply rfl
        refine ⟨fun error failed => ?_, fun fine => ?_⟩
        · cases reply <;> cases failed
          exact .works rfl rfl rfl
        · cases reply <;> exact .idle rfl rfl
  | judging selection error place rest places =>
      cases exit <;> simp only [resume, Ensures.go_iff]
      · exact .works rfl rfl rfl
      · exact .idle rfl rfl
  | linking s error rest callbacks failures | handling s error rest failures =>
      cases exit <;> simp only [resume]
      · split <;> rw [Ensures.go_iff] <;> exact .works rfl rfl rfl
      · rw [Ensures.go_iff]
        exact .idle rfl rfl
  | getting | orNone | orElse | expiring =>
      simp only [resume, Guard.close]
      split <;> simp only [Ensures.go_iff, Ensures.run_iff, Ensures.push_iff, Ensures.answer_iff] <;> exact .idle rfl rfl
  | reading announced =>
      cases exit <;> simp only [resume]
      · exact .configRead fun _ _ _ => .idle rfl rfl
      · rw [Ensures.go_iff]
        exact .idle rfl rfl
  | _ =>
      cases exit <;> simp only [resume, Ensures.go_iff, Ensures.run_iff, Ensures.push_iff,
        Ensures.answer_iff, Ensures.some_iff, Ensures.endDrop_iff] <;> exact .idle rfl rfl

/-! ## The failure that a reaction comes from -/

namespace Thread

variable {world next : World σ ν} {thread after inner : Thread σ ν} {s : SlotId} {error : Error}
  {base : List (Frame σ ν)}

inductive InReaction (thread : Thread σ ν) (s : SlotId) (error : Error) (base : List (Frame σ ν)) :
    Prop
  | works (control : thread.control.reaction? = some (s, error)) (stack : thread.stack = base)
  | waits {upper : List (Frame σ ν)} {frame : Frame σ ν} (stack : thread.stack = upper ++ frame :: base)
      (same : frame.reaction? = some (s, error))

theorem InReaction.unfinished (reaction : (inner.above base).InReaction s error base) :
    inner.exit? = none := by
  cases ended : inner.exit? with
  | none => rfl
  | some exit =>
      rw [exit?_eq_some ended] at reaction
      cases reaction with
      | works control => contradiction
      | waits stack =>
          have length := congrArg List.length stack
          simp only [above, List.nil_append, List.length_append, List.length_cons] at length
          omega

theorem InReaction.of_move {move : Move σ ν} {id : ThreadId} {stack : List (Frame σ ν)}
    {before : Option (SlotId × Error)} (reacts : move.Reacts before)
    (reaction : (⟨id, move.control, move.frames ++ stack⟩ : Thread σ ν).InReaction s error base) :
    before = some (s, error) ∧ stack = base ∨
      ∃ upper frame, stack = upper ++ frame :: base ∧ frame.reaction? = some (s, error) := by
  cases reaction with
  | works control below =>
      cases reacts with
      | idle none | waits none => exact absurd (none.symm.trans control) nofun
      | works work frames same =>
          simp only [work, Control.reaction?] at control
          simp only [frames, List.nil_append] at below
          exact .inl ⟨same.symm.trans control, below⟩
  | @waits upper frame below same =>
      rcases List.append_eq_append_iff.mp below with ⟨between, rfl, rfl⟩ | ⟨between, frames, below⟩
      · exact .inr ⟨between, frame, rfl, same⟩
      · cases between with
        | nil =>
            rw [List.nil_append] at below
            exact .inr ⟨[], frame, below.symm, same⟩
        | cons top lower =>
            obtain ⟨rfl, rfl⟩ := List.cons.inj below
            cases reacts with
            | idle none idle =>
                have idle := List.filterMap_eq_nil_iff.mp idle frame
                  (frames ▸ List.mem_append_right _ (.head _))
                exact absurd (idle.symm.trans same) nofun
            | works work none => simp [none] at frames
            | waits control only known =>
                rw [only] at frames
                rcases List.append_eq_singleton_iff.mp frames.symm with ⟨_, single⟩ | ⟨_, none⟩
                · obtain ⟨rfl, rfl⟩ := List.cons.inj single
                  exact .inl ⟨known.symm.trans same, rfl⟩
                · contradiction

theorem InReaction.of_step (action : thread.step world = some (next, after))
    (reaction : after.InReaction s error base) :
    thread.InReaction s error base ∨ ∃ id, thread = (failing id s error).above base := by
  refine step_rule (fun thread _ after => after.InReaction s error base →
    thread.InReaction s error base ∨ ∃ id, thread = (failing id s error).above base)
    ?_ ?_ ?_ action reaction
  · intro id code stack move made reaction
    have reacts : move.Reacts none := by
      cases code <;> obtain rfl := Option.some.inj made <;> refine .idle rfl ?_ <;> simp [Frame.reaction?]
    rcases of_move reacts reaction with ⟨none, _⟩ | ⟨upper, frame, rfl, same⟩
    · contradiction
    · exact .inl (.waits rfl same)
  · intro id task stack move made reaction
    rcases of_move (task.step_reacts world id move made) reaction with
      ⟨control, rfl⟩ | ⟨upper, frame, rfl, same⟩
    · exact .inl (.works control rfl)
    · exact .inl (.waits rfl same)
  · intro id exit frame stack move made reaction
    rcases of_move (frame.resume_reacts world exit move made) reaction with
      ⟨known, rfl⟩ | ⟨upper, lower, rfl, same⟩
    · cases frame with
      | initializing t =>
          cases exit with
          | panicked payload => contradiction
          | returned reply =>
              cases reply with
              | failed cause =>
                  cases known
                  exact .inr ⟨id, rfl⟩
              | _ => contradiction
      | _ =>
          refine .inl (.waits (List.nil_append _).symm ?_)
          exact known
    · exact .inl (.waits (List.cons_append ..).symm same)

/-! ## Runs -/

theorem advance_one_above (base : List (Frame σ ν)) (unfinished : thread.exit? = none) :
    advance 1 world (thread.above base) =
      ((advance 1 world thread).1, (advance 1 world thread).2.above base) := by
  simp only [advance, step_above world thread base unfinished]
  cases thread.step world <;> rfl

theorem unfinished_of_advance {fewer steps : Nat} (less : fewer ≤ steps)
    (unfinished : (advance steps world thread).2.exit? = none) :
    (advance fewer world thread).2.exit? = none := by
  obtain ⟨more, rfl⟩ := Nat.exists_eq_add_of_le less
  cases ended : (advance fewer world thread).2.exit? with
  | none => rfl
  | some exit =>
      rw [advance_add, exit?_eq_some ended, advance_finish] at unfinished
      contradiction

theorem advance_above {steps : Nat} (base : List (Frame σ ν))
    (unfinished : (advance steps world thread).2.exit? = none) :
    advance steps world (thread.above base) =
      ((advance steps world thread).1, (advance steps world thread).2.above base) := by
  induction steps generalizing world thread with
  | zero => rfl
  | succ steps ih =>
      have running : thread.exit? = none := unfinished_of_advance (Nat.zero_le _) unfinished
      rw [Nat.add_comm steps, advance_add] at unfinished ⊢
      rw [advance_one_above base running, ih unfinished, advance_add]

/-- At one moment of a run the initializer of a slot has failed; so many steps after the next, the
thread is in the reaction to it, above what was below the initializer. -/
structure Answers (world : World σ ν) (thread : Thread σ ν) (moment steps : Nat) (id : ThreadId)
    (s : SlotId) (error : Error) (base : List (Frame σ ν)) : Prop where
  fails : (advance moment world thread).2 = (failing id s error).above base
  reacts : advance (moment + (steps + 1)) world thread =
    ((advance (steps + 1) (advance moment world thread).1 (failing id s error)).1,
      (advance (steps + 1) (advance moment world thread).1 (failing id s error)).2.above base)

variable {moment steps : Nat} {id : ThreadId}

theorem Answers.begin (fails : (advance moment world thread).2 = (failing id s error).above base) :
    Answers world thread moment 0 id s error base := by
  refine ⟨fails, ?_⟩
  rw [advance_add, fails]
  exact advance_one_above base rfl

theorem Answers.proceed (answers : Answers world thread moment steps id s error base)
    (reaction : (advance (moment + (steps + 1)) world thread).2.InReaction s error base) :
    Answers world thread moment (steps + 1) id s error base := by
  refine ⟨answers.fails, ?_⟩
  rw [answers.reacts] at reaction
  rw [← Nat.add_assoc moment, advance_add, answers.reacts, advance_one_above base reaction.unfinished,
    advance_add (steps + 1)]

theorem InReaction.answers (none : ∀ s error base, ¬ thread.InReaction s error base) (n : Nat)
    (reaction : (advance n world thread).2.InReaction s error base) :
    ∃ moment steps id, n = moment + (steps + 1) ∧
      Answers world thread moment steps id s error base := by
  induction n with
  | zero => exact absurd reaction (none s error base)
  | succ n ih =>
      have earlier : (advance n world thread).2.InReaction s error base ∨
          ∃ id, (advance n world thread).2 = (failing id s error).above base := by
        rw [advance_add n 1] at reaction
        cases action : (advance n world thread).2.step (advance n world thread).1 with
        | none =>
            rw [advance, action] at reaction
            exact .inl reaction
        | some reached =>
            rw [advance, action] at reaction
            exact reaction.of_step action
      rcases earlier with earlier | ⟨id, fails⟩
      · obtain ⟨moment, steps, id, rfl, answers⟩ := ih earlier
        exact ⟨moment, steps + 1, id, rfl, answers.proceed earlier⟩
      · exact ⟨n, 0, id, rfl, .begin fails⟩

theorem failing_above_inj {id' : ThreadId} {s' : SlotId} {error' : Error}
    (same : inner.above base = (failing id' s' error').above base) : inner = failing id' s' error' := by
  obtain ⟨id, control, stack⟩ := inner
  simp only [above, mk.injEq, List.append_cancel_right_eq] at same
  rw [same.1, same.2.1, same.2.2]

end Thread

theorem Reacting.not_failing {id other : ThreadId} {s t : SlotId} {error cause : Error}
    {origin world : World σ ν} {acts : List Act} {thread : Thread σ ν}
    (reacting : Reacting id s error origin acts world thread) : thread ≠ .failing other t cause := by
  intro same
  have stack := congrArg Thread.stack same
  cases reacting with
  | asks | linking | handling =>
      simp only [Thread.above, Thread.failing, List.append_eq_singleton_iff] at stack
      simp at stack
  | _ => contradiction

/-! ## The reactions of a run -/

theorem Control.reaction_of_invokes {control : Control σ ν} {act : Act}
    (invokes : control.invokes? = some act) : ∃ s error, control.reaction? = some (s, error) := by
  unfold Control.invokes? at invokes
  split at invokes
  · contradiction
  · unfold Task.invokes? at invokes
    split at invokes
    · exact ⟨_, _, rfl⟩
    · exact ⟨_, _, rfl⟩
    · contradiction

theorem Thread.step_of_invokes {world : World σ ν} {id : ThreadId} {control : Control σ ν} {act : Act}
    (invokes : control.invokes? = some act) :
    ∃ next after, Thread.step world ⟨id, control, []⟩ = some (next, after) := by
  unfold Control.invokes? at invokes
  split at invokes
  · contradiction
  · unfold Task.invokes? at invokes
    split at invokes
    · exact ⟨_, _, rfl⟩
    · exact ⟨_, _, rfl⟩
    · contradiction

section
variable {world : World σ ν} {thread : Thread σ ν} {moment later steps : Nat} {id other : ThreadId}
  {s t u : SlotId} {error cause reason : Error} {base : List (Frame σ ν)} {act : Act}

/-- No other initializer of a slot fails at the base while a reaction is going on above it. -/
theorem Thread.Answers.not_after (answers : Answers world thread moment steps id s error base)
    (made : s < (advance moment world thread).1.slots.size)
    (reaction : (advance (moment + (steps + 1)) world thread).2.InReaction u reason base)
    (after : moment < later) (before : later ≤ moment + (steps + 1)) :
    (advance later world thread).2 ≠ (failing other t cause).above base := by
  intro fails
  obtain ⟨more, rfl⟩ := Nat.exists_eq_add_of_lt after
  rw [answers.reacts] at reaction
  have unfinished := unfinished_of_advance (by omega : more + 1 ≤ steps + 1) reaction.unfinished
  rw [Nat.add_assoc, advance_add, answers.fails, advance_above base unfinished] at fails
  exact (Reacting.of_failing made more).not_failing (failing_above_inj fails)

theorem Thread.Answers.invocation
    (answers : Answers world thread moment steps id s error
      (advance (moment + (steps + 1)) world thread).2.stack)
    (invokes : (advance (moment + (steps + 1)) world thread).2.control.invokes? = some act) :
    act ∈ (failing id s error).invocations (steps + 2) (advance moment world thread).1 := by
  have reacts := congrArg Prod.snd answers.reacts
  generalize ran : advance (steps + 1) (advance moment world thread).1 (failing id s error) = reached
    at reacts
  obtain ⟨now, ⟨id', control, stack⟩⟩ := reached
  have same := congrArg Thread.control reacts
  rw [same] at invokes
  -- The stack is the base itself, so that there is nothing on it that the reaction has pushed.
  obtain rfl : stack = [] := List.self_eq_append_left.mp (congrArg Thread.stack reacts)
  obtain ⟨next, after, action⟩ := step_of_invokes invokes
  exact mem_invocations ran invokes action

/-- What a failed initializer is followed by: the links and the handlers that match have their turns
in order, each once and no one else; and all of them have it, unless something that runs before does
not return, or a predicate of the slot has made its initializer fail and keeps the lock itself. -/
structure World.ReactsOnce (failed : World σ ν) (id : ThreadId) (s : SlotId) (error : Error)
    (base : List (Frame σ ν)) : Prop where
  selects : ∀ links handlers begun,
    Chosen id s error (failed.withdraw s error) links handlers begun →
      failed.Selects id s error links handlers
  foreseen : ∀ steps, (Thread.failing id s error).invocations steps failed = [] ∨
    ∃ links handlers begun, Chosen id s error (failed.withdraw s error) links handlers begun ∧
      (Thread.failing id s error).invocations steps failed <+: Act.invocations s error links handlers
  once : ∀ steps, ((Thread.failing id s error).invocations steps failed).Nodup
  reached : (∀ frame ∈ base, .links s ∉ frame.locks ∧ .handlers s ∉ frame.locks) →
    ∀ act, failed.ReturnsBefore id s error act →
      ∃ links handlers begun, Chosen id s error (failed.withdraw s error) links handlers begun ∧
        ((∃ steps, act ∈ (Thread.failing id s error).invocations steps failed) ↔
          act ∈ Act.invocations s error links handlers)

theorem Regular.made (regular : Regular world thread)
    (fails : thread = (Thread.failing id s error).above base) : s < world.slots.size := by
  have set : (world.slot s).initializing = true := by
    refine regular.tracked.sound.guarded.set_of_paused ?_
    rw [fails]
    exact List.mem_filterMap.mpr ⟨.initializing s, .head _, rfl⟩
  by_contra unmade
  rw [World.slot_unmade unmade] at set
  exact Bool.false_ne_true set

theorem Regular.reactsOnce (regular : Regular world thread)
    (fails : thread = (Thread.failing id s error).above base) : world.ReactsOnce id s error base := by
  have made := regular.made fails
  refine ⟨fun _ _ _ chosen => chosen.selects made, Thread.invocations_foreseen made,
    Thread.invocations_once made, fun unasked act returns => ?_⟩
  have free (lock : Lock) (unlocked : ∀ frame ∈ base, lock ∉ frame.locks) :
      world.free lock = true := by
    rw [regular.free, fails]
    intro held
    obtain ⟨frame, member, locked⟩ := List.mem_flatMap.mp held
    rcases List.mem_cons.mp member with rfl | below
    · contradiction
    · exact unlocked frame below locked
  exact returns.invoked_iff made ⟨free _ fun frame below => (unasked frame below).1,
    free _ fun frame below => (unasked frame below).2⟩

end

theorem Thread.Reaches.grows {world next : World σ ν} {thread after : Thread σ ν}
    (run : Reaches world thread next after) : world.Grows next :=
  run.rule (fun next _ => world.Grows next)
    (fun _ _ _ _ grows action => grows.trans (step_preserves action).toGrows) (.refl world)

theorem World.copySlot_registries (world : World σ ν) (s : SlotId) :
    ((world.copySlot s).1.slot (world.copySlot s).2).links = (world.slot s).links ∧
      ((world.copySlot s).1.slot (world.copySlot s).2).handlers = (world.slot s).handlers := by
  simp only [copySlot, slot_actAll, slot_act]
  generalize made : world.addSlot _ = added
  have grown : world.slots.size < added.1.slots.size := by
    rw [← made, addSlot, Table.size_push]
    exact Nat.lt_succ_self _
  have copied := Retains.retainAll added.1 (world.slot s).held
  have copy : added.2 = world.slots.size := by rw [← made, addSlot]
  rw [copy, copied.links _ grown, copied.handlers _ grown, ← made, slot_addSlot, if_pos rfl]
  exact ⟨rfl, rfl⟩

/-- At every moment of a run: what has been registered stays registered, and is copied; an initializer
that fails is followed by one turn of everybody registered who matches; and whoever has a turn has it
in the reaction to one failure. -/
theorem Thread.reactions_exact (memory : σ) (id : ThreadId) (code : Code σ ν) {n : Nat}
    {world : World σ ν} {thread : Thread σ ν}
    (run : advance n { memory } (.ofCode id code) = (world, thread)) :
    (∀ m ≤ n, (advance m { memory } (.ofCode id code)).1.Grows world) ∧
      (∀ s, ((world.copySlot s).1.slot (world.copySlot s).2).links = (world.slot s).links ∧
        ((world.copySlot s).1.slot (world.copySlot s).2).handlers = (world.slot s).handlers) ∧
      (∀ i s error base, thread = (failing i s error).above base → world.ReactsOnce i s error base) ∧
      ∀ act, thread.control.invokes? = some act →
        ∃! moment, ∃ steps i s error, n = moment + (steps + 1) ∧
          Answers { memory } (.ofCode id code) moment steps i s error thread.stack ∧
          act ∈ (failing i s error).invocations (steps + 2)
            (advance moment { memory } (.ofCode id code)).1 := by
  have regular := Regular.advance memory id code
  refine ⟨fun m earlier => ?_, world.copySlot_registries, fun i s error base fails => ?_,
    fun act invokes => ?_⟩
  · obtain ⟨more, rfl⟩ := Nat.exists_eq_add_of_le earlier
    rw [advance_add] at run
    exact Reaches.grows ⟨more, run⟩
  · have now := regular n
    rw [run] at now
    exact now.reactsOnce fails
  · obtain ⟨s, error, reaction⟩ := Control.reaction_of_invokes invokes
    have inside : (advance n { memory } (.ofCode id code)).2.InReaction s error thread.stack := by
      rw [run]
      exact .works reaction rfl
    have fresh : ∀ s error base, ¬ (Thread.ofCode id code : Thread σ ν).InReaction s error base := by
      rintro s error base (control | stack)
      · contradiction
      · exact absurd stack (by simp [ofCode])
    obtain ⟨moment, steps, i, rfl, answers⟩ := inside.answers fresh n
    obtain rfl : thread = (advance (moment + (steps + 1)) { memory } (.ofCode id code)).2 := by rw [run]
    refine ⟨moment, ⟨steps, i, s, error, rfl, answers, answers.invocation invokes⟩, ?_⟩
    rintro other ⟨more, j, t, cause, same, again, -⟩
    rcases Nat.lt_trichotomy other moment with less | equal | greater
    · have made := (regular other).made again.fails
      rw [same] at inside again
      exact absurd (same ▸ answers.fails) (again.not_after made inside less (by omega))
    · exact equal
    · have made := (regular moment).made answers.fails
      exact absurd again.fails (answers.not_after made inside greater (by omega))

def Code.retry (s : SlotId) : Code Bool Unit :=
  .load fun tried => if tried then .ret .done else .store true (.call (.getValue s) .ret)

/-- A link that gets the value of its own slot again when it is released for the first time. -/
def Code.failAndRetry : Code Bool Unit :=
  .call (.newSlot (fun _ => .ret .done) (.ret (.failed (.text "refused")))) fun
    | .object s =>
        .call (.dropOnError s .any (.action (retry s))) fun _ => .call (.getValue s) .ret
    | reply => .ret reply

theorem Thread.reactions_exact_failAndRetry :
    let moment := fun n => advance n { memory := false } (.ofCode 0 Code.failAndRetry)
    (∃ base, (moment 31).1.ReactsOnce 0 0 (.text "refused") base) ∧
      (moment 38).2.control.invokes? = some (.linkStarted 0 0 (.text "refused")) ∧
      ∃! failure, ∃ steps i s error, 38 = failure + (steps + 1) ∧
        Answers { memory := false } (.ofCode 0 Code.failAndRetry) failure steps i s error
          (moment 38).2.stack ∧
        .linkStarted 0 0 (.text "refused") ∈
          (failing i s error).invocations (steps + 2) (moment failure).1 := by
  intro moment
  obtain ⟨-, -, reacts, -⟩ := reactions_exact false 0 Code.failAndRetry (rfl : moment 31 = _)
  obtain ⟨-, -, -, comes⟩ := reactions_exact false 0 Code.failAndRetry (rfl : moment 38 = _)
  exact ⟨⟨_, reacts 0 0 _ _ rfl⟩, rfl, comes _ rfl⟩

end Relinquish
