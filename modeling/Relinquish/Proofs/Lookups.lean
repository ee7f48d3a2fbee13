import Relinquish.Proofs.Reactions

/-!
Lookups of values. What works on the lookup of a slot stands right above the frame that waits for its
end, and what that frame gets is an answer: a value that has entered the slot, or one of the three
errors of a lookup, or a panic.
-/

namespace Relinquish

variable {σ ν : Type}

/-- What the lookup of a slot's value can come to, where the values are known that have entered
slots. -/
def Exit.Answers (entered : List (SlotId × Value)) (s : SlotId) : Exit → Prop
  | returned (.value value) => (s, value) ∈ entered
  | returned (.failed (.drop error)) =>
      error = .dropped ∨ error = .reentrant ∨ ∃ cause failures, error = .initialization cause failures
  | returned _ => False
  | panicked _ => True

def Task.Seeks (entered : List (SlotId × Value)) (s : SlotId) : Task σ ν → Prop
  | finish exit => exit.Answers entered s
  | look t | enter t | lookAgain t | produce t | lockValue t _ | confirm t _ | store t _
  | releaseLate t _ | links t _ _ _ _ | handlers t _ _ _ => t = s
  | unlockValue t next | leave t next => t = s ∧ next.Seeks entered s
  | consult selection _ | sift selection _ _ _ => selection.slot? = some s
  | _ => False

def Task.lookup? : Task σ ν → Option SlotId
  | look s | enter s | lookAgain s | produce s | lockValue s _ | confirm s _ | store s _
  | releaseLate s _ | links s _ _ _ _ | handlers s _ _ _ | unlockValue s _ | leave s _ => some s
  | consult selection _ | sift selection _ _ _ => selection.slot?
  | _ => none

def Control.lookup? : Control σ ν → Option SlotId
  | code _ => none
  | task work => work.lookup?

def Frame.lookup? : Frame σ ν → Option SlotId
  | .initializing s | .releasingLate s _ | .linking s _ _ _ _ | .handling s _ _ _ => some s
  | .judging selection _ _ _ _ => selection.slot?
  | _ => none

def Frame.looks? : Frame σ ν → Option SlotId
  | .looking s => some s
  | _ => none

/-- Between what is on the lookup of one slot and what is on that of another, or on none, each frame
waits for just the lookup that what is above it is on. -/
def Fitted (above : Option SlotId) : List (Frame σ ν) → Option SlotId → Prop
  | [], below => above = below
  | frame :: rest, below => above = frame.looks? ∧ Fitted frame.lookup? rest below

theorem Fitted.append {above between below : Option SlotId} {upper lower : List (Frame σ ν)}
    (first : Fitted above upper between) (second : Fitted between lower below) :
    Fitted above (upper ++ lower) below := by
  induction upper generalizing above with
  | nil =>
      obtain rfl : above = between := first
      exact second
  | cons frame rest ih => exact ⟨first.1, ih first.2⟩

theorem Fitted.looking {s : SlotId} {stack : List (Frame σ ν)} (fitted : Fitted (some s) stack none) :
    ∃ rest, stack = .looking s :: rest := by
  cases stack with
  | nil => contradiction
  | cons frame rest =>
      obtain ⟨looks, _⟩ := fitted
      cases frame <;> simp only [Frame.looks?, reduceCtorEq, Option.some.injEq] at looks
      exact ⟨rest, by rw [looks]⟩

def Control.Serves (entered : List (SlotId × Value)) (control : Control σ ν) : Option SlotId → Prop
  | none => control.lookup? = none
  | some s => ∃ work, control = .task work ∧ work.Seeks entered s

def Move.Serves (entered : List (SlotId × Value)) (below : Option SlotId) (move : Move σ ν) : Prop :=
  ∃ above, move.control.Serves entered above ∧ Fitted above move.frames below

section
variable {entered : List (SlotId × Value)} {world next : World σ ν} {s : SlotId} {work : Task σ ν}
  {frame : Frame σ ν}

theorem Move.Serves.idle {move : Move σ ν} (control : move.control.lookup? = none)
    (frames : Fitted none move.frames none) : move.Serves entered none :=
  ⟨none, control, frames⟩

theorem Move.Serves.works (seeks : work.Seeks entered s) :
    Move.Serves entered (some s) { world := next, control := .task work } :=
  ⟨some s, ⟨work, rfl, seeks⟩, rfl⟩

theorem Move.Serves.waits {control : Control σ ν} (idle : control.lookup? = none)
    (waits : frame.lookup? = some s) (other : frame.looks? = none) :
    Move.Serves entered (some s) { world := next, control, frames := [frame] } :=
  ⟨none, idle, other.symm, waits⟩

theorem Call.start_serves (world : World σ ν) (call : Call σ ν) :
    Ensures (call.start world) (Move.Serves entered none) := by
  cases call <;> simp only [start]
  case getValue t | withValue t use =>
    rw [Ensures.operate_iff]
    refine ⟨fun _ => ⟨some t, ⟨.look t, rfl, rfl⟩, rfl, rfl, ?_⟩, fun _ => .idle rfl rfl⟩
    simp [Fitted, Frame.looks?, Frame.lookup?]
  case access =>
    split
    · unfold Accessor.frame
      split <;> rw [Ensures.borrow_iff] <;>
        exact ⟨some _, ⟨.look _, rfl, rfl⟩, rfl, rfl, rfl, rfl⟩
    · rw [Ensures.answer_iff]
      exact .idle rfl rfl
  all_goals
    refine Ensures.imp ?_
      fun move (idle : move.control.lookup? = none ∧ Fitted none move.frames none) =>
        .idle idle.1 idle.2
  case dropAccessed | forgetAccessor | dispose | forgetParcel | matchKind =>
    split <;> simp [Control.lookup?, Task.lookup?, Fitted, Frame.looks?, Frame.lookup?]
  case dropThrough | releaseGuard | disarmGuard | forgetGuard =>
    simp only [Ensures.whenConsumable_iff, Ensures.ite_iff, Guard.close]
    split <;> simp [Control.lookup?, Task.lookup?, Fitted, Frame.looks?, Frame.lookup?]
  all_goals
    simp [Control.lookup?, Task.lookup?, Selection.slot?, Fitted, Frame.looks?, Frame.lookup?]

theorem Task.step_serves (world : World σ ν) (id : ThreadId) (task : Task σ ν)
    (idle : task.lookup? = none) : Ensures (task.step world id) (Move.Serves entered none) := by
  cases task with
  | start call => exact call.start_serves world
  | letGo handles exit =>
      exact .letGo (fun _ => .idle rfl rfl) (fun _ _ _ _ => .idle rfl rfl)
        (fun _ _ _ _ => .idle rfl rfl) fun _ _ _ => .idle rfl ⟨rfl, rfl⟩
  | consult selection error =>
      simp only [step, Ensures.whenFree_iff, Ensures.go_iff]
      exact fun _ => .idle idle rfl
  | sift selection error rest places =>
      cases rest <;> simp only [step, Ensures.proceed_iff, Ensures.ask_iff]
      · refine ⟨?_, ?_, fun _ _ => .idle rfl rfl⟩
        · rintro s rfl
          contradiction
        · rintro s links rfl
          contradiction
      · exact ⟨fun _ => .idle idle rfl, fun _ => .idle idle rfl, fun _ _ => .idle rfl ⟨rfl, idle⟩⟩
  | take s | copy s cloner | copyValue s made cloner =>
      simp only [step, Ensures.whenFree_iff]
      intro _
      split <;> simp only [Ensures.go_iff, Ensures.run_iff, Ensures.endDrop_iff]
      · exact .idle rfl (by simp [Fitted, Frame.looks?, Frame.lookup?])
      · exact .idle rfl rfl
  | swap s =>
      simp only [step, Ensures.ite_iff, Ensures.go_iff, Ensures.endDrop_iff]
      exact ⟨fun _ => .idle rfl rfl, fun _ => .idle rfl rfl⟩
  | drain sc ran failures =>
      simp only [step]
      split <;> rw [Ensures.go_iff] <;> exact .idle rfl rfl
  | dispose droppable =>
      cases droppable <;> simp only [step, Ensures.go_iff, Ensures.run_iff, Ensures.answer_iff] <;>
        exact .idle rfl rfl
  | disposeAll rest failures =>
      cases rest <;> simp only [step, Ensures.push_iff, Ensures.answer_iff]
      · exact .idle rfl rfl
      · exact .idle rfl ⟨rfl, rfl⟩
  | batch sc rest ran failures =>
      rcases rest with - | ⟨⟨action, job⟩, rest⟩
      · simp only [step, Ensures.go_iff]
        exact .idle rfl rfl
      · cases job <;> simp only [step, Ensures.run_iff, Ensures.push_iff]
        · exact .idle rfl ⟨rfl, rfl⟩
        · exact .idle rfl ⟨rfl, rfl, rfl⟩
  | finish exit => simp [step]
  | deliver | report =>
      simp only [step, Ensures.answer_iff]
      exact .idle rfl rfl
  | _ => contradiction

theorem Task.step_seeks (world : World σ ν) (id : ThreadId) (task : Task σ ν)
    (seeks : task.Seeks entered s)
    (stock : ∀ value, (world.slot s).value = some value → (s, value) ∈ entered)
    (flight : ∀ value, task = .store s value → (s, value) ∈ entered) :
    Ensures (task.step world id) (Move.Serves entered (some s)) := by
  -- A value that the lookup finds, or stores, has entered the slot.
  cases task with
  | finish exit => simp [step]
  | look t =>
      obtain rfl : t = s := seeks
      simp only [step, Ensures.whenFree_iff]
      intro _
      split
      · next value held =>
          rw [Ensures.answer_iff]
          exact .works (stock value held)
      · rw [Ensures.go_iff]
        exact .works rfl
  | enter t =>
      obtain rfl : t = s := seeks
      simp only [step, Ensures.bind_iff, Ensures.ite_iff, Ensures.go_iff]
      exact fun _ _ => ⟨fun _ => .works ⟨rfl, .inr (.inl rfl)⟩, fun _ => .works rfl⟩
  | lookAgain t =>
      obtain rfl : t = s := seeks
      simp only [step, Ensures.whenFree_iff]
      intro _
      split <;> rw [Ensures.go_iff]
      · next value held => exact .works ⟨rfl, stock value held⟩
      · exact .works rfl
  | produce t =>
      obtain rfl : t = s := seeks
      simp only [step, Ensures.ite_iff, Ensures.go_iff, Ensures.run_iff]
      exact ⟨fun _ => .works ⟨rfl, .inl rfl⟩, fun _ => .waits rfl rfl rfl⟩
  | lockValue t value =>
      simp only [step, Ensures.whenFree_iff, Ensures.go_iff]
      exact fun _ => .works seeks
  | confirm t value =>
      simp only [step, Ensures.ite_iff, Ensures.go_iff]
      exact ⟨fun _ => .works ⟨seeks, seeks, seeks⟩, fun _ => .works seeks⟩
  | store t value =>
      obtain rfl : t = s := seeks
      simp only [step, Ensures.go_iff]
      exact .works ⟨rfl, rfl, flight value rfl⟩
  | unlockValue t next | leave t next =>
      simp only [step, Ensures.go_iff]
      exact .works seeks.2
  | releaseLate t value =>
      obtain rfl : t = s := seeks
      simp only [step, Ensures.run_iff]
      exact .waits rfl rfl rfl
  | consult selection error =>
      simp only [step, Ensures.whenFree_iff, Ensures.go_iff]
      exact fun _ => .works seeks
  | sift selection error rest places =>
      cases rest <;> simp only [step, Ensures.proceed_iff, Ensures.ask_iff]
      · refine ⟨?_, ?_, ?_⟩
        · rintro t rfl
          exact .works seeks
        · rintro t links rfl
          exact .works (Option.some.inj seeks)
        · rintro r rfl
          contradiction
      · exact ⟨fun _ => .works seeks, fun _ => .works seeks, fun _ _ => .waits rfl seeks rfl⟩
  | links t error rest callbacks failures =>
      obtain rfl : t = s := seeks
      cases rest <;> simp only [step, Ensures.go_iff, Ensures.push_iff]
      · exact .works rfl
      · exact .waits rfl rfl rfl
  | handlers t error rest failures =>
      obtain rfl : t = s := seeks
      cases rest <;> simp only [step, Ensures.answer_iff, Ensures.run_iff]
      · exact .works (.inr (.inr ⟨_, _, rfl⟩))
      · exact .waits rfl rfl rfl
  | _ => exact False.elim seeks

theorem Frame.resume_seeks (world : World σ ν) (exit : Exit) (frame : Frame σ ν)
    (waits : frame.lookup? = some s) :
    Ensures (frame.resume world exit) (Move.Serves entered (some s)) := by
  cases frame with
  | initializing t =>
      obtain rfl := Option.some.inj waits
      simp only [resume, Ensures.initializerEnded_iff]
      refine ⟨?_, fun _ _ => ⟨fun _ _ => .works ⟨rfl, rfl⟩, fun _ => .works rfl⟩⟩
      rintro payload rfl
      exact .works ⟨rfl, trivial⟩
  | releasingLate t value =>
      cases exit <;> simp only [resume, Ensures.answer_iff, Ensures.go_iff]
      · exact .works (.inl rfl)
      · exact .works trivial
  | judging selection error place rest places =>
      cases exit <;> simp only [resume, Ensures.go_iff]
      · exact .works waits
      · exact .works trivial
  | linking t error rest callbacks failures | handling t error rest failures =>
      obtain rfl := Option.some.inj waits
      cases exit <;> simp only [resume]
      · split <;> rw [Ensures.go_iff] <;> exact .works rfl
      · rw [Ensures.go_iff]
        exact .works trivial
  | _ => contradiction

theorem Frame.resume_serves (world : World σ ν) (exit : Exit) (frame : Frame σ ν)
    (idle : frame.lookup? = none) :
    Ensures (frame.resume world exit) (Move.Serves entered none) := by
  cases frame with
  | initializing | releasingLate | linking | handling => contradiction
  | judging selection error place rest places =>
      cases exit <;> simp only [resume, Ensures.go_iff]
      · exact .idle idle rfl
      · exact .idle rfl rfl
  | getting | orNone | orElse | expiring =>
      simp only [resume, Guard.close]
      split <;> simp only [Ensures.go_iff, Ensures.run_iff, Ensures.push_iff, Ensures.answer_iff] <;>
        exact .idle rfl (by simp [Fitted, looks?, lookup?])
  | reading announced =>
      cases exit <;> simp only [resume]
      · exact .configRead fun _ _ _ => .idle rfl rfl
      · rw [Ensures.go_iff]
        exact .idle rfl rfl
  | body sc =>
      simp only [resume, Ensures.push_iff]
      exact .idle rfl ⟨rfl, rfl⟩
  | _ =>
      cases exit <;> simp only [resume, Ensures.go_iff, Ensures.run_iff,
        Ensures.answer_iff, Ensures.some_iff, Ensures.endDrop_iff] <;> exact .idle rfl rfl

end

/-! ## Runs -/

theorem Exit.Answers.imp {entered more : List (SlotId × Value)} (grows : entered ⊆ more) {s : SlotId}
    {exit : Exit} (answers : exit.Answers entered s) : exit.Answers more s := by
  cases exit with
  | panicked payload => trivial
  | returned reply =>
      cases reply with
      | value value => exact grows answers
      | failed error => cases error <;> exact answers
      | _ => contradiction

theorem Task.Seeks.imp {entered more : List (SlotId × Value)} (grows : entered ⊆ more) {s : SlotId}
    {work : Task σ ν} (seeks : work.Seeks entered s) : work.Seeks more s := by
  induction work with
  | finish exit => exact Exit.Answers.imp grows seeks
  | unlockValue t next ih | leave t next ih => exact ⟨seeks.1, ih seeks.2⟩
  | _ => exact seeks

theorem Control.Serves.imp {entered more : List (SlotId × Value)} (grows : entered ⊆ more)
    {control : Control σ ν} {above : Option SlotId} (serves : control.Serves entered above) :
    control.Serves more above := by
  cases above with
  | none => exact serves
  | some s =>
      obtain ⟨work, rfl, seeks⟩ := serves
      exact ⟨work, rfl, seeks.imp grows⟩

def Thread.Placed (world : World σ ν) (thread : Thread σ ν) : Prop :=
  ∃ above, thread.control.Serves world.entered above ∧ Fitted above thread.stack none

section
variable {world next : World σ ν} {thread after : Thread σ ν} {s : SlotId}

theorem Balanced.entered_of_held {stage : Stage} (balanced : Balanced world stage) {value : Value}
    (held : (world.slot s).value = some value) : (s, value) ∈ world.entered := by
  have balance := balanced.balance s value
  have stock : (world.condition s).stock value = 1 := if_pos held
  exact List.count_pos_iff.mp (by omega)

theorem Balanced.entered_of_flight {stage : Stage} (balanced : Balanced world stage) {value : Value}
    (carried : (s, value) ∈ stage.flight) : (s, value) ∈ world.entered := by
  have balance := balanced.balance s value
  have flight := List.count_pos_iff.mpr carried
  exact List.count_pos_iff.mp (by omega)

theorem Thread.step_entered (action : thread.step world = some (next, after)) :
    world.entered ⊆ next.entered := by
  obtain ⟨_, _, _, _, effect⟩ := step_affects action
  rcases effect.accounts.entered with same | ⟨t, value, more, _⟩
  · rw [same]
    exact List.Subset.refl _
  · rw [more]
    exact List.subset_cons_self _ _

theorem Thread.Placed.of_move {entered : List (SlotId × Value)} {below : Option SlotId}
    {move : Move σ ν} {stack : List (Frame σ ν)} (id : ThreadId) (serves : move.Serves entered below)
    (fitted : Fitted below stack none) (grows : entered ⊆ move.world.entered) :
    Thread.Placed move.world ⟨id, move.control, move.frames ++ stack⟩ := by
  obtain ⟨above, control, frames⟩ := serves
  exact ⟨above, control.imp grows, frames.append fitted⟩

theorem Thread.Placed.step (placed : thread.Placed world) (sound : Sound world thread)
    (action : thread.step world = some (next, after)) : after.Placed next := by
  have grows := step_entered action
  have balanced := sound.balanced
  obtain ⟨above, control, fitted⟩ := placed
  revert control fitted balanced grows
  apply step_rule (fun thread next after => world.entered ⊆ next.entered →
    Balanced world thread.control.stage → thread.control.Serves world.entered above →
      Fitted above thread.stack none → after.Placed next) _ _ _ action
  · intro id code stack move made grows _ control fitted
    cases above with
    | some s =>
        obtain ⟨work, isTask, _⟩ := control
        contradiction
    | none =>
        apply of_move _ _ fitted grows
        cases code <;> obtain rfl := Option.some.inj made <;>
          exact .idle rfl (by simp [Fitted, Frame.looks?, Frame.lookup?])
  · intro id task stack move made grows balanced control fitted
    apply of_move _ _ fitted grows
    cases above with
    | none => exact task.step_serves world id control move made
    | some s =>
        obtain ⟨_, same, seeks⟩ := control
        obtain rfl := Control.task.inj same
        apply task.step_seeks world id seeks _ _ move made
        · intro value held
          exact balanced.entered_of_held held
        · rintro value rfl
          exact balanced.entered_of_flight (List.mem_singleton_self _)
  · intro id exit frame stack move made grows _ _ fitted
    apply of_move _ _ fitted.2 grows
    cases waits : frame.lookup? with
    | none => exact frame.resume_serves world exit waits move made
    | some s => exact frame.resume_seeks world exit waits move made

theorem Thread.Reaches.sound (run : Thread.Reaches world thread next after)
    (sound : Sound world thread) : Sound next after :=
  run.rule Sound (fun _ _ _ _ sound action => sound.step action) sound

theorem Thread.Placed.reaches (placed : thread.Placed world) (sound : Sound world thread)
    (run : Thread.Reaches world thread next after) : after.Placed next := by
  apply And.right (run.rule (fun world thread => Sound world thread ∧ thread.Placed world) _
    ⟨sound, placed⟩)
  rintro middle between later moved ⟨sound, placed⟩ action
  exact ⟨sound.step action, placed.step sound action⟩

theorem Thread.Placed.advance (memory : σ) (id : ThreadId) (code : Code σ ν) (steps : Nat) :
    (Thread.advance steps { memory } (.ofCode id code)).2.Placed
      (Thread.advance steps { memory } (.ofCode id code)).1 := by
  have placed : Thread.Placed { memory } (.ofCode id code) := ⟨none, rfl, rfl⟩
  exact placed.reaches (.ofCode memory id code) ⟨steps, rfl⟩

theorem Thread.Placed.answers {id : ThreadId} {exit : Exit} {rest : List (Frame σ ν)}
    (placed : Thread.Placed world ⟨id, .task (.finish exit), .looking s :: rest⟩) :
    exit.Answers world.entered s := by
  obtain ⟨above, control, fitted⟩ := placed
  obtain rfl : above = some s := fitted.1
  obtain ⟨_, same, seeks⟩ := control
  obtain rfl := Control.task.inj same
  exact seeks

theorem Thread.Placed.called {id : ThreadId} {stack : List (Frame σ ν)}
    (placed : Thread.Placed world ⟨id, .task (.look s), stack⟩) : ∃ rest, stack = .looking s :: rest := by
  obtain ⟨above, control, fitted⟩ := placed
  cases above with
  | none => contradiction
  | some t =>
      obtain ⟨_, same, seeks⟩ := control
      obtain rfl := Control.task.inj same
      obtain rfl : s = t := seeks
      exact fitted.looking

end

/-! ## Lookups that run the initializer -/

section
variable {world : World σ ν} {thread : Thread σ ν} {s : SlotId} {id : ThreadId}

theorem World.Vacant.tries {depth : Nat} (vacant : world.Vacant s id depth)
    (unset : (world.slot s).initializing = false) (undropped : (world.slot s).dropped = false)
    (stack : List (Frame σ ν)) :
    ∃ next, Thread.Works world ⟨id, .task (.look s), stack⟩ next
        ⟨id, .code (world.slot s).initializer, .initializing s :: stack⟩ ∧
      next.trials s = .begun :: world.trials s := by
  have enters := vacant.enter stack
  rw [if_neg (by simp [unset])] at enters
  have produces : Thread.step (world.entering s id depth) ⟨id, .task (.produce s), stack⟩ =
      some (((world.entering s id depth).updateSlot s fun slot =>
          { slot with initializing := true }).act (.initializerStarted s),
        ⟨id, .code (world.slot s).initializer, .initializing s :: stack⟩) := by
    simp only [Thread.step, Task.step, World.slot_entering, undropped, Bool.false_eq_true, if_false]
    rfl
  refine ⟨_, .step rfl (vacant.look stack) (.step rfl enters (.step rfl (vacant.lookAgain stack)
    (.step rfl produces (.done _ _)))), ?_⟩
  simp [World.trials, World.entering, Mark.trial?]

theorem Regular.tries {work : Task σ ν} {stack base : List (Frame σ ν)}
    (regular : Regular world ⟨id, .task work, stack⟩) (unlocked : work.locks = [])
    (unkept : (Control.task work).kept = [])
    (begins : Thread.step world ⟨id, .task work, stack⟩ =
      some (world.retain (.slot s), ⟨id, .task (.look s), base⟩))
    (made : s < world.slots.size) (undropped : (world.slot s).dropped = false)
    (empty : (world.slot s).value = none) (outside : .initializing s ∉ stack) :
    ∃ next, Thread.Works world ⟨id, .task work, stack⟩ next
        ⟨id, .code (world.slot s).initializer, .initializing s :: base⟩ ∧
      next.trials s = .begun :: world.trials s := by
  have unset : (world.slot s).initializing = false :=
    Bool.eq_false_iff.mpr fun set => outside (regular.runs_of_set set)
  have vacant := (regular.vacant_of_unset made unlocked unkept unset empty).retain
  have kept : (world.retain (.slot s)).slot s =
      { world.slot s with shared := (world.slot s).shared + 1 } := by
    rw [World.retain, World.slot_updateSlot, if_pos rfl]
  obtain ⟨next, works, trials⟩ := vacant.tries (by rw [kept]; exact unset) (by rw [kept]; exact undropped) base
  rw [kept] at works
  exact ⟨next, .step rfl begins works, trials⟩

end

end Relinquish
