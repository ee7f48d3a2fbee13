import Relinquish.Proofs.Changes
import Relinquish.Proofs.Runs

/-!
What steps do to guards. A guard is there until one call ends it, and is lent out meanwhile to those who
drop its droppable through it. The scope of a guard that a call has consumed ends with the call, and finds
nothing left to drop.
-/

namespace Relinquish

variable {σ ν : Type}

/-! ## Guards that are left alone -/

namespace World

variable (world : World σ ν)

@[simp] theorem guards_act (act : Act) : (world.act act).guards = world.guards := rfl

@[simp] theorem guards_emit (event : Event) : (world.emit event).guards = world.guards := rfl

@[simp] theorem guards_updateSlot (s : SlotId) (change : Slot σ ν → Slot σ ν) :
    (world.updateSlot s change).guards = world.guards := rfl

@[simp] theorem guards_updateScope (sc : ScopeId) (change : Scope σ ν → Scope σ ν) :
    (world.updateScope sc change).guards = world.guards := rfl

@[simp] theorem guards_lock (lock : Lock) (id : ThreadId) :
    (world.lock lock id).guards = world.guards := rfl

@[simp] theorem guards_unlock (lock : Lock) : (world.unlock lock).guards = world.guards := rfl

@[simp] theorem guards_makeSlot (release : Value → Code σ ν) (initializer : Code σ ν) :
    (world.makeSlot release initializer).1.guards = world.guards := rfl

@[simp] theorem guards_makeValue (content : String) :
    (world.makeValue content).1.guards = world.guards := rfl

@[simp] theorem guards_addAction (sc : ScopeId) (job : Job σ ν) :
    (world.addAction sc job).guards = world.guards := rfl

@[simp] theorem guards_leaveSlot (s : SlotId) : (world.leaveSlot s).guards = world.guards := rfl

@[simp] theorem guards_handOver (s : SlotId) : (world.handOver s).guards = world.guards := rfl

@[simp] theorem guards_takePending (sc : ScopeId) :
    (world.takePending sc).1.guards = world.guards := rfl

@[simp] theorem guards_retain (handle : Handle) : (world.retain handle).guards = world.guards := by
  cases handle <;> rfl

@[simp] theorem guards_surrender (handle : Handle) :
    (world.surrender handle).guards = world.guards := by
  cases handle <;> rfl

@[simp] theorem guards_relinquish (handle : Handle) :
    (world.relinquish handle).guards = world.guards := by
  cases handle <;> rfl

@[simp] theorem guards_retainAll (handles : List Handle) :
    (world.retainAll handles).guards = world.guards :=
  world.foldl_same (·.guards) retain guards_retain handles

@[simp] theorem guards_actAll (acts : List Act) : (world.actAll acts).guards = world.guards :=
  world.foldl_same (·.guards) act (fun _ _ => rfl) acts

@[simp] theorem guards_emitAll (events : List Event) :
    (world.emitAll events).guards = world.guards :=
  world.foldl_same (·.guards) emit (fun _ _ => rfl) events

@[simp] theorem guards_adopt (sc : ScopeId) (s : SlotId) :
    (world.adopt sc s).guards = world.guards := rfl

@[simp] theorem guards_discardPending (sc : ScopeId) :
    (world.discardPending sc).guards = world.guards := by
  simp [discardPending_eq]

@[simp] theorem guards_discardSlot (s : SlotId) : (world.discardSlot s).guards = world.guards := by
  unfold discardSlot
  split <;> rfl

@[simp] theorem guards_copySlot (s : SlotId) : (world.copySlot s).1.guards = world.guards := by
  simp [copySlot, addSlot]

theorem guards_enterSlot {entered : World σ ν} {s : SlotId} {id : ThreadId}
    (action : world.enterSlot s id = some entered) : entered.guards = world.guards := by
  obtain ⟨depth, _, rfl⟩ := world.enterSlot_eq action
  rfl

end World

def Call.Guards : Call σ ν → Prop
  | newGuard _ | dropThrough _ | releaseGuard _ | disarmGuard _ | forgetGuard _ => True
  | _ => False

def Frame.guard? : Frame σ ν → Option GuardId
  | .through g => some g
  | _ => none

def Frame.expires? : Frame σ ν → Option GuardId
  | .expiring g => some g
  | _ => none

def Thread.lent (thread : Thread σ ν) : List GuardId :=
  thread.stack.filterMap Frame.guard?

/-- The guards that calls in progress have consumed. -/
def Thread.expiring (thread : Thread σ ν) : List GuardId :=
  thread.stack.filterMap Frame.expires?

theorem Thread.mem_lent {thread : Thread σ ν} {g : GuardId} :
    g ∈ thread.lent ↔ .through g ∈ thread.stack := by
  rw [lent, List.mem_filterMap]
  constructor
  · rintro ⟨frame, member, lent⟩
    cases frame <;> simp only [Frame.guard?, reduceCtorEq, Option.some.injEq] at lent
    rwa [lent] at member
  · exact fun member => ⟨_, member, rfl⟩

theorem Thread.mem_expiring {thread : Thread σ ν} {g : GuardId} :
    g ∈ thread.expiring ↔ .expiring g ∈ thread.stack := by
  rw [expiring, List.mem_filterMap]
  constructor
  · rintro ⟨frame, member, expires⟩
    cases frame <;> simp only [Frame.expires?, reduceCtorEq, Option.some.injEq] at expires
    rwa [expires] at member
  · exact fun member => ⟨_, member, rfl⟩

structure Move.Unguarded (world : World σ ν) (move : Move σ ν) : Prop where
  guards : move.world.guards = world.guards
  lent : move.frames.filterMap Frame.guard? = []
  expiring : move.frames.filterMap Frame.expires? = []

theorem Move.unguarded_iff {world : World σ ν} {move : Move σ ν} :
    move.Unguarded world ↔ move.world.guards = world.guards ∧
      move.frames.filterMap Frame.guard? = [] ∧ move.frames.filterMap Frame.expires? = [] :=
  ⟨fun ⟨guards, lent, expiring⟩ => ⟨guards, lent, expiring⟩,
    fun ⟨guards, lent, expiring⟩ => ⟨guards, lent, expiring⟩⟩

theorem Call.start_unguarded (world : World σ ν) {call : Call σ ν} (other : ¬ call.Guards) :
    Ensures (call.start world) (Move.Unguarded world) := by
  cases call
  case newGuard | dropThrough | releaseGuard | disarmGuard | forgetGuard => exact absurd trivial other
  all_goals simp only [start]
  case access =>
    split
    · unfold Accessor.frame
      split <;> simp [Move.unguarded_iff, Frame.guard?, Frame.expires?]
    · simp [Move.unguarded_iff]
  case dropAccessed | forgetAccessor | dispose | forgetParcel | matchKind =>
    split <;> simp [Move.unguarded_iff, Frame.guard?, Frame.expires?]
  all_goals
    simp [Move.unguarded_iff, Frame.guard?, Frame.expires?, World.addScope, World.addAccessor,
      World.addParcel, World.addRegistry]

theorem Task.step_unguarded (world : World σ ν) (id : ThreadId) {task : Task σ ν}
    (other : ∀ call, task = .start call → ¬ call.Guards) :
    Ensures (task.step world id) (Move.Unguarded world) := by
  cases task with
  | start call => exact call.start_unguarded world (other call rfl)
  | letGo handles exit =>
      rcases handles with - | ⟨s | sc, rest⟩ <;>
        simp [step, Move.unguarded_iff, Frame.guard?, Frame.expires?]
  | look | lookAgain | take | copyValue =>
      simp only [step, Ensures.whenFree_iff]
      split <;> simp [Move.unguarded_iff, Frame.guard?, Frame.expires?]
  | enter s =>
      simp only [step, Ensures.bind_iff, Ensures.ite_iff, Ensures.go_iff]
      intro entered action
      have same := world.guards_enterSlot action
      exact ⟨fun _ => ⟨same, rfl, rfl⟩, fun _ => ⟨same, rfl, rfl⟩⟩
  | copy s cloner => cases cloner <;> simp [step, Move.unguarded_iff]
  | sift selection error rest | links s error rest | handlers s error rest =>
      cases rest <;> simp [step, Move.unguarded_iff, Frame.guard?, Frame.expires?]
  | dispose droppable => cases droppable <;> simp [step, Move.unguarded_iff]
  | disposeAll rest failures =>
      cases rest <;> simp only [step, Ensures.push_iff, Ensures.answer_iff]
      · split <;> exact ⟨rfl, rfl, rfl⟩
      · exact ⟨rfl, rfl, rfl⟩
  | drain sc ran failures =>
      simp only [step]
      split <;> simp [Move.unguarded_iff]
  | batch sc rest ran failures =>
      rcases rest with - | ⟨⟨action, code | s⟩, rest⟩ <;>
        simp [step, Move.unguarded_iff, Frame.guard?, Frame.expires?]
  | _ => simp [step, Move.unguarded_iff, Frame.guard?, Frame.expires?]

theorem Frame.resume_unguarded (world : World σ ν) (exit : Exit) {frame : Frame σ ν}
    (other : frame.guard? = none) (kept : frame.expires? = none) :
    Ensures (frame.resume world exit) (Move.Unguarded world) := by
  cases frame with
  | through g | expiring g => contradiction
  | initializing s => simp [resume, Move.unguarded_iff]
  | linking | handling =>
      cases exit <;> simp only [resume]
      · split <;> simp [Move.unguarded_iff]
      · simp [Move.unguarded_iff]
  | getting | orNone | orElse =>
      simp only [resume]
      split <;> simp [Move.unguarded_iff, Frame.guard?, Frame.expires?]
  | reading announced =>
      cases exit <;> simp only [resume]
      · exact .configRead fun _ events _ => ⟨world.guards_emitAll events, rfl, rfl⟩
      · simp [Move.unguarded_iff]
  | _ => cases exit <;> simp [resume, Move.unguarded_iff, Frame.guard?, Frame.expires?]

/-! ## Steps -/

inductive Guard.Ending where
  | released
  | dropped
  | disarmed

namespace Guard.Ending

def call (g : GuardId) : Ending → Call σ ν
  | released => .releaseGuard g
  | dropped => .forgetGuard g
  | disarmed => .disarmGuard g

def disposes (droppable : Droppable σ ν) : Ending → Option (Droppable σ ν)
  | released | dropped => some droppable
  | disarmed => none

/-- The ending as it shows in what the call goes on with, which is nothing where the guard was not
there, and perhaps a droppable that is dropped. -/
def shown? (ending : Ending) : Control σ ν → Option (Ending × Option (Droppable σ ν))
  | .task (.finish (.returned .missing)) => none
  | .task (.dispose droppable) => some (ending, some droppable)
  | _ => some (ending, none)

end Guard.Ending

def Call.ending? (g : GuardId) : Call σ ν → Option Guard.Ending
  | releaseGuard h => if h = g then some .released else none
  | forgetGuard h => if h = g then some .dropped else none
  | disarmGuard h => if h = g then some .disarmed else none
  | _ => none

/-- The end of the guard that a step makes, and what the guard drops thereby: the end may be that of its
scope, where something is left to be dropped. -/
def Thread.ending? (g : GuardId) (world : World σ ν) (thread : Thread σ ν) :
    Option (Guard.Ending × Option (Droppable σ ν)) :=
  match thread.control, thread.stack, thread.step world with
  | .task (.start call), _, some (_, after) =>
      (call.ending? g).bind fun ending => ending.shown? after.control
  | .task (.finish _), .expiring h :: _, some (_, ⟨_, .task (.dispose droppable), _⟩) =>
      if h = g then some (.dropped, some droppable) else none
  | _, _, _ => none

/-- What a step does to the guards, and to the guards through which droppables are being dropped. -/
inductive Thread.Tends (world : World σ ν) (thread : Thread σ ν) (next : World σ ν)
    (after : Thread σ ν) : Prop
  | keeps (guards : next.guards = world.guards) (lent : after.lent = thread.lent)
      (expiring : after.expiring ⊆ thread.expiring) (unended : ∀ g, thread.ending? g world = none)
  | makes {droppable : Droppable σ ν}
      (guards : next.guards = world.guards.push { droppable := some droppable, held := true })
      (lent : after.lent = thread.lent) (expiring : after.expiring ⊆ thread.expiring)
      (unended : ∀ g, thread.ending? g world = none)
  | lends {g : GuardId} (held : (world.guard g).held = true)
      (guards : next.guards =
        (world.updateGuard g fun guard => { guard with uses := guard.uses + 1 }).guards)
      (lent : after.lent = g :: thread.lent) (expiring : after.expiring ⊆ thread.expiring)
      (unended : ∀ h, thread.ending? h world = none)
  | returns {g : GuardId}
      (guards : next.guards =
        (world.updateGuard g fun guard => { guard with uses := guard.uses - 1 }).guards)
      (lent : thread.lent = g :: after.lent) (expiring : after.expiring ⊆ thread.expiring)
      (unended : ∀ h, thread.ending? h world = none)
  | ends {g : GuardId} (ending : Guard.Ending) (held : (world.guard g).held = true)
      (unused : (world.guard g).uses = 0) (guards : next.guards = (world.endGuard g).guards)
      (lent : after.lent = thread.lent) (expiring : after.expiring ⊆ g :: thread.expiring)
      (others : ∀ h, h ≠ g → thread.ending? h world = none)
      (shown : ∀ droppable, (world.guard g).droppable = some droppable →
        thread.ending? g world = some (ending, ending.disposes droppable))
  | expires {g : GuardId} (guards : next.guards = (world.endGuard g).guards)
      (lent : after.lent = thread.lent) (expiring : thread.expiring = g :: after.expiring)
      (unended : (world.guard g).droppable = none → ∀ h, thread.ending? h world = none)

section
variable {world next : World σ ν} {thread after : Thread σ ν} {g : GuardId} {id : ThreadId}
  {stack : List (Frame σ ν)}

theorem Thread.ending?_of_step {call : Call σ ν}
    (action : Thread.step world ⟨id, .task (.start call), stack⟩ = some (next, after)) (g : GuardId) :
    Thread.ending? g world ⟨id, .task (.start call), stack⟩ =
      (call.ending? g).bind fun ending => ending.shown? after.control := by
  simp only [ending?, action]

theorem Thread.ending?_of_stuck (stuck : thread.step world = none) (g : GuardId) :
    thread.ending? g world = none := by
  unfold ending?
  rw [stuck]
  split <;> first | rfl | contradiction

def Thread.Guards (thread : Thread σ ν) : Prop :=
  (∃ call, thread.control = .task (.start call) ∧ call.Guards) ∨
    ∃ exit g rest, thread.control = .task (.finish exit) ∧ thread.stack = .expiring g :: rest

theorem Thread.ending?_eq_none (other : ¬ thread.Guards) (g : GuardId) :
    thread.ending? g world = none := by
  unfold ending?
  split
  · next call _ _ starts _ =>
      have other : ¬ call.Guards := fun guards => other (.inl ⟨call, starts, guards⟩)
      cases call <;> first | rfl | exact absurd trivial other
  · next exit h rest _ _ _ _ finishes expires _ =>
      exact absurd (.inr ⟨exit, h, rest, finishes, expires⟩) other
  · rfl

theorem Thread.lent_above {move : Move σ ν} {rest : List (Frame σ ν)}
    (frames : move.frames.filterMap Frame.guard? = []) :
    Thread.lent ⟨move.thread.getD id, move.control, move.frames ++ rest⟩ =
      rest.filterMap Frame.guard? := by
  rw [lent, List.filterMap_append, frames, List.nil_append]

theorem Thread.expiring_above {move : Move σ ν} {rest : List (Frame σ ν)}
    (frames : move.frames.filterMap Frame.expires? = []) :
    Thread.expiring ⟨move.thread.getD id, move.control, move.frames ++ rest⟩ =
      rest.filterMap Frame.expires? := by
  rw [expiring, List.filterMap_append, frames, List.nil_append]

theorem Thread.expiring_subset {move : Move σ ν} {rest : List (Frame σ ν)}
    (frames : move.frames.filterMap Frame.expires? = []) :
    Thread.expiring ⟨move.thread.getD id, move.control, move.frames ++ rest⟩ ⊆
      rest.filterMap Frame.expires? := by
  rw [expiring_above frames]
  exact List.Subset.refl _

theorem Move.Unguarded.of_bare {move : Move σ ν} (same : move.world = world)
    (frames : move.frames = []) : move.Unguarded world := by
  rw [unguarded_iff, same, frames]
  exact ⟨rfl, rfl, rfl⟩

theorem Move.Unguarded.tends {move : Move σ ν} {control : Control σ ν} (untouched : move.Unguarded world)
    (unended : ∀ g, Thread.ending? g world ⟨id, control, stack⟩ = none) :
    Thread.Tends world ⟨id, control, stack⟩ move.world
      ⟨move.thread.getD id, move.control, move.frames ++ stack⟩ :=
  .keeps untouched.guards (Thread.lent_above untouched.lent) (Thread.expiring_subset untouched.expiring)
    unended

theorem Guard.Ending.ending?_call (ending : Guard.Ending) (g h : GuardId) :
    (ending.call g : Call σ ν).ending? h = if g = h then some ending else none := by
  cases ending <;> rfl

/-- A guard ends only where it is there and nothing is being dropped through it. -/
inductive Move.Ends (world : World σ ν) (g : GuardId) (ending : Guard.Ending) (move : Move σ ν) : Prop
  | missing (same : move.world = world) (frames : move.frames = [])
      (control : move.control = .task (.finish (.returned .missing)))
  | ended (held : (world.guard g).held = true) (unused : (world.guard g).uses = 0)
      (guards : move.world.guards = (world.endGuard g).guards)
      (lent : move.frames.filterMap Frame.guard? = [])
      (expiring : move.frames.filterMap Frame.expires? ⊆ [g])
      (shown : ∀ droppable, (world.guard g).droppable = some droppable →
        ending.shown? move.control = some (ending, ending.disposes droppable))

theorem Guard.Ending.start_ends (ending : Guard.Ending) (world : World σ ν) (g : GuardId) :
    Ensures ((ending.call g).start world) (Move.Ends world g ending) := by
  cases ending <;> simp only [call, Call.start, Ensures.whenConsumable_iff, Bool.and_eq_true,
    decide_eq_true_eq, Guard.close]
  all_goals
    refine ⟨?_, fun _ => .missing rfl rfl rfl⟩
    rintro ⟨held, unused⟩
    cases found : (world.guard g).droppable with
    | none =>
        simp only [Ensures.push_iff, Ensures.go_iff]
        refine .ended held unused rfl rfl (by simp [Frame.expires?]) fun droppable some => ?_
        exact absurd (found.symm.trans some) (Option.some_ne_none droppable).symm
    | some droppable =>
        simp only [Ensures.push_iff]
        refine .ended held unused rfl rfl (by simp [List.filterMap, Frame.expires?]) fun _ some => ?_
        obtain rfl := Option.some.inj (found.symm.trans some)
        rfl

theorem Guard.Ending.tends {ending : Guard.Ending}
    (action : Thread.step world ⟨id, .task (.start (ending.call g)), stack⟩ = some (next, after)) :
    Thread.Tends world ⟨id, .task (.start (ending.call g)), stack⟩ next after := by
  have shows (h : GuardId) := Thread.ending?_of_step action h
  simp only [ending.ending?_call] at shows
  obtain ⟨move, made, rfl, rfl⟩ := Thread.step_task action nofun
  cases ending.start_ends world g move made with
  | missing same frames control =>
      refine Move.Unguarded.tends (.of_bare same frames) fun h => ?_
      rw [shows]
      split <;> simp [control, shown?]
  | ended held unused guards lent expiring shown =>
      refine .ends ending held unused guards (Thread.lent_above lent) ?_ (fun h other => ?_)
        fun droppable found => ?_
      · rw [Thread.expiring, List.filterMap_append]
        exact List.append_subset.mpr
          ⟨List.Subset.trans expiring (by simp), List.subset_cons_self _ _⟩
      · rw [shows, if_neg other.symm]
        rfl
      · rw [shows, if_pos rfl]
        exact shown droppable found

theorem Call.start_newGuard (world : World σ ν) (droppable : Droppable σ ν) :
    Ensures (Call.start world (.newGuard droppable)) fun move => move.frames = [] ∧
      ((move.world = world ∧ move.control = .task (.finish (.returned .missing))) ∨
        (move.world.guards = world.guards.push { droppable := some droppable, held := true } ∧
          move.control = .task (.finish (.returned (.object world.guards.size))))) := by
  simp [Call.start, World.addGuard]

theorem Thread.tends_newGuard {droppable : Droppable σ ν}
    (action : Thread.step world ⟨id, .task (.start (.newGuard droppable)), stack⟩ = some (next, after)) :
    Tends world ⟨id, .task (.start (.newGuard droppable)), stack⟩ next after := by
  have unended (h : GuardId) := Thread.ending?_of_step action h
  obtain ⟨move, made, rfl, rfl⟩ := Thread.step_task action nofun
  obtain ⟨frames, ⟨same, _⟩ | ⟨guards, _⟩⟩ := Call.start_newGuard world droppable move made
  · exact Move.Unguarded.tends (.of_bare same frames) unended
  · exact .makes guards (lent_above (by rw [frames]; rfl)) (expiring_subset (by rw [frames]; rfl)) unended

theorem Thread.step_newGuard {droppable : Droppable σ ν}
    (starts : thread.control = .task (.start (.newGuard droppable)))
    (answers : after.control = .task (.finish (.returned (.object g))))
    (action : thread.step world = some (next, after)) :
    g = world.guards.size ∧
      next.guards = world.guards.push { droppable := some droppable, held := true } ∧
      thread.ending? g world = none := by
  obtain ⟨id, control, stack⟩ := thread
  obtain rfl := starts
  have unended := Thread.ending?_of_step action g
  obtain ⟨move, made, rfl, rfl⟩ := Thread.step_task action nofun
  obtain ⟨_, ⟨_, control⟩ | ⟨guards, control⟩⟩ := Call.start_newGuard world droppable move made
  · exact absurd (control.symm.trans answers) nofun
  · have same := control.symm.trans answers
    simp only [Control.task.injEq, Task.finish.injEq, Exit.returned.injEq, Reply.object.injEq] at same
    exact ⟨same.symm, guards, unended⟩

theorem Thread.tends_dropThrough
    (action : Thread.step world ⟨id, .task (.start (.dropThrough g)), stack⟩ = some (next, after)) :
    Tends world ⟨id, .task (.start (.dropThrough g)), stack⟩ next after := by
  have unended (h : GuardId) := Thread.ending?_of_step action h
  obtain ⟨move, made, rfl, rfl⟩ := Thread.step_task action nofun
  have lends : Ensures (Call.start world (.dropThrough g)) fun move =>
      (move.world = world ∧ move.frames = []) ∨
      ((world.guard g).held = true ∧ move.frames = [.through g] ∧ move.world.guards =
        (world.updateGuard g fun guard => { guard with uses := guard.uses + 1 }).guards) := by
    simp only [Call.start, Ensures.ite_iff, Ensures.answer_iff]
    refine ⟨fun held => ?_, fun _ => .inl ⟨trivial, trivial⟩⟩
    split
    · rw [Ensures.push_iff]
      exact .inr ⟨held, rfl, rfl⟩
    · rw [Ensures.go_iff]
      exact .inl ⟨rfl, rfl⟩
  obtain ⟨same, frames⟩ | ⟨held, frames, guards⟩ := lends move made
  · exact Move.Unguarded.tends (.of_bare same frames) unended
  · exact .lends held guards (by rw [frames]; rfl) (expiring_subset (by rw [frames]; rfl)) unended

theorem Thread.tends_expiring {exit : Exit}
    (action : Thread.step world ⟨id, .task (.finish exit), .expiring g :: stack⟩ = some (next, after)) :
    Tends world ⟨id, .task (.finish exit), .expiring g :: stack⟩ next after := by
  have closes : Ensures (Frame.resume world exit (.expiring g)) fun move =>
      move.world.guards = (world.endGuard g).guards ∧ move.frames.filterMap Frame.guard? = [] ∧
        move.frames.filterMap Frame.expires? = [] ∧
        ((world.guard g).droppable = none → move.control = .task (.finish exit)) := by
    simp only [Frame.resume, Ensures.close_iff]
    refine ⟨fun disposed full => ⟨trivial, rfl, rfl, fun empty => ?_⟩,
      fun _ => ⟨trivial, rfl, rfl, fun _ => trivial⟩⟩
    rw [full] at empty
    contradiction
  obtain ⟨move, made, rfl, rfl⟩ := Thread.step_frame action
  obtain ⟨guards, lent, expiring, goesOn⟩ := closes move made
  refine .expires guards (Thread.lent_above lent) ?_ fun empty h => ?_
  · rw [expiring_above expiring]
    rfl
  · unfold ending?
    rw [action, goesOn empty]

theorem Thread.step_tends (action : thread.step world = some (next, after)) :
    thread.Tends world next after := by
  by_cases guarded : thread.Guards
  · obtain ⟨id, control, stack⟩ := thread
    rcases guarded with ⟨call, rfl, guards⟩ | ⟨exit, g, rest, rfl, rfl⟩
    · cases call
      case newGuard => exact tends_newGuard action
      case dropThrough => exact tends_dropThrough action
      case releaseGuard g => exact Guard.Ending.released.tends action
      case disarmGuard g => exact Guard.Ending.disarmed.tends action
      case forgetGuard g => exact Guard.Ending.dropped.tends action
      all_goals contradiction
    · exact tends_expiring action
  · have unended (g : GuardId) : thread.ending? g world = none := ending?_eq_none guarded g
    -- What starts no call on guards leaves them alone, unless it returns from a drop through one.
    refine step_rule (fun thread next after => ¬ thread.Guards →
      (∀ g, thread.ending? g world = none) → thread.Tends world next after) ?_ ?_ ?_ action guarded
      unended
    · intro id code stack move made _ unended
      cases code <;> obtain rfl := Option.some.inj made <;>
        exact .keeps rfl rfl (List.Subset.refl _) unended
    · intro id task stack move made other unended
      have untouched := task.step_unguarded world id
        (fun call same guards => other (.inl ⟨call, congrArg Control.task same, guards⟩)) move made
      exact untouched.tends unended
    · intro id exit frame stack move made other unended
      cases expires : frame.expires? with
      | some g =>
          cases frame <;> simp only [Frame.expires?, reduceCtorEq, Option.some.injEq] at expires
          exact absurd (.inr ⟨exit, _, stack, rfl, rfl⟩) other
      | none =>
          have stays : stack.filterMap Frame.expires? ⊆ (frame :: stack).filterMap Frame.expires? := by
            rw [List.filterMap_cons, expires]
            exact List.Subset.refl _
          cases lent : frame.guard? with
          | none =>
              have untouched := frame.resume_unguarded world exit lent expires move made
              refine .keeps untouched.guards ?_ ?_ unended
              · rw [lent_above untouched.lent, Thread.lent, List.filterMap_cons, lent]
              · rwa [expiring_above untouched.expiring]
          | some g =>
              cases frame <;> simp only [Frame.guard?, reduceCtorEq, Option.some.injEq] at lent
              subst lent
              obtain rfl := Option.some.inj made
              exact .returns rfl rfl stays unended

end

section
variable {world next : World σ ν} {thread after : Thread σ ν} {g : GuardId} {id : ThreadId}
  {stack : List (Frame σ ν)}

theorem World.guard_of_guards {guards : Table (Guard σ ν)} (same : next.guards = guards) (g : GuardId) :
    next.guard g = guards.get g := by
  rw [guard, same]

theorem World.guard_of_push {fresh : Guard σ ν} (same : next.guards = world.guards.push fresh)
    (h : GuardId) : next.guard h = if h = world.guards.size then fresh else world.guard h := by
  rw [guard, same, Table.get_push]
  rfl

theorem World.guard_of_update {change : Guard σ ν → Guard σ ν}
    (same : next.guards = (world.updateGuard g change).guards) (h : GuardId) :
    next.guard h = if g = h then change (world.guard h) else world.guard h := by
  rw [guard, same]
  exact world.guards.get_update g h change

theorem Thread.Tends.grows (tends : thread.Tends world next after) :
    world.guards.size ≤ next.guards.size := by
  cases tends with
  | keeps guards => exact Nat.le_of_eq (congrArg Table.size guards.symm)
  | makes guards =>
      rw [guards, Table.size_push]
      exact Nat.le_succ _
  | lends _ guards | returns guards | ends _ _ _ guards | expires guards =>
      rw [guards]
      exact Table.size_le_update ..

/-! ## Guards that have ended -/

/-- A guard that has ended is nobody's and has nothing. -/
structure World.Spent (world : World σ ν) (g : GuardId) : Prop where
  made : g < world.guards.size
  unheld : (world.guard g).held = false
  empty : (world.guard g).droppable = none

theorem World.guard_made (held : (world.guard g).held = true) : g < world.guards.size := by
  by_contra unmade
  rw [World.guard, Table.get, List.getElem?_eq_none (Nat.le_of_not_lt unmade)] at held
  contradiction

theorem World.Spent.of_end (held : (world.guard g).held = true)
    (guards : next.guards = (world.endGuard g).guards) : next.Spent g := by
  have now := World.guard_of_update guards g
  rw [if_pos rfl] at now
  refine ⟨Nat.lt_of_lt_of_le (World.guard_made held) ?_, congrArg Guard.held now,
    congrArg Guard.droppable now⟩
  rw [guards]
  exact Table.size_le_update ..

theorem World.Spent.congr (spent : world.Spent g) (made : g < next.guards.size)
    (held : (next.guard g).held = (world.guard g).held)
    (kept : (next.guard g).droppable = (world.guard g).droppable) : next.Spent g :=
  ⟨made, held.trans spent.unheld, kept.trans spent.empty⟩

theorem World.Spent.step (spent : world.Spent g) (tends : thread.Tends world next after) :
    next.Spent g := by
  have made := Nat.lt_of_lt_of_le spent.made tends.grows
  cases tends with
  | keeps guards =>
      have now := World.guard_of_guards guards g
      exact spent.congr made (congrArg Guard.held now) (congrArg Guard.droppable now)
  | makes guards =>
      have now := World.guard_of_push guards g
      rw [if_neg (Nat.ne_of_lt spent.made)] at now
      exact spent.congr made (congrArg Guard.held now) (congrArg Guard.droppable now)
  | lends _ guards | returns guards =>
      have now := World.guard_of_update guards g
      refine spent.congr made ?_ ?_ <;> rw [now] <;> split <;> rfl
  | ends _ _ _ guards | expires guards =>
      have now := World.guard_of_update guards g
      refine spent.congr made ?_ ?_ <;> rw [now] <;> split
      · exact spent.unheld.symm
      · rfl
      · exact spent.empty.symm
      · rfl

theorem World.Spent.reaches (spent : world.Spent g) (run : thread.Reaches world next after) :
    next.Spent g :=
  run.rule (fun world _ => world.Spent g)
    (fun _ _ _ _ spent action => spent.step (Thread.step_tends action)) spent

theorem Thread.step_expiring {exit : Exit} (empty : (world.guard g).droppable = none) :
    Thread.step world ⟨id, .task (.finish exit), .expiring g :: stack⟩ =
      some (world.endGuard g, ⟨id, .task (.finish exit), stack⟩) := by
  simp only [Thread.step, Frame.resume, empty]
  rfl

/-! ## Guards in order -/

/-- A guard is lent out as often as droppables are being dropped through it, has a droppable as long as it
is there, and is spent where its scope is about to end. -/
structure Thread.Tended (world : World σ ν) (thread : Thread σ ν) : Prop where
  lent : ∀ g, (world.guard g).uses = thread.lent.count g
  armed : ∀ g, (world.guard g).held = (world.guard g).droppable.isSome
  spent : ∀ g ∈ thread.expiring, world.Spent g

theorem Thread.Tends.spent (tends : thread.Tends world next after)
    (spent : ∀ g ∈ thread.expiring, world.Spent g) : ∀ g ∈ after.expiring, next.Spent g := by
  have stays : ∀ g ∈ thread.expiring, next.Spent g := fun g member => (spent g member).step tends
  cases tends with
  | keeps _ _ expiring | makes _ _ expiring | lends _ _ _ expiring | returns _ _ expiring =>
      exact fun g member => stays g (expiring member)
  | expires _ _ expiring =>
      rw [expiring] at stays
      exact fun g member => stays g (.tail _ member)
  | ends ending held _ guards _ expiring =>
      intro h member
      rcases List.mem_cons.mp (expiring member) with rfl | earlier
      · exact .of_end held guards
      · exact stays h earlier

theorem Thread.Tended.step (tended : thread.Tended world) (tends : thread.Tends world next after) :
    after.Tended next := by
  have spent := tends.spent tended.spent
  cases tends with
  | keeps guards lent =>
      have now := World.guard_of_guards guards
      exact ⟨fun h => by rw [now, lent]; exact tended.lent h, fun h => by rw [now]; exact tended.armed h,
        spent⟩
  | makes guards lent =>
      have now := World.guard_of_push guards
      -- Nothing can be dropped through a guard before it is made.
      have fresh := tended.lent world.guards.size
      rw [World.guard, Table.get_size] at fresh
      refine ⟨fun h => ?_, fun h => ?_, spent⟩ <;> rw [now] <;> split
      · next new => rw [lent, new, ← fresh]; rfl
      · rw [lent]; exact tended.lent h
      · rfl
      · exact tended.armed h
  | lends held guards lent =>
      have now := World.guard_of_update guards
      refine ⟨fun h => ?_, fun h => ?_, spent⟩ <;> rw [now] <;> split
      · next same => rw [lent, same, List.count_cons_self, ← tended.lent]
      · next other => rw [lent, List.count_cons_of_ne other, ← tended.lent]
      · exact tended.armed h
      · exact tended.armed h
  | returns guards lent =>
      have now := World.guard_of_update guards
      have counted := tended.lent
      rw [lent] at counted
      refine ⟨fun h => ?_, fun h => ?_, spent⟩ <;> rw [now] <;> split
      · next same => simp only [same, counted, List.count_cons_self, Nat.add_sub_cancel]
      · next other => rw [counted, List.count_cons_of_ne other]
      · exact tended.armed h
      · exact tended.armed h
  | ends _ _ _ guards lent | expires guards lent =>
      have now := World.guard_of_update guards
      refine ⟨fun h => ?_, fun h => ?_, spent⟩ <;> rw [now] <;> split
      · rw [lent]; exact tended.lent h
      · rw [lent]; exact tended.lent h
      · rfl
      · exact tended.armed h

theorem Thread.Tended.advance (memory : σ) (id : ThreadId) (code : Code σ ν) (steps : Nat) :
    (Thread.advance steps { memory } (.ofCode id code)).2.Tended
      (Thread.advance steps { memory } (.ofCode id code)).1 :=
  advance_rule (fun world thread => thread.Tended world)
    (fun _ _ _ _ tended action => tended.step (step_tends action))
    ⟨fun _ => rfl, fun _ => rfl, fun _ member => absurd member List.not_mem_nil⟩ steps

end

end Relinquish
