import Relinquish.Proofs.Ledger

/-!
What a step can do to the conditions of slots and to the ledger. A thread is in a stage of getting,
dropping or copying a value, and its stack holds the initializers and cloners that are running; the
stage, and the end of the code on top of the stack, decide what a step may change.
-/

namespace Relinquish

variable {σ ν : Type}

/-- How far a thread is in getting, dropping or copying a slot's value. -/
inductive Stage where
  | idle
  | entered (slot : SlotId)
  | vacant (slot : SlotId)
  | carrying (slot : SlotId) (value : Value)
  | storing (slot : SlotId) (value : Value)
  | late (slot : SlotId) (value : Value)
  | taking (slot : SlotId)
  | copying (copy : SlotId)
  | delivering (copy : SlotId)
  deriving DecidableEq

def Task.stage : Task σ ν → Stage
  | lookAgain s => .entered s
  | produce s => .vacant s
  | lockValue s value | confirm s value => .carrying s value
  | store s value => .storing s value
  | unlockValue _ next | leave _ next => next.stage
  | releaseLate s value => .late s value
  | take s => .taking s
  | copyValue _ made _ => .copying made
  | deliver made => .delivering made
  | _ => .idle

def Task.MakesCopy (task : Task σ ν) : Prop :=
  ∃ s cloner, task = copy s cloner

def Control.stage : Control σ ν → Stage
  | .code _ => .idle
  | .task work => work.stage

inductive Pause where
  | initializing (slot : SlotId)
  | cloning (copy : SlotId)
  deriving DecidableEq

def Frame.pause? : Frame σ ν → Option Pause
  | initializing s => some (.initializing s)
  | cloning copy => some (.cloning copy)
  | _ => none

def Thread.pauses (thread : Thread σ ν) : List Pause :=
  thread.stack.filterMap Frame.pause?

structure World.Alike (world next : World σ ν) : Prop where
  condition : ∀ s, next.condition s = world.condition s
  ledger : next.ledger = world.ledger
  values : world.values ≤ next.values

structure World.Alters (world next : World σ ν) (s : SlotId) (condition : Condition)
    (deeds : List Deed) (made : Nat) : Prop where
  condition : ∀ t, next.condition t = if s = t then condition else world.condition t
  ledger : next.ledger = deeds ++ world.ledger
  values : next.values = world.values + made

/-- What a step may do that leads from one stage to another, ending the code above one pause and
running code above others; `makes` says whether it makes a copy of a slot, and `runs` which code it
goes on with. -/
inductive Effect (world next : World σ ν) (makes : Prop) (runs : Code σ ν → Prop) :
    Stage → Option Pause → Stage → List Pause → Prop
  | quiet {stage : Stage} (same : world.Alike next) : Effect world next makes runs stage none stage []
  | entered {s : SlotId} (same : world.Alike next)
      (free : (world.condition s).initializing = false) :
      Effect world next makes runs .idle none (.entered s) []
  | found {s : SlotId} (same : world.Alike next) : Effect world next makes runs (.entered s) none .idle []
  | vacant {s : SlotId} (same : world.Alike next) (empty : (world.condition s).value = none) :
      Effect world next makes runs (.entered s) none (.vacant s) []
  | refused {s : SlotId} (same : world.Alike next) (dropped : (world.condition s).dropped = true) :
      Effect world next makes runs (.vacant s) none .idle []
  | began {s : SlotId} (code : runs (world.slot s).initializer)
      (undropped : (world.condition s).dropped = false)
      (change : world.Alters next s { world.condition s with initializing := true } [.began s] 0) :
      Effect world next makes runs (.vacant s) none .idle [.initializing s]
  | failed {s : SlotId}
      (change : world.Alters next s { world.condition s with initializing := false } [.ended s] 0) :
      Effect world next makes runs .idle (some (.initializing s)) .idle []
  | produced {s : SlotId} {value : Value} (fresh : value.id = world.values)
      (change : world.Alters next s { world.condition s with initializing := false }
        [.produced s value, .ended s] 1) :
      Effect world next makes runs .idle (some (.initializing s)) (.carrying s value) []
  | confirmed {s : SlotId} {value : Value} (same : world.Alike next)
      (undropped : (world.condition s).dropped = false) :
      Effect world next makes runs (.carrying s value) none (.storing s value) []
  | overtaken {s : SlotId} {value : Value} (same : world.Alike next)
      (dropped : (world.condition s).dropped = true) :
      Effect world next makes runs (.carrying s value) none (.late s value) []
  | stored {s : SlotId} {value : Value}
      (change : world.Alters next s { world.condition s with value := some value } [] 0) :
      Effect world next makes runs (.storing s value) none .idle []
  | released {s : SlotId} {value : Value} (code : runs ((world.slot s).release value))
      (change : world.Alters next s (world.condition s) [.handed s value] 0) :
      Effect world next makes runs (.late s value) none .idle []
  | swapped {s : SlotId} (undropped : (world.condition s).dropped = false)
      (change : world.Alters next s { world.condition s with dropped := true } [] 0) :
      Effect world next makes runs .idle none (.taking s) []
  | took {s : SlotId} {value : Value} (code : runs ((world.slot s).release value))
      (held : (world.condition s).value = some value)
      (change : world.Alters next s { world.condition s with value := none } [.handed s value] 0) :
      Effect world next makes runs (.taking s) none .idle []
  | missed {s : SlotId} (same : world.Alike next) (empty : (world.condition s).value = none) :
      Effect world next makes runs (.taking s) none .idle []
  | discarded {s : SlotId} {value : Value} (gone : next.unheld (.slot s) = true)
      (held : (world.condition s).value = some value)
      (change : world.Alters next s { world.condition s with value := none }
        [.warned s, .lost s value] 0) :
      Effect world next makes runs .idle none .idle []
  | copied {stage : Stage} (source : makes) (same : world.Alike next)
      (made : stage = .copying world.slots.size ∨ stage = .delivering world.slots.size) :
      Effect world next makes runs .idle none stage []
  | cloning {copy : SlotId} (same : world.Alike next) :
      Effect world next makes runs (.copying copy) none .idle [.cloning copy]
  | nothing {copy : SlotId} (same : world.Alike next) :
      Effect world next makes runs (.copying copy) none (.delivering copy) []
  | cloned {copy : SlotId} {value : Value} (fresh : value.id = world.values)
      (change : world.Alters next copy { world.condition copy with value := some value }
        [.cloned copy value] 1) :
      Effect world next makes runs .idle (some (.cloning copy)) (.delivering copy) []
  | uncloned {copy : SlotId} (same : world.Alike next) :
      Effect world next makes runs .idle (some (.cloning copy)) .idle []
  | delivered {copy : SlotId} (same : world.Alike next) :
      Effect world next makes runs (.delivering copy) none .idle []

def Move.Affects (world : World σ ν) (makes : Prop) (stage : Stage) (ended : Option Pause)
    (move : Move σ ν) : Prop :=
  Effect world move.world makes (fun code => move.control = .code code) stage ended
    move.control.stage (move.frames.filterMap Frame.pause?)

theorem Code.step_affects (world : World σ ν) (id : ThreadId) (code : Code σ ν) :
    Ensures (code.step world id) (Move.Affects world False .idle none) := by
  cases code <;> simp only [step, Ensures.answer_iff, Ensures.go_iff, Ensures.run_iff,
    Ensures.push_iff, Ensures.some_iff] <;>
    exact .quiet ⟨fun _ => rfl, rfl, Nat.le_refl _⟩

theorem World.Alike.refl (world : World σ ν) : world.Alike world :=
  ⟨fun _ => rfl, rfl, Nat.le_refl _⟩

structure Move.Calm (world : World σ ν) (move : Move σ ν) : Prop where
  alike : world.Alike move.world
  idle : move.control.stage = .idle
  unpaused : move.frames.filterMap Frame.pause? = []

theorem Move.Calm.affects {world : World σ ν} {move : Move σ ν} (calm : move.Calm world)
    (makes : Prop) : move.Affects world makes .idle none := by
  unfold Affects
  rw [calm.idle, calm.unpaused]
  exact .quiet calm.alike

theorem World.alike_iff (world next : World σ ν) :
    world.Alike next ↔
      (∀ s, next.condition s = world.condition s) ∧ next.ledger = world.ledger ∧
        world.values ≤ next.values :=
  ⟨fun same => ⟨same.condition, same.ledger, same.values⟩, fun ⟨c, l, v⟩ => ⟨c, l, v⟩⟩

theorem Move.calm_iff (world : World σ ν) (move : Move σ ν) :
    move.Calm world ↔
      world.Alike move.world ∧ move.control.stage = .idle ∧
        move.frames.filterMap Frame.pause? = [] :=
  ⟨fun calm => ⟨calm.alike, calm.idle, calm.unpaused⟩, fun ⟨a, i, u⟩ => ⟨a, i, u⟩⟩

theorem Call.start_calm (world : World σ ν) (call : Call σ ν) :
    Ensures (call.start world) (Move.Calm world) := by
  cases call <;> simp only [start]
  case access =>
    split
    · unfold Accessor.frame
      split <;>
        simp [Move.calm_iff, World.alike_iff, Control.stage, Task.stage, Frame.pause?]
    · simp [Move.calm_iff, World.alike_iff, Control.stage, Task.stage]
  case dropAccessed | forgetAccessor | dispose | forgetParcel | matchKind =>
    split <;> simp [Move.calm_iff, World.alike_iff, Control.stage, Task.stage, Frame.pause?]
  case dropThrough | releaseGuard | disarmGuard | forgetGuard =>
    simp only [Ensures.whenConsumable_iff, Ensures.ite_iff, Guard.close]
    split <;>
      simp [Move.calm_iff, World.alike_iff, Control.stage, Task.stage, Frame.pause?,
        World.updateGuard, World.addParcel]
  all_goals
    simp [Move.calm_iff, World.alike_iff, Control.stage, Task.stage, Frame.pause?, Mark.deed?,
      Slot.condition, World.addScope, World.addAccessor, World.addGuard, World.addParcel,
      World.addRegistry, World.adopt, World.addAction]

theorem Task.letGo_affects (world : World σ ν) (id : ThreadId) (handles : List Handle)
    (exit : Exit) :
    Ensures ((letGo handles exit).step world id)
      (Move.Affects world (letGo handles exit : Task σ ν).MakesCopy .idle none) := by
  have same (handle : Handle) : world.Alike (world.relinquish handle) := by
    simp [World.alike_iff]
  refine .letGo (fun _ => .quiet (.refl world)) (fun handle _ _ _ => .quiet (same handle)) ?_
    fun sc _ _ => .quiet (same (.scope sc))
  rintro s rest rfl gone
  have same := same (.slot s)
  unfold World.discardSlot
  split
  · next value held =>
      have held : (world.condition s).value = some value := by
        rw [← same.condition s]
        exact held
      refine .discarded ?_ held ⟨fun t => ?_, by simp [Mark.deed?], by simp⟩
      · simpa [World.unheld] using gone
      · rw [← same.condition s, ← same.condition t]
        exact World.condition_change _ s t _
  · exact .quiet same

theorem Task.step_affects (world : World σ ν) (id : ThreadId) (task : Task σ ν) :
    Ensures (task.step world id) (Move.Affects world task.MakesCopy task.stage none) := by
  cases task with
  | start call => exact (call.start_calm world).imp fun _ calm => calm.affects _
  | letGo handles exit => exact letGo_affects world id handles exit
  | look s =>
      simp only [step, Ensures.whenFree_iff]
      intro _
      split <;> simp only [Ensures.answer_iff, Ensures.go_iff] <;> exact .quiet (.refl world)
  | enter s =>
      simp only [step, Ensures.bind_iff, Ensures.ite_iff, Ensures.go_iff, Bool.not_eq_true]
      intro entered action
      have same : world.Alike entered :=
        ⟨world.condition_enterSlot action, world.ledger_congr (world.history_enterSlot action),
          Nat.le_of_eq (world.values_enterSlot action).symm⟩
      refine ⟨fun _ => .quiet same, fun free => .entered same ?_⟩
      rw [← same.condition s]
      exact free
  | lookAgain s =>
      simp only [step, Ensures.whenFree_iff]
      intro _
      split <;> simp only [Ensures.go_iff]
      · exact .found (.refl world)
      · next empty => exact .vacant (.refl world) empty
  | produce s =>
      simp only [step, Ensures.ite_iff, Ensures.go_iff, Ensures.run_iff, Bool.not_eq_true]
      exact ⟨fun dropped => .refused (.refl world) dropped, fun undropped => .began rfl undropped
        ⟨fun t => world.condition_change s t _, by simp [Mark.deed?], rfl⟩⟩
  | lockValue s value =>
      simp only [step, Ensures.whenFree_iff, Ensures.go_iff]
      exact fun _ => .quiet ⟨fun _ => rfl, rfl, Nat.le_refl _⟩
  | confirm s value =>
      simp only [step, Ensures.ite_iff, Ensures.go_iff, Bool.not_eq_true]
      exact ⟨fun dropped => .overtaken (.refl world) dropped,
        fun undropped => .confirmed (.refl world) undropped⟩
  | store s value =>
      simp only [step, Ensures.go_iff]
      exact .stored ⟨fun t => world.condition_change s t _, by simp [Mark.deed?], rfl⟩
  | releaseLate s value =>
      simp only [step, Ensures.run_iff]
      exact .released rfl ⟨by simp, by simp [Mark.deed?], rfl⟩
  | swap s =>
      simp only [step, Ensures.ite_iff, Ensures.go_iff, Ensures.endDrop_iff, Bool.not_eq_true]
      exact ⟨fun _ => .quiet ⟨fun _ => rfl, by simp [Mark.deed?], Nat.le_refl _⟩,
        fun undropped => .swapped undropped ⟨fun t => world.condition_change s t _, rfl, rfl⟩⟩
  | take s =>
      simp only [step, Ensures.whenFree_iff]
      intro _
      split
      · next value held =>
          simp only [Ensures.run_iff]
          exact .took (by simp) held ⟨fun t => world.condition_change s t _, by simp [Mark.deed?], rfl⟩
      · next empty =>
          simp only [Ensures.endDrop_iff]
          exact .missed ⟨fun _ => rfl, by simp [Mark.deed?], Nat.le_refl _⟩ empty
  | copy s cloner =>
      have same : world.Alike (world.copySlot s).1 := by
        simp [World.alike_iff]
      simp only [step, Ensures.whenFree_iff]
      intro _
      cases cloner with
      | none =>
          rw [Ensures.go_iff]
          exact .copied ⟨s, _, rfl⟩ same (.inr rfl)
      | some cloner =>
          rw [Ensures.go_iff]
          exact .copied ⟨s, _, rfl⟩ same (.inl rfl)
  | copyValue s made cloner =>
      simp only [step, Ensures.whenFree_iff]
      intro _
      split
      · simp only [Ensures.run_iff]
        exact .cloning (.refl world)
      · simp only [Ensures.go_iff]
        exact .nothing (.refl world)
  | deliver made =>
      simp only [step, Ensures.answer_iff]
      exact .delivered ⟨by simp [World.handOver, Slot.condition], rfl, Nat.le_refl _⟩
  | sift selection error rest places =>
      refine Ensures.imp ?_ fun _ calm => Move.Calm.affects calm _
      cases rest <;>
        simp [step, Move.calm_iff, World.alike_iff, Control.stage, Task.stage, Frame.pause?,
          Mark.deed?]
  | finish exit => simp [step]
  | leave s following =>
      simp only [step, Ensures.go_iff]
      exact .quiet ⟨by simp [World.leaveSlot, Slot.condition], rfl, Nat.le_refl _⟩
  | unlockValue s following =>
      simp only [step, Ensures.go_iff]
      exact .quiet ⟨fun _ => rfl, rfl, Nat.le_refl _⟩
  | consult selection error =>
      simp only [step, Ensures.whenFree_iff, Ensures.go_iff]
      exact fun _ => .quiet ⟨fun _ => rfl, rfl, Nat.le_refl _⟩
  | links s error rest callbacks failures =>
      cases rest <;> simp only [step, Ensures.go_iff, Ensures.push_iff]
      · exact .quiet (.refl world)
      · exact .quiet ⟨fun _ => rfl, by simp [Mark.deed?], Nat.le_refl _⟩
  | handlers s error rest failures =>
      cases rest <;> simp only [step, Ensures.answer_iff, Ensures.run_iff]
      · exact .quiet (.refl world)
      · exact .quiet ⟨fun _ => rfl, by simp [Mark.deed?], Nat.le_refl _⟩
  | dispose droppable =>
      cases droppable <;>
        simp only [step, Ensures.answer_iff, Ensures.run_iff, Ensures.go_iff] <;>
        exact .quiet (.refl world)
  | disposeAll rest failures =>
      cases rest <;> simp only [step, Ensures.answer_iff, Ensures.push_iff]
      · split
        · exact .quiet (.refl world)
        · exact .quiet ⟨fun _ => rfl, by simp [Mark.deed?], Nat.le_refl _⟩
      · exact .quiet (.refl world)
  | drain sc ran failures =>
      simp only [step]
      split <;> simp only [Ensures.go_iff] <;> exact .quiet ⟨fun _ => rfl, rfl, Nat.le_refl _⟩
  | batch sc rest ran failures =>
      cases rest with
      | nil =>
          simp only [step, Ensures.go_iff]
          exact .quiet (.refl world)
      | cons action rest =>
          have same : world.Alike (world.act (.started sc action.id)) :=
            ⟨fun _ => rfl, by simp [Mark.deed?], Nat.le_refl _⟩
          simp only [step]
          split <;> simp only [Ensures.run_iff, Ensures.push_iff] <;> exact .quiet same
  | report sc ran failures =>
      simp only [step, Ensures.answer_iff]
      exact .quiet ⟨by simp, World.ledger_emitAll _ (List.forall_mem_map.mpr fun _ _ => rfl),
        by simp⟩

theorem Frame.resume_calm (world : World σ ν) (exit : Exit) (frame : Frame σ ν)
    (unpaused : frame.pause? = none) : Ensures (frame.resume world exit) (Move.Calm world) := by
  cases frame
  case initializing | cloning => contradiction
  case linking | handling =>
    cases exit <;> simp only [resume]
    · split <;>
        simp [Move.calm_iff, World.alike_iff, Control.stage, Task.stage, Mark.deed?]
    · simp [Move.calm_iff, World.alike_iff, Control.stage, Task.stage]
  case getting | orNone | orElse =>
    simp only [resume]
    split <;>
      simp [Move.calm_iff, World.alike_iff, Control.stage, Task.stage, pause?, Mark.deed?]
  case reading announced =>
    cases exit <;> simp only [resume]
    · refine .configRead fun _ events told => ?_
      have silent : (world.emitAll events).ledger = world.ledger :=
        world.ledger_emitAll fun event member => by
          obtain ⟨policy, rfl⟩ | ⟨error, rfl⟩ := told event member <;> rfl
      simp [Move.calm_iff, World.alike_iff, Control.stage, Task.stage, silent]
    · simp [Move.calm_iff, World.alike_iff, Control.stage, Task.stage]
  case closing sc outcome =>
    cases exit with
    | panicked payload => simp [resume, Move.calm_iff, World.alike_iff, Control.stage, Task.stage]
    | returned reply =>
        have silent : (world.emitAll (outcome.unwindingEvents sc reply.teardown?)).ledger =
            world.ledger := world.ledger_emitAll
              (outcome.unwindingEvents_silent (fun _ _ => rfl) sc _)
        simp [resume, Move.calm_iff, World.alike_iff, Control.stage, Task.stage, silent]
  case releasingLate | vanishing | guarding =>
    cases exit with
    | panicked payload => simp [resume, Move.calm_iff, World.alike_iff, Control.stage, Task.stage]
    | returned reply =>
        cases failed : reply.error? <;>
          simp [resume, Move.calm_iff, World.alike_iff, Control.stage, Task.stage, failed,
            World.emitAll, Mark.deed?]
  all_goals
    cases exit <;>
      simp [resume, Move.calm_iff, World.alike_iff, Control.stage, Task.stage, pause?, Mark.deed?]

theorem Frame.resume_affects (world : World σ ν) (makes : Prop) (exit : Exit)
    (frame : Frame σ ν) :
    Ensures (frame.resume world exit) (Move.Affects world makes .idle frame.pause?) := by
  cases unpaused : frame.pause? with
  | none =>
      exact (frame.resume_calm world exit unpaused).imp fun _ calm => calm.affects _
  | some pause =>
      cases frame <;> simp only [pause?, reduceCtorEq, Option.some.injEq] at unpaused
      case initializing s =>
        subst unpaused
        simp only [resume, Ensures.initializerEnded_iff]
        refine ⟨fun _ _ => ?_, fun _ _ => ⟨fun _ _ => ?_, fun _ => ?_⟩⟩
        · exact .failed ⟨fun t => world.condition_change s t _, by simp [Mark.deed?], rfl⟩
        · exact .failed ⟨fun t => world.condition_change s t _, by simp [Mark.deed?], rfl⟩
        · exact .produced rfl ⟨fun t => world.condition_change s t _, by simp [Mark.deed?], rfl⟩
      case cloning copy =>
        subst unpaused
        cases exit <;> simp only [resume, Ensures.go_iff]
        · exact .cloned rfl ⟨fun t => world.condition_change copy t _, by simp [Mark.deed?], rfl⟩
        · exact .uncloned (.refl world)

def Thread.ended? (thread : Thread σ ν) : Option Pause :=
  match thread.control, thread.stack with
  | .task (.finish _), frame :: _ => frame.pause?
  | _, _ => none

def Thread.MakesCopy (thread : Thread σ ν) : Prop :=
  match thread.control with
  | .code _ => False
  | .task work => work.MakesCopy

theorem Thread.step_affects {world next : World σ ν} {thread after : Thread σ ν}
    (action : thread.step world = some (next, after)) :
    ∃ pushed rest,
      thread.pauses = thread.ended?.toList ++ rest ∧ after.pauses = pushed ++ rest ∧
      Effect world next thread.MakesCopy (fun code => after.control = .code code)
        thread.control.stage thread.ended? after.control.stage pushed := by
  refine step_rule (fun thread next after => ∃ pushed rest,
    thread.pauses = thread.ended?.toList ++ rest ∧ after.pauses = pushed ++ rest ∧
    Effect world next thread.MakesCopy (fun code => after.control = .code code)
      thread.control.stage thread.ended? after.control.stage pushed) ?_ ?_ ?_ action
  · intro id code stack move made
    exact ⟨move.frames.filterMap Frame.pause?, stack.filterMap Frame.pause?, rfl,
      List.filterMap_append, code.step_affects world id move made⟩
  · intro id task stack move made
    have unended : Thread.ended? ⟨id, .task task, stack⟩ = none := by
      cases task <;> first | rfl | contradiction
    rw [unended]
    exact ⟨move.frames.filterMap Frame.pause?, stack.filterMap Frame.pause?, rfl,
      List.filterMap_append, task.step_affects world id move made⟩
  · intro id exit frame stack move made
    refine ⟨move.frames.filterMap Frame.pause?, stack.filterMap Frame.pause?, ?_,
      List.filterMap_append, frame.resume_affects world _ exit move made⟩
    simp only [pauses, List.filterMap_cons, ended?]
    cases frame.pause? <;> rfl

end Relinquish
