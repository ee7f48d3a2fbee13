import Relinquish.Proofs.Runs
import Relinquish.Proofs.Writes

/-!
Locks. A thread takes locks and gives them back in turn, so that a run restores the locks that it
found; and while the lock of a registry is held, the registry stays as it is.
-/

namespace Relinquish

variable {σ ν : Type}

/-! ## The locks that a thread has -/

def Task.locks : Task σ ν → List Lock
  | sift selection _ _ _ => [selection.lock]
  | confirm s _ | store s _ => [.value s]
  | unlockValue s next => .value s :: next.locks
  | leave _ next => next.locks
  | _ => []

def Control.locks : Control σ ν → List Lock
  | code _ => []
  | task work => work.locks

def Frame.locks : Frame σ ν → List Lock
  | judging selection _ _ _ _ => [selection.lock]
  | _ => []

def Thread.locks (thread : Thread σ ν) : List Lock :=
  thread.control.locks ++ thread.stack.flatMap Frame.locks

theorem Selection.lock_ne (selection : Selection σ ν) (s : SlotId) : selection.lock ≠ .value s := by
  cases selection <;> exact nofun

theorem Frame.value_unlocked (frame : Frame σ ν) (s : SlotId) : .value s ∉ frame.locks := by
  cases frame with
  | judging selection error place rest places =>
      exact fun locked => selection.lock_ne s (List.mem_singleton.mp locked).symm
  | _ => exact List.not_mem_nil

def Move.locks (move : Move σ ν) : List Lock :=
  move.control.locks ++ move.frames.flatMap Frame.locks

/-- What a step of a thread does to the locks, between those that are held before and after it. -/
inductive Latches (id : ThreadId) (world next : World σ ν) : List Lock → List Lock → Prop
  | keeps {held : List Lock} (same : next.locks = world.locks) : Latches id world next held held
  | takes {held : List Lock} {lock : Lock} (free : world.free lock = true)
      (taken : next.locks = (lock, id) :: world.locks) : Latches id world next held (lock :: held)
  | gives {held : List Lock} {lock : Lock} (given : next.locks = (world.unlock lock).locks) :
      Latches id world next (lock :: held) held

theorem Latches.append {id : ThreadId} {world next : World σ ν} {before after : List Lock}
    (latches : Latches id world next before after) (rest : List Lock) :
    Latches id world next (before ++ rest) (after ++ rest) := by
  cases latches with
  | keeps same => exact .keeps same
  | takes free taken => exact .takes free taken
  | gives given => exact .gives given

/-! ## Steps -/

def Move.Latched (world : World σ ν) (held : List Lock) (move : Move σ ν) : Prop :=
  move.world.locks = world.locks ∧ move.locks = held

theorem Move.Latched.latches {world : World σ ν} {held : List Lock} {move : Move σ ν}
    (latched : move.Latched world held) (id : ThreadId) :
    Latches id world move.world held move.locks := by
  rw [latched.2]
  exact .keeps latched.1

namespace World

variable (world : World σ ν)

@[simp] theorem locks_act (act : Act) : (world.act act).locks = world.locks := rfl

@[simp] theorem locks_emit (event : Event) : (world.emit event).locks = world.locks := rfl

@[simp] theorem locks_updateSlot (s : SlotId) (change : Slot σ ν → Slot σ ν) :
    (world.updateSlot s change).locks = world.locks := rfl

@[simp] theorem locks_updateScope (sc : ScopeId) (change : Scope σ ν → Scope σ ν) :
    (world.updateScope sc change).locks = world.locks := rfl

@[simp] theorem locks_updateGuard (g : GuardId) (change : Guard σ ν → Guard σ ν) :
    (world.updateGuard g change).locks = world.locks := rfl

@[simp] theorem locks_makeSlot (release : Value → Code σ ν) (initializer : Code σ ν) :
    (world.makeSlot release initializer).1.locks = world.locks := rfl

@[simp] theorem locks_makeValue (content : String) :
    (world.makeValue content).1.locks = world.locks := rfl

@[simp] theorem locks_retain (handle : Handle) : (world.retain handle).locks = world.locks := by
  cases handle <;> rfl

@[simp] theorem locks_retainAll (handles : List Handle) :
    (world.retainAll handles).locks = world.locks :=
  world.foldl_same (·.locks) retain locks_retain handles

@[simp] theorem locks_surrender (handle : Handle) :
    (world.surrender handle).locks = world.locks := by
  cases handle <;> rfl

@[simp] theorem locks_relinquish (handle : Handle) :
    (world.relinquish handle).locks = world.locks := by
  cases handle <;> rfl

@[simp] theorem locks_actAll (acts : List Act) : (world.actAll acts).locks = world.locks :=
  world.foldl_same (·.locks) act (fun _ _ => rfl) acts

@[simp] theorem locks_emitAll (events : List Event) :
    (world.emitAll events).locks = world.locks :=
  world.foldl_same (·.locks) emit (fun _ _ => rfl) events

@[simp] theorem locks_discardPending (sc : ScopeId) :
    (world.discardPending sc).locks = world.locks := by
  simp [discardPending_eq]

@[simp] theorem locks_discardSlot (s : SlotId) : (world.discardSlot s).locks = world.locks := by
  unfold discardSlot
  split <;> rfl

@[simp] theorem locks_copySlot (s : SlotId) : (world.copySlot s).1.locks = world.locks := by
  simp [copySlot, addSlot]

theorem locks_enterSlot {entered : World σ ν} {s : SlotId} {id : ThreadId}
    (action : world.enterSlot s id = some entered) : entered.locks = world.locks := by
  obtain ⟨depth, _, rfl⟩ := world.enterSlot_eq action
  rfl

end World

theorem Call.start_latched (world : World σ ν) (call : Call σ ν) :
    Ensures (call.start world) (Move.Latched world []) := by
  cases call <;> simp only [start]
  case access =>
    split
    · unfold Accessor.frame
      split <;> simp [Move.Latched, Move.locks, Control.locks, Task.locks, Frame.locks]
    · simp [Move.Latched, Move.locks, Control.locks, Task.locks]
  case dropAccessed | forgetAccessor | dispose | forgetParcel | matchKind =>
    split <;> simp [Move.Latched, Move.locks, Control.locks, Task.locks, Frame.locks]
  case dropThrough | releaseGuard | disarmGuard | forgetGuard =>
    simp only [Ensures.whenConsumable_iff, Ensures.ite_iff, Guard.close]
    split <;>
      simp [Move.Latched, Move.locks, Control.locks, Task.locks, Frame.locks, World.addParcel]
  all_goals
    simp [Move.Latched, Move.locks, Control.locks, Task.locks, Frame.locks, World.addScope,
      World.addAccessor, World.addGuard, World.addParcel, World.addRegistry, World.adopt,
      World.addAction]

theorem Task.step_latches (world : World σ ν) (id : ThreadId) (task : Task σ ν) :
    Ensures (task.step world id) fun move => Latches id world move.world task.locks move.locks := by
  cases task with
  | start call => exact (call.start_latched world).imp fun _ latched => latched.latches id
  | consult selection error =>
      simp only [step, Ensures.whenFree_iff, Ensures.go_iff]
      exact fun free => .takes (free _ (.head _)) rfl
  | sift selection error rest places =>
      cases rest <;> simp only [step, Ensures.proceed_iff, Ensures.ask_iff]
      · exact ⟨fun _ _ => .gives rfl, fun _ _ _ => .gives rfl, fun _ _ => .gives rfl⟩
      · exact ⟨fun _ => .keeps rfl, fun _ => .keeps rfl, fun _ _ => .keeps rfl⟩
  | lockValue s value =>
      simp only [step, Ensures.whenFree_iff, Ensures.go_iff]
      exact fun free => .takes (free _ (.head _)) rfl
  | unlockValue s following =>
      simp only [step, Ensures.go_iff, Move.locks, List.flatMap_nil, List.append_nil]
      exact .gives rfl
  | leave s following =>
      simp only [step, Ensures.go_iff, Move.locks, List.flatMap_nil, List.append_nil]
      exact .keeps rfl
  | confirm s value =>
      simp only [step, Ensures.ite_iff, Ensures.go_iff]
      exact ⟨fun _ => .keeps rfl, fun _ => .keeps rfl⟩
  | store s value =>
      simp only [step, Ensures.go_iff]
      exact .keeps rfl
  | enter s =>
      simp only [step, Ensures.bind_iff, Ensures.ite_iff, Ensures.go_iff]
      intro entered action
      have same := world.locks_enterSlot action
      exact ⟨fun _ => .keeps same, fun _ => .keeps same⟩
  | letGo handles exit =>
      refine .letGo (fun _ => .keeps rfl) (fun handle _ _ _ => .keeps (world.locks_relinquish handle))
        (fun s _ _ _ => .keeps ?_) fun sc _ _ => .keeps (world.locks_relinquish (.scope sc))
      exact (World.locks_discardSlot _ s).trans (world.locks_relinquish (.slot s))
  | look s | lookAgain s | take s | copy s cloner | copyValue s made cloner =>
      simp only [step, Ensures.whenFree_iff]
      intro _
      split <;> simp only [Ensures.go_iff, Ensures.run_iff, Ensures.answer_iff, Ensures.endDrop_iff] <;>
        exact .keeps (by simp)
  | links s error rest | handlers s error rest | disposeAll rest =>
      cases rest <;>
        simp only [step, Ensures.go_iff, Ensures.push_iff, Ensures.run_iff, Ensures.answer_iff] <;>
        refine .keeps ?_ <;> first | rfl | (split <;> rfl)
  | dispose droppable =>
      cases droppable <;> simp only [step, Ensures.go_iff, Ensures.run_iff, Ensures.answer_iff] <;>
        exact .keeps rfl
  | drain sc ran failures =>
      simp only [step]
      split <;> simp only [Ensures.go_iff] <;> exact .keeps rfl
  | batch sc rest ran failures =>
      cases rest with
      | nil =>
          simp only [step, Ensures.go_iff]
          exact .keeps rfl
      | cons action rest =>
          simp only [step]
          split <;> simp only [Ensures.run_iff, Ensures.push_iff] <;> exact .keeps rfl
  | finish exit => simp [step]
  | produce s | swap s =>
      simp only [step, Ensures.ite_iff, Ensures.go_iff, Ensures.run_iff, Ensures.endDrop_iff]
      exact ⟨fun _ => .keeps rfl, fun _ => .keeps rfl⟩
  | releaseLate s value | deliver made | report sc ran failures =>
      simp only [step, Ensures.run_iff, Ensures.answer_iff]
      exact .keeps (by simp [World.handOver])

theorem Frame.resume_latches (world : World σ ν) (id : ThreadId) (exit : Exit) (frame : Frame σ ν) :
    Ensures (frame.resume world exit) fun move =>
      Latches id world move.world frame.locks move.locks := by
  cases frame with
  | judging selection error place rest places =>
      cases exit with
      | returned reply =>
          simp only [resume, Ensures.go_iff]
          exact .keeps rfl
      | panicked payload =>
          simp only [resume, Ensures.go_iff]
          exact .gives rfl
  | initializing s =>
      simp only [resume, Ensures.initializerEnded_iff]
      exact ⟨fun _ _ => .keeps rfl, fun _ _ => ⟨fun _ _ => .keeps rfl, fun _ => .keeps rfl⟩⟩
  | linking s error rest callbacks failures | handling s error rest failures =>
      cases exit <;> simp only [resume]
      · split <;> rw [Ensures.go_iff] <;> exact .keeps rfl
      · rw [Ensures.go_iff]
        exact .keeps rfl
  | getting use | orNone s | orElse s fallback | expiring g =>
      simp only [resume, Guard.close]
      split <;> simp only [Ensures.go_iff, Ensures.run_iff, Ensures.push_iff, Ensures.answer_iff] <;>
        exact .keeps rfl
  | reading announced =>
      cases exit <;> simp only [resume]
      · exact .configRead fun _ events _ => .keeps (world.locks_emitAll events)
      · rw [Ensures.go_iff]
        exact .keeps rfl
  | closing sc outcome | releasingLate s value | vanishing sc rest outcome | guarding g =>
      cases exit <;> simp only [resume, Ensures.go_iff, Ensures.answer_iff] <;>
        exact .keeps (by simp)
  | _ =>
      cases exit <;>
        simp only [resume, Ensures.go_iff, Ensures.run_iff, Ensures.push_iff, Ensures.answer_iff,
          Ensures.some_iff, Ensures.endDrop_iff] <;>
        exact .keeps (by simp)

theorem Code.step_latches (world : World σ ν) (id : ThreadId) (code : Code σ ν) :
    Ensures (code.step world id) fun move => Latches id world move.world [] move.locks := by
  intro move made
  cases code <;> simp only [step] at made <;> obtain rfl := Option.some.inj made <;> exact .keeps rfl

theorem Thread.step_latches {world next : World σ ν} {thread after : Thread σ ν}
    (action : thread.step world = some (next, after)) :
    Latches thread.id world next thread.locks after.locks := by
  refine step_rule (fun thread next after => Latches thread.id world next thread.locks after.locks)
    ?_ ?_ ?_ action
  · intro id code stack move made
    have latches := (code.step_latches world id move made).append (stack.flatMap Frame.locks)
    simpa [Thread.locks, Move.locks, Control.locks] using latches
  · intro id task stack move made
    have latches := (task.step_latches world id move made).append (stack.flatMap Frame.locks)
    simpa [Thread.locks, Move.locks, Control.locks] using latches
  · intro id exit frame stack move made
    have latches := (frame.resume_latches world id exit move made).append (stack.flatMap Frame.locks)
    simpa [Thread.locks, Move.locks, Control.locks, Task.locks] using latches

/-! ## Registries -/

/-- Registries only grow: what is registered keeps its place. -/
structure World.Grows (world next : World σ ν) : Prop where
  made : world.slots.size ≤ next.slots.size
  links : ∀ s < world.slots.size, (world.slot s).links.entries <+: (next.slot s).links.entries
  handlers : ∀ s < world.slots.size,
    (world.slot s).handlers.entries <+: (next.slot s).handlers.entries

theorem World.Grows.refl (world : World σ ν) : world.Grows world :=
  ⟨Nat.le_refl _, fun _ _ => List.prefix_refl _, fun _ _ => List.prefix_refl _⟩

theorem World.Grows.trans {world middle next : World σ ν} (first : world.Grows middle)
    (second : middle.Grows next) : world.Grows next := by
  refine ⟨Nat.le_trans first.made second.made, fun s made => ?_, fun s made => ?_⟩
  · exact (first.links s made).trans (second.links s (Nat.lt_of_lt_of_le made first.made))
  · exact (first.handlers s made).trans (second.handlers s (Nat.lt_of_lt_of_le made first.made))

theorem World.Grows.register_link (world : World σ ν) (s : SlotId) (kind : Kind σ ν)
    (droppable : Droppable σ ν) :
    world.Grows (world.updateSlot s fun slot =>
      { slot with links := slot.links.register kind droppable }) := by
  refine ⟨Table.size_le_update world.slots s _, fun t _ => ?_, fun t _ => ?_⟩
  · rw [World.slot_updateSlot]
    split
    · exact List.prefix_append _ _
    · exact List.prefix_refl _
  · rw [World.slot_updateSlot]
    split <;> exact List.prefix_refl _

theorem World.Grows.register_handler (world : World σ ν) (s : SlotId) (kind : Kind σ ν)
    (handler : Error → Code σ ν) :
    world.Grows (world.updateSlot s fun slot =>
      { slot with handlers := slot.handlers.register kind handler }) := by
  refine ⟨Table.size_le_update world.slots s _, fun t _ => ?_, fun t _ => ?_⟩
  · rw [World.slot_updateSlot]
    split <;> exact List.prefix_refl _
  · rw [World.slot_updateSlot]
    split
    · exact List.prefix_append _ _
    · exact List.prefix_refl _

structure World.Preserves (world next : World σ ν) : Prop extends world.Grows next where
  linksKept : ∀ s < world.slots.size, world.free (.links s) = false →
    (next.slot s).links = (world.slot s).links
  handlersKept : ∀ s < world.slots.size, world.free (.handlers s) = false →
    (next.slot s).handlers = (world.slot s).handlers

structure World.Retains (world next : World σ ν) : Prop where
  made : world.slots.size ≤ next.slots.size
  links : ∀ s < world.slots.size, (next.slot s).links = (world.slot s).links
  handlers : ∀ s < world.slots.size, (next.slot s).handlers = (world.slot s).handlers

namespace World.Retains

variable {world middle next : World σ ν}

theorem grows (retains : world.Retains next) : world.Grows next := by
  refine ⟨retains.made, fun s made => ?_, fun s made => ?_⟩
  · exact (congrArg Registry.entries (retains.links s made)).symm ▸ List.prefix_refl _
  · exact (congrArg Registry.entries (retains.handlers s made)).symm ▸ List.prefix_refl _

theorem preserves (retains : world.Retains next) : world.Preserves next where
  toGrows := retains.grows
  linksKept s made _ := retains.links s made
  handlersKept s made _ := retains.handlers s made

theorem of_slots (same : next.slots = world.slots) : world.Retains next := by
  have slot (s : SlotId) : next.slot s = world.slot s := by rw [World.slot, same, World.slot]
  refine ⟨Nat.le_of_eq (by rw [same]), ?_, ?_⟩ <;> intro s _ <;> rw [slot]

theorem refl (world : World σ ν) : world.Retains world :=
  .of_slots rfl

theorem trans (first : world.Retains middle) (second : middle.Retains next) :
    world.Retains next := by
  refine ⟨Nat.le_trans first.made second.made, ?_, ?_⟩
  · intro s made
    rw [second.links s (Nat.lt_of_lt_of_le made first.made), first.links s made]
  · intro s made
    rw [second.handlers s (Nat.lt_of_lt_of_le made first.made), first.handlers s made]

theorem act (world : World σ ν) (act : Act) : world.Retains (world.act act) :=
  .of_slots rfl

theorem updateSlot (world : World σ ν) (s : SlotId) {change : Slot σ ν → Slot σ ν}
    (links : ∀ slot, (change slot).links = slot.links)
    (handlers : ∀ slot, (change slot).handlers = slot.handlers) :
    world.Retains (world.updateSlot s change) := by
  refine ⟨Table.size_le_update world.slots s change, ?_, ?_⟩
  · intro t _
    rw [slot_updateSlot]
    split
    · exact links _
    · rfl
  · intro t _
    rw [slot_updateSlot]
    split
    · exact handlers _
    · rfl

theorem addSlot (world : World σ ν) (slot : Slot σ ν) : world.Retains (world.addSlot slot).1 := by
  refine ⟨?_, ?_, ?_⟩
  · rw [World.addSlot, Table.size_push]
    exact Nat.le_succ _
  · intro s made
    rw [slot_addSlot, if_neg (Nat.ne_of_lt made)]
  · intro s made
    rw [slot_addSlot, if_neg (Nat.ne_of_lt made)]

theorem retain (world : World σ ν) (handle : Handle) : world.Retains (world.retain handle) := by
  cases handle with
  | slot s => exact .updateSlot world s (fun _ => rfl) fun _ => rfl
  | scope sc => exact .of_slots rfl

theorem retainAll (world : World σ ν) (handles : List Handle) :
    world.Retains (world.retainAll handles) :=
  List.foldlRecOn handles World.retain (refl world) fun next earlier handle _ =>
    earlier.trans (retain next handle)

theorem emitAll (world : World σ ν) (events : List Event) : world.Retains (world.emitAll events) :=
  .of_slots (world.foldl_same (·.slots) World.emit (fun _ _ => rfl) events)

end World.Retains

theorem World.Preserves.retains {world middle next : World σ ν} (first : world.Preserves middle)
    (second : middle.Retains next) : world.Preserves next where
  toGrows := first.toGrows.trans second.grows
  linksKept s made held :=
    (second.links s (Nat.lt_of_lt_of_le made first.made)).trans (first.linksKept s made held)
  handlersKept s made held :=
    (second.handlers s (Nat.lt_of_lt_of_le made first.made)).trans (first.handlersKept s made held)

theorem World.Writes.preserves {world next : World σ ν} (writes : world.Writes next) :
    world.Preserves next := by
  induction writes with
  | refl => exact (Retains.refl world).preserves
  | rest _ slots _ _ ih => exact ih.retains (.of_slots slots)
  | slot _ s _ links handlers ih => exact ih.retains (.updateSlot _ s links handlers)
  | addSlot _ slot ih => exact ih.retains (.addSlot _ slot)
  | scope _ _ _ _ ih | addScope _ _ ih => exact ih.retains (.of_slots rfl)
  | link _ s kind droppable free ih =>
      refine ⟨ih.toGrows.trans (.register_link _ s kind droppable), fun t made held => ?_,
        fun t made held => ?_⟩
      · rw [slot_updateSlot]
        split
        · next equal =>
            -- Registering waits for the lock, which therefore nobody holds.
            rw [← equal, free] at held
            contradiction
        · exact ih.linksKept t made held
      · rw [slot_updateSlot]
        split <;> exact ih.handlersKept t made held
  | handler _ s kind handler free ih =>
      refine ⟨ih.toGrows.trans (.register_handler _ s kind handler), fun t made held => ?_,
        fun t made held => ?_⟩
      · rw [slot_updateSlot]
        split <;> exact ih.linksKept t made held
      · rw [slot_updateSlot]
        split
        · next equal =>
            rw [← equal, free] at held
            contradiction
        · exact ih.handlersKept t made held

theorem Thread.step_preserves {world next : World σ ν} {thread after : Thread σ ν}
    (action : thread.step world = some (next, after)) : world.Preserves next := by
  refine step_rule (fun _ next _ => world.Preserves next) ?_ ?_ ?_ action
  · intro id code stack move made
    have retains : world.Retains move.world := by
      cases code <;> simp only [Code.step] at made <;> obtain rfl := Option.some.inj made <;>
        exact .of_slots rfl
    exact retains.preserves
  · intro id task stack move made
    exact (task.step_writes world id move made).preserves
  · intro id exit frame stack move made
    exact (frame.resume_writes world exit move made).preserves

/-! ## Runs -/

/-- Of the locks that are free by the base, a thread has taken the ones that it holds, each once. -/
structure Orderly (base : Lock → Prop) (world : World σ ν) (held : List Lock) : Prop where
  free : ∀ lock, world.free lock = true ↔ base lock ∧ lock ∉ held
  distinct : held.Nodup
  taken : ∀ lock ∈ held, base lock

namespace World

variable {world next : World σ ν}

theorem free_congr (same : next.locks = world.locks) (lock : Lock) :
    next.free lock = world.free lock := by
  rw [free, same, free]

theorem free_of_taken {taken : Lock} {id : ThreadId} (locks : next.locks = (taken, id) :: world.locks)
    (lock : Lock) : next.free lock = true ↔ taken ≠ lock ∧ world.free lock = true := by
  simp [free, locks]

theorem free_of_given {given : Lock} (locks : next.locks = (world.unlock given).locks)
    (lock : Lock) : next.free lock = true ↔ given = lock ∨ world.free lock = true := by
  rw [free_congr locks]
  by_cases equal : given = lock
  · subst equal
    simp [free_unlock]
  · have kept : ∀ held : Lock × ThreadId, held.1 = lock → held.1 ≠ given := by
      rintro held rfl
      exact fun same => equal same.symm
    simp only [equal, false_or, free, unlock, List.all_filter, List.all_eq_true, Bool.or_eq_true,
      Bool.not_eq_true', decide_eq_true_eq, decide_eq_false_iff_not, not_not]
    constructor
    · intro all held member same
      rcases all held member with gone | other
      · exact kept held same gone
      · exact other same
    · exact fun all held member => .inr (all held member)

end World

theorem Latches.held {id : ThreadId} {world next : World σ ν} {before after : List Lock}
    (latches : Latches id world next before after) {lock : Lock} (held : next.free lock = false) :
    lock ∈ after ∨ world.free lock = false ∧ lock ∉ before := by
  by_cases owns : lock ∈ after
  · exact .inl owns
  rw [← Bool.not_eq_true] at held ⊢
  cases latches with
  | keeps same => exact .inr ⟨World.free_congr same lock ▸ held, owns⟩
  | takes _ taken =>
      rw [World.free_of_taken taken] at held
      obtain ⟨apart, free⟩ := not_or.mp (mt List.mem_cons.mpr owns)
      exact .inr ⟨fun unheld => held ⟨Ne.symm apart, unheld⟩, free⟩
  | gives given =>
      rw [World.free_of_given given, not_or] at held
      exact .inr ⟨held.2, mt List.mem_cons.mp (not_or.mpr ⟨Ne.symm held.1, owns⟩)⟩

theorem Orderly.latch {base : Lock → Prop} {id : ThreadId} {world next : World σ ν}
    {before after : List Lock} (orderly : Orderly base world before)
    (latches : Latches id world next before after) :
    Orderly base next after := by
  obtain ⟨free, distinct, taken⟩ := orderly
  cases latches with
  | keeps same =>
      refine ⟨fun lock => ?_, distinct, taken⟩
      rw [World.free_congr same, free]
  | @takes _ lock unheld locks =>
      have fresh := (free lock).mp unheld
      refine ⟨fun other => ?_, List.nodup_cons.mpr ⟨fresh.2, distinct⟩, ?_⟩
      · rw [World.free_of_taken locks, free, List.mem_cons, not_or]
        exact ⟨fun ⟨apart, free, unheld⟩ => ⟨free, Ne.symm apart, unheld⟩,
          fun ⟨free, apart, unheld⟩ => ⟨Ne.symm apart, free, unheld⟩⟩
      · exact List.forall_mem_cons.mpr ⟨fresh.1, taken⟩
  | @gives _ lock given =>
      obtain ⟨gone, distinct⟩ := List.nodup_cons.mp distinct
      obtain ⟨unheld, taken⟩ := List.forall_mem_cons.mp taken
      refine ⟨fun other => ?_, distinct, taken⟩
      rw [World.free_of_given given, free, List.mem_cons, not_or]
      constructor
      · rintro (rfl | ⟨free, _, unheld⟩)
        · exact ⟨unheld, gone⟩
        · exact ⟨free, unheld⟩
      · intro ⟨free, unheld⟩
        by_cases equal : lock = other
        · exact .inl equal
        · exact .inr ⟨free, fun same => equal same.symm, unheld⟩

/-- What a run leaves as it found it: slots stay, and with them the registries of which the locks
are held by others. -/
structure Restores (first : World σ ν) (world : World σ ν) (held : List Lock) : Prop where
  orderly : Orderly (fun lock => first.free lock = true) world held
  preserves : first.Preserves world

theorem Restores.step {first world next : World σ ν} {thread after : Thread σ ν}
    (restores : Restores first world thread.locks)
    (action : thread.step world = some (next, after)) : Restores first next after.locks := by
  obtain ⟨orderly, preserves⟩ := restores
  have steps := Thread.step_preserves action
  have held (lock : Lock) (held : first.free lock = false) : world.free lock = false := by
    rw [← Bool.not_eq_true, orderly.free]
    simp [held]
  refine ⟨orderly.latch (Thread.step_latches action), preserves.toGrows.trans steps.toGrows, ?_, ?_⟩
  · intro s made locked
    rw [steps.linksKept s (Nat.lt_of_lt_of_le made preserves.made) (held _ locked)]
    exact preserves.linksKept s made locked
  · intro s made locked
    rw [steps.handlersKept s (Nat.lt_of_lt_of_le made preserves.made) (held _ locked)]
    exact preserves.handlersKept s made locked

theorem Restores.refl (world : World σ ν) : Restores world world [] :=
  ⟨⟨by simp, .nil, by simp⟩, (World.Retains.refl world).preserves⟩

theorem Thread.Reaches.restores {world next : World σ ν} {thread after : Thread σ ν}
    (run : Reaches world thread next after) (unlocked : thread.locks = []) :
    Restores world next after.locks := by
  refine run.rule (fun next after => Restores world next after.locks)
    (fun _ _ _ _ restores action => restores.step action) ?_
  rw [unlocked]
  exact .refl world

theorem Restores.free {first world : World σ ν} (restores : Restores first world []) (lock : Lock) :
    world.free lock = first.free lock := by
  rw [Bool.eq_iff_iff, restores.orderly.free]
  simp

theorem Restores.trans {first middle last : World σ ν} (before : Restores first middle [])
    (after : Restores middle last []) : Restores first last [] := by
  have free (lock : Lock) : last.free lock = first.free lock :=
    (after.free lock).trans (before.free lock)
  have made {s : SlotId} (made : s < first.slots.size) : s < middle.slots.size :=
    Nat.lt_of_lt_of_le made before.preserves.made
  refine ⟨⟨by simp [free], .nil, by simp⟩,
    before.preserves.toGrows.trans after.preserves.toGrows, ?_, ?_⟩
  · intro s old held
    rw [after.preserves.linksKept s (made old) ((before.free _).trans held)]
    exact before.preserves.linksKept s old held
  · intro s old held
    rw [after.preserves.handlersKept s (made old) ((before.free _).trans held)]
    exact before.preserves.handlersKept s old held

end Relinquish
