import Relinquish.Step
import Relinquish.World.Lemmas
import Mathlib.Tactic.Common

/-!
What the changes that steps are made of do to the history, to the counters and to the condition of
slots. Counting holds and handles changes none of them.
-/

namespace Relinquish

variable {σ ν : Type}

/-- What getting and dropping a slot's value read and write. -/
structure Condition where
  dropped : Bool := false
  value : Option Value := none
  initializing : Bool := false
  deriving DecidableEq

def Slot.condition (slot : Slot σ ν) : Condition :=
  { dropped := slot.dropped, value := slot.value, initializing := slot.initializing }

def World.condition (world : World σ ν) (s : SlotId) : Condition :=
  (world.slot s).condition

theorem Table.size_le_updateAt {α : Type} [Inhabited α] (change : α → α) (i : Nat)
    (objects : List α) : objects.length ≤ (updateAt change i objects).length := by
  induction i generalizing objects with
  | zero => cases objects <;> simp [updateAt]
  | succ i ih =>
      cases objects with
      | nil => simp [updateAt]
      | cons object rest => simpa [updateAt] using ih rest

theorem Table.size_le_update {α : Type} [Inhabited α] (table : Table α) (i : Nat)
    (change : α → α) : table.size ≤ (table.update i change).size :=
  size_le_updateAt change i table.entries

theorem Table.length_updateAt {α : Type} [Inhabited α] (change : α → α) (i : Nat) (objects : List α)
    (known : i < objects.length) : (updateAt change i objects).length = objects.length := by
  induction i generalizing objects with
  | zero =>
      cases objects with
      | nil => contradiction
      | cons object rest => rfl
  | succ i ih =>
      cases objects with
      | nil => contradiction
      | cons object rest =>
          simp only [updateAt, List.length_cons]
          rw [ih rest (Nat.lt_of_succ_lt_succ known)]

theorem Table.size_update {α : Type} [Inhabited α] {table : Table α} {i : Nat} (known : i < table.size)
    (change : α → α) : (table.update i change).size = table.size :=
  length_updateAt change i table.entries known

theorem Table.updateAt_updateAt {α : Type} [Inhabited α] (first second : α → α) (i : Nat)
    (objects : List α) :
    updateAt second i (updateAt first i objects) =
      updateAt (fun object => second (first object)) i objects := by
  induction i generalizing objects with
  | zero => cases objects <;> rfl
  | succ i ih =>
      cases objects with
      | nil => exact congrArg _ (ih [])
      | cons object rest => exact congrArg _ (ih rest)

theorem Table.updateAt_self {α : Type} [Inhabited α] {change : α → α} {i : Nat} {objects : List α}
    (known : i < objects.length) (same : change objects[i] = objects[i]) :
    updateAt change i objects = objects := by
  induction i generalizing objects with
  | zero =>
      cases objects with
      | nil => contradiction
      | cons object rest => exact congrArg (· :: rest) same
  | succ i ih =>
      cases objects with
      | nil => contradiction
      | cons object rest => exact congrArg _ (ih (Nat.lt_of_succ_lt_succ known) same)

namespace World

variable (world : World σ ν)

theorem updateSlot_updateSlot (s : SlotId) (first second : Slot σ ν → Slot σ ν) :
    (world.updateSlot s first).updateSlot s second =
      world.updateSlot s fun slot => second (first slot) := by
  simp only [updateSlot, Table.update, Table.updateAt_updateAt]

theorem updateSlot_self {s : SlotId} {change : Slot σ ν → Slot σ ν} (made : s < world.slots.size)
    (same : change (world.slot s) = world.slot s) : world.updateSlot s change = world := by
  have found : world.slot s = world.slots.entries[s] := by
    rw [slot, Table.get, List.getElem?_eq_getElem made, Option.getD_some]
  rw [found] at same
  rw [updateSlot, Table.update, Table.updateAt_self made same]

theorem enterSlot_eq {entered : World σ ν} {s : SlotId} {id : ThreadId}
    (action : world.enterSlot s id = some entered) :
    ∃ depth, ((world.slot s).entered = none ∧ depth = 0 ∨
        (world.slot s).entered = some (id, depth)) ∧
      entered = world.updateSlot s fun slot => { slot with entered := some (id, depth + 1) } := by
  unfold enterSlot at action
  split at action
  · next empty => exact ⟨0, .inl ⟨empty, rfl⟩, (Option.some.inj action).symm⟩
  · next owner depth occupied =>
      split at action
      · next own =>
          subst own
          exact ⟨depth, .inr occupied, (Option.some.inj action).symm⟩
      · contradiction

theorem discardPending_eq (sc : ScopeId) :
    world.discardPending sc =
      ((world.updateScope sc fun scope => { scope with pending := [] }).actAll
        ((world.scope sc).pending.map fun action => .discarded sc action.id)).emitAll
          (if (world.scope sc).pending.isEmpty then []
            else [.scopeReset sc (world.scope sc).pending.length]) := by
  unfold discardPending
  simp only
  split <;> rfl

/-! ## History and counters -/

@[simp] theorem history_emit (event : Event) :
    (world.emit event).history = .event event :: world.history := rfl

@[simp] theorem history_act (act : Act) :
    (world.act act).history = .act act :: world.history := rfl

@[simp] theorem history_retain (handle : Handle) :
    (world.retain handle).history = world.history := by
  cases handle <;> rfl

@[simp] theorem history_retainAll (handles : List Handle) :
    (world.retainAll handles).history = world.history :=
  world.foldl_same (·.history) retain history_retain handles

@[simp] theorem history_surrender (handle : Handle) :
    (world.surrender handle).history = world.history := by
  cases handle <;> rfl

@[simp] theorem history_relinquish (handle : Handle) :
    (world.relinquish handle).history = world.history := by
  cases handle <;> rfl

@[simp] theorem history_makeSlot (release : Value → Code σ ν) (initializer : Code σ ν) :
    (world.makeSlot release initializer).1.history = world.history := rfl

theorem history_enterSlot {entered : World σ ν} {s : SlotId} {id : ThreadId}
    (action : world.enterSlot s id = some entered) : entered.history = world.history := by
  obtain ⟨depth, _, rfl⟩ := world.enterSlot_eq action
  rfl

@[simp] theorem values_emit (event : Event) : (world.emit event).values = world.values := rfl

@[simp] theorem values_act (act : Act) : (world.act act).values = world.values := rfl

@[simp] theorem values_updateSlot (s : SlotId) (change : Slot σ ν → Slot σ ν) :
    (world.updateSlot s change).values = world.values := rfl

@[simp] theorem values_updateScope (sc : ScopeId) (change : Scope σ ν → Scope σ ν) :
    (world.updateScope sc change).values = world.values := rfl

@[simp] theorem values_retain (handle : Handle) :
    (world.retain handle).values = world.values := by
  cases handle <;> rfl

@[simp] theorem values_retainAll (handles : List Handle) :
    (world.retainAll handles).values = world.values :=
  world.foldl_same (·.values) retain values_retain handles

@[simp] theorem values_surrender (handle : Handle) :
    (world.surrender handle).values = world.values := by
  cases handle <;> rfl

@[simp] theorem values_relinquish (handle : Handle) :
    (world.relinquish handle).values = world.values := by
  cases handle <;> rfl

@[simp] theorem values_makeSlot (release : Value → Code σ ν) (initializer : Code σ ν) :
    (world.makeSlot release initializer).1.values = world.values := rfl

@[simp] theorem values_makeValue (content : String) :
    (world.makeValue content).1.values = world.values + 1 := rfl

@[simp] theorem values_unlock (lock : Lock) : (world.unlock lock).values = world.values := rfl

@[simp] theorem values_updateGuard (g : GuardId) (change : Guard σ ν → Guard σ ν) :
    (world.updateGuard g change).values = world.values := rfl

@[simp] theorem values_actAll (acts : List Act) :
    (world.actAll acts).values = world.values :=
  world.foldl_same (·.values) act (fun _ _ => rfl) acts

@[simp] theorem values_emitAll (events : List Event) :
    (world.emitAll events).values = world.values :=
  world.foldl_same (·.values) emit (fun _ _ => rfl) events

@[simp] theorem values_discardPending (sc : ScopeId) :
    (world.discardPending sc).values = world.values := by
  simp [discardPending_eq]

@[simp] theorem values_copySlot (s : SlotId) :
    (world.copySlot s).1.values = world.values := by
  simp [copySlot, addSlot]

theorem values_enterSlot {entered : World σ ν} {s : SlotId} {id : ThreadId}
    (action : world.enterSlot s id = some entered) : entered.values = world.values := by
  obtain ⟨depth, _, rfl⟩ := world.enterSlot_eq action
  rfl

/-! ## The condition of slots -/

@[simp] theorem condition_fields (t : SlotId) :
    (⟨(world.slot t).dropped, (world.slot t).value, (world.slot t).initializing⟩ : Condition) =
      world.condition t := rfl

@[simp] theorem condition_updateSlot (s t : SlotId) (change : Slot σ ν → Slot σ ν) :
    (world.updateSlot s change).condition t =
      if s = t then (change (world.slot t)).condition else world.condition t := by
  unfold condition
  rw [slot_updateSlot]
  split <;> rfl

theorem condition_change (s t : SlotId) (change : Slot σ ν → Slot σ ν) :
    (world.updateSlot s change).condition t =
      if s = t then (change (world.slot s)).condition else world.condition t := by
  rw [condition_updateSlot]
  split
  · next equal => rw [equal]
  · rfl

theorem condition_addSlot {slot : Slot σ ν} (fresh : slot.condition = {}) (t : SlotId) :
    (world.addSlot slot).1.condition t = world.condition t := by
  unfold condition
  rw [slot_addSlot]
  split
  · next equal =>
      rw [equal, World.slot, Table.get_size]
      exact fresh
  · rfl

@[simp] theorem condition_makeSlot (release : Value → Code σ ν) (initializer : Code σ ν)
    (t : SlotId) : (world.makeSlot release initializer).1.condition t = world.condition t :=
  world.condition_addSlot rfl t

@[simp] theorem condition_mk (memory : σ) (scopes : Table (Scope σ ν))
    (accessors : Table (Option (Accessor σ ν))) (guards : Table (Guard σ ν))
    (parcels : Table (Option (Droppable σ ν))) (registries : Table (Registry σ ν Int))
    (locks : List (Lock × ThreadId)) (values actions threads : Nat) (history : List (Mark ν))
    (t : SlotId) :
    condition
      ⟨memory, world.slots, scopes, accessors, guards, parcels, registries, locks, values, actions,
        threads, history⟩ t = world.condition t := rfl

@[simp] theorem condition_makeValue (content : String) (t : SlotId) :
    (world.makeValue content).1.condition t = world.condition t := rfl

@[simp] theorem condition_unlock (lock : Lock) (t : SlotId) :
    (world.unlock lock).condition t = world.condition t := rfl

@[simp] theorem condition_updateGuard (g : GuardId) (change : Guard σ ν → Guard σ ν)
    (t : SlotId) : (world.updateGuard g change).condition t = world.condition t := rfl

@[simp] theorem condition_emit (event : Event) (t : SlotId) :
    (world.emit event).condition t = world.condition t := rfl

@[simp] theorem condition_act (act : Act) (t : SlotId) :
    (world.act act).condition t = world.condition t := rfl

@[simp] theorem condition_actAll (acts : List Act) (t : SlotId) :
    (world.actAll acts).condition t = world.condition t := by
  unfold condition
  rw [slot_actAll]

@[simp] theorem condition_emitAll (events : List Event) (t : SlotId) :
    (world.emitAll events).condition t = world.condition t := by
  unfold condition
  rw [slot_emitAll]

@[simp] theorem condition_updateScope (sc : ScopeId) (change : Scope σ ν → Scope σ ν)
    (t : SlotId) : (world.updateScope sc change).condition t = world.condition t := rfl

@[simp] theorem condition_discardPending (sc : ScopeId) (t : SlotId) :
    (world.discardPending sc).condition t = world.condition t := by
  simp [discardPending_eq]

@[simp] theorem condition_retain (handle : Handle) (t : SlotId) :
    (world.retain handle).condition t = world.condition t := by
  cases handle <;> simp [retain, Slot.condition]

@[simp] theorem condition_retainAll (handles : List Handle) (t : SlotId) :
    (world.retainAll handles).condition t = world.condition t :=
  world.foldl_same (·.condition t) retain (fun world handle => world.condition_retain handle t)
    handles

@[simp] theorem condition_surrender (handle : Handle) (t : SlotId) :
    (world.surrender handle).condition t = world.condition t := by
  cases handle <;> simp [surrender, Slot.condition]

@[simp] theorem condition_relinquish (handle : Handle) (t : SlotId) :
    (world.relinquish handle).condition t = world.condition t := by
  cases handle <;> simp [relinquish, Slot.condition]

@[simp] theorem condition_copySlot (s t : SlotId) :
    (world.copySlot s).1.condition t = world.condition t := by
  unfold copySlot
  simp only [condition_actAll, condition_act, condition_retainAll]
  exact world.condition_addSlot rfl t

theorem condition_enterSlot {entered : World σ ν} {s : SlotId} {id : ThreadId}
    (action : world.enterSlot s id = some entered) (t : SlotId) :
    entered.condition t = world.condition t := by
  obtain ⟨depth, _, rfl⟩ := world.enterSlot_eq action
  simp [Slot.condition]

end World

end Relinquish
