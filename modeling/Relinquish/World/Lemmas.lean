import Relinquish.World

/-!
What each change of a world does to what is read from it: the slots, the scopes and the history.
-/

namespace Relinquish.World

variable {σ ν : Type} (world : World σ ν)

theorem foldl_same_of_mem {α β : Type} (read : World σ ν → β) (change : World σ ν → α → World σ ν)
    {all : List α} (same : ∀ world, ∀ a ∈ all, read (change world a) = read world) :
    read (all.foldl change world) = read world := by
  induction all generalizing world with
  | nil => rfl
  | cons a rest ih =>
      have later := ih (change world a) fun world b member => same world b (.tail _ member)
      exact later.trans (same world a (.head _))

theorem foldl_same {α β : Type} (read : World σ ν → β) (change : World σ ν → α → World σ ν)
    (same : ∀ world a, read (change world a) = read world) (all : List α) :
    read (all.foldl change world) = read world :=
  world.foldl_same_of_mem read change fun world a _ => same world a

/-! ## Slots -/

@[simp] theorem slot_updateSlot (s t : SlotId) (change : Slot σ ν → Slot σ ν) :
    (world.updateSlot s change).slot t = if s = t then change (world.slot t) else world.slot t := by
  simp [updateSlot, slot]

@[simp] theorem slot_act (act : Act) (t : SlotId) : (world.act act).slot t = world.slot t := rfl

@[simp] theorem slot_emit (event : Event) (t : SlotId) :
    (world.emit event).slot t = world.slot t := rfl

@[simp] theorem slot_actAll (acts : List Act) (t : SlotId) :
    (world.actAll acts).slot t = world.slot t :=
  world.foldl_same (·.slot t) act (fun _ _ => rfl) acts

@[simp] theorem slot_emitAll (events : List Event) (t : SlotId) :
    (world.emitAll events).slot t = world.slot t :=
  world.foldl_same (·.slot t) emit (fun _ _ => rfl) events

@[simp] theorem slot_lock (lock : Lock) (thread : ThreadId) (t : SlotId) :
    (world.lock lock thread).slot t = world.slot t := rfl

@[simp] theorem slot_unlock (lock : Lock) (t : SlotId) :
    (world.unlock lock).slot t = world.slot t := rfl

theorem slot_addSlot (slot : Slot σ ν) (t : SlotId) :
    (world.addSlot slot).1.slot t = if t = world.slots.size then slot else world.slot t :=
  Table.get_push world.slots slot t

/-! ## Scopes -/

@[simp] theorem scope_updateScope (sc t : ScopeId) (change : Scope σ ν → Scope σ ν) :
    (world.updateScope sc change).scope t =
      if sc = t then change (world.scope t) else world.scope t := by
  simp [updateScope, scope]

@[simp] theorem scope_act (act : Act) (t : ScopeId) : (world.act act).scope t = world.scope t := rfl

theorem scope_addScope (scope : Scope σ ν) (t : ScopeId) :
    (world.addScope scope).1.scope t = if t = world.scopes.size then scope else world.scope t :=
  Table.get_push world.scopes scope t

theorem pending_addAction (sc : ScopeId) (job : Job σ ν) :
    ((world.addAction sc job).scope sc).pending =
      (world.scope sc).pending ++ [⟨world.actions, job⟩] := by
  simp only [addAction, scope_act, scope_updateScope, if_true]
  rfl

/-! ## History -/

@[simp] theorem history_record (mark : Mark ν) :
    (world.record mark).history = mark :: world.history := rfl

@[simp] theorem history_updateSlot (s : SlotId) (change : Slot σ ν → Slot σ ν) :
    (world.updateSlot s change).history = world.history := rfl

@[simp] theorem history_updateScope (sc : ScopeId) (change : Scope σ ν → Scope σ ν) :
    (world.updateScope sc change).history = world.history := rfl

/-! ## Locks -/

theorem free_unlock (lock : Lock) : (world.unlock lock).free lock = true := by
  simp [free, unlock]

theorem not_free_lock (lock : Lock) (thread : ThreadId) :
    (world.lock lock thread).free lock = false := by
  simp [free, World.lock]

end Relinquish.World
