import Relinquish.Proofs.Changes

/-!
Views of the history. A view picks from the marks what is to be told of, newest first; changes that
record nothing of the kind leave it alone.
-/

namespace Relinquish

variable {σ ν α : Type}

def World.recollect (world : World σ ν) (view : Mark ν → Option α) : List α :=
  world.history.filterMap view

namespace World

variable (world : World σ ν) (view : Mark ν → Option α)

theorem recollect_congr {other : World σ ν} (same : other.history = world.history) :
    other.recollect view = world.recollect view := by
  rw [recollect, same, recollect]

theorem recollect_record (mark : Mark ν) :
    (world.record mark).recollect view = (view mark).toList ++ world.recollect view := by
  rw [recollect, history_record, List.filterMap_cons]
  cases view mark <;> rfl

theorem recollect_act (act : Act) :
    (world.act act).recollect view = (view (.act act)).toList ++ world.recollect view :=
  world.recollect_record view (.act act)

theorem recollect_emit (event : Event) :
    (world.emit event).recollect view = (view (.event event)).toList ++ world.recollect view :=
  world.recollect_record view (.event event)

theorem recollect_actAll {acts : List Act} (silent : ∀ act ∈ acts, view (.act act) = none) :
    (world.actAll acts).recollect view = world.recollect view := by
  refine world.foldl_same_of_mem (·.recollect view) act fun world a member => ?_
  rw [recollect_act, silent a member]
  rfl

theorem recollect_emitAll {events : List Event} (silent : ∀ event ∈ events, view (.event event) = none) :
    (world.emitAll events).recollect view = world.recollect view := by
  refine world.foldl_same_of_mem (·.recollect view) emit fun world event member => ?_
  rw [recollect_emit, silent event member]
  rfl

theorem recollect_retain (handle : Handle) : (world.retain handle).recollect view = world.recollect view :=
  world.recollect_congr view (world.history_retain handle)

theorem recollect_retainAll (handles : List Handle) :
    (world.retainAll handles).recollect view = world.recollect view :=
  world.recollect_congr view (world.history_retainAll handles)

theorem recollect_surrender (handle : Handle) :
    (world.surrender handle).recollect view = world.recollect view :=
  world.recollect_congr view (world.history_surrender handle)

theorem recollect_relinquish (handle : Handle) :
    (world.relinquish handle).recollect view = world.recollect view :=
  world.recollect_congr view (world.history_relinquish handle)

theorem recollect_addAction (sc : ScopeId) (job : Job σ ν)
    (silent : ∀ sc a, view (.act (.deferred sc a)) = none) :
    (world.addAction sc job).recollect view = world.recollect view := by
  rw [addAction, recollect_act, silent]
  rfl

theorem recollect_adopt (sc : ScopeId) (s : SlotId)
    (silent : ∀ sc a, view (.act (.deferred sc a)) = none) :
    (world.adopt sc s).recollect view = world.recollect view := by
  rw [adopt, recollect_addAction _ view sc _ silent, recollect_retain]

theorem recollect_discardPending (sc : ScopeId)
    (discarded : ∀ sc a, view (.act (.discarded sc a)) = none)
    (reset : ∀ sc n, view (.event (.scopeReset sc n)) = none) :
    (world.discardPending sc).recollect view = world.recollect view := by
  have silent : ∀ act ∈ (world.scope sc).pending.map fun action => Act.discarded sc action.id,
      view (.act act) = none :=
    List.forall_mem_map.mpr fun action _ => discarded sc action.id
  rw [discardPending_eq, recollect_emitAll, recollect_actAll _ view silent]
  · rfl
  · intro event member
    split at member
    · contradiction
    · rw [List.mem_singleton.mp member, reset]

theorem recollect_discardSlot (s : SlotId) (lost : ∀ s value, view (.act (.lost s value)) = none)
    (abandoned : ∀ s, view (.event (.abandoned s)) = none) :
    (world.discardSlot s).recollect view = world.recollect view := by
  unfold discardSlot
  split
  · rw [recollect_emit, recollect_act, abandoned, lost]
    rfl
  · rfl

theorem recollect_copySlot (s : SlotId) (copied : ∀ s copy, view (.act (.copied s copy)) = none)
    (linked : ∀ s place, view (.act (.linkAdded s place)) = none)
    (handled : ∀ s place, view (.act (.handlerAdded s place)) = none) :
    (world.copySlot s).1.recollect view = world.recollect view := by
  unfold copySlot
  simp only
  rw [recollect_actAll _ view (List.forall_mem_map.mpr fun place _ => handled _ place),
    recollect_actAll _ view (List.forall_mem_map.mpr fun place _ => linked _ place), recollect_act,
    copied]
  exact recollect_retainAll _ view _

theorem recollect_enterSlot {entered : World σ ν} {s : SlotId} {id : ThreadId}
    (action : world.enterSlot s id = some entered) : entered.recollect view = world.recollect view :=
  world.recollect_congr view (world.history_enterSlot action)

end World

theorem Exit.unwindingEvents_silent {view : Mark ν → Option α}
    (unwinding : ∀ sc error, view (.event (.unwindingFailed sc error)) = none) (outcome : Exit)
    (sc : ScopeId) (teardown : Option TeardownError) :
    ∀ event ∈ outcome.unwindingEvents sc teardown, view (.event event) = none := by
  unfold unwindingEvents
  split <;> simp [unwinding]

end Relinquish
