import Relinquish.Proofs.Moves
import Relinquish.Proofs.Recall

/-!
The ledger: what the history says of the initializers of slots and of their values. Calls and user
code leave the ledger and the condition of slots alone.
-/

namespace Relinquish

variable {σ ν : Type}

inductive Deed where
  | began (slot : SlotId)
  | ended (slot : SlotId)
  | produced (slot : SlotId) (value : Value)
  | cloned (slot : SlotId) (value : Value)
  | handed (slot : SlotId) (value : Value)
  | lost (slot : SlotId) (value : Value)
  | warned (slot : SlotId)
  deriving DecidableEq

def Mark.deed? : Mark ν → Option Deed
  | .act (.initializerStarted s) => some (.began s)
  | .act (.initializerEnded s _) => some (.ended s)
  | .act (.produced s value) => some (.produced s value)
  | .act (.cloned s value) => some (.cloned s value)
  | .act (.handed s value) => some (.handed s value)
  | .act (.lost s value) => some (.lost s value)
  | .event (.abandoned s) => some (.warned s)
  | _ => none

def World.ledger (world : World σ ν) : List Deed :=
  world.history.filterMap Mark.deed?

namespace World

variable (world : World σ ν)

theorem ledger_congr {other : World σ ν} (same : other.history = world.history) :
    other.ledger = world.ledger :=
  world.recollect_congr Mark.deed? same

@[simp] theorem ledger_record (mark : Mark ν) :
    (world.record mark).ledger = mark.deed?.toList ++ world.ledger :=
  world.recollect_record Mark.deed? mark

@[simp] theorem ledger_act (act : Act) :
    (world.act act).ledger = (Mark.deed? (.act act : Mark ν)).toList ++ world.ledger :=
  world.ledger_record (.act act)

@[simp] theorem ledger_emit (event : Event) :
    (world.emit event).ledger = (Mark.deed? (.event event : Mark ν)).toList ++ world.ledger :=
  world.ledger_record (.event event)

theorem ledger_emitAll {events : List Event}
    (silent : ∀ event ∈ events, Mark.deed? (.event event : Mark ν) = none) :
    (world.emitAll events).ledger = world.ledger :=
  world.recollect_emitAll Mark.deed? silent

@[simp] theorem ledger_mk (memory : σ) (slots : Table (Slot σ ν)) (scopes : Table (Scope σ ν))
    (accessors : Table (Option (Accessor σ ν))) (guards : Table (Guard σ ν))
    (parcels : Table (Option (Droppable σ ν))) (registries : Table (Registry σ ν Int))
    (locks : List (Lock × ThreadId)) (values actions threads : Nat) :
    ledger
      ⟨memory, slots, scopes, accessors, guards, parcels, registries, locks, values, actions,
        threads, world.history⟩ = world.ledger := rfl

@[simp] theorem ledger_updateSlot (s : SlotId) (change : Slot σ ν → Slot σ ν) :
    (world.updateSlot s change).ledger = world.ledger := rfl

@[simp] theorem ledger_updateScope (sc : ScopeId) (change : Scope σ ν → Scope σ ν) :
    (world.updateScope sc change).ledger = world.ledger := rfl

@[simp] theorem ledger_makeSlot (release : Value → Code σ ν) (initializer : Code σ ν) :
    (world.makeSlot release initializer).1.ledger = world.ledger := rfl

@[simp] theorem ledger_makeValue (content : String) :
    (world.makeValue content).1.ledger = world.ledger := rfl

@[simp] theorem ledger_unlock (lock : Lock) : (world.unlock lock).ledger = world.ledger := rfl

@[simp] theorem ledger_updateGuard (g : GuardId) (change : Guard σ ν → Guard σ ν) :
    (world.updateGuard g change).ledger = world.ledger := rfl

@[simp] theorem ledger_retain (handle : Handle) :
    (world.retain handle).ledger = world.ledger :=
  world.ledger_congr (world.history_retain handle)

@[simp] theorem ledger_retainAll (handles : List Handle) :
    (world.retainAll handles).ledger = world.ledger :=
  world.ledger_congr (world.history_retainAll handles)

@[simp] theorem ledger_surrender (handle : Handle) :
    (world.surrender handle).ledger = world.ledger :=
  world.ledger_congr (world.history_surrender handle)

@[simp] theorem ledger_relinquish (handle : Handle) :
    (world.relinquish handle).ledger = world.ledger :=
  world.ledger_congr (world.history_relinquish handle)

@[simp] theorem ledger_copySlot (s : SlotId) :
    (world.copySlot s).1.ledger = world.ledger :=
  world.recollect_copySlot Mark.deed? s (fun _ _ => rfl) (fun _ _ => rfl) fun _ _ => rfl

@[simp] theorem ledger_discardPending (sc : ScopeId) :
    (world.discardPending sc).ledger = world.ledger :=
  world.recollect_discardPending Mark.deed? sc (fun _ _ => rfl) fun _ _ => rfl

end World

end Relinquish
