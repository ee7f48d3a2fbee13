import Relinquish.Step.Move

/-!
What objects show of themselves.
-/

namespace Relinquish

variable {σ ν : Type}

def Slot.view (slot : Slot σ ν) : SlotView where
  dropped := slot.dropped
  initialized := slot.value.isSome
  links := slot.links.names
  handlers := slot.handlers.names

def Scope.view (scope : Scope σ ν) : ScopeView where
  pending := scope.pending.length
  policy := scope.policy

def Lock.ofSlot (s : SlotId) : List Lock :=
  [.value s, .links s, .handlers s]

def Droppable.locks : Droppable σ ν → List Lock
  | slot s => Lock.ofSlot s
  | _ => []

def World.view (world : World σ ν) : Droppable σ ν → DroppableView
  | .action _ => .closure
  | .slot s => .slot (world.slot s).view
  | .owner _ => .owner
  | .scopeOwner => .scopeOwner

end Relinquish
