import Relinquish.World

/-!
Threads. A thread runs user code or works on a task of the library; below that lies a stack of
frames, each of which waits for the end of what is above it. Wherever the library runs user code,
the frame on top of the stack says on whose behalf.
-/

namespace Relinquish

inductive Selection (σ ν : Type) where
  | links (slot : SlotId)
  | handlers (slot : SlotId) (links : List (Nat × Droppable σ ν))
  | numbers (registry : RegistryId)

def Selection.lock {σ ν : Type} : Selection σ ν → Lock
  | links s => .links s
  | handlers s _ => .handlers s
  | numbers r => .numbers r

inductive Task (σ ν : Type) where
  | finish (exit : Exit)
  | start (call : Call σ ν)
  /-- Gives up holds one by one, and with the last hold of an object the object; then hands on an
  end. -/
  | letGo (handles : List Handle) (exit : Exit)
  | look (slot : SlotId)
  | enter (slot : SlotId)
  | lookAgain (slot : SlotId)
  | produce (slot : SlotId)
  | lockValue (slot : SlotId) (value : Value)
  /-- Looks under that lock whether the slot has been dropped meanwhile. -/
  | confirm (slot : SlotId) (value : Value)
  | store (slot : SlotId) (value : Value)
  | unlockValue (slot : SlotId) (next : Task σ ν)
  | leave (slot : SlotId) (next : Task σ ν)
  | releaseLate (slot : SlotId) (value : Value)
  | consult (selection : Selection σ ν) (error : Error)
  | sift (selection : Selection σ ν) (error : Error) (rest : List (Nat × Kind σ ν))
      (places : List Nat)
  | links (slot : SlotId) (error : Error) (rest : List (Nat × Droppable σ ν))
      (handlers : List (Nat × (Error → Code σ ν))) (failures : List DropError)
  | handlers (slot : SlotId) (error : Error) (rest : List (Nat × (Error → Code σ ν)))
      (failures : List DropError)
  /-- Marks a slot as dropped; only the first to do so goes on. -/
  | swap (slot : SlotId)
  | take (slot : SlotId)
  | dispose (droppable : Droppable σ ν)
  | disposeAll (rest : List (Droppable σ ν)) (failures : List Error)
  | copy (slot : SlotId) (cloner : Option (Value → Code σ ν))
  | copyValue (slot copy : SlotId) (cloner : Value → Code σ ν)
  | deliver (copy : SlotId)
  /-- Takes the pending actions of a scope as the next batch, until there are none. -/
  | drain (scope : ScopeId) (ran : Nat) (failures : List Error)
  | batch (scope : ScopeId) (rest : List (Action σ ν)) (ran : Nat) (failures : List Error)
  | report (scope : ScopeId) (ran : Nat) (failures : List Error)

inductive Frame (σ ν : Type) where
  | calling (next : Reply → Code σ ν)
  | attempted (next : Exit → Code σ ν)
  /-- A thread waits for the end of another one that it started. -/
  | joined (starter : ThreadId) (next : Exit → Code σ ν)
  /-- An operation holds its objects until its result is known. -/
  | holding (handles : List Handle)
  | looking (slot : SlotId)
  | initializing (slot : SlotId)
  | releasingLate (slot : SlotId) (value : Value)
  | judging (selection : Selection σ ν) (error : Error) (place : Nat)
      (rest : List (Nat × Kind σ ν)) (places : List Nat)
  | linking (slot : SlotId) (error : Error) (rest : List (Nat × Droppable σ ν))
      (handlers : List (Nat × (Error → Code σ ν))) (failures : List DropError)
  | handling (slot : SlotId) (error : Error) (rest : List (Nat × (Error → Code σ ν)))
      (failures : List DropError)
  | releasing (slot : SlotId) (value : Value)
  | owning (rest : List (Droppable σ ν)) (failures : List Error)
  | cloning (copy : SlotId)
  | getting (use : Value → Code σ ν)
  | using (value : Value)
  | orNone (slot : SlotId)
  | orElse (slot : SlotId) (fallback : Code σ ν)
  | fallingBack (slot : SlotId)
  | tearing (scope : ScopeId) (rest : List (Action σ ν)) (ran : Nat) (failures : List Error)
  | vanishing (scope : ScopeId) (rest : List Handle) (exit : Exit)
  | body (scope : ScopeId)
  | closing (scope : ScopeId) (outcome : Exit)
  | through (guard : GuardId)
  /-- A call has consumed a guard, of which the scope ends with the call. -/
  | expiring (guard : GuardId)
  | guarding (guard : GuardId) (outcome : Exit)
  | reading (announced : Bool)
  | matched

inductive Control (σ ν : Type) where
  | code (code : Code σ ν)
  | task (task : Task σ ν)

structure Thread (σ ν : Type) where
  id : ThreadId
  control : Control σ ν
  stack : List (Frame σ ν) := []

def Thread.ofCode {σ ν : Type} (id : ThreadId) (code : Code σ ν) : Thread σ ν :=
  { id, control := .code code }

def Thread.exit? {σ ν : Type} (thread : Thread σ ν) : Option Exit :=
  match thread.control, thread.stack with
  | .task (.finish exit), [] => some exit
  | _, _ => none

end Relinquish
