import Relinquish.Error.Cause
import Relinquish.Event

/-!
User code as a tree of what it does next. Code reads and writes a memory of type `σ`, leaves notes
of type `ν`, catches panics, starts threads, and calls the library; the continuations of a call say
what the code does with the answer. Initializers, drop handlers, chain links, error handlers, kind
predicates, teardown actions and fallbacks are all `Code`.
-/

namespace Relinquish

/-- A value of a slot. Two values are the same one when their numbers agree. -/
structure Value where
  id : Nat
  text : String
  deriving DecidableEq, Repr

structure SlotView where
  dropped : Bool
  initialized : Bool
  links : List String
  handlers : List String
  deriving DecidableEq, Repr

structure ScopeView where
  pending : Nat
  policy : TeardownPolicy
  deriving DecidableEq, Repr

inductive DroppableView where
  | closure
  | slot (view : SlotView)
  | owner
  | scopeOwner
  deriving DecidableEq, Repr

inductive Reply where
  | done
  | failed (error : Error)
  | value (value : Value)
  | nothing
  | missing
  | text (text : String)
  | verdict (holds : Bool)
  | object (id : Nat)
  | slot (view : SlotView)
  | scope (view : ScopeView)
  | guarded (view : Option DroppableView)
  | names (names : List String)
  | numbers (numbers : List Int)
  | config (config : ScopeConfig)
  | held (value : Value)
  | fallback (value : Value)
  | applied (value : Value) (reply : Reply)

namespace Reply

def error? : Reply → Option Error
  | failed error => some error
  | _ => none

def accepts : Reply → Bool
  | verdict holds => holds
  | _ => false

def content : Reply → String
  | text content => content
  | _ => ""

def text? : Reply → Option String
  | text content => some content
  | _ => none

end Reply

inductive Exit where
  | returned (reply : Reply)
  | panicked (payload : Payload)

abbrev AccessorId := Nat

abbrev ParcelId := Nat

abbrev RegistryId := Nat

mutual

inductive Code (σ ν : Type) where
  | ret (reply : Reply)
  | panic (payload : Payload)
  | load (next : σ → Code σ ν)
  | store (memory : σ) (next : Code σ ν)
  | note (entry : ν) (next : Code σ ν)
  /-- Runs the body and goes on however it ends. -/
  | attempt (body : Code σ ν) (next : Exit → Code σ ν)
  /-- Runs the body on a thread of its own and waits for its end. -/
  | elsewhere (body : Code σ ν) (next : Exit → Code σ ν)
  | call (request : Call σ ν) (next : Reply → Code σ ν)

inductive Kind (σ ν : Type) where
  | any
  /-- Errors of a type and errors caused by one. -/
  | of (type : ErrorType)
  | exact (type : ErrorType)
  | matching (name : String) (accepts : Error → Code σ ν)

inductive Droppable (σ ν : Type) where
  | action (code : Code σ ν)
  | slot (slot : SlotId)
  /-- An owner, with its droppables in the order of their declaration. -/
  | owner (slots : List (Droppable σ ν))
  /-- The owner of what belongs to scopes, whose own release does nothing. -/
  | scopeOwner

inductive Call (σ ν : Type) where
  | newSlot (release : Value → Code σ ν) (initializer : Code σ ν)
  | cloneHandle (slot : SlotId)
  | forgetHandle (slot : SlotId)
  /-- A new slot set up as the given one; with a cloner also a clone of its value. -/
  | copySlot (slot : SlotId) (cloner : Option (Value → Code σ ν))
  | getValue (slot : SlotId)
  | withValue (slot : SlotId) (use : Value → Code σ ν)
  | peek (slot : SlotId)
  | dropSlot (slot : SlotId)
  | inspectSlot (slot : SlotId)
  | dropOnError (slot : SlotId) (kind : Kind σ ν) (droppable : Droppable σ ν)
  | callOnError (slot : SlotId) (kind : Kind σ ν) (handler : Error → Code σ ν)
  /-- An accessor with a handle of its own, which in place of an error yields a fallback, or nothing
  if it has none. -/
  | newAccessor (slot : SlotId) (fallback : Option (Code σ ν))
  | access (accessor : AccessorId)
  | dropAccessed (accessor : AccessorId)
  | forgetAccessor (accessor : AccessorId)
  | newScope (policy : TeardownPolicy)
  | forgetScope (scope : ScopeId)
  | defer (scope : ScopeId) (action : Code σ ν)
  | adopt (scope : ScopeId) (slot : SlotId)
  | registerSlot (scope : ScopeId) (release : Value → Code σ ν) (initializer : Code σ ν)
  | resetScope (scope : ScopeId)
  | inspectScope (scope : ScopeId)
  | runAll (scope : ScopeId)
  /-- Runs a body with a new scope, and tears the scope down however the body ends. -/
  | deferring (config : ScopeConfig) (body : ScopeId → Code σ ν)
  | newGuard (droppable : Droppable σ ν)
  | dropThrough (guard : GuardId)
  | inspectGuard (guard : GuardId)
  | releaseGuard (guard : GuardId)
  | disarmGuard (guard : GuardId)
  | forgetGuard (guard : GuardId)
  | keep (droppable : Droppable σ ν)
  | dispose (parcel : ParcelId)
  | forgetParcel (parcel : ParcelId)
  | newRegistry
  | register (registry : RegistryId) (kind : Kind σ ν) (number : Int)
  | select (registry : RegistryId) (error : Error)
  | snapshotRegistry (registry : RegistryId)
  | inspectRegistry (registry : RegistryId)
  /-- Reads the settings through a variable lookup; an announced reading is logged. -/
  | loadConfig (lookup : String → Code σ ν) (announced : Bool)
  | matchKind (kind : Kind σ ν) (error : Error)

end

variable {σ ν : Type}

instance : Inhabited (Code σ ν) := ⟨.ret .done⟩

def Kind.name : Kind σ ν → String
  | any => "any"
  | of type | exact type => type.name
  | matching name _ => name

def Kind.isAny : Kind σ ν → Bool
  | any => true
  | _ => false

def Kind.judge (error : Error) : Kind σ ν → Bool ⊕ Code σ ν
  | any => .inl true
  | of type => .inl (error.find type).isSome
  | exact type => .inl (error.isA type)
  | matching _ accepts => .inr (accepts error)

mutual

/-- The slots of whose handles a droppable holds one each, in the order in which it gives them
up. -/
def Droppable.slots : Droppable σ ν → List SlotId
  | .action _ | .scopeOwner => []
  | .slot s => [s]
  | .owner droppables => slotsOfAll droppables
termination_by structural droppable => droppable

def slotsOfAll : List (Droppable σ ν) → List SlotId
  | [] => []
  | droppable :: rest => droppable.slots ++ slotsOfAll rest
termination_by structural droppables => droppables

end

def Call.callOnType (slot : SlotId) (type : ErrorType) (handler : Error → Code σ ν) : Call σ ν :=
  .callOnError slot (.of type) fun error =>
    match error.find type with
    | some cause => handler cause
    | none => .ret .done

end Relinquish
