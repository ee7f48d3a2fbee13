import Relinquish.Script.Op

/-!
The memory of a running script: the objects behind its names, the fuel it has left, and how many
scripts are running. Programs are code with a result, in continuation form.
-/

namespace Relinquish.Script

abbrev Names (α : Type) := List (String × α)

namespace Names

variable {α : Type}

def find (names : Names α) (name : String) : Option α :=
  names.lookup name

def unbind (names : Names α) (name : String) : Names α :=
  names.filter fun (other, _) => other ≠ name

def bind (names : Names α) (name : String) (object : α) : Names α :=
  (name, object) :: names.unbind name

end Names

/-- A scope behind a name. A lent one belongs to the deferring call that runs its body. -/
structure ScopeRef where
  scope : ScopeId
  lent : Bool := false

structure Session where
  fuel : Nat := 400
  depth : Nat := 0
  counters : List Nat := []
  delegates : Names SlotId := []
  values : Names String := []
  accessors : Names AccessorId := []
  scopes : Names ScopeRef := []
  owners : Names ParcelId := []
  guards : Names GuardId := []
  parcels : Names ParcelId := []
  registries : Names RegistryId := []
  result : Report := .null

def Session.depthLimit : Nat :=
  24

/-- An entry of a script's log. What is noted between `gather` and `gathered` is put in order. -/
inductive Note where
  | entry (report : Report)
  | gather
  | gathered

def Program (α : Type) : Type :=
  (α → Code Session Note) → Code Session Note

namespace Program

instance : Monad Program where
  pure a := fun next => next a
  bind program f := fun next => program fun a => f a next

def call (request : Call Session Note) : Program Reply :=
  fun next => .call request next

def session : Program Session :=
  fun next => .load next

def update (change : Session → Session) : Program Unit :=
  fun next => .load fun session => .store (change session) (next ())

def note (note : Note) : Program Unit :=
  fun next => .note note (next ())

def log (fields : List (String × Report)) : Program Unit :=
  note (.entry (.record fields))

def attempt (body : Code Session Note) : Program Exit :=
  fun next => .attempt body next

def elsewhere (body : Code Session Note) : Program Exit :=
  fun next => .elsewhere body next

def panic {α : Type} (payload : Payload) : Program α :=
  fun _ => .panic payload

def code (program : Program Reply) : Code Session Note :=
  program .ret

end Program

end Relinquish.Script
