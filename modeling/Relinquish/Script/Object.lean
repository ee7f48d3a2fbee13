import Relinquish.Script.Outcome

/-!
Binding names to objects. A name that is taken first gets the new object, and then the old one is
let go.
-/

namespace Relinquish.Script

namespace Program

def withNamed {α : Type} (table : Session → Names α) (name : String)
    (program : α → Program Outcome) : Program Outcome := do
  let session ← session
  match (table session).find name with
  | some object => program object
  | none => pure .missing

def withMade (reply : Reply) (program : Nat → Program Outcome) : Program Outcome :=
  match reply with
  | .object id => program id
  | _ => pure .missing

def forgetSlot : Option SlotId → Program Unit
  | some s => do let _ ← call (.forgetHandle s)
  | none => pure ()

def forgetScope : Option ScopeRef → Program Unit
  | some ⟨sc, false⟩ => do let _ ← call (.forgetScope sc)
  | _ => pure ()

def forgetParcel : Option ParcelId → Program Unit
  | some p => do let _ ← call (.forgetParcel p)
  | none => pure ()

def forgetGuard : Option GuardId → Program Unit
  | some g => do let _ ← call (.forgetGuard g)
  | none => pure ()

def bindDelegate (name : String) (s : SlotId) : Program Unit := do
  let old ← session
  update fun session => { session with delegates := session.delegates.bind name s }
  forgetSlot (old.delegates.find name)

def forgetAccessor : Option AccessorId → Program Unit
  | some a => do let _ ← call (.forgetAccessor a)
  | none => pure ()

def bindAccessor (name : String) (a : AccessorId) : Program Unit := do
  let old ← session
  update fun session => { session with accessors := session.accessors.bind name a }
  forgetAccessor (old.accessors.find name)

def bindScope (name : String) (scope : ScopeRef) : Program Unit := do
  let old ← session
  update fun session => { session with scopes := session.scopes.bind name scope }
  forgetScope (old.scopes.find name)

def restoreScope (name : String) (before : Option ScopeRef) : Program Unit := do
  let old ← session
  update fun session =>
    { session with
      scopes := match before with
        | some scope => session.scopes.bind name scope
        | none => session.scopes.unbind name }
  forgetScope (old.scopes.find name)

def bindOwner (name : String) (p : ParcelId) : Program Unit := do
  let old ← session
  update fun session => { session with owners := session.owners.bind name p }
  forgetParcel (old.owners.find name)

def bindParcel (name : String) (p : ParcelId) : Program Unit := do
  let old ← session
  update fun session => { session with parcels := session.parcels.bind name p }
  forgetParcel (old.parcels.find name)

def bindGuard (name : String) (g : GuardId) : Program Unit := do
  let old ← session
  update fun session => { session with guards := session.guards.bind name g }
  forgetGuard (old.guards.find name)

def takeGuard (name : String) (program : GuardId → Program Outcome) : Program Outcome :=
  withNamed Session.guards name fun g => do
    update fun session => { session with guards := session.guards.unbind name }
    program g

def makeCounter : Program Nat := do
  let before ← session
  update fun session => { session with counters := session.counters ++ [0] }
  pure before.counters.length

def count (counter : Nat) : Program Nat := do
  let before ← session
  let n := before.counters[counter]?.getD 0 + 1
  update fun session => { session with counters := session.counters.set counter n }
  pure n

end Program

def occursIn (needle : List Char) : List Char → Bool
  | [] => needle.isEmpty
  | c :: rest => needle.isPrefixOf (c :: rest) || occursIn needle rest

def Test.holds (error : Error) : Test → Bool
  | always holds => holds
  | contains text => occursIn text.toList error.message.toList
  | numberAtLeast number =>
      match error with
      | .custom _ _ (some own) _ => number ≤ own
      | _ => false
  | sourcesAtLeast count => count ≤ error.causes.length

def KindSpec.kind : KindSpec → Kind Session Note
  | any => .any
  | of type => .of type
  | exact type => .exact type
  | custom name test => .matching name fun error =>
      Program.code do
        Program.log [("pred", .text name), ("hit", .bool (test.holds error))]
        pure (.verdict (test.holds error))

end Relinquish.Script
