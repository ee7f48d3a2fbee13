import Relinquish.Policy

/-!
The events that the library emits while it works. An event says what happened and to which object;
its level, its message and its fields are read off.
-/

namespace Relinquish

abbrev SlotId := Nat

abbrev ScopeId := Nat

abbrev GuardId := Nat

inductive Level where
  | trace
  | debug
  | warn
  | error
  deriving DecidableEq, Repr

def Level.name : Level → String
  | trace => "TRACE"
  | debug => "DEBUG"
  | warn => "WARN"
  | error => "ERROR"

inductive Event where
  | initialized (slot : SlotId)
  | initializationFailed (slot : SlotId) (error : Error) (links handlers : Nat)
  | linkFailed (slot : SlotId) (error : Error)
  | handlerFailed (slot : SlotId) (error : Error)
  | releasing (slot : SlotId)
  /-- A value was produced for a slot that had been dropped meanwhile, and its release failed. -/
  | lateReleaseFailed (slot : SlotId) (error : Error)
  /-- The last handle of a slot has gone, and the slot still held a value. -/
  | abandoned (slot : SlotId)
  | noneYielded (slot : SlotId) (error : Error)
  | fallbackUsed (slot : SlotId) (error : Error)
  | ownerFailed (failures : Nat)
  | scopeReset (scope : ScopeId) (discarded : Nat)
  | tornDown (scope : ScopeId) (actions failures : Nat)
  | laterFailure (scope : ScopeId) (error : Error)
  | scopeFailed (scope : ScopeId) (error : Error)
  | unwindingFailed (scope : ScopeId) (error : Error)
  | guardFailed (guard : GuardId) (error : Error)
  | policyIgnored (error : Error)
  | configLoaded (policy : TeardownPolicy)

inductive FieldValue where
  | count (n : Nat)
  | text (s : String)
  deriving DecidableEq, Repr

namespace Event

def level : Event → Level
  | initialized _ | releasing _ | tornDown _ _ _ => .trace
  | initializationFailed _ _ _ _ | noneYielded _ _ | fallbackUsed _ _ | ownerFailed _
  | scopeReset _ _ | configLoaded _ => .debug
  | linkFailed _ _ | handlerFailed _ _ | lateReleaseFailed _ _ | abandoned _ | laterFailure _ _
  | policyIgnored _ => .warn
  | scopeFailed _ _ | unwindingFailed _ _ | guardFailed _ _ => .error

def message : Event → String
  | initialized _ => "drop delegate initialized"
  | initializationFailed _ _ _ _ => "drop delegate failed to initialize"
  | linkFailed _ _ => "drop chain link failed"
  | handlerFailed _ _ => "initialization error handler failed"
  | releasing _ => "dropping delegate value"
  | lateReleaseFailed _ _ => "releasing value produced after drop failed"
  | abandoned _ => "drop delegate discarded while still holding a value"
  | noneYielded _ _ => "dropping value unavailable, yielding none"
  | fallbackUsed _ _ => "dropping value unavailable, using fallback"
  | ownerFailed _ => "owner teardown failed"
  | scopeReset _ _ => "dropping scope reset"
  | tornDown _ _ _ => "dropping scope torn down"
  | laterFailure _ _ => "additional teardown failure"
  | scopeFailed _ _ => "dropping scope failed to tear down"
  | unwindingFailed _ _ => "scope teardown failed while unwinding"
  | guardFailed _ _ => "guarded value failed to drop"
  | policyIgnored _ => "ignoring " ++ ScopeConfig.variable
  | configLoaded _ => "scope configuration loaded from environment"

def error? : Event → Option Error
  | initializationFailed _ error _ _ | linkFailed _ error | handlerFailed _ error
  | lateReleaseFailed _ error | noneYielded _ error | fallbackUsed _ error | laterFailure _ error
  | scopeFailed _ error | unwindingFailed _ error | guardFailed _ error | policyIgnored error =>
      some error
  | initialized _ | releasing _ | abandoned _ | ownerFailed _ | scopeReset _ _ | tornDown _ _ _
  | configLoaded _ => none

def counts : Event → List (String × FieldValue)
  | initializationFailed _ _ links handlers =>
      [("chain_links", .count links), ("handlers", .count handlers)]
  | ownerFailed failures => [("failures", .count failures)]
  | scopeReset _ discarded => [("discarded", .count discarded)]
  | tornDown _ actions failures => [("actions", .count actions), ("failures", .count failures)]
  | configLoaded policy => [("teardown_policy", .text policy.name)]
  | _ => []

def fields (event : Event) : List (String × FieldValue) :=
  (event.error?.map fun error => ("error", FieldValue.text error.message)).toList ++ event.counts

end Event

end Relinquish
