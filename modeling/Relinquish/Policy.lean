import Relinquish.Error
import Relinquish.Text.Blank

/-!
What a scope reports when its teardown fails, and how that choice is written as text.
-/

namespace Relinquish

inductive TeardownPolicy where
  | collectAll
  | firstFailure
  deriving DecidableEq, Repr, Inhabited

namespace TeardownPolicy

def normalize (text : String) : String :=
  String.ofList ((Text.trim text.toList).map Text.lower)

def parse (text : String) : Except ConfigError TeardownPolicy :=
  let name := normalize text
  if name = "collect" ∨ name = "collect-all" ∨ name = "all" then
    .ok collectAll
  else if name = "first" ∨ name = "first-failure" then
    .ok firstFailure
  else
    .error (.unknownPolicy name)

/-- The policy that a name asks for. Without a name, or with one that no policy has, all failures are
collected. -/
def named : Option String → TeardownPolicy
  | none => .collectAll
  | some name =>
      match parse name with
      | .ok policy => policy
      | .error _ => .collectAll

def name : TeardownPolicy → String
  | collectAll => "collect"
  | firstFailure => "first"

def label : TeardownPolicy → String
  | collectAll => "CollectAll"
  | firstFailure => "FirstFailure"

theorem parse_name (policy : TeardownPolicy) : parse policy.name = .ok policy := by
  cases policy <;> rfl

end TeardownPolicy

structure ScopeConfig where
  policy : TeardownPolicy := .collectAll
  deriving DecidableEq, Repr, Inhabited

def ScopeConfig.variable : String :=
  "RAKII_TEARDOWN_POLICY"

def ScopeConfig.read : Option String → Except ConfigError ScopeConfig
  | none => .ok {}
  | some raw => (TeardownPolicy.parse raw).map fun policy => { policy }

end Relinquish
