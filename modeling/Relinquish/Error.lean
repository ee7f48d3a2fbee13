/-!
What can go wrong: errors of user code, and the errors with which delegates, owners and scopes
report their own failures. An error may have a source; following sources gives its path, and a cause
of a given type is the first error of that type on the path.
-/

namespace Relinquish

inductive ConfigError where
  | unknownPolicy (text : String)
  deriving DecidableEq, Repr

mutual

inductive Error where
  | text (message : String)
  | custom (type : String) (message : String) (number : Option Int) (source : Option Error)
  | config (error : ConfigError)
  | teardown (error : TeardownError)
  | drop (error : DropError)

inductive DropError where
  /-- The initializer failed with `source`; the reactions to it failed with `failures`. -/
  | initialization (source : Error) (failures : List DropError)
  | drop (source : Error)
  | dropChain (source : Error)
  | handler (source : Error)
  | dropped
  | reentrant
  | panicked (message : String)
  | teardown (error : TeardownError)

inductive TeardownError where
  | mk (failures : List Error) (interrupted : Option Error)

end

instance : Inhabited Error := ⟨.text ""⟩

instance : Inhabited DropError := ⟨.dropped⟩

instance : Inhabited TeardownError := ⟨.mk [] none⟩

namespace TeardownError

def failures : TeardownError → List Error
  | mk failures _ => failures

def interrupted : TeardownError → Option Error
  | mk _ interrupted => interrupted

def first (error : TeardownError) : Option Error :=
  error.failures.head?

def interrupting (error : TeardownError) (body : Error) : TeardownError :=
  mk error.failures (some body)

/-- The interrupted error explains a teardown failure best, else the first failure does. -/
def source (error : TeardownError) : Option Error :=
  error.interrupted.or error.first

end TeardownError

namespace DropError

/-- A wrapped teardown error is transparent: its source is that of the error inside. -/
def source : DropError → Option Error
  | initialization source _ | drop source | dropChain source | handler source => some source
  | teardown error => error.source
  | dropped | reentrant | panicked _ => none

def failures : DropError → List DropError
  | initialization _ failures => failures
  | _ => []

def lastFailure (error : DropError) : Option DropError :=
  error.failures.getLast?

def isInitialization : DropError → Bool
  | initialization _ _ => true
  | _ => false

end DropError

inductive Payload where
  | text (message : String)
  | other
  deriving DecidableEq, Repr

def DropError.ofPanic : Payload → DropError
  | .text message => panicked message
  | .other => panicked "unknown panic"

def ConfigError.message : ConfigError → String
  | unknownPolicy text => "unknown teardown policy `" ++ text ++ "` (expected `collect` or `first`)"

def followUps : Nat → String
  | 0 => ""
  | 1 => " (1 follow-up failure)"
  | n => " (" ++ toString n ++ " follow-up failures)"

mutual

def Error.message : Error → String
  | .text message => message
  | .custom _ message _ _ => message
  | .config error => error.message
  | .teardown error => error.message
  | .drop error => error.message

def DropError.message : DropError → String
  | .initialization _ failures => "failed to initialize dropping value" ++ followUps failures.length
  | .drop _ => "drop handler did not complete"
  | .dropChain _ => "drop chain did not complete"
  | .handler _ => "error handler did not complete"
  | .dropped => "value was already dropped"
  | .reentrant => "value requested from inside its own initializer"
  | .panicked message => "teardown action panicked: " ++ message
  | .teardown error => error.message

def TeardownError.message : TeardownError → String
  | .mk [] _ => "scope teardown failed"
  | .mk [only] _ => "scope teardown failed: " ++ only.message
  | .mk (first :: rest) _ =>
      "scope teardown failed: " ++ first.message ++ " (and " ++ toString rest.length ++ " more)"

end

namespace Error

def source : Error → Option Error
  | text _ | config _ => none
  | custom _ _ _ source => source
  | teardown error => error.source
  | drop error => error.source

end Error

theorem TeardownError.sizeOf_source_lt {error : TeardownError} {cause : Error}
    (h : error.source = some cause) : sizeOf cause < sizeOf error := by
  obtain ⟨failures, interrupted⟩ := error
  cases interrupted with
  | some body =>
      obtain rfl : body = cause := by simpa [source, TeardownError.interrupted] using h
      simp +arith
  | none =>
      cases failures with
      | nil => simp [source, TeardownError.interrupted, first, TeardownError.failures] at h
      | cons head rest =>
          obtain rfl : head = cause := by
            simpa [source, TeardownError.interrupted, first, TeardownError.failures] using h
          simp +arith

theorem DropError.sizeOf_source_lt {error : DropError} {cause : Error}
    (h : error.source = some cause) : sizeOf cause < sizeOf error := by
  cases error with
  | teardown inner =>
      have := TeardownError.sizeOf_source_lt (show inner.source = some cause from h)
      simp +arith
      omega
  | dropped | reentrant | panicked => simp [source] at h
  | initialization body _ | drop body | dropChain body | handler body =>
      obtain rfl : body = cause := by simpa [source] using h
      simp +arith

theorem Error.sizeOf_source_lt {error cause : Error} (h : error.source = some cause) :
    sizeOf cause < sizeOf error := by
  cases error with
  | text | config => simp [source] at h
  | custom type message number inner =>
      obtain rfl : inner = some cause := h
      simp +arith
  | teardown inner =>
      have := TeardownError.sizeOf_source_lt (show inner.source = some cause from h)
      simp +arith
      omega
  | drop inner =>
      have := DropError.sizeOf_source_lt (show inner.source = some cause from h)
      simp +arith
      omega

end Relinquish
