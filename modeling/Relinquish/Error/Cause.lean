import Relinquish.Error

/-!
Types of errors and causes. `Error.path` lists an error and its sources, nearest first;
`Error.find` walks the sources until it meets an error of the wanted type.
-/

namespace Relinquish

inductive ErrorType where
  | custom (name : String)
  | config
  | teardown
  | drop
  deriving DecidableEq, Repr

def ErrorType.name : ErrorType → String
  | custom name => name
  | config => "rakii_rt::error::ConfigError"
  | teardown => "rakii_rt::error::TeardownError"
  | drop => "rakii_rt::error::DropError"

def Error.type : Error → Option ErrorType
  | text _ => none
  | custom name _ _ _ => some (.custom name)
  | config _ => some .config
  | teardown _ => some .teardown
  | drop _ => some .drop

def Error.isA (error : Error) (type : ErrorType) : Bool :=
  error.type == some type

mutual

def Error.causes : Error → List Error
  | .text _ | .config _ => []
  | .custom _ _ _ none => []
  | .custom _ _ _ (some cause) => cause :: cause.causes
  | .teardown error => error.causes
  | .drop error => error.causes

def DropError.causes : DropError → List Error
  | .initialization cause _ | .drop cause | .dropChain cause | .handler cause =>
      cause :: cause.causes
  | .teardown error => error.causes
  | .dropped | .reentrant | .panicked _ => []

def TeardownError.causes : TeardownError → List Error
  | .mk _ (some body) => body :: body.causes
  | .mk (first :: _) none => first :: first.causes
  | .mk [] none => []

end

def Error.path (error : Error) : List Error :=
  error :: error.causes

/-- The nearest error of a type: the error itself, or the first such error behind it. -/
def Error.find (type : ErrorType) (error : Error) : Option Error :=
  if error.isA type then
    some error
  else
    match _found : error.source with
    | none => none
    | some cause => cause.find type
termination_by sizeOf error
decreasing_by exact Error.sizeOf_source_lt ‹_›

def DropError.findCause (type : ErrorType) (error : DropError) : Option Error :=
  (Error.drop error).find type

theorem TeardownError.causes_eq (error : TeardownError) :
    error.causes = (error.source.map Error.path).getD [] := by
  obtain ⟨failures, interrupted⟩ := error
  cases interrupted <;> cases failures <;>
    simp [causes, source, TeardownError.interrupted, first, TeardownError.failures, Error.path]

theorem DropError.causes_eq (error : DropError) :
    error.causes = (error.source.map Error.path).getD [] := by
  cases error <;> simp [causes, source, Error.path, TeardownError.causes_eq]

theorem Error.causes_eq (error : Error) : error.causes = (error.source.map Error.path).getD [] := by
  cases error with
  | custom type message number cause => cases cause <;> simp [causes, source, path]
  | _ => simp [causes, source, TeardownError.causes_eq, DropError.causes_eq]

end Relinquish
