import Relinquish.Report
import Relinquish.Policy
import Relinquish.Error.Cause

/-!
The errors that scripts can build, and how errors are reported.
-/

namespace Relinquish

inductive UserType where
  | illegalState
  | illegalArgument
  | code
  | wrap
  deriving DecidableEq, Repr

def UserType.all : List UserType :=
  [illegalState, illegalArgument, code, wrap]

def UserType.name : UserType → String
  | illegalState => "driver::errors::IllegalState"
  | illegalArgument => "driver::errors::IllegalArgument"
  | code => "driver::errors::Code"
  | wrap => "driver::errors::Wrap"

def UserType.label : UserType → String
  | illegalState => "A"
  | illegalArgument => "B"
  | code => "Code"
  | wrap => "Wrap"

def UserType.type (type : UserType) : ErrorType :=
  .custom type.name

namespace Error

def illegalState (message : String) : Error :=
  .custom UserType.illegalState.name ("illegal state: " ++ message) none none

def illegalArgument (message : String) : Error :=
  .custom UserType.illegalArgument.name ("illegal argument: " ++ message) none none

def code (number : Int) : Error :=
  .custom UserType.code.name ("code " ++ toString number) (some number) none

def wrap (message : String) (source : Error) : Nat → Error
  | 0 => source
  | times + 1 => .custom UserType.wrap.name message none (some (wrap message source times))

def asReaction : Error → DropError
  | .drop error => error
  | error => .handler error

end Error

def TeardownError.ofFailures (policy : TeardownPolicy) (failures : List Error)
    (interrupted : Option Error) : TeardownError :=
  match policy with
  | .collectAll => mk failures interrupted
  | .firstFailure => mk (failures.take 1) interrupted

def UserType.ofName? (name : String) : Option UserType :=
  UserType.all.find? fun type => type.name = name

def Error.label : Error → String
  | .text _ => "Str"
  | .custom name _ _ _ => ((UserType.ofName? name).map UserType.label).getD "Str"
  | .config _ => "Config"
  | .teardown _ => "Teardown"
  | .drop _ => "Drop"

def DropError.label : DropError → String
  | initialization _ _ => "Initialization"
  | drop _ => "Drop"
  | dropChain _ => "DropChain"
  | handler _ => "Handler"
  | dropped => "Dropped"
  | reentrant => "Reentrant"
  | panicked _ => "Panicked"
  | teardown _ => "Teardown"

namespace Report

def ofOption : Option Report → Report
  | some report => report
  | none => null

def ofText? (text? : Option String) : Report :=
  ofOption (text?.map text)

def nat (n : Nat) : Report :=
  int n

end Report

def Error.outline (error : Error) : List (String × Report) :=
  [("t", .text error.label),
   ("msg", .text error.message),
   ("chain", .list (error.causes.map fun cause => .list [.text cause.label, .text cause.message]))]

def DropError.outline (error : DropError) : List (String × Report) :=
  (Error.drop error).outline ++
    [("v", .text error.label),
     ("init", .bool error.isInitialization),
     ("last", .ofText? (error.lastFailure.map DropError.message))]

mutual

def Error.report : Error → Report
  | .teardown error => .record ((Error.teardown error).outline ++ error.parts)
  | .drop error => error.report
  | .text message => .record (Error.text message).outline
  | .custom type message number source =>
      .record (Error.custom type message number source).outline
  | .config error => .record (Error.config error).outline

def DropError.report : DropError → Report
  | .initialization source failures =>
      .record ((DropError.initialization source failures).outline ++
        [("follow", .list (DropError.reports failures))])
  | .teardown error =>
      .record ((DropError.teardown error).outline ++ [("follow", .list [])] ++ error.parts)
  | .drop source => .record ((DropError.drop source).outline ++ [("follow", .list [])])
  | .dropChain source => .record ((DropError.dropChain source).outline ++ [("follow", .list [])])
  | .handler source => .record ((DropError.handler source).outline ++ [("follow", .list [])])
  | .dropped => .record (DropError.dropped.outline ++ [("follow", .list [])])
  | .reentrant => .record (DropError.reentrant.outline ++ [("follow", .list [])])
  | .panicked message => .record ((DropError.panicked message).outline ++ [("follow", .list [])])

def TeardownError.parts : TeardownError → List (String × Report)
  | .mk failures interrupted =>
      [("fails", .list (Error.reports failures)),
       ("first", .ofText? ((TeardownError.mk failures interrupted).first.map Error.message)),
       ("int", match interrupted with
         | some body => body.report
         | none => .null)]

def Error.reports : List Error → List Report
  | [] => []
  | error :: rest => error.report :: Error.reports rest

def DropError.reports : List DropError → List Report
  | [] => []
  | error :: rest => error.report :: DropError.reports rest

end

end Relinquish
