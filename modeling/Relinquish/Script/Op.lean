import Relinquish.Code
import Relinquish.Report

/-!
Scripts: lists of operations on named objects. Every piece of user code that a script hands to the
library is itself a script.
-/

namespace Relinquish.Script

inductive Test where
  | always (holds : Bool)
  | contains (text : String)
  | numberAtLeast (number : Int)
  | sourcesAtLeast (count : Int)

inductive KindSpec where
  | any
  | of (type : ErrorType)
  | exact (type : ErrorType)
  | custom (name : String) (test : Test)

inductive Release where
  | handler
  | value
  | nothing
  deriving DecidableEq

mutual

inductive Op where
  | say (message : Report)
  | nap
  | fail (error : Error)
  | panic (payload : Payload)
  | attempt (script : List Step)
  | thread (script : List Step)
  | race (delegate : String) (get : Bool) (threads : Nat)
  | showError (error : Error)
  | findCause (type : ErrorType) (error : Error)
  | showKind (kind : KindSpec) (errors : List Error)
  | showPolicy (text : String)
  | config (settings : List (String × String)) (override : Option TeardownPolicy)
  | environment (value : Option String) (override : Option TeardownPolicy)
  | newDelegate (delegate : String) (release : Release) (attempts : List Attempt)
      (script : List Step)
  | registerDelegate (scope delegate : String) (release : Release) (attempts : List Attempt)
      (script : List Step)
  | cloneDelegate (delegate target : String)
  | copyDelegate (delegate target : String) (withValue : Bool)
  | get (delegate : String)
  | drop (delegate : String)
  | peek (delegate : String)
  | use (delegate : String) (script : List Step)
  | hold (delegate name : String)
  | read (name : String)
  | state (delegate : String)
  | sameSlot (delegate other : String)
  | showDelegate (delegate : String)
  | chain (delegate : String) (kind : KindSpec) (link : DroppableSpec)
  | onKind (delegate : String) (kind : KindSpec) (label : String) (script : List Step)
  | onType (delegate : String) (type : ErrorType) (label : String) (script : List Step)
  | forget (delegate : String)
  | nullAccessor (delegate name : String)
  | fallbackAccessor (delegate name : String) (result : String) (script : List Step)
  | access (name : String)
  | dropAccessor (name : String)
  | newScope (scope : String) (policy : TeardownPolicy)
  | dropScope (scope : String)
  | defer (scope : String) (canFail : Bool) (script : List Step)
  | adopt (scope delegate : String)
  | reset (scope : String)
  | size (scope : String)
  | showScope (scope : String)
  | runAll (scope : String) (listFailures : Bool)
  | deferring (scope : String) (config : ScopeConfig) (result : String) (script : List Step)
  | newOwner (owner : String) (slots : List DroppableSpec)
  | dropOwner (owner : String)
  | newGuard (guard : String) (content : DroppableSpec)
  | releaseGuard (guard : String)
  | dropGuard (guard : String)
  | dropThroughGuard (guard : String)
  | disarmGuard (guard name : String)
  | keep (name : String) (content : DroppableSpec)
  | dropKept (name : String)
  | newRegistry (registry : String)
  | register (registry : String) (kind : KindSpec) (number : Int)
  | select (registry : String) (error : Error)
  | snapshot (registry target : String)
  | showRegistry (registry : String)
  | unknown

/-- An operation under the name by which the log mentions it; the error of one that is tried ends
its script. -/
inductive Step where
  | mk (name : String) (tried : Bool) (op : Op)

/-- One run of an initializer: a script, and then a text in which `%n` stands for the number of the
run. -/
inductive Attempt where
  | mk (script : List Step) (result : String)

inductive DroppableSpec where
  | action (script : List Step)
  | delegate (name : String)
  | owner (slots : List DroppableSpec)
  | scopeOwner

end

instance : Inhabited Op := ⟨.unknown⟩

instance : Inhabited DroppableSpec := ⟨.scopeOwner⟩

end Relinquish.Script
