import Relinquish.Script.Failure
import Relinquish.Script.Session
import Relinquish.Text.Quoted

/-!
What an operation of a script results in: a report, and the error it may have come to.
-/

namespace Relinquish.Script

structure Outcome where
  report : Report
  error : Option Error := none

namespace Outcome

def ok : Outcome :=
  ⟨.text "ok", none⟩

def missing : Outcome :=
  ⟨.record [("missing", .bool true)], none⟩

def failed (error : Error) : Outcome :=
  ⟨.record [("err", error.report)], some error⟩

def text (s : String) : Outcome :=
  ⟨.text s, none⟩

def ofUnit : Reply → Outcome
  | .missing => missing
  | .failed error => failed error
  | _ => ok

def ofValue : Reply → Outcome
  | .missing => missing
  | .failed error => failed error
  | .value value => ⟨.record [("v", .text value.text)], none⟩
  | .text content => ⟨.record [("v", .text content)], none⟩
  | _ => missing

def ofAccess (fallback : Bool) (content : String) : Outcome :=
  let origin := if fallback then "Fallback" else "Held"
  { report := .record
      [("v", .text content), ("fallback", .bool fallback),
       ("debug", .text (origin ++ "(Val(" ++ content ++ "))"))] }

def panicReport : Payload → Report
  | .text message => .record [("panic", .text message)]
  | .other => .record [("panic", .null)]

def ofExit (read : Reply → Outcome) : Exit → Outcome
  | .returned reply => read reply
  | .panicked payload => ⟨panicReport payload, none⟩

end Outcome

/-! How objects describe themselves. -/

def valueType : String :=
  "driver::world::Val"

def ownerType : String :=
  "rakii_rt::owner::ScopeOwner"

def describe (name : String) (fields : List (String × String)) : String :=
  let parts := fields.map fun (field, value) => field ++ ": " ++ value
  name ++ " \x7b " ++ String.intercalate ", " parts ++ " \x7d"

def describeList (items : List String) : String :=
  "[" ++ String.intercalate ", " items ++ "]"

def describeNames (names : List String) : String :=
  describeList (names.map Text.quoted)

def describeFlag (flag : Bool) : String :=
  if flag then "true" else "false"

def describeSlot (view : SlotView) : String :=
  describe "DropDelegate"
    [("value_type", Text.quoted valueType),
     ("owner", Text.quoted ownerType),
     ("dropped", describeFlag view.dropped),
     ("initialized", describeFlag view.initialized),
     ("drop_chain", describeNames view.links),
     ("error_handlers", describeNames view.handlers)]

def describeScope (view : ScopeView) : String :=
  describe "DroppingScope" [("pending", toString view.pending), ("policy", view.policy.label)]

def describeDroppable : DroppableView → String
  | .closure => "DropFn(<closure>)"
  | .slot view => describeSlot view
  | .owner => "Owner"
  | .scopeOwner => "ScopeOwner"

def describeGuard : Option DroppableView → String
  | some view => describe "DropGuard" [("value", "Some(" ++ describeDroppable view ++ ")")]
  | none => describe "DropGuard" [("value", "None")]

/-! What the log holds of events. -/

def reportField : FieldValue → Report
  | .count n => .nat n
  | .text s => .text s

def reportEvent (event : Event) : Report :=
  .record
    [("ev", .text event.level.name),
     ("msg", .text event.message),
     ("fields", .record (event.fields.map fun (name, value) => (name, reportField value)))]

end Relinquish.Script
