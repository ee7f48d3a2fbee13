import Relinquish.Script.Object
import Relinquish.Step.Resume

/-!
Running scripts. `exec` runs one operation and gives its outcome; `runScript` is a script as a piece
of user code, which ends as its operations tell.
-/

namespace Relinquish.Script

open Program

def silentNames : List String :=
  ["say", "fail", "nap"]

def Program.resume (exit : Exit) : Program Reply :=
  match exit with
  | .returned reply => pure reply
  | .panicked payload => panic payload

def Program.ignoreError (reply : Reply) : Program Unit :=
  match reply.error? with
  | some error => log [("ignored", .text error.message)]
  | none => pure ()

def Program.run (code : Code Session Note) : Program Reply := do
  Program.resume (← attempt code)

def Program.nested (code : Code Session Note) : Program Reply := do
  update fun session => { session with depth := session.depth + 1 }
  let exit ← attempt code
  update fun session => { session with depth := session.depth - 1 }
  Program.resume exit

def Program.asScript (code : Code Session Note) : Program Reply := do
  let session ← session
  if Session.depthLimit ≤ session.depth then
    log [("skip", .text "depth")]
    pure .done
  else
    nested code

/-- Takes one unit of fuel for an operation, which is skipped if there is none. -/
def Program.fueled (program : Program Outcome) : Program Outcome := do
  let session ← session
  match session.fuel with
  | 0 => pure ⟨.record [("skip", .text "fuel")], none⟩
  | fuel + 1 =>
      update fun session => { session with fuel }
      program

def Program.matchAll (kind : Kind Session Note) : List Error → Program (List Report)
  | [] => pure []
  | error :: rest => do
      let reply ← call (.matchKind kind error)
      pure (.bool reply.accepts :: (← matchAll kind rest))

def Program.race (request : Call Session Note) (read : Reply → Outcome) :
    Nat → Program (List Report)
  | 0 => pure []
  | threads + 1 => do
      let exit ← elsewhere (.call request .ret)
      pure ((Outcome.ofExit read exit).report :: (← race request read threads))

def Program.readConfig (lookup : String → Code Session Note) (announced : Bool)
    (override : Option TeardownPolicy) : Program Outcome := do
  match ← call (.loadConfig lookup announced) with
  | .config config =>
      let config : ScopeConfig := { policy := override.getD config.policy }
      pure
        { report := .record
            [("policy", .text config.policy.name),
             ("default", .bool (config = {}))] }
  | _ => pure .missing

def releaseCode (delegate : String) (release : Release) (script : Code Session Note)
    (value : Value) : Code Session Note :=
  match release with
  | .handler => Program.code do
      log [("drop", .text delegate), ("v", .text value.text)]
      run script
  | .value => Program.code do
      log [("close", .text value.text)]
      run script
  | .nothing => .ret .done

def cloneCode (value : Value) : Code Session Note :=
  Program.code do
    log [("clone", .text value.text)]
    pure (.text value.text)

mutual

def exec : Op → Program Outcome
  | .say message => do
      log [("say", message)]
      pure .ok
  | .nap => pure .ok
  | .fail error => pure (.failed error)
  | .panic payload => panic payload
  | .attempt script => do
      pure (.ofExit .ofUnit (← attempt (runScript script)))
  | .thread script => do
      pure (.ofExit .ofUnit (← elsewhere (runScript script)))
  | .race delegate get threads =>
      withNamed Session.delegates delegate fun s => do
        note .gather
        let _ ← call (.cloneHandle s)
        let reports ← if get then race (.getValue s) .ofValue threads
          else race (.dropSlot s) .ofUnit threads
        note .gathered
        let _ ← call (.forgetHandle s)
        pure { report := .list (Report.sort reports) }
  | .showError error => pure { report := error.report }
  | .findCause type error =>
      let cause := match error with
        | .drop error => Report.ofText? ((error.findCause type).map Error.message)
        | _ => .text "not a DropError"
      pure
        { report := .record
            [("found", .ofText? ((error.find type).map Error.message)), ("cause", cause)] }
  | .showKind spec errors => do
      let kind := spec.kind
      let found ← matchAll kind errors
      pure
        { report := .record
            [("name", .text kind.name), ("any", .bool kind.isAny), ("show", .text kind.name),
             ("debug", .text ("ErrorKind(" ++ Text.quoted kind.name ++ ")")),
             ("clone", .text kind.name), ("matches", .list found)] }
  | .showPolicy text =>
      match TeardownPolicy.parse text with
      | .ok policy =>
          pure
            { report := .record
                [("show", .text policy.name), ("debug", .text policy.label),
                 ("default", .bool (policy = .collectAll))] }
      | .error error => pure { report := .record [("err", (Error.config error).report)] }
  | .config settings override =>
      let lookup (name : String) : Code Session Note :=
        Program.code do
          log [("lookup", .text name)]
          pure (((settings.lookup name).map Reply.text).getD .nothing)
      readConfig lookup false override
  | .environment value override =>
      readConfig (fun _ => .ret ((value.map Reply.text).getD .nothing)) true override
  | .newDelegate delegate release attempts script => do
      let counter ← makeCounter
      let made ← call (.newSlot (releaseCode delegate release (runScript script))
        (Program.code do
          let n ← count counter
          log [("init", .text delegate), ("n", .nat n)]
          run (runAttempt attempts (n - 1) n)))
      withMade made fun s => do
        bindDelegate delegate s
        pure .ok
  | .registerDelegate scope delegate release attempts script =>
      withNamed Session.scopes scope fun ref => do
        let counter ← makeCounter
        let made ← call (.registerSlot ref.scope (releaseCode delegate release (runScript script))
          (Program.code do
            let n ← count counter
            log [("init", .text delegate), ("n", .nat n)]
            run (runAttempt attempts (n - 1) n)))
        withMade made fun s => do
          bindDelegate delegate s
          pure .ok
  | .cloneDelegate delegate target =>
      withNamed Session.delegates delegate fun s => do
        withMade (← call (.cloneHandle s)) fun s => do
          bindDelegate target s
          pure .ok
  | .copyDelegate delegate target withValue =>
      withNamed Session.delegates delegate fun s => do
        let cloner := if withValue then some cloneCode else none
        withMade (← call (.copySlot s cloner)) fun copy => do
          bindDelegate target copy
          pure .ok
  | .get delegate =>
      withNamed Session.delegates delegate fun s => do
        pure (.ofValue (← call (.getValue s)))
  | .drop delegate =>
      withNamed Session.delegates delegate fun s => do
        pure (.ofUnit (← call (.dropSlot s)))
  | .peek delegate =>
      withNamed Session.delegates delegate fun s => do
        match ← call (.peek s) with
        | .value value => pure (.text value.text)
        | _ => pure ⟨.null, none⟩
  | .use delegate script =>
      withNamed Session.delegates delegate fun s => do
        match ← call (.withValue s fun _ => runScript script) with
        | .applied value reply =>
            let did := Outcome.ofUnit reply
            pure ⟨.record [("v", .text value.text), ("did", did.report)], did.error⟩
        | reply => pure (.ofUnit reply)
  | .hold delegate name =>
      withNamed Session.delegates delegate fun s => do
        match ← call (.peek s) with
        | .value value =>
            update fun session => { session with values := session.values.bind name value.text }
            pure .ok
        | _ => pure .missing
  | .read name => withNamed Session.values name fun text => pure (.text text)
  | .state delegate =>
      withNamed Session.delegates delegate fun s => do
        match ← call (.inspectSlot s) with
        | .slot view =>
            pure
              { report := .record
                  [("dropped", .bool view.dropped), ("initialized", .bool view.initialized),
                   ("chain", .nat view.links.length), ("handlers", .nat view.handlers.length)] }
        | _ => pure .missing
  | .sameSlot delegate other =>
      withNamed Session.delegates delegate fun s =>
        withNamed Session.delegates other fun t =>
          pure { report := .bool (s = t) }
  | .showDelegate delegate =>
      withNamed Session.delegates delegate fun s => do
        match ← call (.inspectSlot s) with
        | .slot view => pure (.text (describeSlot view))
        | _ => pure .missing
  | .chain delegate kind link =>
      withNamed Session.delegates delegate fun s => do
        let session ← session
        match droppable session.delegates link with
        | some link => do
            pure (.ofUnit (← call (.dropOnError s kind.kind link)))
        | none => pure .missing
  | .onKind delegate kind label script =>
      withNamed Session.delegates delegate fun s => do
        pure (.ofUnit (← call (.callOnError s kind.kind fun error =>
          Program.code do
            log [("handler", .text label), ("e", error.report)]
            run (runScript script))))
  | .onType delegate type label script =>
      withNamed Session.delegates delegate fun s => do
        pure (.ofUnit (← call (.callOnType s type fun error =>
          Program.code do
            log [("handler", .text label), ("e", .text error.message)]
            run (runScript script))))
  | .forget delegate =>
      withNamed Session.delegates delegate fun s => do
        update fun session => { session with delegates := session.delegates.unbind delegate }
        forgetSlot (some s)
        pure .ok
  | .nullAccessor delegate name =>
      withNamed Session.delegates delegate fun s => do
        withMade (← call (.newAccessor s none)) fun a => do
          bindAccessor name a
          pure .ok
  | .fallbackAccessor delegate name result script =>
      withNamed Session.delegates delegate fun s => do
        let fallback := Program.code do
          log [("fallback", .text result)]
          ignoreError (← run (runScript script))
          pure (.text result)
        withMade (← call (.newAccessor s (some fallback))) fun a => do
          bindAccessor name a
          pure .ok
  | .access name =>
      withNamed Session.accessors name fun a => do
        match ← call (.access a) with
        | .nothing => pure ⟨.null, none⟩
        | .value value => pure (.text value.text)
        | .held value => pure (.ofAccess false value.text)
        | .fallback value => pure (.ofAccess true value.text)
        | _ => pure .missing
  | .dropAccessor name =>
      withNamed Session.accessors name fun a => do
        pure (.ofUnit (← call (.dropAccessed a)))
  | .newScope scope policy => do
      withMade (← call (.newScope policy)) fun sc => do
        bindScope scope ⟨sc, false⟩
        pure .ok
  | .dropScope scope =>
      withNamed Session.scopes scope fun ref => do
        update fun session => { session with scopes := session.scopes.unbind scope }
        forgetScope (some ref)
        pure .ok
  | .defer scope canFail script =>
      withNamed Session.scopes scope fun ref => do
        let action := if canFail then runScript script else
          Program.code do
            ignoreError (← run (runScript script))
            pure .done
        pure (.ofUnit (← call (.defer ref.scope action)))
  | .adopt scope delegate =>
      withNamed Session.scopes scope fun ref =>
        withNamed Session.delegates delegate fun s => do
          withMade (← call (.adopt ref.scope s)) fun t =>
            pure { report := .record [("same", .bool (s = t))] }
  | .reset scope =>
      withNamed Session.scopes scope fun ref => do
        pure (.ofUnit (← call (.resetScope ref.scope)))
  | .size scope =>
      withNamed Session.scopes scope fun ref => do
        match ← call (.inspectScope ref.scope) with
        | .scope view =>
            pure
              { report := .record
                  [("len", .nat view.pending), ("empty", .bool (view.pending = 0)),
                   ("policy", .text view.policy.name)] }
        | _ => pure .missing
  | .showScope scope =>
      withNamed Session.scopes scope fun ref => do
        match ← call (.inspectScope ref.scope) with
        | .scope view => pure (.text (describeScope view))
        | _ => pure .missing
  | .runAll scope listFailures =>
      withNamed Session.scopes scope fun ref => do
        let reply ← call (.runAll ref.scope)
        match reply.teardown?, listFailures with
        | some error, true =>
            pure { report := .list (error.failures.map fun error => .text error.message) }
        | _, _ => pure (.ofUnit reply)
  | .deferring scope config result script => do
      let before ← session
      let exit ← attempt (.call (.deferring config fun sc =>
        Program.code do
          update fun session => { session with scopes := session.scopes.bind scope ⟨sc, true⟩ }
          let reply ← run (runScript script)
          pure (if reply.error?.isSome then reply else .text result)) .ret)
      restoreScope scope (before.scopes.find scope)
      pure (.ofValue (← Program.resume exit))
  | .newOwner owner slots => do
      let session ← session
      match droppables session.delegates slots with
      | some slots =>
          withMade (← call (.keep (.owner slots))) fun p => do
            bindOwner owner p
            pure .ok
      | none => pure .missing
  | .dropOwner owner =>
      withNamed Session.owners owner fun p => do
        pure (.ofUnit (← call (.dispose p)))
  | .newGuard guard content => do
      let session ← session
      match droppable session.delegates content with
      | some content =>
          withMade (← call (.newGuard content)) fun g => do
            bindGuard guard g
            pure .ok
      | none => pure .missing
  | .releaseGuard guard =>
      takeGuard guard fun g => do
        pure (.ofUnit (← call (.releaseGuard g)))
  | .dropGuard guard =>
      takeGuard guard fun g => do
        pure (.ofUnit (← call (.forgetGuard g)))
  | .dropThroughGuard guard =>
      takeGuard guard fun g => do
        let exit ← attempt (.call (.dropThrough g) .ret)
        let shown ← call (.inspectGuard g)
        bindGuard guard g
        let did := Outcome.ofUnit (← Program.resume exit)
        match shown with
        | .guarded view =>
            pure
              ⟨.record [("r", did.report), ("debug", .text (describeGuard view))], did.error⟩
        | _ => pure .missing
  | .disarmGuard guard name =>
      takeGuard guard fun g => do
        withMade (← call (.disarmGuard g)) fun p => do
          bindParcel name p
          pure .ok
  | .keep name content => do
      let session ← session
      match droppable session.delegates content with
      | some content =>
          withMade (← call (.keep content)) fun p => do
            bindParcel name p
            pure .ok
      | none => pure .missing
  | .dropKept name =>
      withNamed Session.parcels name fun p => do
        pure (.ofUnit (← call (.dispose p)))
  | .newRegistry registry => do
      withMade (← call .newRegistry) fun r => do
        update fun session => { session with registries := session.registries.bind registry r }
        pure .ok
  | .register registry kind number =>
      withNamed Session.registries registry fun r => do
        pure (.ofUnit (← call (.register r kind.kind number)))
  | .select registry error =>
      withNamed Session.registries registry fun r => do
        match ← call (.select r error) with
        | .numbers numbers => pure { report := .list (numbers.map Report.int) }
        | _ => pure .missing
  | .snapshot registry target =>
      withNamed Session.registries registry fun r => do
        withMade (← call (.snapshotRegistry r)) fun copy => do
          update fun session => { session with registries := session.registries.bind target copy }
          pure .ok
  | .showRegistry registry =>
      withNamed Session.registries registry fun r => do
        match ← call (.inspectRegistry r) with
        | .names names =>
            pure
              { report := .record
                  [("len", .nat names.length), ("empty", .bool names.isEmpty),
                   ("debug", .text (describeNames names))] }
        | _ => pure .missing
  | .unknown => pure .missing

def runScript : List Step → Code Session Note
  | [] => .ret .done
  | step :: rest => Program.code (asScript (runSteps (step :: rest)))

def runSteps : List Step → Code Session Note
  | [] => .ret .done
  | .mk name tried op :: rest =>
      fueled (exec op) fun outcome =>
        let next : Code Session Note :=
          match outcome.error, tried || name = "fail" with
          | some error, true => .ret (.failed error)
          | _, _ => runSteps rest
        if silentNames.contains name then next
        else log [("op", .text name), ("r", outcome.report)] fun _ => next

/-- The run of an initializer with the given number, for which so many attempts are passed over;
the last attempt serves all later runs. -/
def runAttempt : List Attempt → Nat → Nat → Code Session Note
  | [], _, _ => .ret (.text "v")
  | .mk script result :: rest, skipped, n =>
      if rest.isEmpty || skipped = 0 then
        Program.code do
          let reply ← run (runScript script)
          pure (if reply.error?.isSome then reply else .text (result.replace "%n" (toString n)))
      else
        runAttempt rest (skipped - 1) n

def droppable (names : Names SlotId) : DroppableSpec → Option (Droppable Session Note)
  | .action script => some (.action (runScript script))
  | .delegate name => (names.find name).map .slot
  | .owner slots => (droppables names slots).map .owner
  | .scopeOwner => some .scopeOwner

def droppables (names : Names SlotId) : List DroppableSpec → Option (List (Droppable Session Note))
  | [] => some []
  | spec :: rest =>
      match droppable names spec, droppables names rest with
      | some first, some others => some (first :: others)
      | _, _ => none

end

end Relinquish.Script
