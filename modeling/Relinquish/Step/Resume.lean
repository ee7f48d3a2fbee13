import Relinquish.Step.Work

/-!
How what waits goes on: the step of the top frame once what is above it has ended.
-/

namespace Relinquish

variable {σ ν : Type}

def Exit.ofRelease : Exit → Exit
  | returned reply =>
      match reply.error? with
      | some error => returned (.failed (.drop (.drop error)))
      | none => returned .done
  | panicked payload => panicked payload

def Exit.failure? : Exit → Option Error
  | returned reply => reply.error?
  | panicked payload => some (.drop (.ofPanic payload))

def Reply.teardown? : Reply → Option TeardownError
  | failed (.teardown error) => some error
  | _ => none

def Exit.afterTeardown (outcome : Exit) (teardown : Option TeardownError) : Exit :=
  match outcome, teardown with
  | outcome, none => outcome
  | panicked payload, some _ => panicked payload
  | returned reply, some error =>
      match reply.error? with
      | some body => returned (.failed (.drop (.teardown (error.interrupting body))))
      | none => returned (.failed (.drop (.teardown error)))

def Exit.unwindingEvents (outcome : Exit) (scope : ScopeId) (teardown : Option TeardownError) :
    List Event :=
  match outcome, teardown with
  | panicked _, some error => [.unwindingFailed scope (.teardown error)]
  | _, _ => []

namespace World

def initializerEnded (world : World σ ν) (s : SlotId) (exit : Exit) : Option (Move σ ν) :=
  let world := world.updateSlot s fun slot => { slot with initializing := false }
  let world := world.act (.initializerEnded s exit)
  match exit with
  | .panicked payload => world.go (.leave s (.finish (.panicked payload)))
  | .returned reply =>
      match reply.error? with
      | some error => world.go (.leave s (.consult (.links s) error))
      | none =>
          let (world, value) := world.makeValue reply.content
          (world.act (.produced s value)).go (.lockValue s value)

def configRead (world : World σ ν) (announced : Bool) (raw : Option String) : Option (Move σ ν) :=
  let announce (world : World σ ν) (config : ScopeConfig) : World σ ν :=
    if announced then world.emit (.configLoaded config.policy) else world
  match ScopeConfig.read raw with
  | .ok config => (announce world config).answer (.config config)
  | .error error =>
      (announce (world.emit (.policyIgnored (.config error))) {}).answer (.config {})

end World

def Frame.resume (world : World σ ν) (exit : Exit) : Frame σ ν → Option (Move σ ν)
  | .calling next =>
      match exit with
      | .returned reply => world.run [] (next reply)
      | .panicked _ => world.go (.finish exit)
  | .attempted next => world.run [] (next exit)
  | .joined starter next =>
      some { world, control := .code (next exit), thread := some starter }
  | .holding handles => world.go (.letGo handles exit)
  | .looking s => (world.act (.lookedUp s exit)).go (.finish exit)
  | .initializing s => world.initializerEnded s exit
  | .releasingLate s _ =>
      match exit with
      | .panicked _ => world.go (.finish exit)
      | .returned reply =>
          (world.emitAll (reply.error?.map (.lateReleaseFailed s)).toList).answer
            (.failed (.drop .dropped))
  | .judging selection error place rest places =>
      match exit with
      | .panicked _ => (world.unlock selection.lock).go (.finish exit)
      | .returned reply =>
          let places := if reply.accepts then places ++ [place] else places
          world.go (.sift selection error rest places)
  | .linking s error rest handlers failures =>
      match exit with
      | .panicked _ => world.go (.finish exit)
      | .returned reply =>
          match reply.error? with
          | none => world.go (.links s error rest handlers failures)
          | some failure =>
              (world.emit (.linkFailed s failure)).go
                (.links s error rest handlers (failures ++ [.dropChain failure]))
  | .handling s error rest failures =>
      match exit with
      | .panicked _ => world.go (.finish exit)
      | .returned reply =>
          match reply.error? with
          | none => world.go (.handlers s error rest failures)
          | some failure =>
              (world.emit (.handlerFailed s failure)).go
                (.handlers s error rest (failures ++ [.handler failure]))
  | .releasing s _ => world.endDrop s exit.ofRelease
  | .owning rest failures =>
      match exit with
      | .panicked _ => world.go (.finish exit)
      | .returned reply => world.go (.disposeAll rest (failures ++ reply.error?.toList))
  | .cloning copy =>
      match exit with
      | .panicked _ => world.go (.letGo [.slot copy] exit)
      | .returned reply =>
          let (world, value) := world.makeValue reply.content
          let world := world.updateSlot copy fun slot => { slot with value := some value }
          (world.act (.cloned copy value)).go (.deliver copy)
  | .getting use =>
      match exit with
      | .returned (.value value) => world.run [.using value] (use value)
      | _ => world.go (.finish exit)
  | .using value =>
      match exit with
      | .returned reply => world.answer (.applied value reply)
      | .panicked _ => world.go (.finish exit)
  | .orNone s =>
      match exit with
      | .returned (.failed error) => (world.emit (.noneYielded s error)).answer .nothing
      | _ => world.go (.finish exit)
  | .orElse s fallback =>
      match exit with
      | .returned (.failed error) =>
          (world.emit (.fallbackUsed s error)).run [.fallingBack s] fallback
      | .returned (.value value) => world.answer (.held value)
      | _ => world.go (.finish exit)
  | .fallingBack s =>
      match exit with
      | .returned reply =>
          let (world, value) := world.makeValue reply.content
          (world.act (.fellBack s value)).answer (.fallback value)
      | .panicked _ => world.go (.finish exit)
  | .tearing sc rest ran failures =>
      world.go (.batch sc rest ran (failures ++ exit.failure?.toList))
  | .vanishing sc rest outcome =>
      match exit with
      | .panicked _ => world.go (.finish exit)
      | .returned reply =>
          (world.emitAll (reply.error?.map (.scopeFailed sc)).toList).go (.letGo rest outcome)
  | .body sc => world.push [.closing sc exit] (.drain sc 0 [])
  | .closing sc outcome =>
      match exit with
      | .panicked _ => world.go (.finish exit)
      | .returned reply =>
          let teardown := reply.teardown?
          let world := world.emitAll (outcome.unwindingEvents sc teardown)
          let world := world.updateScope sc fun scope => { scope with lent := false }
          world.go (.letGo [.scope sc] (outcome.afterTeardown teardown))
  | .through g =>
      (world.updateGuard g fun guard => { guard with uses := guard.uses - 1 }).go (.finish exit)
  | .expiring g => Guard.close g exit (world.endGuard g) (world.guard g).droppable
  | .guarding g outcome =>
      match exit with
      | .panicked _ => world.go (.finish exit)
      | .returned reply =>
          (world.emitAll (reply.error?.map (.guardFailed g)).toList).go (.finish outcome)
  | .reading announced =>
      match exit with
      | .panicked _ => world.go (.finish exit)
      | .returned reply => world.configRead announced reply.text?
  | .matched =>
      match exit with
      | .panicked _ => world.go (.finish exit)
      | .returned reply => world.answer (.verdict reply.accepts)

end Relinquish
