import Relinquish.Step.Start

/-!
How the library works: the next atomic step of every task. Locks are taken and given back in steps
of their own, and each step reads or writes one thing that other threads can see, so that threads
can be interleaved between any two of them.
-/

namespace Relinquish

variable {σ ν : Type}

def Slot.held (slot : Slot σ ν) : List Handle :=
  slot.links.entries.flatMap fun (_, link) => link.handles

namespace World

def enterSlot (world : World σ ν) (s : SlotId) (thread : ThreadId) : Option (World σ ν) :=
  match (world.slot s).entered with
  | none => some (world.updateSlot s fun slot => { slot with entered := some (thread, 1) })
  | some (owner, depth) =>
      if owner = thread then
        some (world.updateSlot s fun slot => { slot with entered := some (owner, depth + 1) })
      else
        none

def leaveSlot (world : World σ ν) (s : SlotId) : World σ ν :=
  world.updateSlot s fun slot =>
    { slot with
      entered := slot.entered.bind fun (owner, depth) =>
        if depth ≤ 1 then none else some (owner, depth - 1) }

def endDrop (world : World σ ν) (s : SlotId) (exit : Exit) : Option (Move σ ν) :=
  (world.act (.dropEnded s exit)).go (.finish exit)

/-- A slot whose last hold has gone warns if it has a value, which goes with it. -/
def discardSlot (world : World σ ν) (s : SlotId) : World σ ν :=
  match (world.slot s).value with
  | some value =>
      ((world.updateSlot s fun slot => { slot with value := none }).act (.lost s value)).emit
        (.abandoned s)
  | none => world

def kinds (world : World σ ν) : Selection σ ν → List (Nat × Kind σ ν)
  | .links s => (world.slot s).links.kinds
  | .handlers s _ => (world.slot s).handlers.kinds
  | .numbers r => (world.registry r).kinds

def proceed (world : World σ ν) (selection : Selection σ ν) (error : Error) (places : List Nat) :
    Option (Move σ ν) :=
  match selection with
  | .links s => world.go (.consult (.handlers s ((world.slot s).links.pick places)) error)
  | .handlers s links =>
      let handlers := (world.slot s).handlers.pick places
      (world.emit (.initializationFailed s error links.length handlers.length)).go
        (.links s error links handlers [])
  | .numbers r =>
      world.answer (.numbers (((world.registry r).pick places).map fun (_, number) => number))

def ask (world : World σ ν) (selection : Selection σ ν) (error : Error) (place : Nat)
    (kind : Kind σ ν) (rest : List (Nat × Kind σ ν)) (places : List Nat) : Option (Move σ ν) :=
  match kind.judge error with
  | .inl true => world.go (.sift selection error rest (places ++ [place]))
  | .inl false => world.go (.sift selection error rest places)
  | .inr code => world.run [.judging selection error place rest places] code

def copySlot (world : World σ ν) (s : SlotId) : World σ ν × SlotId :=
  let source := world.slot s
  let (world, copy) := world.addSlot
    { release := source.release
      initializer := source.initializer
      links := source.links
      handlers := source.handlers
      shared := 1 }
  let world := (world.retainAll source.held).act (.copied s copy)
  let world := world.actAll ((List.range source.links.size).map (.linkAdded copy))
  (world.actAll ((List.range source.handlers.size).map (.handlerAdded copy)), copy)

/-- Turns the hold of the operation that made a slot into a handle of the caller. -/
def handOver (world : World σ ν) (s : SlotId) : World σ ν :=
  world.updateSlot s fun slot =>
    { slot with handles := slot.handles + 1, shared := slot.shared - 1 }

def takePending (world : World σ ν) (sc : ScopeId) : World σ ν × List (Action σ ν) :=
  (world.updateScope sc fun scope => { scope with pending := [] }, (world.scope sc).pending)

end World

def TeardownPolicy.result (policy : TeardownPolicy) (failures : List Error) : Reply :=
  match failures with
  | [] => .done
  | first :: _ =>
      match policy with
      | collectAll => .failed (.teardown (.mk failures none))
      | firstFailure => .failed (.teardown (.mk [first] none))

def TeardownPolicy.unreturned (policy : TeardownPolicy) (failures : List Error) : List Error :=
  match policy with
  | collectAll => []
  | firstFailure => failures.tail

def Droppable.ownerResult (failures : List Error) : Reply :=
  match failures with
  | [] => .done
  | _ => .failed (.drop (.teardown (.mk failures none)))

def Task.step (world : World σ ν) (thread : ThreadId) : Task σ ν → Option (Move σ ν)
  | finish _ => none
  | start call => call.start world
  | letGo [] exit => world.go (.finish exit)
  | letGo (handle :: rest) exit =>
      let world := world.relinquish handle
      if world.unheld handle then
        match handle with
        | .slot s =>
            (world.discardSlot s).go (.letGo ((world.slot s).held ++ rest) exit)
        | .scope sc =>
            if (world.scope sc).pending.isEmpty then
              world.go (.letGo rest exit)
            else
              world.push [.vanishing sc rest exit] (.drain sc 0 [])
      else
        world.go (.letGo rest exit)
  | look s =>
      world.whenFree [.value s] <|
        match (world.slot s).value with
        | some value => world.answer (.value value)
        | none => world.go (.enter s)
  | enter s =>
      (world.enterSlot s thread).bind fun entered =>
        if (entered.slot s).initializing then
          entered.go (.leave s (.finish (.returned (.failed (.drop .reentrant)))))
        else
          entered.go (.lookAgain s)
  | lookAgain s =>
      world.whenFree [.value s] <|
        match (world.slot s).value with
        | some value => world.go (.leave s (.finish (.returned (.value value))))
        | none => world.go (.produce s)
  | produce s =>
      let slot := world.slot s
      if slot.dropped then
        world.go (.leave s (.finish (.returned (.failed (.drop .dropped)))))
      else
        let world := world.updateSlot s fun slot => { slot with initializing := true }
        (world.act (.initializerStarted s)).run [.initializing s] slot.initializer
  | lockValue s value =>
      world.whenFree [.value s] <| (world.lock (.value s) thread).go (.confirm s value)
  | confirm s value =>
      if (world.slot s).dropped then
        world.go (.unlockValue s (.leave s (.releaseLate s value)))
      else
        world.go (.store s value)
  | store s value =>
      let world := world.updateSlot s fun slot => { slot with value := some value }
      (world.emit (.initialized s)).go
        (.unlockValue s (.leave s (.finish (.returned (.value value)))))
  | unlockValue s next => (world.unlock (.value s)).go next
  | leave s next => (world.leaveSlot s).go next
  | releaseLate s value =>
      (world.act (.handed s value)).run [.releasingLate s value] ((world.slot s).release value)
  | consult selection error =>
      world.whenFree [selection.lock] <|
        (world.lock selection.lock thread).go (.sift selection error (world.kinds selection) [])
  | sift selection error [] places =>
      (world.unlock selection.lock).proceed selection error places
  | sift selection error ((place, kind) :: rest) places =>
      world.ask selection error place kind rest places
  | links s error ((place, link) :: rest) callbacks failures =>
      (world.act (.linkStarted s place error)).push [.linking s error rest callbacks failures]
        (.dispose link)
  | links s error [] callbacks failures => world.go (.handlers s error callbacks failures)
  | handlers s error ((place, handler) :: rest) failures =>
      (world.act (.handlerStarted s place error)).run [.handling s error rest failures]
        (handler error)
  | handlers _ error [] failures =>
      world.answer (.failed (.drop (.initialization error failures)))
  | swap s =>
      if (world.slot s).dropped then
        world.endDrop s (.returned .done)
      else
        (world.updateSlot s fun slot => { slot with dropped := true }).go (.take s)
  | take s =>
      world.whenFree [.value s] <|
        match (world.slot s).value with
        | some value =>
            let world := world.updateSlot s fun slot => { slot with value := none }
            ((world.emit (.releasing s)).act (.handed s value)).run [.releasing s value]
              ((world.slot s).release value)
        | none => world.endDrop s (.returned .done)
  | dispose (.action code) => world.run [] code
  | dispose (.slot s) => world.go (.swap s)
  | dispose (.owner droppables) => world.go (.disposeAll droppables.reverse [])
  | dispose .scopeOwner => world.answer .done
  | disposeAll (droppable :: rest) failures =>
      world.push [.owning rest failures] (.dispose droppable)
  | disposeAll [] failures =>
      (if failures.isEmpty then world else world.emit (.ownerFailed failures.length)).answer
        (Droppable.ownerResult failures)
  | copy s cloner =>
      world.whenFree [.links s, .handlers s] <|
        let (world, made) := world.copySlot s
        match cloner with
        | some cloner => world.go (.copyValue s made cloner)
        | none => world.go (.deliver made)
  | copyValue s made cloner =>
      world.whenFree [.value s] <|
        match (world.slot s).value with
        | some value => world.run [.cloning made] (cloner value)
        | none => world.go (.deliver made)
  | deliver made => (world.handOver made).answer (.object made)
  | drain sc ran failures =>
      let (world, pending) := world.takePending sc
      match pending.reverse with
      | [] => world.go (.report sc ran failures)
      | actions => world.go (.batch sc actions ran failures)
  | batch sc [] ran failures => world.go (.drain sc ran failures)
  | batch sc (action :: rest) ran failures =>
      let world := world.act (.started sc action.id)
      match action.job with
      | .run code => world.run [.tearing sc rest (ran + 1) failures] code
      | .release s =>
          world.push [.holding [.slot s], .tearing sc rest (ran + 1) failures] (.swap s)
  | report sc ran failures =>
      let policy := (world.scope sc).policy
      let world := world.emit (.tornDown sc ran failures.length)
      (world.emitAll ((policy.unreturned failures).map (.laterFailure sc))).answer
        (policy.result failures)

end Relinquish
