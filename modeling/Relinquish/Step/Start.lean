import Relinquish.Step.Inspect

/-!
How calls start. A call that runs user code holds the objects it works on until its result is known;
the others are answered at once.
-/

namespace Relinquish

variable {σ ν : Type}

def Guard.emptied : Exit :=
  .panicked (.text "internal error: entered unreachable code: guard emptied before being consumed")

namespace World

/-- Takes what a guard has, and the guard from its holder. -/
def endGuard (world : World σ ν) (g : GuardId) : World σ ν :=
  world.updateGuard g fun guard => { guard with held := false, droppable := none }

def whenConsumable (world : World σ ν) (g : GuardId)
    (move : World σ ν → Option (Droppable σ ν) → Option (Move σ ν)) : Option (Move σ ν) :=
  let guard := world.guard g
  if guard.held && guard.uses = 0 then
    move (world.endGuard g) guard.droppable
  else
    world.answer .missing

def makeSlot (world : World σ ν) (release : Value → Code σ ν) (initializer : Code σ ν) :
    World σ ν × SlotId :=
  world.addSlot { release, initializer, handles := 1 }

def adopt (world : World σ ν) (sc : ScopeId) (s : SlotId) : World σ ν :=
  (world.retain (.slot s)).addAction sc (.release s)

def discardPending (world : World σ ν) (sc : ScopeId) : World σ ν :=
  let pending := (world.scope sc).pending
  let emptied := world.updateScope sc fun scope => { scope with pending := [] }
  let discarded := emptied.actAll (pending.map fun action => .discarded sc action.id)
  if pending.isEmpty then discarded else discarded.emit (.scopeReset sc pending.length)

end World

/-- The end of the scope of a guard, which drops what the guard still had before the outcome goes on. -/
def Guard.close (g : GuardId) (outcome : Exit) (world : World σ ν)
    (droppable : Option (Droppable σ ν)) : Option (Move σ ν) :=
  match droppable with
  | some droppable =>
      world.push [.guarding g outcome, .holding droppable.handles] (.dispose droppable)
  | none => world.go (.finish outcome)

def Accessor.frame (accessor : Accessor σ ν) : Frame σ ν :=
  match accessor.fallback with
  | some fallback => .orElse accessor.slot fallback
  | none => .orNone accessor.slot

def Action.handles (action : Action σ ν) : List Handle :=
  match action.job with
  | .run _ => []
  | .release s => [.slot s]

def Call.start (world : World σ ν) : Call σ ν → Option (Move σ ν)
  | newSlot release initializer =>
      let (world, s) := world.makeSlot release initializer
      world.answer (.object s)
  | cloneHandle s =>
      world.whenUsable [.slot s] <|
        let world := world.updateSlot s fun slot => { slot with handles := slot.handles + 1 }
        world.answer (.object s)
  | forgetHandle s =>
      world.whenUsable [.slot s] <|
        (world.surrender (.slot s)).go (.letGo [.slot s] (.returned .done))
  | copySlot s cloner => world.operate [.slot s] [] (.copy s cloner)
  | getValue s => world.operate [.slot s] [.looking s] (.look s)
  | withValue s use => world.operate [.slot s] [.looking s, .getting use] (.look s)
  | peek s =>
      world.whenUsable [.slot s] <| world.whenFree [.value s] <|
        world.answer (((world.slot s).value.map Reply.value).getD .nothing)
  | dropSlot s => world.operate [.slot s] [] (.swap s)
  | inspectSlot s =>
      world.whenUsable [.slot s] <| world.whenFree (Lock.ofSlot s) <|
        world.answer (.slot (world.slot s).view)
  | dropOnError s kind droppable =>
      world.whenUsable (.slot s :: droppable.handles) <| world.whenFree [.links s] <|
        let place := (world.slot s).links.size
        let world := world.retainAll droppable.handles
        let world := world.updateSlot s fun slot =>
          { slot with links := slot.links.register kind droppable }
        (world.act (.linkAdded s place)).answer .done
  | callOnError s kind handler =>
      world.whenUsable [.slot s] <| world.whenFree [.handlers s] <|
        let place := (world.slot s).handlers.size
        let world := world.updateSlot s fun slot =>
          { slot with handlers := slot.handlers.register kind handler }
        (world.act (.handlerAdded s place)).answer .done
  | newAccessor s fallback =>
      world.whenUsable [.slot s] <|
        let (world, a) := (world.retain (.slot s)).addAccessor { slot := s, fallback }
        world.answer (.object a)
  | access a =>
      match world.accessor a with
      | some accessor =>
          world.borrow accessor.slot [.looking accessor.slot, accessor.frame] (.look accessor.slot)
      | none => world.answer .missing
  | dropAccessed a =>
      match world.accessor a with
      | some accessor => world.borrow accessor.slot [] (.swap accessor.slot)
      | none => world.answer .missing
  | forgetAccessor a =>
      match world.accessor a with
      | some accessor =>
          { world with accessors := world.accessors.set a none }.go
            (.letGo [.slot accessor.slot] (.returned .done))
      | none => world.answer .missing
  | newScope policy =>
      let (world, sc) := world.addScope { policy, handles := 1 }
      world.answer (.object sc)
  | forgetScope sc =>
      if 0 < (world.scope sc).handles then
        (world.surrender (.scope sc)).go (.letGo [.scope sc] (.returned .done))
      else
        world.answer .missing
  | defer sc action =>
      world.whenUsable [.scope sc] <| (world.addAction sc (.run action)).answer .done
  | adopt sc s =>
      world.whenUsable [.scope sc, .slot s] <| (world.adopt sc s).answer (.object s)
  | registerSlot sc release initializer =>
      world.whenUsable [.scope sc] <|
        let (world, s) := world.makeSlot release initializer
        (world.adopt sc s).answer (.object s)
  | resetScope sc =>
      world.whenUsable [.scope sc] <|
        let handles := (world.scope sc).pending.flatMap Action.handles
        (world.discardPending sc).go (.letGo handles (.returned .done))
  | inspectScope sc => world.whenUsable [.scope sc] <| world.answer (.scope (world.scope sc).view)
  | runAll sc => world.operate [.scope sc] [] (.drain sc 0 [])
  | deferring config body =>
      let (world, sc) := world.addScope { policy := config.policy, shared := 1, lent := true }
      world.run [.body sc] (body sc)
  | newGuard droppable =>
      world.whenUsable droppable.handles <|
        let (world, g) := (world.retainAll droppable.handles).addGuard
          { droppable := some droppable, held := true }
        world.answer (.object g)
  | dropThrough g =>
      if (world.guard g).held then
        match (world.guard g).droppable with
        | some droppable =>
            (world.updateGuard g fun guard => { guard with uses := guard.uses + 1 }).push
              [.through g] (.dispose droppable)
        | none => world.go (.finish Guard.emptied)
      else
        world.answer .missing
  | inspectGuard g =>
      if (world.guard g).held then
        let droppable := (world.guard g).droppable
        world.whenFree (droppable.elim [] Droppable.locks) <|
          world.answer (.guarded (droppable.map world.view))
      else
        world.answer .missing
  | releaseGuard g =>
      world.whenConsumable g fun world droppable =>
        match droppable with
        | some droppable =>
            world.push [.holding droppable.handles, .expiring g] (.dispose droppable)
        | none => world.push [.expiring g] (.finish (.returned .done))
  | disarmGuard g =>
      world.whenConsumable g fun world droppable =>
        match droppable with
        | some droppable =>
            let (world, p) := world.addParcel droppable
            world.push [.expiring g] (.finish (.returned (.object p)))
        | none => world.push [.expiring g] (.finish Guard.emptied)
  | forgetGuard g => world.whenConsumable g (Guard.close g (.returned .done))
  | keep droppable =>
      world.whenUsable droppable.handles <|
        let (world, p) := (world.retainAll droppable.handles).addParcel droppable
        world.answer (.object p)
  | dispose p =>
      match world.parcel p with
      | some droppable =>
          (world.retainAll droppable.handles).push [.holding droppable.handles] (.dispose droppable)
      | none => world.answer .missing
  | forgetParcel p =>
      match world.parcel p with
      | some droppable =>
          { world with parcels := world.parcels.set p none }.go
            (.letGo droppable.handles (.returned .done))
      | none => world.answer .missing
  | newRegistry =>
      let (world, r) := world.addRegistry {}
      world.answer (.object r)
  | register r kind number =>
      if r < world.registries.size then
        world.whenFree [.numbers r] <|
          let registries := world.registries.update r (·.register kind number)
          { world with registries }.answer .done
      else
        world.answer .missing
  | select r error =>
      if r < world.registries.size then world.go (.consult (.numbers r) error)
      else world.answer .missing
  | snapshotRegistry r =>
      if r < world.registries.size then
        world.whenFree [.numbers r] <|
          let (world, copy) := world.addRegistry (world.registry r)
          world.answer (.object copy)
      else
        world.answer .missing
  | inspectRegistry r =>
      if r < world.registries.size then
        world.whenFree [.numbers r] <| world.answer (.names (world.registry r).names)
      else
        world.answer .missing
  | loadConfig lookup announced => world.run [.reading announced] (lookup ScopeConfig.variable)
  | matchKind kind error =>
      match kind.judge error with
      | .inl holds => world.answer (.verdict holds)
      | .inr code => world.run [.matched] code

end Relinquish
