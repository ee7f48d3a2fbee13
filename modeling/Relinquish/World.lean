import Relinquish.Code
import Relinquish.Table

/-!
The state in which code runs: slots with their registries and handle counts, scopes with their
pending actions, accessors, guards, kept droppables, registries of numbers, the locks held at the
moment, and the history of all that happened, newest first.
-/

namespace Relinquish

variable {σ ν : Type}

abbrev ThreadId := Nat

structure Registry (σ ν α : Type) where
  entries : List (Kind σ ν × α) := []
  deriving Inhabited

namespace Registry

variable {α : Type}

def register (registry : Registry σ ν α) (kind : Kind σ ν) (entry : α) : Registry σ ν α :=
  ⟨registry.entries ++ [(kind, entry)]⟩

def size (registry : Registry σ ν α) : Nat :=
  registry.entries.length

def kinds (registry : Registry σ ν α) : List (Nat × Kind σ ν) :=
  registry.entries.zipIdx.map fun ((kind, _), place) => (place, kind)

def names (registry : Registry σ ν α) : List String :=
  registry.entries.map fun (kind, _) => kind.name

def pick (registry : Registry σ ν α) (places : List Nat) : List (Nat × α) :=
  places.filterMap fun place => registry.entries[place]?.map fun (_, entry) => (place, entry)

end Registry

/-- What happens to a deferred action's turn: code runs, or a slot is dropped by a handle that the
action holds. -/
inductive Job (σ ν : Type) where
  | run (code : Code σ ν)
  | release (slot : SlotId)

structure Action (σ ν : Type) where
  id : Nat
  job : Job σ ν

/-- A delegate's slot. Its handles are either in the hands of user code or shared out within the
library: to links, guards, pending actions and operations in progress. -/
structure Slot (σ ν : Type) where
  release : Value → Code σ ν
  initializer : Code σ ν
  dropped : Bool := false
  value : Option Value := none
  initializing : Bool := false
  entered : Option (ThreadId × Nat) := none
  links : Registry σ ν (Droppable σ ν) := {}
  handlers : Registry σ ν (Error → Code σ ν) := {}
  handles : Nat := 0
  shared : Nat := 0

instance : Inhabited (Slot σ ν) := ⟨{ release := fun _ => default, initializer := default }⟩

structure Scope (σ ν : Type) where
  policy : TeardownPolicy := .collectAll
  pending : List (Action σ ν) := []
  handles : Nat := 0
  shared : Nat := 0
  lent : Bool := false
  deriving Inhabited

structure Accessor (σ ν : Type) where
  slot : SlotId
  fallback : Option (Code σ ν) := none

structure Guard (σ ν : Type) where
  droppable : Option (Droppable σ ν) := none
  held : Bool := false
  uses : Nat := 0
  deriving Inhabited

/-- A hold on an object, which stays alive at least until the hold is given up. -/
inductive Handle where
  | slot (slot : SlotId)
  | scope (scope : ScopeId)
  deriving DecidableEq, Repr

/-- The locks that one thread can hold at a time and that do not let it in twice. -/
inductive Lock where
  | value (slot : SlotId)
  | links (slot : SlotId)
  | handlers (slot : SlotId)
  | numbers (registry : RegistryId)
  deriving DecidableEq, Repr

inductive Act where
  | copied (source copy : SlotId)
  | linkAdded (slot : SlotId) (place : Nat)
  | handlerAdded (slot : SlotId) (place : Nat)
  | initializerStarted (slot : SlotId)
  | initializerEnded (slot : SlotId) (exit : Exit)
  | produced (slot : SlotId) (value : Value)
  | cloned (slot : SlotId) (value : Value)
  | handed (slot : SlotId) (value : Value)
  | fellBack (slot : SlotId) (value : Value)
  | lost (slot : SlotId) (value : Value)
  | lookedUp (slot : SlotId) (exit : Exit)
  | linkStarted (slot : SlotId) (place : Nat) (error : Error)
  | handlerStarted (slot : SlotId) (place : Nat) (error : Error)
  | dropEnded (slot : SlotId) (exit : Exit)
  | deferred (scope : ScopeId) (action : Nat)
  | started (scope : ScopeId) (action : Nat)
  | discarded (scope : ScopeId) (action : Nat)

inductive Mark (ν : Type) where
  | event (event : Event)
  | note (note : ν)
  | act (act : Act)

structure World (σ ν : Type) where
  memory : σ
  slots : Table (Slot σ ν) := {}
  scopes : Table (Scope σ ν) := {}
  accessors : Table (Option (Accessor σ ν)) := {}
  guards : Table (Guard σ ν) := {}
  parcels : Table (Option (Droppable σ ν)) := {}
  registries : Table (Registry σ ν Int) := {}
  locks : List (Lock × ThreadId) := []
  values : Nat := 0
  actions : Nat := 0
  threads : Nat := 1
  history : List (Mark ν) := []

namespace World

def slot (world : World σ ν) (s : SlotId) : Slot σ ν :=
  world.slots.get s

def scope (world : World σ ν) (sc : ScopeId) : Scope σ ν :=
  world.scopes.get sc

def accessor (world : World σ ν) (a : AccessorId) : Option (Accessor σ ν) :=
  world.accessors.get a

def guard (world : World σ ν) (g : GuardId) : Guard σ ν :=
  world.guards.get g

def parcel (world : World σ ν) (p : ParcelId) : Option (Droppable σ ν) :=
  world.parcels.get p

def registry (world : World σ ν) (r : RegistryId) : Registry σ ν Int :=
  world.registries.get r

def updateSlot (world : World σ ν) (s : SlotId) (change : Slot σ ν → Slot σ ν) : World σ ν :=
  { world with slots := world.slots.update s change }

def updateScope (world : World σ ν) (sc : ScopeId) (change : Scope σ ν → Scope σ ν) : World σ ν :=
  { world with scopes := world.scopes.update sc change }

def updateGuard (world : World σ ν) (g : GuardId) (change : Guard σ ν → Guard σ ν) : World σ ν :=
  { world with guards := world.guards.update g change }

def record (world : World σ ν) (mark : Mark ν) : World σ ν :=
  { world with history := mark :: world.history }

def emit (world : World σ ν) (event : Event) : World σ ν :=
  world.record (.event event)

def act (world : World σ ν) (act : Act) : World σ ν :=
  world.record (.act act)

def actAll (world : World σ ν) (acts : List Act) : World σ ν :=
  acts.foldl World.act world

def emitAll (world : World σ ν) (events : List Event) : World σ ν :=
  events.foldl emit world

def log (world : World σ ν) : List (Event ⊕ ν) :=
  world.history.reverse.filterMap fun
    | .event event => some (.inl event)
    | .note note => some (.inr note)
    | .act _ => none

def makeValue (world : World σ ν) (content : String) : World σ ν × Value :=
  ({ world with values := world.values + 1 }, ⟨world.values, content⟩)

def addSlot (world : World σ ν) (slot : Slot σ ν) : World σ ν × SlotId :=
  ({ world with slots := world.slots.push slot }, world.slots.size)

def addScope (world : World σ ν) (scope : Scope σ ν) : World σ ν × ScopeId :=
  ({ world with scopes := world.scopes.push scope }, world.scopes.size)

def addAccessor (world : World σ ν) (accessor : Accessor σ ν) : World σ ν × AccessorId :=
  ({ world with accessors := world.accessors.push (some accessor) }, world.accessors.size)

def addGuard (world : World σ ν) (guard : Guard σ ν) : World σ ν × GuardId :=
  ({ world with guards := world.guards.push guard }, world.guards.size)

def addParcel (world : World σ ν) (droppable : Droppable σ ν) : World σ ν × ParcelId :=
  ({ world with parcels := world.parcels.push (some droppable) }, world.parcels.size)

def addRegistry (world : World σ ν) (registry : Registry σ ν Int) : World σ ν × RegistryId :=
  ({ world with registries := world.registries.push registry }, world.registries.size)

def addAction (world : World σ ν) (sc : ScopeId) (job : Job σ ν) : World σ ν :=
  let action : Action σ ν := ⟨world.actions, job⟩
  { world with actions := world.actions + 1 }.updateScope sc (fun scope =>
    { scope with pending := scope.pending ++ [action] }) |>.act (.deferred sc action.id)

def free (world : World σ ν) (lock : Lock) : Bool :=
  world.locks.all fun (held, _) => held ≠ lock

def lock (world : World σ ν) (lock : Lock) (thread : ThreadId) : World σ ν :=
  { world with locks := (lock, thread) :: world.locks }

def unlock (world : World σ ν) (lock : Lock) : World σ ν :=
  { world with locks := world.locks.filter fun (held, _) => held ≠ lock }

def usable (world : World σ ν) : Handle → Bool
  | .slot s => 0 < (world.slot s).handles
  | .scope sc => 0 < (world.scope sc).handles || (world.scope sc).lent

def retain (world : World σ ν) : Handle → World σ ν
  | .slot s => world.updateSlot s fun slot => { slot with shared := slot.shared + 1 }
  | .scope sc => world.updateScope sc fun scope => { scope with shared := scope.shared + 1 }

def retainAll (world : World σ ν) (handles : List Handle) : World σ ν :=
  handles.foldl retain world

def surrender (world : World σ ν) : Handle → World σ ν
  | .slot s => world.updateSlot s fun slot =>
      { slot with handles := slot.handles - 1, shared := slot.shared + 1 }
  | .scope sc => world.updateScope sc fun scope =>
      { scope with handles := scope.handles - 1, shared := scope.shared + 1 }

def relinquish (world : World σ ν) : Handle → World σ ν
  | .slot s => world.updateSlot s fun slot => { slot with shared := slot.shared - 1 }
  | .scope sc => world.updateScope sc fun scope => { scope with shared := scope.shared - 1 }

def unheld (world : World σ ν) : Handle → Bool
  | .slot s => (world.slot s).handles + (world.slot s).shared = 0
  | .scope sc => (world.scope sc).handles + (world.scope sc).shared = 0

end World

def Droppable.handles (droppable : Droppable σ ν) : List Handle :=
  droppable.slots.map .slot

end Relinquish
