import Relinquish.Proofs.Changes

/-!
Twins. A world is the twin of another one when it is the same but for further holds on slots, for the
numbers of actions, and for one scope of its own. What leaves that scope alone, and gives up no holds
that are not there, changes both alike.
-/

namespace Relinquish

variable {σ ν : Type}

/-! ## Slots, scopes and histories -/

def Slot.lend (slot : Slot σ ν) (n : Nat) : Slot σ ν :=
  { slot with shared := slot.shared + n }

namespace Slot

variable (slot : Slot σ ν) (n : Nat)

@[simp] theorem lend_release : (slot.lend n).release = slot.release := rfl

@[simp] theorem lend_initializer : (slot.lend n).initializer = slot.initializer := rfl

@[simp] theorem lend_dropped : (slot.lend n).dropped = slot.dropped := rfl

@[simp] theorem lend_value : (slot.lend n).value = slot.value := rfl

@[simp] theorem lend_initializing : (slot.lend n).initializing = slot.initializing := rfl

@[simp] theorem lend_entered : (slot.lend n).entered = slot.entered := rfl

@[simp] theorem lend_links : (slot.lend n).links = slot.links := rfl

@[simp] theorem lend_handlers : (slot.lend n).handlers = slot.handlers := rfl

@[simp] theorem lend_handles : (slot.lend n).handles = slot.handles := rfl

@[simp] theorem lend_shared : (slot.lend n).shared = slot.shared + n := rfl

@[simp] theorem lend_held : (slot.lend n).held = slot.held := rfl

@[simp] theorem lend_view : (slot.lend n).view = slot.view := rfl

@[simp] theorem lend_zero : slot.lend 0 = slot := rfl

end Slot

structure Scope.Twin (scope other : Scope σ ν) : Prop where
  policy : other.policy = scope.policy
  jobs : other.pending.map Action.job = scope.pending.map Action.job
  handles : other.handles = scope.handles
  shared : other.shared = scope.shared
  lent : other.lent = scope.lent

theorem Scope.Twin.refl (scope : Scope σ ν) : scope.Twin scope :=
  ⟨rfl, rfl, rfl, rfl, rfl⟩

theorem Scope.Twin.waiting {scope other : Scope σ ν} (twin : scope.Twin other) :
    other.pending.length = scope.pending.length := by
  simpa using congrArg List.length twin.jobs

theorem Scope.Twin.view {scope other : Scope σ ν} (twin : scope.Twin other) :
    other.view = scope.view := by
  rw [Scope.view, twin.waiting, twin.policy]
  rfl

theorem Scope.Twin.isEmpty {scope other : Scope σ ν} (twin : scope.Twin other) :
    other.pending.isEmpty = scope.pending.isEmpty := by
  rw [Bool.eq_iff_iff, List.isEmpty_iff_length_eq_zero, List.isEmpty_iff_length_eq_zero,
    twin.waiting]

theorem Action.handles_of_jobs {actions others : List (Action σ ν)}
    (same : others.map Action.job = actions.map Action.job) :
    others.flatMap Action.handles = actions.flatMap Action.handles := by
  have byJob (actions : List (Action σ ν)) : actions.flatMap Action.handles =
      (actions.map Action.job).flatMap fun job => Action.handles ⟨0, job⟩ := by
    rw [List.flatMap_map]
    rfl
  rw [byJob others, same, ← byJob]

def Mark.numbered : Mark ν → Bool
  | .act (.deferred _ _) | .act (.started _ _) | .act (.discarded _ _) => true
  | _ => false

/-- The history without the turns of actions. -/
def World.account (world : World σ ν) : List (Mark ν) :=
  world.history.filter fun mark => !mark.numbered

namespace World

variable (world : World σ ν)

theorem account_record (mark : Mark ν) :
    (world.record mark).account = [mark].filter (fun mark => !mark.numbered) ++ world.account := by
  rw [account, history_record, ← List.singleton_append, List.filter_append]
  rfl

theorem account_numbered {mark : Mark ν} (numbered : mark.numbered = true) :
    (world.record mark).account = world.account := by
  rw [account_record, List.filter_cons_of_neg (by simp [numbered])]
  rfl

end World

/-! ## Worlds -/

/-- The other world is the same but for so many further holds on each slot, for the numbers of its
actions, and for one scope, which is as given there. -/
structure World.Twin (sc : ScopeId) (own : Scope σ ν) (extra : SlotId → Nat)
    (world other : World σ ν) : Prop where
  memory : other.memory = world.memory
  slot : ∀ s, other.slot s = (world.slot s).lend (extra s)
  scope : ∀ t ≠ sc, (world.scope t).Twin (other.scope t)
  own : other.scope sc = own
  slots : other.slots.size = world.slots.size
  scopes : other.scopes.size = world.scopes.size
  accessors : other.accessors = world.accessors
  guards : other.guards = world.guards
  parcels : other.parcels = world.parcels
  registries : other.registries = world.registries
  locks : other.locks = world.locks
  values : other.values = world.values
  threads : other.threads = world.threads
  account : other.account = world.account
  unmade : ∀ s, world.slots.size ≤ s → extra s = 0
  made : sc < world.scopes.size

theorem Table.size_update_congr {α : Type} [Inhabited α] {table other : Table α}
    (same : other.size = table.size) (i : Nat) (change alter : α → α) :
    (other.update i alter).size = (table.update i change).size := by
  obtain ⟨objects⟩ := table
  obtain ⟨others⟩ := other
  simp only [size, update] at same ⊢
  induction i generalizing objects others with
  | zero => cases objects <;> cases others <;> simp_all [updateAt]
  | succ i ih =>
      cases objects with
      | nil =>
          obtain rfl := List.length_eq_zero_iff.mp same
          exact congrArg Nat.succ (ih [] [] rfl)
      | cons object rest =>
          cases others with
          | nil => contradiction
          | cons further others => exact congrArg Nat.succ (ih rest others (Nat.succ.inj same))

namespace World.Twin

variable {sc : ScopeId} {own : Scope σ ν} {extra : SlotId → Nat} {world other : World σ ν}
  (twin : world.Twin sc own extra other)

include twin

theorem free (lock : Lock) : other.free lock = world.free lock := by
  rw [World.free, twin.locks, World.free]

theorem guard (g : GuardId) : other.guard g = world.guard g := by
  rw [World.guard, twin.guards, World.guard]

theorem accessor (a : AccessorId) : other.accessor a = world.accessor a := by
  rw [World.accessor, twin.accessors, World.accessor]

theorem parcel (p : ParcelId) : other.parcel p = world.parcel p := by
  rw [World.parcel, twin.parcels, World.parcel]

theorem registry (r : RegistryId) : other.registry r = world.registry r := by
  rw [World.registry, twin.registries, World.registry]

theorem kinds (selection : Selection σ ν) : other.kinds selection = world.kinds selection := by
  cases selection <;> simp [World.kinds, twin.slot, twin.registry]

theorem view (droppable : Droppable σ ν) : other.view droppable = world.view droppable := by
  cases droppable <;> simp [World.view, twin.slot]

theorem usable (handle : Handle) (apart : handle ≠ .scope sc) :
    other.usable handle = world.usable handle := by
  cases handle with
  | slot s => simp [World.usable, twin.slot]
  | scope t =>
      have alike := twin.scope t fun same => apart (congrArg _ same)
      simp [World.usable, alike.handles, alike.lent]

/-! ### Changes -/

theorem record (mark : Mark ν) : (world.record mark).Twin sc own extra (other.record mark) := by
  refine { twin with account := ?_ }
  rw [account_record, account_record, twin.account]

/-- The turns of actions are not accounted for, so each world may have some of its own. -/
theorem record_own {mark : Mark ν} (numbered : mark.numbered = true) :
    world.Twin sc own extra (other.record mark) :=
  { twin with account := (other.account_numbered numbered).trans twin.account }

theorem own_record {mark : Mark ν} (numbered : mark.numbered = true) :
    (world.record mark).Twin sc own extra other :=
  { twin with account := twin.account.trans (world.account_numbered numbered).symm }

theorem emit (event : Event) : (world.emit event).Twin sc own extra (other.emit event) :=
  twin.record (.event event)

theorem act (act : Act) : (world.act act).Twin sc own extra (other.act act) :=
  twin.record (.act act)

theorem emitAll (events : List Event) :
    (world.emitAll events).Twin sc own extra (other.emitAll events) := by
  induction events generalizing world other with
  | nil => exact twin
  | cons event rest ih => exact ih (twin.emit event)

theorem actAll (acts : List Act) : (world.actAll acts).Twin sc own extra (other.actAll acts) := by
  induction acts generalizing world other with
  | nil => exact twin
  | cons act rest ih => exact ih (twin.act act)

theorem updateSlot {s : SlotId} {change : Slot σ ν → Slot σ ν}
    (passes : change ((world.slot s).lend (extra s)) = (change (world.slot s)).lend (extra s)) :
    (world.updateSlot s change).Twin sc own extra (other.updateSlot s change) := by
  refine { twin with slot := fun t => ?_, slots := ?_, unmade := fun t beyond => ?_ }
  · rw [slot_updateSlot, slot_updateSlot, twin.slot]
    split
    · next same =>
        subst same
        exact passes
    · rfl
  · exact Table.size_update_congr twin.slots s change change
  · exact twin.unmade t (Nat.le_trans (Table.size_le_update world.slots s change) beyond)

theorem updateScope {t : ScopeId} {change alter : Scope σ ν → Scope σ ν} (apart : t ≠ sc)
    (alike : (change (world.scope t)).Twin (alter (other.scope t))) :
    (world.updateScope t change).Twin sc own extra (other.updateScope t alter) := by
  refine { twin with scope := fun u distinct => ?_, own := ?_, scopes := ?_, made := ?_ }
  · rw [scope_updateScope, scope_updateScope]
    split
    · next same =>
        subst same
        exact alike
    · exact twin.scope u distinct
  · rw [scope_updateScope, if_neg apart]
    exact twin.own
  · exact Table.size_update_congr twin.scopes t change alter
  · exact Nat.lt_of_lt_of_le twin.made (Table.size_le_update world.scopes t change)

theorem updateGuard (g : GuardId) (change : Guard σ ν → Guard σ ν) :
    (world.updateGuard g change).Twin sc own extra (other.updateGuard g change) :=
  { twin with guards := congrArg (Table.update · g change) twin.guards }

theorem lock (lock : Lock) (id : ThreadId) :
    (world.lock lock id).Twin sc own extra (other.lock lock id) :=
  { twin with locks := congrArg ((lock, id) :: ·) twin.locks }

theorem unlock (lock : Lock) : (world.unlock lock).Twin sc own extra (other.unlock lock) :=
  { twin with locks := congrArg (List.filter _) twin.locks }

theorem setAccessor (a : AccessorId) (accessor : Option (Accessor σ ν)) :
    World.Twin sc own extra { world with accessors := world.accessors.set a accessor }
      { other with accessors := other.accessors.set a accessor } :=
  { twin with accessors := congrArg (Table.set · a accessor) twin.accessors }

theorem setParcel (p : ParcelId) (droppable : Option (Droppable σ ν)) :
    World.Twin sc own extra { world with parcels := world.parcels.set p droppable }
      { other with parcels := other.parcels.set p droppable } :=
  { twin with parcels := congrArg (Table.set · p droppable) twin.parcels }

theorem updateRegistry (r : RegistryId) (change : Registry σ ν Int → Registry σ ν Int) :
    World.Twin sc own extra { world with registries := world.registries.update r change }
      { other with registries := other.registries.update r change } :=
  { twin with registries := congrArg (Table.update · r change) twin.registries }

theorem store (memory : σ) :
    World.Twin sc own extra { world with memory } { other with memory } :=
  { twin with memory := rfl }

theorem addThread :
    World.Twin sc own extra { world with threads := world.threads + 1 }
      { other with threads := other.threads + 1 } :=
  { twin with threads := congrArg Nat.succ twin.threads }

/-! ### New objects -/

theorem addAccessor (accessor : Accessor σ ν) :
    (world.addAccessor accessor).1.Twin sc own extra (other.addAccessor accessor).1 ∧
      (other.addAccessor accessor).2 = (world.addAccessor accessor).2 := by
  refine ⟨{ twin with accessors := ?_ }, congrArg Table.size twin.accessors⟩
  exact congrArg (Table.push · (some accessor)) twin.accessors

theorem addGuard (guard : Guard σ ν) :
    (world.addGuard guard).1.Twin sc own extra (other.addGuard guard).1 ∧
      (other.addGuard guard).2 = (world.addGuard guard).2 := by
  refine ⟨{ twin with guards := ?_ }, congrArg Table.size twin.guards⟩
  exact congrArg (Table.push · guard) twin.guards

theorem addParcel (droppable : Droppable σ ν) :
    (world.addParcel droppable).1.Twin sc own extra (other.addParcel droppable).1 ∧
      (other.addParcel droppable).2 = (world.addParcel droppable).2 := by
  refine ⟨{ twin with parcels := ?_ }, congrArg Table.size twin.parcels⟩
  exact congrArg (Table.push · (some droppable)) twin.parcels

theorem addRegistry (registry : Registry σ ν Int) :
    (world.addRegistry registry).1.Twin sc own extra (other.addRegistry registry).1 ∧
      (other.addRegistry registry).2 = (world.addRegistry registry).2 := by
  refine ⟨{ twin with registries := ?_ }, congrArg Table.size twin.registries⟩
  exact congrArg (Table.push · registry) twin.registries

theorem addSlot (slot : Slot σ ν) :
    (world.addSlot slot).1.Twin sc own extra (other.addSlot slot).1 ∧
      (other.addSlot slot).2 = (world.addSlot slot).2 := by
  refine ⟨{ twin with slot := fun s => ?_, slots := ?_, unmade := fun s beyond => ?_ }, twin.slots⟩
  · rw [slot_addSlot, slot_addSlot, twin.slots]
    split
    · next same => rw [twin.unmade s (Nat.le_of_eq same.symm), Slot.lend_zero]
    · exact twin.slot s
  · exact (Table.size_push ..).trans ((congrArg (· + 1) twin.slots).trans (Table.size_push ..).symm)
  · rw [World.addSlot, Table.size_push] at beyond
    exact twin.unmade s (Nat.le_of_succ_le beyond)

theorem makeSlot (release : Value → Code σ ν) (initializer : Code σ ν) :
    (world.makeSlot release initializer).1.Twin sc own extra
        (other.makeSlot release initializer).1 ∧
      (other.makeSlot release initializer).2 = (world.makeSlot release initializer).2 :=
  twin.addSlot _

theorem addScope (scope : Scope σ ν) :
    (world.addScope scope).1.Twin sc own extra (other.addScope scope).1 ∧
      (other.addScope scope).2 = (world.addScope scope).2 ∧ (world.addScope scope).2 ≠ sc := by
  refine ⟨{ twin with scope := fun t apart => ?_, own := ?_, scopes := ?_, made := ?_ },
    twin.scopes, Nat.ne_of_gt twin.made⟩
  · rw [scope_addScope, scope_addScope, twin.scopes]
    split
    · exact .refl scope
    · exact twin.scope t apart
  · rw [scope_addScope, twin.scopes, if_neg (Nat.ne_of_lt twin.made)]
    exact twin.own
  · exact (Table.size_push ..).trans ((congrArg (· + 1) twin.scopes).trans (Table.size_push ..).symm)
  · rw [World.addScope, Table.size_push]
    exact Nat.lt_succ_of_lt twin.made

theorem makeValue (content : String) :
    (world.makeValue content).1.Twin sc own extra (other.makeValue content).1 ∧
      (other.makeValue content).2 = (world.makeValue content).2 := by
  refine ⟨{ twin with values := congrArg Nat.succ twin.values }, ?_⟩
  rw [World.makeValue, twin.values]
  rfl

/-! ### Holds -/

theorem retain (handle : Handle) (apart : handle ≠ .scope sc) :
    (world.retain handle).Twin sc own extra (other.retain handle) := by
  cases handle with
  | slot s =>
      apply twin.updateSlot
      simp only [Slot.lend, Nat.add_right_comm]
  | scope t =>
      have distinct : t ≠ sc := fun same => apart (congrArg _ same)
      have alike := twin.scope t distinct
      exact twin.updateScope distinct { alike with shared := congrArg Nat.succ alike.shared }

theorem retainAll {handles : List Handle} (apart : Handle.scope sc ∉ handles) :
    (world.retainAll handles).Twin sc own extra (other.retainAll handles) := by
  induction handles generalizing world other with
  | nil => exact twin
  | cons handle rest ih =>
      rw [List.mem_cons, not_or] at apart
      exact ih (twin.retain handle (Ne.symm apart.1)) apart.2

theorem surrender (handle : Handle) (apart : handle ≠ .scope sc) :
    (world.surrender handle).Twin sc own extra (other.surrender handle) := by
  cases handle with
  | slot s =>
      apply twin.updateSlot
      simp only [Slot.lend, Nat.add_right_comm]
  | scope t =>
      have distinct : t ≠ sc := fun same => apart (congrArg _ same)
      have alike := twin.scope t distinct
      exact twin.updateScope distinct
        { alike with
          handles := congrArg Nat.pred alike.handles
          shared := congrArg Nat.succ alike.shared }

theorem relinquish (handle : Handle) (apart : handle ≠ .scope sc)
    (shared : ∀ s, handle = .slot s → 0 < (world.slot s).shared) :
    (world.relinquish handle).Twin sc own extra (other.relinquish handle) := by
  cases handle with
  | slot s =>
      apply twin.updateSlot
      simp only [Slot.lend, Nat.sub_add_comm (shared s rfl)]
  | scope t =>
      have distinct : t ≠ sc := fun same => apart (congrArg _ same)
      have alike := twin.scope t distinct
      exact twin.updateScope distinct { alike with shared := congrArg Nat.pred alike.shared }

theorem handOver {s : SlotId} (shared : 0 < (world.slot s).shared) :
    (world.handOver s).Twin sc own extra (other.handOver s) := by
  apply twin.updateSlot
  simp only [Slot.lend, Nat.sub_add_comm shared]

theorem unheld (handle : Handle) (apart : handle ≠ .scope sc)
    (alive : ∀ s, handle = .slot s → extra s ≠ 0 → world.unheld handle = false) :
    other.unheld handle = world.unheld handle := by
  cases handle with
  | slot s =>
      by_cases none : extra s = 0
      · simp [World.unheld, twin.slot, none]
      · have alive := alive s rfl none
        simp only [World.unheld, twin.slot, Slot.lend_handles, Slot.lend_shared,
          decide_eq_false_iff_not] at alive ⊢
        rw [decide_eq_false alive, decide_eq_false]
        omega
  | scope t =>
      have alike := twin.scope t fun same => apart (congrArg _ same)
      simp [World.unheld, alike.handles, alike.shared]

/-! ### Slots at work -/

theorem leaveSlot (s : SlotId) : (world.leaveSlot s).Twin sc own extra (other.leaveSlot s) :=
  twin.updateSlot rfl

theorem enterSlot (s : SlotId) (id : ThreadId) :
    Option.Rel (World.Twin sc own extra) (world.enterSlot s id) (other.enterSlot s id) := by
  simp only [World.enterSlot, twin.slot, Slot.lend_entered]
  split
  · exact .some (twin.updateSlot rfl)
  · split
    · exact .some (twin.updateSlot rfl)
    · exact .none

theorem discardSlot (s : SlotId) : (world.discardSlot s).Twin sc own extra (other.discardSlot s) := by
  simp only [World.discardSlot, twin.slot, Slot.lend_value]
  split
  · exact ((twin.updateSlot rfl).act _).emit _
  · exact twin

theorem copySlot (s : SlotId) :
    (world.copySlot s).1.Twin sc own extra (other.copySlot s).1 ∧
      (other.copySlot s).2 = (world.copySlot s).2 := by
  have noScope : Handle.scope sc ∉ (world.slot s).held := by
    simp [Slot.held, Droppable.handles]
  have made (slot : Slot σ ν) := (twin.addSlot slot).2
  simp only [World.copySlot, twin.slot, Slot.lend_release, Slot.lend_initializer, Slot.lend_links,
    Slot.lend_handlers, Slot.lend_held, made]
  exact ⟨((((twin.addSlot _).1.retainAll noScope).act _).actAll _).actAll _, trivial⟩

/-! ### Actions -/

theorem addAction {t : ScopeId} (apart : t ≠ sc) (job : Job σ ν) :
    (world.addAction t job).Twin sc own extra (other.addAction t job) := by
  have counted : World.Twin sc own extra { world with actions := world.actions + 1 }
      { other with actions := other.actions + 1 } := { twin with }
  have alike := twin.scope t apart
  have added : Scope.Twin
      { world.scope t with pending := (world.scope t).pending ++ [⟨world.actions, job⟩] }
      { other.scope t with pending := (other.scope t).pending ++ [⟨other.actions, job⟩] } := by
    refine { alike with jobs := ?_ }
    rw [List.map_append, List.map_append]
    exact congrArg (· ++ [job]) alike.jobs
  exact ((counted.updateScope apart added).record_own rfl).own_record rfl

theorem adopt {t : ScopeId} (apart : t ≠ sc) (s : SlotId) :
    (world.adopt t s).Twin sc own extra (other.adopt t s) :=
  World.Twin.addAction (twin.retain (.slot s) nofun) apart _

theorem takePending {t : ScopeId} (apart : t ≠ sc) :
    (world.takePending t).1.Twin sc own extra (other.takePending t).1 ∧
      (other.takePending t).2.map Action.job = (world.takePending t).2.map Action.job := by
  have alike := twin.scope t apart
  exact ⟨twin.updateScope apart { alike with jobs := rfl }, alike.jobs⟩

theorem discard_own (t : ScopeId) (actions : List (Action σ ν)) :
    world.Twin sc own extra
      (other.actAll (actions.map fun action => .discarded t action.id)) := by
  induction actions generalizing other with
  | nil => exact twin
  | cons action rest ih => exact ih (twin.record_own rfl)

theorem own_discard (t : ScopeId) (actions : List (Action σ ν)) :
    (world.actAll (actions.map fun action => .discarded t action.id)).Twin sc own extra other := by
  induction actions generalizing world with
  | nil => exact twin
  | cons action rest ih => exact ih (twin.own_record rfl)

theorem discardPending {t : ScopeId} (apart : t ≠ sc) :
    (world.discardPending t).Twin sc own extra (other.discardPending t) := by
  have alike := twin.scope t apart
  have emptied := (twin.takePending apart).1
  have discarded := (emptied.discard_own t (other.scope t).pending).own_discard t
    (world.scope t).pending
  simp only [World.discardPending, alike.isEmpty, alike.waiting]
  split
  · exact discarded
  · exact discarded.emit _

end World.Twin

end Relinquish
