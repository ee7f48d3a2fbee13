import Relinquish.Proofs.Changes
import Relinquish.Proofs.Moves

/-!
What slots a world and a thread mention. A step works on slots that are mentioned, that user code
has a handle of, or that the step makes; all others it leaves as they are, and it mentions no
others. A copy that is not delivered yet is mentioned nowhere.
-/

namespace Relinquish

variable {σ ν : Type} {known : SlotId → Prop}

/-! ## What is mentioned -/

def Handle.Within (known : SlotId → Prop) : Handle → Prop
  | .slot s => known s
  | .scope _ => True

def Droppable.Within (known : SlotId → Prop) (droppable : Droppable σ ν) : Prop :=
  ∀ s ∈ droppable.slots, known s

def Action.Within (known : SlotId → Prop) (action : Action σ ν) : Prop :=
  match action.job with
  | .run _ => True
  | .release s => known s

def Selection.Within (known : SlotId → Prop) : Selection σ ν → Prop
  | .links s => known s
  | .handlers s chosen => known s ∧ ∀ link ∈ chosen, link.2.Within known
  | .numbers _ => True

/-- A copy that is still to be delivered does not count as mentioned. -/
def Task.Within (known : SlotId → Prop) : Task σ ν → Prop
  | finish _ | start _ | deliver _ | drain _ _ _ | report _ _ _ => True
  | letGo handles _ => ∀ handle ∈ handles, handle.Within known
  | look s | enter s | lookAgain s | produce s | lockValue s _ | confirm s _ | store s _
  | releaseLate s _ | swap s | take s | copy s _ | copyValue s _ _ | handlers s _ _ _ => known s
  | unlockValue s next | leave s next => known s ∧ next.Within known
  | consult selection _ | sift selection _ _ _ => selection.Within known
  | links s _ rest _ _ => known s ∧ ∀ link ∈ rest, link.2.Within known
  | dispose droppable => droppable.Within known
  | disposeAll rest _ => ∀ droppable ∈ rest, droppable.Within known
  | batch _ rest _ _ => ∀ action ∈ rest, action.Within known

def Control.Within (known : SlotId → Prop) : Control σ ν → Prop
  | .code _ => True
  | .task work => work.Within known

def Frame.Within (known : SlotId → Prop) : Frame σ ν → Prop
  | .holding handles | .vanishing _ handles _ => ∀ handle ∈ handles, handle.Within known
  | .looking s | .initializing s | .releasingLate s _ | .releasing s _ | .handling s _ _ _
  | .orNone s | .orElse s _ | .fallingBack s => known s
  | .judging selection _ _ _ _ => selection.Within known
  | .linking s _ rest _ _ => known s ∧ ∀ link ∈ rest, link.2.Within known
  | .owning rest _ => ∀ droppable ∈ rest, droppable.Within known
  | .tearing _ rest _ _ => ∀ action ∈ rest, action.Within known
  | _ => True

theorem mem_slotsOfAll {droppables : List (Droppable σ ν)} {s : SlotId} :
    s ∈ slotsOfAll droppables ↔ ∃ droppable ∈ droppables, s ∈ droppable.slots := by
  induction droppables with
  | nil => simp [slotsOfAll]
  | cons droppable rest ih => simp [slotsOfAll, ih]

theorem Droppable.within_handles {droppable : Droppable σ ν} :
    (∀ handle ∈ droppable.handles, handle.Within known) ↔ droppable.Within known := by
  simp [handles, Within, Handle.Within]

structure World.Within (known : SlotId → Prop) (world : World σ ν) : Prop where
  usable : ∀ s, 0 < (world.slot s).handles → known s
  linked : ∀ s, ∀ entry ∈ (world.slot s).links.entries, entry.2.Within known
  pending : ∀ sc, ∀ action ∈ (world.scope sc).pending, action.Within known
  accessors : ∀ a accessor, world.accessor a = some accessor → known accessor.slot
  guards : ∀ g droppable, (world.guard g).droppable = some droppable → droppable.Within known
  parcels : ∀ p droppable, world.parcel p = some droppable → droppable.Within known

/-! ## Worlds that keep to the known slots -/

def World.Fresh (known : SlotId → Prop) (world next : World σ ν) : Prop :=
  ∀ s, world.slots.size ≤ s → s < next.slots.size → known s

/-- The way from one world to another keeps to the known slots, if those that it makes are known. -/
structure World.Keeps (known : SlotId → Prop) (world next : World σ ν) : Prop where
  grows : world.slots.size ≤ next.slots.size
  within : world.Fresh known next → world.Within known → next.Within known
  untouched : world.Fresh known next → ∀ s, ¬ known s → s < world.slots.size →
    next.slot s = world.slot s

namespace World.Keeps

variable {world middle next : World σ ν}

theorem refl (world : World σ ν) : world.Keeps known world :=
  ⟨Nat.le_refl _, fun _ inside => inside, fun _ _ _ _ => rfl⟩

theorem trans (first : world.Keeps known middle) (second : middle.Keeps known next) :
    world.Keeps known next := by
  have before (fresh : world.Fresh known next) : world.Fresh known middle :=
    fun s old new => fresh s old (Nat.lt_of_lt_of_le new second.grows)
  have after (fresh : world.Fresh known next) : middle.Fresh known next :=
    fun s old new => fresh s (Nat.le_trans first.grows old) new
  refine ⟨Nat.le_trans first.grows second.grows, ?_, ?_⟩
  · intro fresh inside
    exact second.within (after fresh) (first.within (before fresh) inside)
  · intro fresh s unknown old
    rw [second.untouched (after fresh) s unknown (Nat.lt_of_lt_of_le old first.grows)]
    exact first.untouched (before fresh) s unknown old

theorem of_fresh (grows : world.slots.size ≤ next.slots.size)
    (keeps : world.Fresh known next → world.Keeps known next) : world.Keeps known next :=
  ⟨grows, fun fresh => (keeps fresh).within fresh, fun fresh => (keeps fresh).untouched fresh⟩

theorem of_eq (slots : next.slots = world.slots) (scopes : next.scopes = world.scopes)
    (accessors : next.accessors = world.accessors) (guards : next.guards = world.guards)
    (parcels : next.parcels = world.parcels) : world.Keeps known next where
  grows := Nat.le_of_eq (congrArg Table.size slots.symm)
  within := by
    intro _ inside
    constructor
    · simpa only [slot, slots] using inside.usable
    · simpa only [slot, slots] using inside.linked
    · simpa only [scope, scopes] using inside.pending
    · simpa only [accessor, accessors] using inside.accessors
    · simpa only [guard, guards] using inside.guards
    · simpa only [parcel, parcels] using inside.parcels
  untouched := by
    intro _ s _ _
    rw [slot, slots, slot]

theorem updateSlot (world : World σ ν) {s : SlotId} {change : Slot σ ν → Slot σ ν}
    (member : known s)
    (linked : world.Within known → ∀ entry ∈ (change (world.slot s)).links.entries,
      entry.2.Within known) :
    world.Keeps known (world.updateSlot s change) where
  grows := Table.size_le_update world.slots s change
  within := by
    intro _ inside
    refine ⟨?_, ?_, inside.pending, inside.accessors, inside.guards, inside.parcels⟩
    · intro t usable
      rw [slot_updateSlot] at usable
      split at usable
      · next equal => exact equal ▸ member
      · exact inside.usable t usable
    · intro t entry
      rw [slot_updateSlot]
      split
      · next equal => exact equal ▸ linked inside entry
      · exact inside.linked t entry
  untouched := by
    intro _ t unknown _
    have other : s ≠ t := fun equal => unknown (equal ▸ member)
    rw [slot_updateSlot, if_neg other]

theorem updateSlot' (world : World σ ν) {s : SlotId} {change : Slot σ ν → Slot σ ν}
    (member : known s) (same : ∀ slot, (change slot).links = slot.links) :
    world.Keeps known (world.updateSlot s change) := by
  apply updateSlot world member
  intro inside entry
  rw [same]
  exact inside.linked s entry

theorem updateScope (world : World σ ν) {sc : ScopeId} {change : Scope σ ν → Scope σ ν}
    (pending : world.Within known → ∀ action ∈ (change (world.scope sc)).pending,
      action.Within known) :
    world.Keeps known (world.updateScope sc change) where
  grows := Nat.le_refl _
  within := by
    intro _ inside
    refine ⟨inside.usable, inside.linked, ?_, inside.accessors, inside.guards, inside.parcels⟩
    intro other action
    rw [scope_updateScope]
    split
    · next equal => exact equal ▸ pending inside action
    · exact inside.pending other action
  untouched := fun _ _ _ _ => rfl

theorem addSlot (world : World σ ν) {slot : Slot σ ν}
    (linked : world.Within known → ∀ entry ∈ slot.links.entries, entry.2.Within known) :
    world.Keeps known (world.addSlot slot).1 where
  grows := by
    simp [World.addSlot]
  within := by
    intro fresh inside
    refine ⟨?_, ?_, inside.pending, inside.accessors, inside.guards, inside.parcels⟩
    · intro t usable
      rw [slot_addSlot] at usable
      split at usable
      · next equal =>
          exact fresh t (Nat.le_of_eq equal.symm) (by simp [World.addSlot, equal])
      · exact inside.usable t usable
    · intro t entry
      rw [slot_addSlot]
      split
      · exact linked inside entry
      · exact inside.linked t entry
  untouched := by
    intro _ t _ old
    rw [slot_addSlot, if_neg (Nat.ne_of_lt old)]

theorem record (world : World σ ν) (mark : Mark ν) : world.Keeps known (world.record mark) :=
  of_eq rfl rfl rfl rfl rfl

theorem act (world : World σ ν) (act : Act) : world.Keeps known (world.act act) :=
  record world (.act act)

theorem emit (world : World σ ν) (event : Event) : world.Keeps known (world.emit event) :=
  record world (.event event)

theorem actAll (world : World σ ν) (acts : List Act) : world.Keeps known (world.actAll acts) :=
  List.foldlRecOn acts World.act (refl world) fun next keeps act _ =>
    keeps.trans (record next (.act act))

theorem emitAll (world : World σ ν) (events : List Event) :
    world.Keeps known (world.emitAll events) :=
  List.foldlRecOn events World.emit (refl world) fun next keeps event _ =>
    keeps.trans (record next (.event event))

theorem unlock (world : World σ ν) (lock : Lock) : world.Keeps known (world.unlock lock) :=
  of_eq rfl rfl rfl rfl rfl

theorem lock (world : World σ ν) (lock : Lock) (id : ThreadId) :
    world.Keeps known (world.lock lock id) :=
  of_eq rfl rfl rfl rfl rfl

theorem makeValue (world : World σ ν) (content : String) :
    world.Keeps known (world.makeValue content).1 :=
  of_eq rfl rfl rfl rfl rfl

theorem retain (world : World σ ν) {handle : Handle} (member : handle.Within known) :
    world.Keeps known (world.retain handle) := by
  cases handle with
  | slot s => exact updateSlot' world member fun _ => rfl
  | scope sc => exact updateScope world fun inside => inside.pending sc

theorem retainAll (world : World σ ν) {handles : List Handle}
    (members : ∀ handle ∈ handles, handle.Within known) :
    world.Keeps known (world.retainAll handles) :=
  List.foldlRecOn handles World.retain (refl world) fun next keeps handle member =>
    keeps.trans (retain next (members handle member))

theorem surrender (world : World σ ν) {handle : Handle} (member : handle.Within known) :
    world.Keeps known (world.surrender handle) := by
  cases handle with
  | slot s => exact updateSlot' world member fun _ => rfl
  | scope sc => exact updateScope world fun inside => inside.pending sc

theorem relinquish (world : World σ ν) {handle : Handle} (member : handle.Within known) :
    world.Keeps known (world.relinquish handle) := by
  cases handle with
  | slot s => exact updateSlot' world member fun _ => rfl
  | scope sc => exact updateScope world fun inside => inside.pending sc

theorem addAction (world : World σ ν) (sc : ScopeId) {job : Job σ ν}
    (member : ∀ id, (⟨id, job⟩ : Action σ ν).Within known) :
    world.Keeps known (world.addAction sc job) := by
  let counted : World σ ν := { world with actions := world.actions + 1 }
  have counts : world.Keeps known counted := of_eq rfl rfl rfl rfl rfl
  have adds : counted.Keeps known (counted.updateScope sc fun scope =>
      { scope with pending := scope.pending ++ [⟨world.actions, job⟩] }) := by
    apply updateScope counted
    intro inside action listed
    rcases List.mem_append.mp listed with old | new
    · exact inside.pending sc action old
    · rw [List.mem_singleton.mp new]
      exact member world.actions
  exact (counts.trans adds).trans (record _ _)

theorem adopt (world : World σ ν) (sc : ScopeId) {s : SlotId} (member : known s) :
    world.Keeps known (world.adopt sc s) :=
  (retain world (show (Handle.slot s).Within known from member)).trans (addAction _ sc fun _ => member)

theorem discardPending (world : World σ ν) (sc : ScopeId) :
    world.Keeps known (world.discardPending sc) := by
  have empties : world.Keeps known (world.updateScope sc fun scope =>
      { scope with pending := [] }) :=
    updateScope world fun _ _ listed => absurd listed List.not_mem_nil
  rw [World.discardPending_eq]
  exact empties.trans ((actAll _ _).trans (emitAll _ _))

theorem takePending (world : World σ ν) (sc : ScopeId) :
    world.Keeps known (world.takePending sc).1 :=
  updateScope world fun _ _ listed => absurd listed List.not_mem_nil

theorem discardSlot (world : World σ ν) {s : SlotId} (member : known s) :
    world.Keeps known (world.discardSlot s) := by
  unfold World.discardSlot
  split
  · have empties : world.Keeps known (world.updateSlot s fun slot => { slot with value := none }) :=
      updateSlot' world member fun _ => rfl
    exact (empties.trans (act _ _)).trans (emit _ _)
  · exact refl world

theorem addScope (world : World σ ν) {scope : Scope σ ν} (fresh : scope.pending = []) :
    world.Keeps known (world.addScope scope).1 where
  grows := Nat.le_refl _
  within := by
    intro _ inside
    refine ⟨inside.usable, inside.linked, ?_, inside.accessors, inside.guards, inside.parcels⟩
    intro sc action
    rw [scope_addScope]
    split
    · simp [fresh]
    · exact inside.pending sc action
  untouched := fun _ _ _ _ => rfl

theorem accessors (world : World σ ν) {accessors : Table (Option (Accessor σ ν))}
    (members : world.Within known → ∀ a accessor, accessors.get a = some accessor →
      known accessor.slot) :
    world.Keeps known { world with accessors } where
  grows := Nat.le_refl _
  within := fun _ inside =>
    ⟨inside.usable, inside.linked, inside.pending, members inside, inside.guards, inside.parcels⟩
  untouched := fun _ _ _ _ => rfl

theorem guards (world : World σ ν) {guards : Table (Guard σ ν)}
    (members : world.Within known → ∀ g droppable, (guards.get g).droppable = some droppable →
      droppable.Within known) :
    world.Keeps known { world with guards } where
  grows := Nat.le_refl _
  within := fun _ inside =>
    ⟨inside.usable, inside.linked, inside.pending, inside.accessors, members inside,
      inside.parcels⟩
  untouched := fun _ _ _ _ => rfl

theorem parcels (world : World σ ν) {parcels : Table (Option (Droppable σ ν))}
    (members : world.Within known → ∀ p droppable, parcels.get p = some droppable →
      droppable.Within known) :
    world.Keeps known { world with parcels } where
  grows := Nat.le_refl _
  within := fun _ inside =>
    ⟨inside.usable, inside.linked, inside.pending, inside.accessors, inside.guards,
      members inside⟩
  untouched := fun _ _ _ _ => rfl

theorem addAccessor (world : World σ ν) {accessor : Accessor σ ν} (member : known accessor.slot) :
    world.Keeps known (world.addAccessor accessor).1 := by
  apply accessors world
  intro inside a other listed
  rw [Table.get_push] at listed
  split at listed
  · exact Option.some.inj listed ▸ member
  · exact inside.accessors a other listed

theorem forgetAccessor (world : World σ ν) (a : AccessorId) :
    world.Keeps known { world with accessors := world.accessors.set a none } := by
  apply accessors world
  intro inside b other listed
  rw [Table.set, Table.get_update] at listed
  split at listed
  · contradiction
  · exact inside.accessors b other listed

theorem addGuard (world : World σ ν) {guard : Guard σ ν}
    (member : ∀ droppable, guard.droppable = some droppable → droppable.Within known) :
    world.Keeps known (world.addGuard guard).1 := by
  apply guards world
  intro inside g other listed
  rw [Table.get_push] at listed
  split at listed
  · exact member other listed
  · exact inside.guards g other listed

theorem updateGuard (world : World σ ν) {g : GuardId} {change : Guard σ ν → Guard σ ν}
    (less : ∀ guard droppable, (change guard).droppable = some droppable →
      guard.droppable = some droppable) :
    world.Keeps known (world.updateGuard g change) := by
  apply guards world
  intro inside other droppable listed
  rw [Table.get_update] at listed
  split at listed
  · exact inside.guards other droppable (less _ droppable listed)
  · exact inside.guards other droppable listed

theorem addParcel (world : World σ ν) {droppable : Droppable σ ν}
    (member : droppable.Within known) : world.Keeps known (world.addParcel droppable).1 := by
  apply parcels world
  intro inside p other listed
  rw [Table.get_push] at listed
  split at listed
  · exact Option.some.inj listed ▸ member
  · exact inside.parcels p other listed

theorem forgetParcel (world : World σ ν) (p : ParcelId) :
    world.Keeps known { world with parcels := world.parcels.set p none } := by
  apply parcels world
  intro inside q other listed
  rw [Table.set, Table.get_update] at listed
  split at listed
  · contradiction
  · exact inside.parcels q other listed

theorem copied {world : World σ ν} (inside : world.Within known) (s : SlotId) :
    (world.addSlot
      { release := (world.slot s).release
        initializer := (world.slot s).initializer
        links := (world.slot s).links
        handlers := (world.slot s).handlers
        shared := 1 }).1.Keeps known (world.copySlot s).1 := by
  have held : ∀ handle ∈ (world.slot s).held, handle.Within known := by
    intro handle member
    obtain ⟨entry, listed, member⟩ := List.mem_flatMap.mp member
    exact Droppable.within_handles.mpr (inside.linked s entry listed) handle member
  exact (((retainAll _ held).trans (act _ _)).trans (actAll _ _)).trans (actAll _ _)

theorem copySlot {world : World σ ν} (inside : world.Within known) (s : SlotId) :
    world.Keeps known (world.copySlot s).1 := by
  refine (addSlot world ?_).trans (copied inside s)
  exact fun inside => inside.linked s

end World.Keeps

/-- A copy is not in the hands of user code, so that it need not be known. -/
theorem World.Within.copySlot {world : World σ ν} (inside : world.Within known) (s : SlotId)
    (others : ∀ t, world.slots.size < t → known t) : (world.copySlot s).1.Within known := by
  apply (Keeps.copied inside s).within
  · intro t old _
    exact others t (Nat.lt_of_succ_le (by simpa [addSlot] using old))
  · refine ⟨?_, ?_, inside.pending, inside.accessors, inside.guards, inside.parcels⟩
    · intro t usable
      rw [slot_addSlot] at usable
      split at usable
      · simp at usable
      · exact inside.usable t usable
    · intro t entry
      rw [slot_addSlot]
      split
      · exact inside.linked s entry
      · exact inside.linked t entry

/-! ## Moves that keep to the known slots -/

structure Move.Keeps (known : SlotId → Prop) (world : World σ ν) (move : Move σ ν) : Prop where
  world : world.Keeps known move.world
  control : move.control.Within known
  frames : ∀ frame ∈ move.frames, frame.Within known

theorem World.Within.of_usable {world : World σ ν} (inside : world.Within known) {handle : Handle}
    (usable : world.usable handle = true) : handle.Within known := by
  cases handle with
  | slot s => exact inside.usable s (by simpa [World.usable] using usable)
  | scope sc => trivial

theorem Move.Keeps.unframed {world next : World σ ν} {control : Control σ ν}
    (world' : world.Keeps known next) (control' : control.Within known) :
    Move.Keeps known world { world := next, control } :=
  ⟨world', control', fun _ member => absurd member List.not_mem_nil⟩

theorem Move.Keeps.missing (world : World σ ν) :
    Move.Keeps known world { world, control := .task (.finish (.returned .missing)) } :=
  .unframed (.refl world) trivial

section

variable {world : World σ ν} (inside : world.Within known)

include inside

theorem Move.Keeps.whenUsable {handles : List Handle} {move : Option (Move σ ν)}
    (goes : (∀ handle ∈ handles, handle.Within known) → Ensures move (Move.Keeps known world)) :
    Ensures (world.whenUsable handles move) (Move.Keeps known world) := by
  rw [Ensures.whenUsable_iff]
  exact ⟨fun usable => goes fun handle member => inside.of_usable (usable handle member),
    fun _ => .missing world⟩

theorem Move.Keeps.operate {handles : List Handle} {frames : List (Frame σ ν)} {task : Task σ ν}
    (works : (∀ handle ∈ handles, handle.Within known) →
      task.Within known ∧ ∀ frame ∈ frames, frame.Within known) :
    Ensures (world.operate handles frames task) (Move.Keeps known world) := by
  rw [Ensures.operate_iff]
  refine ⟨fun usable => ?_, fun _ => .missing world⟩
  have members : ∀ handle ∈ handles, handle.Within known :=
    fun handle member => inside.of_usable (usable handle member)
  obtain ⟨task, frames⟩ := works members
  exact ⟨.retainAll world members, task,
    List.forall_mem_append.mpr ⟨frames, List.forall_mem_singleton.mpr members⟩⟩

theorem Move.Keeps.borrow {a : AccessorId} {accessor : Accessor σ ν} {frames : List (Frame σ ν)}
    {task : Task σ ν} (listed : world.accessor a = some accessor)
    (works : known accessor.slot → task.Within known ∧ ∀ frame ∈ frames, frame.Within known) :
    Ensures (world.borrow accessor.slot frames task) (Move.Keeps known world) := by
  have member : known accessor.slot := inside.accessors a accessor listed
  have held : (Handle.slot accessor.slot).Within known := member
  obtain ⟨task, frames⟩ := works member
  rw [Ensures.borrow_iff]
  refine ⟨.retain world held, task, List.forall_mem_append.mpr ⟨frames, ?_⟩⟩
  exact List.forall_mem_singleton.mpr (List.forall_mem_singleton.mpr held)

omit inside in
theorem Move.Keeps.close {next : World σ ν} {g : GuardId} {outcome : Exit}
    {droppable : Option (Droppable σ ν)} (keeps : world.Keeps known next)
    (within : ∀ disposed, droppable = some disposed → disposed.Within known) :
    Ensures (Guard.close g outcome next droppable) (Move.Keeps known world) := by
  rw [Ensures.close_iff]
  refine ⟨fun disposed same => ⟨keeps, within disposed same, ?_⟩, fun _ => .unframed keeps trivial⟩
  simpa [Frame.Within] using Droppable.within_handles.mpr (within disposed same)

theorem Move.Keeps.whenConsumable {g : GuardId}
    {move : World σ ν → Option (Droppable σ ν) → Option (Move σ ν)}
    (full : ∀ next droppable, world.Keeps known next → droppable.Within known →
      Ensures (move next (some droppable)) (Move.Keeps known world))
    (empty : ∀ next, world.Keeps known next → Ensures (move next none) (Move.Keeps known world)) :
    Ensures (world.whenConsumable g move) (Move.Keeps known world) := by
  have keeps : world.Keeps known
      (world.updateGuard g fun guard => { guard with held := false, droppable := none }) :=
    .updateGuard world (by rintro _ _ ⟨⟩)
  rw [Ensures.whenConsumable_iff]
  refine ⟨fun _ => ?_, fun _ => .missing world⟩
  cases listed : (world.guard g).droppable with
  | some droppable => exact full _ droppable keeps (inside.guards g droppable listed)
  | none => exact empty _ keeps

end

theorem Call.start_keeps {world : World σ ν} (inside : world.Within known) (call : Call σ ν) :
    Ensures (call.start world) (Move.Keeps known world) := by
  cases call with
  | newSlot release initializer =>
      simp only [start, Ensures.answer_iff]
      exact .unframed (.addSlot world fun _ _ listed => absurd listed List.not_mem_nil) trivial
  | cloneHandle s =>
      refine .whenUsable inside fun members => ?_
      rw [Ensures.answer_iff]
      exact .unframed (.updateSlot' world (members _ (.head _)) fun _ => rfl) trivial
  | forgetHandle s =>
      refine .whenUsable inside fun members => ?_
      rw [Ensures.go_iff]
      exact .unframed (.surrender world (members _ (.head _))) members
  | copySlot s cloner | dropSlot s =>
      exact .operate inside fun members => ⟨members _ (.head _), by simp⟩
  | getValue s | withValue s use =>
      refine .operate inside fun members => ⟨members _ (.head _), ?_⟩
      simpa [Frame.Within, Handle.Within] using members
  | dropOnError s kind droppable =>
      refine .whenUsable inside fun members => ?_
      obtain ⟨member, members⟩ := List.forall_mem_cons.mp members
      simp only [Ensures.whenFree_iff, Ensures.answer_iff]
      intro _
      refine .unframed (.trans (.trans (.retainAll world members) ?_) (.act _ _)) trivial
      refine .updateSlot _ member fun inside entry listed => ?_
      rcases List.mem_append.mp listed with old | new
      · exact inside.linked s entry old
      · rw [List.mem_singleton.mp new]
        exact Droppable.within_handles.mp members
  | callOnError s kind handler =>
      refine .whenUsable inside fun members => ?_
      have keeps : world.Keeps known (world.updateSlot s fun slot =>
          { slot with handlers := slot.handlers.register kind handler }) :=
        .updateSlot' world (members _ (.head _)) fun _ => rfl
      simp only [Ensures.whenFree_iff, Ensures.answer_iff]
      exact fun _ => .unframed (keeps.trans (.act _ _)) trivial
  | newAccessor s fallback =>
      refine .whenUsable inside fun members => ?_
      have member := members _ (.head _)
      rw [Ensures.answer_iff]
      exact .unframed (.trans (.retain world member) (.addAccessor _ member)) trivial
  | access a =>
      simp only [start]
      split
      · next accessor listed =>
          refine .borrow inside listed fun member => ⟨member, ?_⟩
          refine List.forall_mem_cons.mpr ⟨member, List.forall_mem_singleton.mpr ?_⟩
          unfold Accessor.frame
          split <;> exact member
      · rw [Ensures.answer_iff]
        exact .missing world
  | dropAccessed a =>
      simp only [start]
      split
      · next accessor listed => exact .borrow inside listed fun member => ⟨member, by simp⟩
      · rw [Ensures.answer_iff]
        exact .missing world
  | forgetAccessor a =>
      simp only [start]
      split
      · next accessor listed =>
          have member : known accessor.slot := inside.accessors a accessor listed
          simp only [Ensures.go_iff]
          refine .unframed (.forgetAccessor world a) ?_
          simp [Control.Within, Task.Within, Handle.Within, member]
      · simp only [Ensures.answer_iff]
        exact .missing world
  | newScope policy =>
      simp only [start, Ensures.answer_iff]
      exact .unframed (.addScope world rfl) trivial
  | forgetScope sc =>
      simp only [start, Ensures.ite_iff, Ensures.go_iff, Ensures.answer_iff]
      refine ⟨fun _ => .unframed (.surrender world (show (Handle.scope sc).Within known from trivial)) ?_,
        fun _ => .missing world⟩
      simp [Control.Within, Task.Within, Handle.Within]
  | defer sc action =>
      refine .whenUsable inside fun _ => ?_
      rw [Ensures.answer_iff]
      exact .unframed (.addAction world sc fun _ => trivial) trivial
  | adopt sc s =>
      refine .whenUsable inside fun members => ?_
      rw [Ensures.answer_iff]
      exact .unframed (.adopt world sc (members _ (.tail _ (.head _)))) trivial
  | registerSlot sc release initializer =>
      -- The scope comes to mention the slot that is made, which is known because it is new.
      have adds : world.Keeps known (world.makeSlot release initializer).1 :=
        .addSlot world fun _ _ listed => absurd listed List.not_mem_nil
      have grows : world.slots.size < (world.makeSlot release initializer).1.slots.size := by
        simp [World.makeSlot, World.addSlot]
      have adopts : ((world.makeSlot release initializer).1.slots.size ≤
          ((world.makeSlot release initializer).1.adopt sc world.slots.size).slots.size) :=
        Table.size_le_update _ _ _
      refine .whenUsable inside fun _ => ?_
      rw [Ensures.answer_iff]
      refine .unframed (.of_fresh (Nat.le_trans adds.grows adopts) fun fresh => ?_) trivial
      exact adds.trans (.adopt _ sc (fresh _ (Nat.le_refl _) (Nat.lt_of_lt_of_le grows adopts)))
  | resetScope sc =>
      refine .whenUsable inside fun _ => ?_
      rw [Ensures.go_iff]
      refine .unframed (.discardPending world sc) fun handle member => ?_
      obtain ⟨action, listed, member⟩ := List.mem_flatMap.mp member
      have inside := inside.pending sc action listed
      unfold Action.Within at inside
      unfold Action.handles at member
      split at member
      · contradiction
      · next s job =>
          rw [job] at inside
          rw [List.mem_singleton.mp member]
          exact inside
  | peek | inspectSlot =>
      refine .whenUsable inside fun _ => ?_
      simp only [Ensures.whenFree_iff, Ensures.answer_iff]
      exact fun _ => .unframed (.refl world) trivial
  | inspectScope sc =>
      refine .whenUsable inside fun _ => ?_
      rw [Ensures.answer_iff]
      exact .unframed (.refl world) trivial
  | runAll sc => exact .operate inside fun _ => ⟨trivial, by simp⟩
  | deferring config body =>
      simp only [start, Ensures.run_iff]
      refine ⟨.addScope world rfl, trivial, ?_⟩
      simp [Frame.Within]
  | newGuard droppable =>
      refine .whenUsable inside fun members => ?_
      rw [Ensures.answer_iff]
      refine .unframed (.trans (.retainAll world members) (.addGuard _ ?_)) trivial
      intro other equal
      exact Option.some.inj equal ▸ Droppable.within_handles.mp members
  | dropThrough g =>
      simp only [start, Ensures.ite_iff, Ensures.answer_iff]
      refine ⟨fun _ => ?_, fun _ => .missing world⟩
      split
      · next droppable listed =>
          simp only [Ensures.push_iff]
          refine ⟨.updateGuard world fun _ _ same => same, inside.guards g droppable listed, ?_⟩
          simp [Frame.Within]
      · simp only [Ensures.go_iff]
        exact .unframed (.refl world) trivial
  | inspectGuard g =>
      simp only [start, Ensures.ite_iff, Ensures.whenFree_iff, Ensures.answer_iff]
      exact ⟨fun _ _ => .unframed (.refl world) trivial, fun _ => .missing world⟩
  | releaseGuard g =>
      simp only [start]
      refine .whenConsumable inside (fun next droppable keeps member => ?_) fun next keeps => ?_
      · rw [Ensures.push_iff]
        refine ⟨keeps, member, ?_⟩
        simpa [Frame.Within] using Droppable.within_handles.mpr member
      · rw [Ensures.push_iff]
        exact ⟨keeps, trivial, List.forall_mem_singleton.mpr trivial⟩
  | disarmGuard g =>
      simp only [start]
      refine .whenConsumable inside (fun next droppable keeps member => ?_) fun next keeps => ?_
      · rw [Ensures.push_iff]
        exact ⟨keeps.trans (.addParcel _ member), trivial, List.forall_mem_singleton.mpr trivial⟩
      · rw [Ensures.push_iff]
        exact ⟨keeps, trivial, List.forall_mem_singleton.mpr trivial⟩
  | forgetGuard g =>
      refine .whenConsumable inside (fun next droppable keeps member => ?_) fun next keeps => ?_
      · exact .close keeps fun _ same => Option.some.inj same ▸ member
      · exact .close keeps fun _ some => absurd some (Option.some_ne_none _).symm
  | keep droppable =>
      refine .whenUsable inside fun members => ?_
      rw [Ensures.answer_iff]
      exact .unframed
        (.trans (.retainAll world members) (.addParcel _ (Droppable.within_handles.mp members)))
        trivial
  | dispose p =>
      simp only [start]
      split
      · next droppable listed =>
          have member := inside.parcels p droppable listed
          have members := Droppable.within_handles.mpr member
          simp only [Ensures.push_iff]
          refine ⟨.retainAll world members, member, ?_⟩
          simpa [Frame.Within] using members
      · simp only [Ensures.answer_iff]
        exact .missing world
  | forgetParcel p =>
      simp only [start]
      split
      · next droppable listed =>
          simp only [Ensures.go_iff]
          exact .unframed (.forgetParcel world p)
            (Droppable.within_handles.mpr (inside.parcels p droppable listed))
      · simp only [Ensures.answer_iff]
        exact .missing world
  | newRegistry =>
      simp only [start, Ensures.answer_iff]
      exact .unframed (.of_eq rfl rfl rfl rfl rfl) trivial
  | register r kind number =>
      simp only [start, Ensures.ite_iff, Ensures.whenFree_iff, Ensures.answer_iff]
      exact ⟨fun _ _ => .unframed (.of_eq rfl rfl rfl rfl rfl) trivial, fun _ => .missing world⟩
  | select r error =>
      simp only [start, Ensures.ite_iff, Ensures.go_iff, Ensures.answer_iff]
      exact ⟨fun _ => .unframed (.refl world) trivial, fun _ => .missing world⟩
  | snapshotRegistry r =>
      simp only [start, Ensures.ite_iff, Ensures.whenFree_iff, Ensures.answer_iff]
      exact ⟨fun _ _ => .unframed (.of_eq rfl rfl rfl rfl rfl) trivial, fun _ => .missing world⟩
  | inspectRegistry r =>
      simp only [start, Ensures.ite_iff, Ensures.whenFree_iff, Ensures.answer_iff]
      exact ⟨fun _ _ => .unframed (.refl world) trivial, fun _ => .missing world⟩
  | loadConfig lookup announced =>
      simp only [start, Ensures.run_iff]
      exact ⟨.refl world, trivial, by simp [Frame.Within]⟩
  | matchKind kind error =>
      simp only [start]
      split
      · simp only [Ensures.answer_iff]
        exact .unframed (.refl world) trivial
      · simp only [Ensures.run_iff]
        exact ⟨.refl world, trivial, by simp [Frame.Within]⟩

theorem Registry.pick_mem {α : Type} {registry : Registry σ ν α} {places : List Nat} {place : Nat}
    {entry : α} (picked : (place, entry) ∈ registry.pick places) :
    ∃ kind, (kind, entry) ∈ registry.entries := by
  obtain ⟨place, _, found⟩ := List.mem_filterMap.mp picked
  obtain ⟨⟨kind, other⟩, listed, equal⟩ := Option.map_eq_some_iff.mp found
  obtain ⟨rfl, rfl⟩ := Prod.mk.inj equal
  exact ⟨kind, List.mem_of_getElem? listed⟩

theorem Selection.proceed_keeps {world : World σ ν} (inside : world.Within known)
    {selection : Selection σ ν} (member : selection.Within known) (error : Error)
    (places : List Nat) :
    Ensures ((world.unlock selection.lock).proceed selection error places)
      (Move.Keeps known world) := by
  simp only [Ensures.proceed_iff]
  refine ⟨?_, ?_, fun _ _ => .unframed (.unlock world _) trivial⟩
  · rintro s rfl
    refine .unframed (.unlock world _) ⟨member, fun link picked => ?_⟩
    obtain ⟨kind, listed⟩ := Registry.pick_mem picked
    exact inside.linked s _ listed
  · rintro s chosen rfl
    exact .unframed (.trans (.unlock world _) (.emit _ _)) member

theorem World.ask_keeps (world : World σ ν) {selection : Selection σ ν}
    (member : selection.Within known) (error : Error) (place : Nat) (kind : Kind σ ν)
    (rest : List (Nat × Kind σ ν)) (places : List Nat) :
    Ensures (world.ask selection error place kind rest places) (Move.Keeps known world) := by
  simp only [Ensures.ask_iff]
  refine ⟨fun _ => .unframed (.refl world) member, fun _ => .unframed (.refl world) member,
    fun _ _ => ⟨.refl world, trivial, ?_⟩⟩
  exact List.forall_mem_singleton.mpr member

theorem Task.letGo_keeps {world : World σ ν} (inside : world.Within known) (id : ThreadId)
    {handles : List Handle} (members : ∀ handle ∈ handles, handle.Within known) (exit : Exit) :
    Ensures ((letGo handles exit).step world id) (Move.Keeps known world) := by
  apply Ensures.letGo
  · exact fun _ => .unframed (.refl world) trivial
  · rintro handle rest rfl -
    obtain ⟨member, others⟩ := List.forall_mem_cons.mp members
    exact .unframed (.relinquish world member) others
  · rintro s rest rfl -
    obtain ⟨member, others⟩ := List.forall_mem_cons.mp members
    have keeps : world.Keeps known (world.relinquish (.slot s)) := .relinquish world member
    refine .unframed (keeps.trans (.discardSlot _ member)) (List.forall_mem_append.mpr ⟨?_, others⟩)
    -- What the slot's links hold is given up with it.
    intro handle held
    obtain ⟨entry, linked, held⟩ := List.mem_flatMap.mp held
    have linked : entry ∈ (world.slot s).links.entries := by
      simpa [World.relinquish] using linked
    exact Droppable.within_handles.mpr (inside.linked s entry linked) handle held
  · rintro sc rest rfl
    obtain ⟨member, others⟩ := List.forall_mem_cons.mp members
    exact ⟨.relinquish world member, trivial, List.forall_mem_singleton.mpr others⟩

theorem Task.step_keeps {world : World σ ν} (inside : world.Within known) (id : ThreadId)
    {task : Task σ ν} (member : task.Within known)
    (delivered : ∀ made, task = .deliver made → known made) :
    Ensures (task.step world id) (Move.Keeps known world) := by
  cases task with
  | finish exit => simp [step]
  | start call => exact call.start_keeps inside
  | letGo handles exit => exact letGo_keeps inside id member exit
  | look s =>
      simp only [step, Ensures.whenFree_iff]
      intro _
      split
      · rw [Ensures.answer_iff]
        exact .unframed (.refl world) trivial
      · rw [Ensures.go_iff]
        exact .unframed (.refl world) member
  | enter s =>
      simp only [step, Ensures.bind_iff, Ensures.ite_iff, Ensures.go_iff]
      intro entered action
      have keeps : world.Keeps known entered := by
        obtain ⟨depth, _, rfl⟩ := world.enterSlot_eq action
        exact .updateSlot' world member fun _ => rfl
      exact ⟨fun _ => .unframed keeps ⟨member, trivial⟩, fun _ => .unframed keeps member⟩
  | lookAgain s =>
      simp only [step, Ensures.whenFree_iff]
      intro _
      split
      · rw [Ensures.go_iff]
        exact .unframed (.refl world) ⟨member, trivial⟩
      · rw [Ensures.go_iff]
        exact .unframed (.refl world) member
  | produce s =>
      have keeps : world.Keeps known
          (world.updateSlot s fun slot => { slot with initializing := true }) :=
        .updateSlot' world member fun _ => rfl
      simp only [step, Ensures.ite_iff, Ensures.go_iff, Ensures.run_iff]
      refine ⟨fun _ => .unframed (.refl world) ⟨member, trivial⟩, fun _ => ⟨keeps.trans (.act _ _),
        trivial, ?_⟩⟩
      exact List.forall_mem_singleton.mpr member
  | lockValue s value =>
      simp only [step, Ensures.whenFree_iff, Ensures.go_iff]
      exact fun _ => .unframed (.lock world _ id) member
  | confirm s value =>
      simp only [step, Ensures.ite_iff, Ensures.go_iff]
      exact ⟨fun _ => .unframed (.refl world) ⟨member, member, member⟩,
        fun _ => .unframed (.refl world) member⟩
  | store s value =>
      have keeps : world.Keeps known
          (world.updateSlot s fun slot => { slot with value := some value }) :=
        .updateSlot' world member fun _ => rfl
      simp only [step, Ensures.go_iff]
      exact .unframed (keeps.trans (.emit _ _)) ⟨member, member, trivial⟩
  | unlockValue s following =>
      simp only [step, Ensures.go_iff]
      exact .unframed (.unlock world _) member.2
  | leave s following =>
      simp only [step, Ensures.go_iff]
      exact .unframed (.updateSlot' world member.1 fun _ => rfl) member.2
  | releaseLate s value =>
      simp only [step, Ensures.run_iff]
      exact ⟨.act world _, trivial, List.forall_mem_singleton.mpr member⟩
  | consult selection error =>
      simp only [step, Ensures.whenFree_iff, Ensures.go_iff]
      exact fun _ => .unframed (.lock world _ id) member
  | sift selection error rest places =>
      cases rest with
      | nil => exact selection.proceed_keeps inside member error places
      | cons entry rest => exact world.ask_keeps member error entry.1 entry.2 rest places
  | links s error rest callbacks failures =>
      cases rest with
      | nil =>
          simp only [step, Ensures.go_iff]
          exact .unframed (.refl world) member.1
      | cons link rest =>
          have others : ∀ link ∈ rest, link.2.Within known :=
            fun other listed => member.2 other (.tail _ listed)
          simp only [step, Ensures.push_iff]
          refine ⟨.act world _, member.2 link (.head _), ?_⟩
          intro frame listed
          rw [List.mem_singleton.mp listed]
          exact ⟨member.1, others⟩
  | handlers s error rest failures =>
      cases rest with
      | nil =>
          simp only [step, Ensures.answer_iff]
          exact .unframed (.refl world) trivial
      | cons handler rest =>
          simp only [step, Ensures.run_iff]
          exact ⟨.act world _, trivial, List.forall_mem_singleton.mpr member⟩
  | swap s =>
      have keeps : world.Keeps known
          (world.updateSlot s fun slot => { slot with dropped := true }) :=
        .updateSlot' world member fun _ => rfl
      simp only [step, Ensures.ite_iff, Ensures.go_iff, Ensures.endDrop_iff]
      exact ⟨fun _ => .unframed (.act world _) trivial, fun _ => .unframed keeps member⟩
  | take s =>
      have keeps : world.Keeps known
          (world.updateSlot s fun slot => { slot with value := none }) :=
        .updateSlot' world member fun _ => rfl
      simp only [step, Ensures.whenFree_iff]
      intro _
      split
      · rw [Ensures.run_iff]
        exact ⟨(keeps.trans (.emit _ _)).trans (.act _ _), trivial,
          List.forall_mem_singleton.mpr member⟩
      · rw [Ensures.endDrop_iff]
        exact .unframed (.act world _) trivial
  | dispose droppable =>
      cases droppable with
      | action code =>
          simp only [step, Ensures.run_iff]
          exact .unframed (.refl world) trivial
      | slot s =>
          simp only [step, Ensures.go_iff]
          exact .unframed (.refl world) (member s (.head _))
      | owner droppables =>
          simp only [step, Ensures.go_iff]
          refine .unframed (.refl world) fun droppable listed s mentioned => ?_
          exact member s (mem_slotsOfAll.mpr ⟨droppable, List.mem_reverse.mp listed, mentioned⟩)
      | scopeOwner =>
          simp only [step, Ensures.answer_iff]
          exact .unframed (.refl world) trivial
  | disposeAll rest failures =>
      cases rest with
      | nil =>
          simp only [step, Ensures.answer_iff]
          split
          · exact .unframed (.refl world) trivial
          · exact .unframed (.emit world _) trivial
      | cons droppable rest =>
          have others : ∀ droppable ∈ rest, droppable.Within known :=
            fun other listed => member other (.tail _ listed)
          simp only [step, Ensures.push_iff]
          refine ⟨.refl world, member droppable (.head _), ?_⟩
          simpa [Frame.Within] using others
  | copy s cloner =>
      simp only [step, Ensures.whenFree_iff]
      intro _
      cases cloner with
      | none =>
          rw [Ensures.go_iff]
          exact .unframed (.copySlot inside s) trivial
      | some cloner =>
          rw [Ensures.go_iff]
          exact .unframed (.copySlot inside s) member
  | copyValue s made cloner =>
      simp only [step, Ensures.whenFree_iff]
      intro _
      split
      · rw [Ensures.run_iff]
        exact ⟨.refl world, trivial, by simp [Frame.Within]⟩
      · rw [Ensures.go_iff]
        exact .unframed (.refl world) trivial
  | deliver made =>
      simp only [step, Ensures.answer_iff]
      exact .unframed (.updateSlot' world (delivered made rfl) fun _ => rfl) trivial
  | drain sc ran failures =>
      have members : ∀ action ∈ (world.scope sc).pending.reverse, action.Within known :=
        fun action listed => inside.pending sc action (List.mem_reverse.mp listed)
      simp only [step]
      split
      · rw [Ensures.go_iff]
        exact .unframed (.takePending world sc) trivial
      · rw [Ensures.go_iff]
        exact .unframed (.takePending world sc) members
  | batch sc rest ran failures =>
      cases rest with
      | nil =>
          simp only [step, Ensures.go_iff]
          exact .unframed (.refl world) trivial
      | cons action rest =>
          have others : ∀ action ∈ rest, action.Within known :=
            fun other listed => member other (.tail _ listed)
          have first := member action (.head _)
          unfold Action.Within at first
          simp only [step]
          split
          · rw [Ensures.run_iff]
            refine ⟨.act world _, trivial, ?_⟩
            simpa [Frame.Within] using others
          · next s job =>
              rw [job] at first
              rw [Ensures.push_iff]
              refine ⟨.act world _, first, ?_⟩
              intro frame listed
              rcases List.mem_cons.mp listed with rfl | listed
              · simpa [Frame.Within, Handle.Within] using first
              · rw [List.mem_singleton.mp listed]
                exact others
  | report sc ran failures =>
      simp only [step, Ensures.answer_iff]
      exact .unframed (.trans (.emit world _) (.emitAll _ _)) trivial

theorem World.initializerEnded_keeps (world : World σ ν) {s : SlotId} (member : known s)
    (exit : Exit) : Ensures (world.initializerEnded s exit) (Move.Keeps known world) := by
  have keeps : world.Keeps known (world.updateSlot s fun slot =>
      { slot with initializing := false }) := .updateSlot' world member fun _ => rfl
  simp only [Ensures.initializerEnded_iff]
  refine ⟨fun _ _ => .unframed (keeps.trans (.act _ _)) ⟨member, trivial⟩, fun _ _ =>
    ⟨fun _ _ => .unframed (keeps.trans (.act _ _)) ⟨member, member⟩, fun _ => ?_⟩⟩
  exact .unframed (((keeps.trans (.act _ _)).trans (.makeValue _ _)).trans (.act _ _)) member

theorem Frame.resume_keeps {world : World σ ν} (inside : world.Within known) (exit : Exit)
    {frame : Frame σ ν} (member : frame.Within known) (cloned : ∀ copy, frame = .cloning copy → known copy) :
    Ensures (frame.resume world exit) (Move.Keeps known world) := by
  cases frame with
  | calling next =>
      cases exit with
      | returned reply =>
          simp only [resume, Ensures.run_iff]
          exact .unframed (.refl world) trivial
      | panicked payload =>
          simp only [resume, Ensures.go_iff]
          exact .unframed (.refl world) trivial
  | attempted next | joined starter next =>
      simp only [resume, Ensures.run_iff, Ensures.some_iff]
      exact ⟨.refl world, trivial, fun _ listed => absurd listed List.not_mem_nil⟩
  | holding handles =>
      simp only [resume, Ensures.go_iff]
      exact .unframed (.refl world) member
  | looking s =>
      simp only [resume, Ensures.go_iff]
      exact .unframed (.act world _) trivial
  | initializing s => exact world.initializerEnded_keeps member exit
  | expiring g =>
      exact .close (.updateGuard world (by rintro _ _ ⟨⟩)) (inside.guards g)
  | releasingLate s value | guarding g outcome =>
      cases exit <;> simp only [resume, Ensures.go_iff, Ensures.answer_iff]
      · exact .unframed (.emitAll world _) trivial
      · exact .unframed (.refl world) trivial
  | judging selection error place rest places =>
      cases exit <;> simp only [resume, Ensures.go_iff]
      · exact .unframed (.refl world) member
      · exact .unframed (.unlock world _) trivial
  | linking s error rest callbacks failures =>
      cases exit <;> simp only [resume]
      · split
        · rw [Ensures.go_iff]
          exact .unframed (.refl world) member
        · rw [Ensures.go_iff]
          exact .unframed (.emit world _) member
      · rw [Ensures.go_iff]
        exact .unframed (.refl world) trivial
  | handling s error rest failures =>
      cases exit <;> simp only [resume]
      · split
        · rw [Ensures.go_iff]
          exact .unframed (.refl world) member
        · rw [Ensures.go_iff]
          exact .unframed (.emit world _) member
      · rw [Ensures.go_iff]
        exact .unframed (.refl world) trivial
  | releasing s value =>
      simp only [resume, Ensures.endDrop_iff]
      exact .unframed (.act world _) trivial
  | owning rest failures =>
      cases exit <;> simp only [resume, Ensures.go_iff]
      · exact .unframed (.refl world) member
      · exact .unframed (.refl world) trivial
  | cloning copy =>
      have member := cloned copy rfl
      cases exit <;> simp only [resume, Ensures.go_iff]
      · have keeps (world : World σ ν) (value : Value) : world.Keeps known
            (world.updateSlot copy fun slot => { slot with value := some value }) :=
          .updateSlot' world member fun _ => rfl
        exact .unframed (((World.Keeps.makeValue world _).trans (keeps _ _)).trans (.act _ _))
          trivial
      · refine .unframed (.refl world) ?_
        simpa [Control.Within, Task.Within, Handle.Within] using member
  | getting use =>
      simp only [resume]
      split
      · rw [Ensures.run_iff]
        exact ⟨.refl world, trivial, List.forall_mem_singleton.mpr trivial⟩
      · rw [Ensures.go_iff]
        exact .unframed (.refl world) trivial
  | orNone s =>
      simp only [resume]
      split
      · rw [Ensures.answer_iff]
        exact .unframed (.emit world _) trivial
      · rw [Ensures.go_iff]
        exact .unframed (.refl world) trivial
  | orElse s fallback =>
      simp only [resume]
      split
      · rw [Ensures.run_iff]
        exact ⟨.emit world _, trivial, List.forall_mem_singleton.mpr member⟩
      · rw [Ensures.answer_iff]
        exact .unframed (.refl world) trivial
      · rw [Ensures.go_iff]
        exact .unframed (.refl world) trivial
  | fallingBack s =>
      cases exit <;> simp only [resume, Ensures.go_iff, Ensures.answer_iff]
      · exact .unframed ((World.Keeps.makeValue world _).trans (.act _ _)) trivial
      · exact .unframed (.refl world) trivial
  | tearing sc rest ran failures =>
      simp only [resume, Ensures.go_iff]
      exact .unframed (.refl world) member
  | vanishing sc rest outcome =>
      cases exit <;> simp only [resume, Ensures.go_iff]
      · exact .unframed (.emitAll world _) member
      · exact .unframed (.refl world) trivial
  | body sc =>
      simp only [resume, Ensures.push_iff]
      exact ⟨.refl world, trivial, List.forall_mem_singleton.mpr trivial⟩
  | closing sc outcome =>
      cases exit <;> simp only [resume, Ensures.go_iff]
      · refine .unframed ((World.Keeps.emitAll world _).trans (.updateScope _ ?_)) ?_
        · exact fun inside => inside.pending sc
        · simp [Control.Within, Task.Within, Handle.Within]
      · exact .unframed (.refl world) trivial
  | through g =>
      simp only [resume, Ensures.go_iff]
      exact .unframed (.updateGuard world fun _ _ same => same) trivial
  | reading announced =>
      cases exit <;> simp only [resume]
      · exact .configRead fun _ events _ => .unframed (.emitAll world events) trivial
      · rw [Ensures.go_iff]
        exact .unframed (.refl world) trivial
  | _ =>
      cases exit <;> simp only [resume, Ensures.go_iff, Ensures.answer_iff] <;>
        exact .unframed (.refl world) trivial

theorem Code.step_keeps (world : World σ ν) (id : ThreadId) (code : Code σ ν) :
    Ensures (code.step world id) (Move.Keeps known world) := by
  cases code with
  | ret reply =>
      simp only [step, Ensures.answer_iff]
      exact .unframed (.refl world) trivial
  | panic payload =>
      simp only [step, Ensures.go_iff]
      exact .unframed (.refl world) trivial
  | load next =>
      simp only [step, Ensures.run_iff]
      exact .unframed (.refl world) trivial
  | store memory next =>
      simp only [step, Ensures.run_iff]
      exact .unframed (.of_eq rfl rfl rfl rfl rfl) trivial
  | note entry next =>
      simp only [step, Ensures.run_iff]
      exact .unframed (.record world _) trivial
  | attempt body next =>
      simp only [step, Ensures.run_iff]
      exact ⟨.refl world, trivial, List.forall_mem_singleton.mpr trivial⟩
  | elsewhere body next =>
      simp only [step, Ensures.some_iff]
      exact ⟨.of_eq rfl rfl rfl rfl rfl, trivial, List.forall_mem_singleton.mpr trivial⟩
  | call request next =>
      simp only [step, Ensures.push_iff]
      exact ⟨.refl world, trivial, List.forall_mem_singleton.mpr trivial⟩

theorem Thread.step_keeps {world next : World σ ν} {thread after : Thread σ ν}
    (action : thread.step world = some (next, after)) (inside : world.Within known)
    (control : thread.control.Within known) (stack : ∀ frame ∈ thread.stack, frame.Within known)
    (delivered : ∀ made, thread.control = .task (.deliver made) → known made)
    (cloned : ∀ exit copy rest, thread.control = .task (.finish exit) →
      thread.stack = .cloning copy :: rest → known copy) :
    world.Keeps known next ∧ after.control.Within known ∧
      ∀ frame ∈ after.stack, frame.Within known := by
  revert control stack delivered cloned
  refine step_rule (fun thread next after => thread.control.Within known →
    (∀ frame ∈ thread.stack, frame.Within known) →
    (∀ made, thread.control = .task (.deliver made) → known made) →
    (∀ exit copy rest, thread.control = .task (.finish exit) →
      thread.stack = .cloning copy :: rest → known copy) →
    world.Keeps known next ∧ after.control.Within known ∧
      ∀ frame ∈ after.stack, frame.Within known) ?_ ?_ ?_ action
  · intro id code stack move made _ members _ _
    have keeps : Move.Keeps known world move := code.step_keeps world id move made
    exact ⟨keeps.world, keeps.control, List.forall_mem_append.mpr ⟨keeps.frames, members⟩⟩
  · intro id task stack move made control members delivered _
    have keeps := task.step_keeps inside id control (fun made equal => delivered made (by rw [equal]))
      move made
    exact ⟨keeps.world, keeps.control, List.forall_mem_append.mpr ⟨keeps.frames, members⟩⟩
  · intro id exit frame stack move made _ members _ cloned
    have keeps := Frame.resume_keeps inside exit (members frame (.head _))
      (fun copy equal => cloned exit copy stack rfl (by rw [equal])) move made
    exact ⟨keeps.world, keeps.control,
      List.forall_mem_append.mpr ⟨keeps.frames, fun other listed => members other (.tail _ listed)⟩⟩

theorem Thread.step_copy {world next : World σ ν} {id : ThreadId} {s : SlotId}
    {cloner : Option (Value → Code σ ν)} {stack : List (Frame σ ν)} {after : Thread σ ν}
    (action : Thread.step world ⟨id, .task (.copy s cloner), stack⟩ = some (next, after))
    (inside : world.Within known) (member : known s)
    (others : ∀ t, world.slots.size < t → known t) :
    world.slots.size < next.slots.size ∧ next.Within known ∧ after.control.Within known ∧
      after.stack = stack := by
  have grows : world.slots.size < (world.copySlot s).1.slots.size := by
    have added := (World.Keeps.copied inside s).grows
    exact Nat.lt_of_succ_le (by simpa [World.addSlot] using added)
  have keeps : Ensures (Task.step world id (.copy s cloner)) fun move =>
      move.world = (world.copySlot s).1 ∧ move.control.Within known ∧ move.frames = [] := by
    simp only [Task.step, Ensures.whenFree_iff]
    intro _
    cases cloner with
    | none =>
        rw [Ensures.go_iff]
        exact ⟨rfl, trivial, rfl⟩
    | some cloner =>
        rw [Ensures.go_iff]
        exact ⟨rfl, member, rfl⟩
  obtain ⟨move, made, equal⟩ := Option.map_eq_some_iff.mp action
  obtain ⟨rfl, rfl⟩ := Prod.mk.inj equal
  obtain ⟨copied, control, unframed⟩ := keeps move made
  rw [copied]
  exact ⟨grows, inside.copySlot s others, control, by simp [Thread.after, unframed]⟩

end Relinquish
