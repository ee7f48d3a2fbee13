import Relinquish.Proofs.Changes
import Relinquish.Proofs.Runs
import Mathlib.Algebra.GroupWithZero.Nat
import Mathlib.Data.List.Count

/-!
Holds on slots. Whoever holds a slot is counted there: a slot is shared out at least as often as
links, pending actions, accessors, guards, kept droppables and operations in progress hold it. So a
slot with a hold on it has not gone, and one that has gone stays gone.
-/

namespace Relinquish

variable {σ ν : Type}

/-! ## Who holds what -/

namespace Table

variable {α : Type}

theorem sum_updateAt [Inhabited α] {weight : α → Nat} (none : weight default = 0) (change : α → α)
    (i : Nat) (objects : List α) :
    ((updateAt change i objects).map weight).sum + weight (objects[i]?.getD default) =
      (objects.map weight).sum + weight (change (objects[i]?.getD default)) := by
  induction i generalizing objects with
  | zero => cases objects <;> simp [updateAt, none, Nat.add_comm, Nat.add_left_comm]
  | succ i ih =>
      cases objects with
      | nil => simpa [updateAt, none] using ih []
      | cons object rest =>
          have rest := ih rest
          simp only [updateAt, List.map_cons, List.sum_cons, List.getElem?_cons_succ] at rest ⊢
          omega

variable (holdings : α → List Handle)

def tally (table : Table α) (handle : Handle) : Nat :=
  (table.entries.map fun object => (holdings object).count handle).sum

theorem tally_push (table : Table α) (object : α) (handle : Handle) :
    (table.push object).tally holdings handle =
      table.tally holdings handle + (holdings object).count handle := by
  simp [tally, push]

variable [Inhabited α] (none : holdings default = [])
include none

theorem tally_update (table : Table α) (i : Nat) (change : α → α) (handle : Handle) :
    (table.update i change).tally holdings handle + (holdings (table.get i)).count handle =
      table.tally holdings handle + (holdings (change (table.get i))).count handle := by
  have weightless : (holdings default).count handle = 0 := by rw [none, List.count_nil]
  exact sum_updateAt weightless change i table.entries

theorem count_le_tally (table : Table α) (i : Nat) (handle : Handle) :
    (holdings (table.get i)).count handle ≤ table.tally holdings handle := by
  have emptied := tally_update holdings none table i (fun _ => default) handle
  rw [none, List.count_nil] at emptied
  omega

end Table

def Slot.holdings (slot : Slot σ ν) : List Handle :=
  if slot.handles + slot.shared = 0 then [] else slot.held

def Scope.holdings (scope : Scope σ ν) : List Handle :=
  scope.pending.flatMap Action.handles

def Accessor.holdings (accessor : Option (Accessor σ ν)) : List Handle :=
  accessor.elim [] fun accessor => [.slot accessor.slot]

def Droppable.holdings (droppable : Option (Droppable σ ν)) : List Handle :=
  droppable.elim [] Droppable.handles

def Guard.holdings (guard : Guard σ ν) : List Handle :=
  Droppable.holdings guard.droppable

def World.holds (world : World σ ν) (s : SlotId) : Nat :=
  world.slots.tally Slot.holdings (.slot s) + world.scopes.tally Scope.holdings (.slot s) +
    world.accessors.tally Accessor.holdings (.slot s) + world.guards.tally Guard.holdings (.slot s) +
    world.parcels.tally Droppable.holdings (.slot s)

def Task.holdings : Task σ ν → List Handle
  | letGo handles _ => handles
  | batch _ rest _ _ => rest.flatMap Action.handles
  | copyValue _ made _ | deliver made => [.slot made]
  | unlockValue _ next | leave _ next => next.holdings
  | _ => []

def Control.holdings : Control σ ν → List Handle
  | .code _ => []
  | .task work => work.holdings

def Frame.holdings : Frame σ ν → List Handle
  | holding handles | vanishing _ handles _ => handles
  | tearing _ rest _ _ => rest.flatMap Action.handles
  | cloning copy => [.slot copy]
  | _ => []

def Thread.holdings (thread : Thread σ ν) : List Handle :=
  thread.control.holdings ++ thread.stack.flatMap Frame.holdings

def Move.holdings (move : Move σ ν) : List Handle :=
  move.control.holdings ++ move.frames.flatMap Frame.holdings

/-- The slot that a task works on by a hold of the operation to which it belongs. -/
def Task.works? : Task σ ν → Option SlotId
  | look s | enter s | lookAgain s | produce s | copy s _ => some s
  | unlockValue _ next | leave _ next => next.works?
  | _ => none

def Control.works? : Control σ ν → Option SlotId
  | .code _ => none
  | .task work => work.works?

/-! ## How holds pass from one to another -/

theorem Handle.count_other {t s : SlotId} (other : t ≠ s) (handles : List Handle) :
    (Handle.slot t :: handles).count (.slot s) = handles.count (.slot s) :=
  List.count_cons_of_ne (by simpa using other)

theorem Handle.count_scope (sc : ScopeId) (s : SlotId) (handles : List Handle) :
    (Handle.scope sc :: handles).count (.slot s) = handles.count (.slot s) :=
  List.count_cons_of_ne (by simp)

theorem World.unheld_slot (world : World σ ν) (s : SlotId) :
    world.unheld (.slot s) = true ↔ (world.slot s).handles + (world.slot s).shared = 0 := by
  simp [unheld]

theorem World.slot_unmade {world : World σ ν} {s : SlotId} (unmade : ¬ s < world.slots.size) :
    world.slot s = default := by
  rw [slot, Table.get, List.getElem?_eq_none (Nat.le_of_not_lt unmade)]
  rfl

theorem World.made_of_held {world : World σ ν} {s : SlotId}
    (held : 0 < (world.slot s).handles + (world.slot s).shared) : s < world.slots.size := by
  by_contra unmade
  rw [slot_unmade unmade] at held
  exact absurd held (Nat.lt_irrefl 0)

/-- From one world to another, what is held more is shared out more or was held before by someone
else, and what has gone stays gone. -/
structure World.Pays (world : World σ ν) (before : List Handle) (next : World σ ν)
    (after : List Handle) : Prop where
  counted : ∀ s, next.holds s + after.count (.slot s) + (world.slot s).shared ≤
    world.holds s + before.count (.slot s) + (next.slot s).shared
  made : world.slots.size ≤ next.slots.size
  gone : ∀ s < world.slots.size, (world.slot s).handles + (world.slot s).shared = 0 →
    (next.slot s).handles + (next.slot s).shared = 0

/-- What of a world says who holds what. -/
def World.estate (world : World σ ν) :=
  (world.slots, world.scopes, world.accessors, world.guards, world.parcels)

namespace World

variable (world : World σ ν)

@[simp] theorem estate_act (act : Act) : (world.act act).estate = world.estate := rfl

@[simp] theorem estate_emit (event : Event) : (world.emit event).estate = world.estate := rfl

@[simp] theorem estate_emitAll (events : List Event) :
    (world.emitAll events).estate = world.estate :=
  world.foldl_same (·.estate) emit (fun _ _ => rfl) events

@[simp] theorem estate_actAll (acts : List Act) : (world.actAll acts).estate = world.estate :=
  world.foldl_same (·.estate) act (fun _ _ => rfl) acts

end World

namespace World.Pays

variable {world middle next : World σ ν} {before between after rest : List Handle}

theorem of_estate (handles : List Handle) (same : next.estate = world.estate) :
    world.Pays handles next handles := by
  simp only [estate, Prod.mk.injEq] at same
  obtain ⟨slots, scopes, accessors, guards, parcels⟩ := same
  have slot (s : SlotId) : next.slot s = world.slot s := by rw [World.slot, slots, World.slot]
  refine ⟨fun s => ?_, Nat.le_of_eq (by rw [slots]), fun s _ => ?_⟩
  · simp only [holds, slots, scopes, accessors, guards, parcels, slot]
    omega
  · rw [slot]
    exact id

theorem refl (world : World σ ν) (handles : List Handle) : world.Pays handles world handles :=
  .of_estate handles rfl

theorem trans (first : world.Pays before middle between) (second : middle.Pays between next after) :
    world.Pays before next after := by
  refine ⟨fun s => ?_, Nat.le_trans first.made second.made, fun s made gone => ?_⟩
  · have one := first.counted s
    have two := second.counted s
    omega
  · exact second.gone s (Nat.lt_of_lt_of_le made first.made) (first.gone s made gone)

theorem append (pays : world.Pays before next after) (handles : List Handle) :
    world.Pays (before ++ handles) next (after ++ handles) := by
  refine ⟨fun s => ?_, pays.made, pays.gone⟩
  have counted := pays.counted s
  simp only [List.count_append]
  omega

theorem cancel {handles : List Handle}
    (pays : world.Pays (handles ++ before) next (handles ++ after)) : world.Pays before next after := by
  refine ⟨fun s => ?_, pays.made, pays.gone⟩
  have counted := pays.counted s
  simp only [List.count_append] at counted
  omega

theorem leak (world : World σ ν) (handles : List Handle) : world.Pays handles world [] := by
  refine ⟨fun s => ?_, Nat.le_refl _, fun s _ gone => gone⟩
  rw [List.count_nil]
  omega

theorem congr {earlier later : List Handle} (pays : world.Pays before next after)
    (same : ∀ s, earlier.count (.slot s) = before.count (.slot s))
    (also : ∀ s, later.count (.slot s) = after.count (.slot s)) :
    world.Pays earlier next later := by
  refine ⟨fun s => ?_, pays.made, pays.gone⟩
  rw [same, also]
  exact pays.counted s

theorem updateSlot {t : SlotId} {change : Slot σ ν → Slot σ ν}
    (counted : ∀ s, (change (world.slot t)).holdings.count (.slot s) + after.count (.slot s) +
        (if t = s then (world.slot t).shared else 0) ≤
      (world.slot t).holdings.count (.slot s) + before.count (.slot s) +
        (if t = s then (change (world.slot t)).shared else 0))
    (gone : t < world.slots.size → (world.slot t).handles + (world.slot t).shared = 0 →
      (change (world.slot t)).handles + (change (world.slot t)).shared = 0) :
    world.Pays before (world.updateSlot t change) after := by
  refine ⟨fun s => ?_, Table.size_le_update world.slots t change, fun s made empty => ?_⟩
  · have tally := Table.tally_update Slot.holdings rfl world.slots t change (.slot s)
    have counted := counted s
    rw [slot_updateSlot]
    simp only [holds, World.updateSlot]
    rw [World.slot] at counted
    split at counted
    · next equal =>
        subst equal
        simp only [if_true, World.slot] at counted ⊢
        omega
    · next other =>
        rw [if_neg other]
        omega
  · rw [slot_updateSlot]
    split
    · next equal =>
        subst equal
        exact gone made empty
    · exact empty

theorem reslot (world : World σ ν) (t : SlotId) (held : List Handle)
    {change : Slot σ ν → Slot σ ν} (handles : ∀ slot, (change slot).handles = slot.handles)
    (shared : ∀ slot, (change slot).shared = slot.shared)
    (links : ∀ slot, (change slot).links = slot.links) :
    world.Pays held (world.updateSlot t change) held := by
  have same (slot : Slot σ ν) : (change slot).holdings = slot.holdings := by
    rw [Slot.holdings, handles, shared, Slot.held, links, Slot.holdings, Slot.held]
  apply updateSlot
  · intro s
    exact Nat.le_of_eq (by rw [same, shared])
  · rw [handles, shared]
    exact fun _ => id

theorem recount {t : SlotId} {change : Slot σ ν → Slot σ ν}
    (links : ∀ slot, (change slot).links = slot.links)
    (lives : (world.slot t).handles + (world.slot t).shared ≠ 0)
    (remains : (change (world.slot t)).handles + (change (world.slot t)).shared ≠ 0)
    (own : after.count (.slot t) + (world.slot t).shared ≤
      before.count (.slot t) + (change (world.slot t)).shared)
    (others : ∀ s, t ≠ s → after.count (.slot s) ≤ before.count (.slot s)) :
    world.Pays before (world.updateSlot t change) after := by
  have kept : (change (world.slot t)).holdings = (world.slot t).holdings := by
    rw [Slot.holdings, if_neg remains, Slot.held, links, Slot.holdings, if_neg lives, Slot.held]
  apply updateSlot
  · intro s
    rw [kept]
    by_cases equal : t = s
    · subst equal
      simp only [if_true]
      omega
    · simp only [if_neg equal]
      exact Nat.add_le_add_left (others s equal) _
  · exact fun _ gone => absurd gone lives

theorem updateScope {sc : ScopeId} {change : Scope σ ν → Scope σ ν}
    (counted : ∀ s, (change (world.scope sc)).holdings.count (.slot s) + after.count (.slot s) ≤
      (world.scope sc).holdings.count (.slot s) + before.count (.slot s)) :
    world.Pays before (world.updateScope sc change) after := by
  refine ⟨fun s => ?_, Nat.le_refl _, fun s _ => id⟩
  have tally := Table.tally_update Scope.holdings rfl world.scopes sc change (.slot s)
  have counted := counted s
  simp only [holds, World.updateScope, World.slot]
  rw [World.scope] at counted
  omega

theorem rescope (world : World σ ν) (sc : ScopeId) (held : List Handle)
    {change : Scope σ ν → Scope σ ν} (pending : ∀ scope, (change scope).pending = scope.pending) :
    world.Pays held (world.updateScope sc change) held := by
  apply updateScope
  intro s
  exact Nat.le_of_eq (by rw [Scope.holdings, pending, Scope.holdings])

theorem updateGuard {g : GuardId} {change : Guard σ ν → Guard σ ν}
    (counted : ∀ s, (change (world.guard g)).holdings.count (.slot s) + after.count (.slot s) ≤
      (world.guard g).holdings.count (.slot s) + before.count (.slot s)) :
    world.Pays before (world.updateGuard g change) after := by
  refine ⟨fun s => ?_, Nat.le_refl _, fun s _ => id⟩
  have tally := Table.tally_update Guard.holdings rfl world.guards g change (.slot s)
  have counted := counted s
  simp only [holds, World.updateGuard, World.slot]
  rw [World.guard] at counted
  omega

theorem setAccessor (world : World σ ν) {a : AccessorId} {accessor : Accessor σ ν}
    (known : world.accessor a = some accessor) (held : List Handle) :
    world.Pays held { world with accessors := world.accessors.set a none }
      (.slot accessor.slot :: held) := by
  refine ⟨fun s => ?_, Nat.le_refl _, fun s _ => id⟩
  have tally := Table.tally_update Accessor.holdings rfl world.accessors a
    (fun _ => none) (.slot s)
  rw [World.accessor] at known
  simp only [known, Accessor.holdings, Option.elim_some, Option.elim_none, List.count_nil] at tally
  simp only [holds, World.slot, Table.set, List.count_cons] at tally ⊢
  omega

theorem setParcel (world : World σ ν) {p : ParcelId} {droppable : Droppable σ ν}
    (known : world.parcel p = some droppable) (held : List Handle) :
    world.Pays held { world with parcels := world.parcels.set p none }
      (droppable.handles ++ held) := by
  refine ⟨fun s => ?_, Nat.le_refl _, fun s _ => id⟩
  have tally := Table.tally_update Droppable.holdings rfl world.parcels p
    (fun _ => none) (.slot s)
  rw [World.parcel] at known
  simp only [known, Droppable.holdings, Option.elim_some, Option.elim_none, List.count_nil] at tally
  simp only [holds, World.slot, Table.set, List.count_append] at tally ⊢
  omega

theorem addScope (world : World σ ν) {scope : Scope σ ν} (empty : scope.pending = [])
    (held : List Handle) : world.Pays held (world.addScope scope).1 held := by
  refine ⟨fun s => ?_, Nat.le_refl _, fun s _ => id⟩
  simp only [holds, World.addScope, World.slot, Table.tally_push, Scope.holdings, empty]
  exact Nat.le_refl _

theorem addAccessor (world : World σ ν) (accessor : Accessor σ ν) (held : List Handle) :
    world.Pays (.slot accessor.slot :: held) (world.addAccessor accessor).1 held := by
  refine ⟨fun s => ?_, Nat.le_refl _, fun s _ => id⟩
  simp only [holds, World.addAccessor, World.slot, Table.tally_push, Accessor.holdings,
    Option.elim_some, List.count_cons, List.count_nil]
  omega

theorem addGuard (world : World σ ν) (guard : Guard σ ν) (held : List Handle) :
    world.Pays (guard.holdings ++ held) (world.addGuard guard).1 held := by
  refine ⟨fun s => ?_, Nat.le_refl _, fun s _ => id⟩
  simp only [holds, World.addGuard, World.slot, Table.tally_push, List.count_append]
  omega

theorem addParcel (world : World σ ν) (droppable : Droppable σ ν) (held : List Handle) :
    world.Pays (droppable.handles ++ held) (world.addParcel droppable).1 held := by
  refine ⟨fun s => ?_, Nat.le_refl _, fun s _ => id⟩
  simp only [holds, World.addParcel, World.slot, Table.tally_push, Droppable.holdings,
    Option.elim_some, List.count_append]
  omega

end World.Pays

/-! ## Retaining and giving up -/

/-- The slot of the handle has not gone. -/
def World.Lives (world : World σ ν) : Handle → Prop
  | .slot s => 0 < (world.slot s).handles + (world.slot s).shared
  | .scope _ => True

namespace World

variable {world : World σ ν}

theorem Lives.of_usable {handle : Handle} (usable : world.usable handle = true) :
    world.Lives handle := by
  cases handle with
  | slot s =>
      have handles : 0 < (world.slot s).handles := of_decide_eq_true usable
      exact Nat.add_pos_left handles _
  | scope sc => trivial

theorem Lives.retain {handle : Handle} (lives : world.Lives handle) (other : Handle) :
    (world.retain other).Lives handle := by
  cases handle with
  | slot s =>
      cases other with
      | slot t =>
          simp only [Lives, World.retain, slot_updateSlot] at lives ⊢
          split
          · exact Nat.lt_of_lt_of_le lives (Nat.le_succ _)
          · exact lives
      | scope sc => exact lives
  | scope sc => trivial

theorem Lives.retainAll {handle : Handle} (lives : world.Lives handle) (others : List Handle) :
    (world.retainAll others).Lives handle := by
  induction others generalizing world with
  | nil => exact lives
  | cons other rest ih => exact ih (lives.retain other)

namespace Pays

theorem retain {handle : Handle} (lives : world.Lives handle) (held : List Handle) :
    world.Pays held (world.retain handle) (handle :: held) := by
  cases handle with
  | slot t =>
      refine recount (fun _ => rfl) (Nat.ne_of_gt lives) (by simp) ?_ fun s other => ?_
      · simp only [List.count_cons_self]
        omega
      · exact Nat.le_of_eq (Handle.count_other other held)
  | scope sc =>
      have kept : world.Pays held (world.retain (.scope sc)) held := .rescope world sc held fun _ => rfl
      exact kept.congr (fun _ => rfl) fun s => Handle.count_scope sc s held

theorem retainAll {handles : List Handle} (lives : ∀ handle ∈ handles, world.Lives handle)
    (held : List Handle) : world.Pays held (world.retainAll handles) (handles ++ held) := by
  induction handles generalizing world held with
  | nil => exact .refl world held
  | cons handle rest ih =>
      have later := ih (fun other member => (lives other (.tail _ member)).retain handle)
        (handle :: held)
      refine ((retain (lives handle (.head _)) held).trans later).congr (fun _ => rfl) fun s => ?_
      simp only [List.cons_append, List.count_cons, List.count_append]
      omega

theorem surrender {handle : Handle} (usable : world.usable handle = true) (held : List Handle) :
    world.Pays held (world.surrender handle) (handle :: held) := by
  cases handle with
  | slot t =>
      have handles : 0 < (world.slot t).handles := of_decide_eq_true usable
      refine recount (fun _ => rfl) (by omega) (by simp) ?_ fun s other => ?_
      · simp only [List.count_cons_self]
        omega
      · exact Nat.le_of_eq (Handle.count_other other held)
  | scope sc =>
      have kept : world.Pays held (world.surrender (.scope sc)) held := .rescope world sc held fun _ => rfl
      exact kept.congr (fun _ => rfl) fun s => Handle.count_scope sc s held

theorem relinquish {t : SlotId} (shared : 0 < (world.slot t).shared)
    (lives : (world.relinquish (.slot t)).unheld (.slot t) = false) (held : List Handle) :
    world.Pays (.slot t :: held) (world.relinquish (.slot t)) held := by
  simp only [unheld, World.relinquish, slot_updateSlot, if_true, decide_eq_false_iff_not] at lives
  refine recount (fun _ => rfl) (by omega) lives ?_ fun s other => ?_
  · simp only [List.count_cons_self]
    omega
  · exact Nat.le_of_eq (Handle.count_other other held).symm

theorem relinquishLast {t : SlotId} (shared : 0 < (world.slot t).shared)
    (gone : (world.relinquish (.slot t)).unheld (.slot t) = true) (held : List Handle) :
    world.Pays (.slot t :: held) (world.relinquish (.slot t)) ((world.slot t).held ++ held) := by
  simp only [unheld, World.relinquish, slot_updateSlot, if_true, decide_eq_true_eq] at gone
  apply updateSlot
  · intro s
    have emptied : Slot.holdings { world.slot t with shared := (world.slot t).shared - 1 } = [] :=
      if_pos gone
    have kept : (world.slot t).holdings = (world.slot t).held := if_neg (by omega)
    rw [emptied, kept, List.count_append, List.count_nil]
    by_cases equal : t = s
    · subst equal
      simp only [List.count_cons_self, if_true]
      omega
    · rw [Handle.count_other equal, if_neg equal, if_neg equal]
      omega
  · exact fun _ _ => gone

/-! ## What operations do -/

theorem addAction (world : World σ ν) (sc : ScopeId) (job : Job σ ν) (held : List Handle) :
    world.Pays ((⟨world.actions, job⟩ : Action σ ν).handles ++ held) (world.addAction sc job) held := by
  have added : world.Pays ((⟨world.actions, job⟩ : Action σ ν).handles ++ held)
      (world.updateScope sc fun scope =>
        { scope with pending := scope.pending ++ [⟨world.actions, job⟩] }) held := by
    apply updateScope
    intro s
    simp only [Scope.holdings, List.flatMap_append, List.flatMap_cons, List.flatMap_nil,
      List.append_nil, List.count_append]
    omega
  exact added.trans (.of_estate held rfl)

theorem adopt {s : SlotId} (lives : world.Lives (.slot s)) (sc : ScopeId) (held : List Handle) :
    world.Pays held (world.adopt sc s) held :=
  (retain lives held).trans (addAction _ sc (.release s) held)

theorem takePending (world : World σ ν) (sc : ScopeId) (held : List Handle) :
    world.Pays held (world.takePending sc).1 ((world.scope sc).holdings ++ held) := by
  apply updateScope
  intro s
  simp only [Scope.holdings, List.flatMap_nil, List.count_nil, List.count_append]
  omega

theorem discardPending (world : World σ ν) (sc : ScopeId) (held : List Handle) :
    world.Pays held (world.discardPending sc) ((world.scope sc).holdings ++ held) := by
  rw [World.discardPending_eq]
  refine (takePending world sc held).trans (.of_estate _ ?_)
  rw [World.estate_emitAll, World.estate_actAll]
  rfl

theorem emptyGuard (world : World σ ν) {g : GuardId} {droppable : Option (Droppable σ ν)}
    (known : (world.guard g).droppable = droppable) (held : List Handle) :
    world.Pays held (world.updateGuard g fun guard => { guard with held := false, droppable := none })
      (Droppable.holdings droppable ++ held) := by
  apply updateGuard
  intro s
  rw [Guard.holdings, Guard.holdings, known, List.count_append]
  exact Nat.le_of_eq (Nat.zero_add _)

theorem discardSlot (world : World σ ν) (s : SlotId) (held : List Handle) :
    world.Pays held (world.discardSlot s) held := by
  unfold World.discardSlot
  split
  · have emptied : world.Pays held (world.updateSlot s fun slot => { slot with value := none }) held :=
      .reslot world s held (fun _ => rfl) (fun _ => rfl) fun _ => rfl
    exact emptied.trans (.of_estate held rfl)
  · exact .refl world held

theorem leaveSlot (world : World σ ν) (s : SlotId) (held : List Handle) :
    world.Pays held (world.leaveSlot s) held :=
  .reslot world s held (fun _ => rfl) (fun _ => rfl) fun _ => rfl

theorem enterSlot {entered : World σ ν} {s : SlotId} {id : ThreadId}
    (action : world.enterSlot s id = some entered) (held : List Handle) :
    world.Pays held entered held := by
  obtain ⟨depth, _, rfl⟩ := world.enterSlot_eq action
  exact .reslot world s held (fun _ => rfl) (fun _ => rfl) fun _ => rfl

theorem handOver {s : SlotId} (shared : 0 < (world.slot s).shared) (held : List Handle) :
    world.Pays (.slot s :: held) (world.handOver s) held := by
  refine recount (fun _ => rfl) (by omega) (by simp) ?_ fun t other => ?_
  · simp only [List.count_cons_self]
    omega
  · exact Nat.le_of_eq (Handle.count_other other held).symm

theorem addHandle {s : SlotId} (lives : world.Lives (.slot s)) (held : List Handle) :
    world.Pays held (world.updateSlot s fun slot => { slot with handles := slot.handles + 1 })
      held := by
  have lives : (world.slot s).handles + (world.slot s).shared ≠ 0 := Nat.ne_of_gt lives
  exact recount (fun _ => rfl) lives (by simp only; omega) (Nat.le_refl _) fun _ _ => Nat.le_refl _

theorem addLink {s : SlotId} (lives : world.Lives (.slot s)) (kind : Kind σ ν)
    (droppable : Droppable σ ν) (held : List Handle) :
    world.Pays (droppable.handles ++ held)
      (world.updateSlot s fun slot => { slot with links := slot.links.register kind droppable })
      held := by
  have lives : (world.slot s).handles + (world.slot s).shared ≠ 0 := Nat.ne_of_gt lives
  apply updateSlot
  · intro t
    simp only [Slot.holdings, if_neg lives, Slot.held, Registry.register, List.flatMap_append,
      List.flatMap_cons, List.flatMap_nil, List.append_nil, List.count_append]
    omega
  · exact fun _ gone => absurd gone lives

theorem addSlot (world : World σ ν) {slot : Slot σ ν}
    (counted : ∀ s, slot.holdings.count (.slot s) + after.count (.slot s) ≤
      before.count (.slot s) + if s = world.slots.size then slot.shared else 0) :
    world.Pays before (world.addSlot slot).1 after := by
  refine ⟨fun s => ?_, ?_, fun s made gone => ?_⟩
  · have unmade : (world.slot world.slots.size).shared = 0 := by
      rw [World.slot, Table.get_size]
      rfl
    have counted := counted s
    have tally : (world.addSlot slot).1.holds s =
        world.holds s + slot.holdings.count (.slot s) := by
      simp only [holds, World.addSlot, Table.tally_push]
      omega
    rw [tally, slot_addSlot]
    split at counted
    · next fresh =>
        rw [if_pos fresh, fresh, unmade]
        rw [fresh] at counted
        omega
    · next known =>
        rw [if_neg known]
        omega
  · rw [World.addSlot, Table.size_push]
    exact Nat.le_succ _
  · rw [slot_addSlot, if_neg (Nat.ne_of_lt made)]
    exact gone

theorem makeSlot (world : World σ ν) (release : Value → Code σ ν) (initializer : Code σ ν)
    (held : List Handle) : world.Pays held (world.makeSlot release initializer).1 held := by
  apply addSlot
  intro s
  rw [show Slot.holdings (_ : Slot σ ν) = [] from rfl, List.count_nil]
  omega

theorem copySlot {s : SlotId} (linked : ∀ handle ∈ (world.slot s).held, world.Lives handle)
    (held : List Handle) :
    world.Pays held (world.copySlot s).1 (.slot (world.copySlot s).2 :: held) := by
  let source := world.slot s
  let copy : Slot σ ν :=
    { release := source.release
      initializer := source.initializer
      links := source.links
      handlers := source.handlers
      shared := 1 }
  have made : world.Pays (source.held ++ held) (world.addSlot copy).1
      (.slot world.slots.size :: held) := by
    apply addSlot
    intro t
    rw [show copy.holdings = source.held from rfl, List.count_append, List.count_cons]
    simp only [beq_iff_eq, Handle.slot.injEq]
    by_cases fresh : t = world.slots.size
    · rw [if_pos fresh, if_pos fresh.symm]
      exact Nat.le_of_eq (Nat.add_assoc ..).symm
    · rw [if_neg fresh, if_neg (Ne.symm fresh)]
      exact Nat.le_refl _
  have known : ∀ handle ∈ source.held, (world.addSlot copy).1.Lives handle := by
    intro handle member
    have lives := linked handle member
    cases handle with
    | slot t =>
        rw [Lives, slot_addSlot, if_neg (Nat.ne_of_lt (made_of_held lives))]
        exact lives
    | scope sc => trivial
  -- The copy is made as if it held the links already, and what was lent for that is given back.
  have copied := (made.trans (retainAll known _)).cancel
  refine copied.trans (.of_estate _ ?_)
  simp only [World.copySlot, estate_actAll, estate_act]
  rfl

end Pays

end World

/-! ## Steps -/

/-- Each slot is shared out at least as often as objects that are not in use, and the given handles,
hold it. -/
def World.Covers (world : World σ ν) (handles : List Handle) : Prop :=
  ∀ s, world.holds s + handles.count (.slot s) ≤ (world.slot s).shared

namespace World.Covers

variable {world : World σ ν} {handles : List Handle}

theorem shared (covers : world.Covers handles) {s : SlotId} (held : .slot s ∈ handles) :
    0 < (world.slot s).shared := by
  have counted := covers s
  have listed := List.count_pos_iff.mpr held
  omega

theorem lives_of_count (covers : world.Covers handles) {held : List Handle}
    (counted : ∀ s, held.count (.slot s) ≤ world.holds s) : ∀ handle ∈ held, world.Lives handle := by
  intro handle member
  cases handle with
  | slot s =>
      have counted := counted s
      have covered := covers s
      have listed := List.count_pos_iff.mpr member
      simp only [Lives]
      omega
  | scope sc => trivial

theorem accessor (covers : world.Covers handles) {a : AccessorId} {accessor : Accessor σ ν}
    (known : world.accessor a = some accessor) : world.Lives (.slot accessor.slot) := by
  refine covers.lives_of_count (fun s => ?_) (.slot accessor.slot) (.head [])
  have counted := Table.count_le_tally Accessor.holdings rfl world.accessors a (.slot s)
  rw [← World.accessor, known] at counted
  simp only [Accessor.holdings, Option.elim_some] at counted
  unfold holds
  omega

theorem parcel (covers : world.Covers handles) {p : ParcelId} {droppable : Droppable σ ν}
    (known : world.parcel p = some droppable) : ∀ handle ∈ droppable.handles, world.Lives handle := by
  refine covers.lives_of_count fun s => ?_
  have counted := Table.count_le_tally Droppable.holdings rfl world.parcels p (.slot s)
  rw [← World.parcel, known] at counted
  simp only [Droppable.holdings, Option.elim_some] at counted
  unfold holds
  omega

theorem linked (covers : world.Covers handles) {s : SlotId} (lives : world.Lives (.slot s)) :
    ∀ handle ∈ (world.slot s).held, world.Lives handle := by
  have lives : (world.slot s).handles + (world.slot s).shared ≠ 0 := Nat.ne_of_gt lives
  refine covers.lives_of_count fun t => ?_
  have counted := Table.count_le_tally Slot.holdings rfl world.slots s (.slot t)
  rw [← World.slot, Slot.holdings, if_neg lives] at counted
  unfold holds
  omega

end World.Covers

/-- A move pays for what it leaves held out of what was held before, and what it goes on to work on
is held by the operation to which the work belongs. -/
structure Move.Pays (world : World σ ν) (before : List Handle) (works : Option SlotId)
    (move : Move σ ν) : Prop where
  pays : world.Pays before move.world move.holdings
  backed : ∀ s, move.control.works? = some s →
    works = some s ∨ .slot s ∈ move.frames.flatMap Frame.holdings

namespace Move.Pays

variable {world : World σ ν} {before : List Handle} {works : Option SlotId} {move : Move σ ν}

theorem idle (pays : world.Pays before move.world move.holdings) (idle : move.control.works? = none) :
    Move.Pays world before works move :=
  ⟨pays, fun s working => by rw [idle] at working; contradiction⟩

theorem goes {next : World σ ν} {task : Task σ ν} (pays : world.Pays before next task.holdings)
    (working : ∀ s, task.works? = some s → works = some s) :
    Move.Pays world before works { world := next, control := .task task } := by
  refine ⟨?_, fun s works => .inl (working s works)⟩
  rw [Move.holdings, List.flatMap_nil, List.append_nil]
  exact pays

theorem rest (same : move.world.estate = world.estate) (holdings : move.holdings = before)
    (free : move.control.works? = none) : Move.Pays world before works move :=
  .idle (holdings ▸ .of_estate _ same) free

theorem close (world : World σ ν) (g : GuardId) (outcome : Exit) :
    Ensures (Guard.close g outcome (world.endGuard g) (world.guard g).droppable)
      (Move.Pays world [] none) := by
  simp only [Ensures.close_iff, World.endGuard_eq]
  exact ⟨fun _ known => .idle (.emptyGuard world known []) rfl,
    fun known => .idle (.emptyGuard world known []) rfl⟩

end Move.Pays

theorem Call.start_pays {world : World σ ν} (covers : world.Covers []) (call : Call σ ν) :
    Ensures (call.start world) (Move.Pays world [] none) := by
  have missing : Move.Pays world [] none
      { world, control := .task (.finish (.returned .missing)) } := .rest rfl rfl rfl
  have lives {handles : List Handle} (usable : ∀ handle ∈ handles, world.usable handle = true) :
      ∀ handle ∈ handles, world.Lives handle := fun handle member => .of_usable (usable handle member)
  have retained {handles : List Handle} (usable : ∀ handle ∈ handles, world.usable handle = true) :
      world.Pays [] (world.retainAll handles) (handles ++ []) := .retainAll (lives usable) []
  cases call <;> simp only [start]
  case newSlot release initializer =>
    rw [Ensures.answer_iff]
    exact .idle (.makeSlot world release initializer []) rfl
  case cloneHandle s =>
    simp only [Ensures.whenUsable_iff, Ensures.answer_iff]
    exact ⟨fun usable => .idle (.addHandle (lives usable _ (.head _)) []) rfl, fun _ => missing⟩
  case forgetHandle s =>
    simp only [Ensures.whenUsable_iff, Ensures.go_iff]
    exact ⟨fun usable => .idle (.surrender (usable _ (.head _)) []) rfl, fun _ => missing⟩
  case copySlot s cloner | getValue s | withValue s use =>
    simp only [Ensures.operate_iff]
    refine ⟨fun usable => ⟨retained usable, ?_⟩, fun _ => missing⟩
    rintro t ⟨⟩
    exact .inr (by simp [Frame.holdings])
  case dropSlot s | runAll sc =>
    simp only [Ensures.operate_iff]
    exact ⟨fun usable => .idle (retained usable) rfl, fun _ => missing⟩
  case dropOnError s kind droppable =>
    simp only [Ensures.whenUsable_iff, Ensures.whenFree_iff, Ensures.answer_iff]
    refine ⟨fun usable _ => .idle ?_ rfl, fun _ => missing⟩
    have held := retained fun handle member => usable handle (.tail _ member)
    have linked := held.trans
      (.addLink ((lives usable _ (.head _)).retainAll droppable.handles) kind droppable [])
    exact linked.trans (.of_estate [] rfl)
  case callOnError s kind handler =>
    simp only [Ensures.whenUsable_iff, Ensures.whenFree_iff, Ensures.answer_iff]
    have registered : world.Pays [] (world.updateSlot s fun slot =>
        { slot with handlers := slot.handlers.register kind handler }) [] :=
      .reslot world s [] (fun _ => rfl) (fun _ => rfl) fun _ => rfl
    exact ⟨fun _ _ => .idle (registered.trans (.of_estate [] rfl)) rfl, fun _ => missing⟩
  case newAccessor s fallback =>
    simp only [Ensures.whenUsable_iff, Ensures.answer_iff]
    refine ⟨fun usable => .idle ?_ rfl, fun _ => missing⟩
    exact (World.Pays.retain (lives usable _ (.head _)) []).trans (.addAccessor _ ⟨s, fallback⟩ [])
  case access a =>
    cases known : world.accessor a with
    | none =>
        simp only [Ensures.answer_iff]
        exact missing
    | some accessor =>
        simp only [Ensures.borrow_iff]
        have held := World.Pays.retain (covers.accessor known) []
        refine ⟨?_, ?_⟩
        · unfold Accessor.frame
          split <;> exact held
        · rintro t ⟨⟩
          exact .inr (by simp [Frame.holdings])
  case dropAccessed a =>
    cases known : world.accessor a with
    | none =>
        simp only [Ensures.answer_iff]
        exact missing
    | some accessor =>
        simp only [Ensures.borrow_iff]
        exact .idle (.retain (covers.accessor known) []) rfl
  case forgetAccessor a =>
    cases known : world.accessor a with
    | none =>
        simp only [Ensures.answer_iff]
        exact missing
    | some accessor =>
        simp only [Ensures.go_iff]
        exact .idle (.setAccessor world known []) rfl
  case newScope policy =>
    simp only [Ensures.answer_iff]
    exact .idle (.addScope world rfl []) rfl
  case forgetScope sc =>
    simp only [Ensures.ite_iff, Ensures.go_iff, Ensures.answer_iff]
    refine ⟨fun handles => ?_, fun _ => missing⟩
    have usable : world.usable (.scope sc) = true := by simp [World.usable, handles]
    exact .idle (.surrender usable []) rfl
  case defer sc action =>
    simp only [Ensures.whenUsable_iff, Ensures.answer_iff]
    exact ⟨fun _ => .idle (.addAction world sc (.run action) []) rfl, fun _ => missing⟩
  case adopt sc s =>
    simp only [Ensures.whenUsable_iff, Ensures.answer_iff]
    exact ⟨fun usable => .idle (.adopt (lives usable _ (.tail _ (.head _))) sc []) rfl,
      fun _ => missing⟩
  case registerSlot sc release initializer =>
    simp only [Ensures.whenUsable_iff, Ensures.answer_iff]
    refine ⟨fun _ => .idle ?_ rfl, fun _ => missing⟩
    refine (World.Pays.makeSlot world release initializer []).trans (.adopt ?_ sc [])
    rw [World.Lives, World.makeSlot, World.slot_addSlot]
    simp [World.addSlot]
  case resetScope sc =>
    simp only [Ensures.whenUsable_iff, Ensures.go_iff]
    exact ⟨fun _ => .idle (.discardPending world sc []) rfl, fun _ => missing⟩
  case deferring config body =>
    simp only [Ensures.run_iff]
    exact .idle (.addScope world rfl []) rfl
  case newGuard droppable =>
    simp only [Ensures.whenUsable_iff, Ensures.answer_iff]
    exact ⟨fun usable => .idle ((retained usable).trans (.addGuard _ ⟨some droppable, true, 0⟩ [])) rfl,
      fun _ => missing⟩
  case keep droppable =>
    simp only [Ensures.whenUsable_iff, Ensures.answer_iff]
    exact ⟨fun usable => .idle ((retained usable).trans (.addParcel _ droppable [])) rfl,
      fun _ => missing⟩
  case dispose p =>
    cases known : world.parcel p with
    | none =>
        simp only [Ensures.answer_iff]
        exact missing
    | some droppable =>
        simp only [Ensures.push_iff]
        exact .idle (.retainAll (covers.parcel known) []) rfl
  case forgetParcel p =>
    cases known : world.parcel p with
    | none =>
        simp only [Ensures.answer_iff]
        exact missing
    | some droppable =>
        simp only [Ensures.go_iff]
        exact .idle (.setParcel world known []) rfl
  case dropThrough g =>
    have used : world.Pays [] (world.updateGuard g fun guard =>
        { guard with uses := guard.uses + 1 }) [] := .updateGuard fun s => Nat.le_refl _
    simp only [Ensures.ite_iff]
    refine ⟨fun _ => ?_, fun _ => ?_⟩
    · split
      · rw [Ensures.push_iff]
        exact .idle used rfl
      · rw [Ensures.go_iff]
        exact .rest rfl rfl rfl
    · rw [Ensures.answer_iff]
      exact missing
  case releaseGuard g =>
    simp only [Ensures.whenConsumable_iff]
    refine ⟨fun _ => ?_, fun _ => missing⟩
    cases known : (world.guard g).droppable <;> rw [Ensures.push_iff] <;>
      exact .idle (.emptyGuard world known []) rfl
  case disarmGuard g =>
    simp only [Ensures.whenConsumable_iff]
    refine ⟨fun _ => ?_, fun _ => missing⟩
    cases known : (world.guard g).droppable with
    | none =>
        rw [Ensures.push_iff]
        exact .idle (.emptyGuard world known []) rfl
    | some droppable =>
        rw [Ensures.push_iff]
        exact .idle ((World.Pays.emptyGuard world known []).trans (.addParcel _ droppable [])) rfl
  case forgetGuard g =>
    simp only [Ensures.whenConsumable_iff]
    exact ⟨fun _ => Move.Pays.close world g _, fun _ => missing⟩
  case matchKind kind error =>
    split <;> simp only [Ensures.answer_iff, Ensures.run_iff] <;> exact .rest rfl rfl rfl
  all_goals
    simp only [Ensures.whenUsable_iff, Ensures.whenFree_iff, Ensures.ite_iff, Ensures.answer_iff,
      Ensures.go_iff, Ensures.run_iff, missing, implies_true, and_true]
    intros
    exact .rest rfl rfl rfl

theorem Task.letGo_pays {world : World σ ν} (id : ThreadId) {handles : List Handle} (exit : Exit)
    (covers : world.Covers handles) :
    Ensures ((letGo handles exit : Task σ ν).step world id) (Move.Pays world handles none) := by
  have scope (sc : ScopeId) (rest : List Handle) :
      world.Pays (.scope sc :: rest) (world.relinquish (.scope sc)) rest :=
    World.Pays.congr (.rescope world sc rest fun _ => rfl) (fun s => Handle.count_scope sc s rest)
      fun _ => rfl
  apply Ensures.letGo
  · rintro rfl
    exact .rest rfl rfl rfl
  · rintro handle rest rfl lives
    have pays : world.Pays (handle :: rest) (world.relinquish handle) rest := by
      cases handle with
      | slot s => exact .relinquish (covers.shared (.head _)) (lives s rfl) rest
      | scope sc => exact scope sc rest
    refine .idle (pays.congr (fun _ => rfl) fun t => ?_) rfl
    simp [Move.holdings, Control.holdings, Task.holdings]
  · rintro s rest rfl gone
    have links : ((world.relinquish (.slot s)).slot s).held = (world.slot s).held := by
      rw [World.relinquish, World.slot_updateSlot, if_pos rfl]
      rfl
    have given := (World.Pays.relinquishLast (covers.shared (.head _)) gone rest).trans
      (.discardSlot _ s _)
    rw [← links] at given
    refine .idle (given.congr (fun _ => rfl) fun t => ?_) rfl
    simp [Move.holdings, Control.holdings, Task.holdings]
  · rintro sc rest rfl
    refine .idle ((scope sc rest).congr (fun _ => rfl) fun t => ?_) rfl
    simp [Move.holdings, Control.holdings, holdings, Frame.holdings]

theorem Task.step_pays {world : World σ ν} (id : ThreadId) (task : Task σ ν)
    (covers : world.Covers task.holdings)
    (working : ∀ s, task.works? = some s → 0 < (world.slot s).shared) :
    Ensures (task.step world id) (Move.Pays world task.holdings task.works?) := by
  cases task with
  | finish exit => simp [step]
  | start call => exact call.start_pays covers
  | letGo handles exit => exact letGo_pays id exit covers
  | look s | lookAgain s =>
      simp only [step, Ensures.whenFree_iff]
      intro _
      split <;> simp only [Ensures.answer_iff, Ensures.go_iff]
      · exact .rest rfl rfl rfl
      · exact .goes (.refl world []) fun _ same => same
  | enter s =>
      simp only [step, Ensures.bind_iff, Ensures.ite_iff, Ensures.go_iff]
      intro entered action
      have pays := World.Pays.enterSlot action []
      exact ⟨fun _ => .idle pays rfl, fun _ => .goes pays fun _ same => same⟩
  | produce s =>
      have begun : world.Pays [] (world.updateSlot s fun slot => { slot with initializing := true })
          [] := .reslot world s [] (fun _ => rfl) (fun _ => rfl) fun _ => rfl
      simp only [step, Ensures.ite_iff, Ensures.go_iff, Ensures.run_iff]
      exact ⟨fun _ => .rest rfl rfl rfl, fun _ => .idle (begun.trans (.of_estate [] rfl)) rfl⟩
  | lockValue s value =>
      simp only [step, Ensures.whenFree_iff, Ensures.go_iff]
      exact fun _ => .rest rfl rfl rfl
  | confirm s value =>
      simp only [step, Ensures.ite_iff, Ensures.go_iff]
      exact ⟨fun _ => .rest rfl rfl rfl, fun _ => .rest rfl rfl rfl⟩
  | store s value =>
      have stored : world.Pays [] (world.updateSlot s fun slot => { slot with value := some value })
          [] := .reslot world s [] (fun _ => rfl) (fun _ => rfl) fun _ => rfl
      simp only [step, Ensures.go_iff]
      exact .idle (stored.trans (.of_estate [] rfl)) rfl
  | unlockValue s following =>
      simp only [step, Ensures.go_iff]
      exact .goes (.of_estate _ rfl) fun _ same => same
  | leave s following =>
      simp only [step, Ensures.go_iff]
      exact .goes (.leaveSlot world s _) fun _ same => same
  | releaseLate s value =>
      simp only [step, Ensures.run_iff]
      exact .rest rfl rfl rfl
  | consult selection error =>
      simp only [step, Ensures.whenFree_iff, Ensures.go_iff]
      exact fun _ => .rest rfl rfl rfl
  | sift selection error rest places =>
      cases rest <;> simp only [step, Ensures.proceed_iff, Ensures.ask_iff]
      · exact ⟨fun _ _ => .rest rfl rfl rfl, fun _ _ _ => .rest rfl rfl rfl,
          fun _ _ => .rest rfl rfl rfl⟩
      · exact ⟨fun _ => .rest rfl rfl rfl, fun _ => .rest rfl rfl rfl, fun _ _ => .rest rfl rfl rfl⟩
  | links s error rest | handlers s error rest =>
      cases rest <;> simp only [step, Ensures.go_iff, Ensures.push_iff, Ensures.answer_iff,
        Ensures.run_iff] <;> exact .rest rfl rfl rfl
  | swap s =>
      have marked : world.Pays [] (world.updateSlot s fun slot => { slot with dropped := true }) [] :=
        .reslot world s [] (fun _ => rfl) (fun _ => rfl) fun _ => rfl
      simp only [step, Ensures.ite_iff, Ensures.go_iff, Ensures.endDrop_iff]
      exact ⟨fun _ => .rest rfl rfl rfl, fun _ => .idle marked rfl⟩
  | take s =>
      have emptied : world.Pays [] (world.updateSlot s fun slot => { slot with value := none }) [] :=
        .reslot world s [] (fun _ => rfl) (fun _ => rfl) fun _ => rfl
      simp only [step, Ensures.whenFree_iff]
      intro _
      split
      · rw [Ensures.run_iff]
        exact .idle (emptied.trans (.of_estate [] rfl)) rfl
      · rw [Ensures.endDrop_iff]
        exact .rest rfl rfl rfl
  | dispose droppable =>
      cases droppable <;> simp only [step, Ensures.go_iff, Ensures.answer_iff, Ensures.run_iff] <;>
        exact .rest rfl rfl rfl
  | disposeAll rest failures =>
      cases rest <;> simp only [step, Ensures.answer_iff, Ensures.push_iff]
      · split <;> exact .rest rfl rfl rfl
      · exact .rest rfl rfl rfl
  | copy s cloner =>
      -- The operation holds the source, whose links thus live and can be held by the copy as well.
      have alive : world.Lives (.slot s) := Nat.add_pos_right _ (working s rfl)
      have made := World.Pays.copySlot (covers.linked alive) []
      simp only [step, Ensures.whenFree_iff]
      intro _
      split <;> rw [Ensures.go_iff] <;> exact .idle made rfl
  | copyValue s made cloner =>
      simp only [step, Ensures.whenFree_iff]
      intro _
      split <;> simp only [Ensures.run_iff, Ensures.go_iff] <;> exact .rest rfl rfl rfl
  | deliver made =>
      simp only [step, Ensures.answer_iff]
      exact .idle (.handOver (covers.shared (.head _)) []) rfl
  | drain sc ran failures =>
      have taken := World.Pays.takePending world sc []
      have same (t : SlotId) (actions : List (Action σ ν)) :
          (actions.reverse.flatMap Action.handles).count (.slot t) =
            (actions.flatMap Action.handles).count (.slot t) :=
        ((List.reverse_perm actions).flatMap_right Action.handles).count_eq (.slot t)
      simp only [step]
      split
      · next none =>
          have empty : (world.scope sc).pending = [] := List.reverse_eq_nil_iff.mp none
          rw [Scope.holdings, empty] at taken
          rw [Ensures.go_iff]
          exact .goes taken (by rintro _ ⟨⟩)
      · next actions some =>
          rw [Ensures.go_iff]
          refine .goes (taken.congr (fun _ => rfl) fun t => ?_) (by rintro _ ⟨⟩)
          rw [List.append_nil]
          exact same t _
  | batch sc rest ran failures =>
      cases rest with
      | nil =>
          simp only [step, Ensures.go_iff]
          exact .rest rfl rfl rfl
      | cons action rest =>
          simp only [step]
          split
          · next code run =>
              rw [Ensures.run_iff]
              refine .idle (.congr (.of_estate _ rfl) (fun _ => rfl) fun t => ?_) rfl
              simp [Move.holdings, Control.holdings, Frame.holdings, holdings, Action.handles, run]
          · next s release =>
              rw [Ensures.push_iff]
              refine .idle (.congr (.of_estate _ rfl) (fun _ => rfl) fun t => ?_) rfl
              simp [Move.holdings, Control.holdings, Frame.holdings, holdings, Action.handles, release]
  | report sc ran failures =>
      simp only [step, Ensures.answer_iff]
      exact .rest (by simp) rfl rfl

theorem Frame.resume_pays {world : World σ ν} (exit : Exit) (frame : Frame σ ν) :
    Ensures (frame.resume world exit) (Move.Pays world frame.holdings none) := by
  have goes {next : World σ ν} {task : Task σ ν} (pays : world.Pays frame.holdings next task.holdings)
      (idle : task.works? = none) :
      Move.Pays world frame.holdings none { world := next, control := .task task } :=
    .goes pays fun _ works => idle.symm.trans works
  cases frame with
  | initializing s =>
      have ended : world.Pays [] (world.updateSlot s fun slot => { slot with initializing := false })
          [] := .reslot world s [] (fun _ => rfl) (fun _ => rfl) fun _ => rfl
      have paid {next : World σ ν} (same : next.estate = World.estate
          (world.updateSlot s fun slot => { slot with initializing := false })) :
          world.Pays [] next [] := ended.trans (.of_estate [] same)
      simp only [resume, Ensures.initializerEnded_iff]
      exact ⟨fun _ _ => goes (paid rfl) rfl,
        fun _ _ => ⟨fun _ _ => goes (paid rfl) rfl, fun _ => goes (paid rfl) rfl⟩⟩
  | holding handles =>
      simp only [resume, Ensures.go_iff]
      exact goes (.refl world handles) rfl
  | cloning copy =>
      have given (value : Value) : world.Pays [.slot copy]
          (world.updateSlot copy fun slot => { slot with value := some value }) [.slot copy] :=
        .reslot world copy _ (fun _ => rfl) (fun _ => rfl) fun _ => rfl
      cases exit <;> simp only [resume, Ensures.go_iff]
      · exact goes ((given _).trans (.of_estate _ rfl)) rfl
      · exact goes (.refl world _) rfl
  | vanishing sc rest outcome =>
      cases exit <;> simp only [resume, Ensures.go_iff]
      · exact goes (.of_estate rest (by simp)) rfl
      · exact goes (.leak world rest) rfl
  | tearing sc rest ran failures =>
      simp only [resume, Ensures.go_iff]
      exact goes (.refl world _) rfl
  | closing sc outcome =>
      cases exit <;> simp only [resume, Ensures.go_iff]
      · have closed (events : List Event) : world.Pays []
            ((world.emitAll events).updateScope sc fun scope => { scope with lent := false }) [] :=
          .trans (.of_estate [] (world.estate_emitAll events)) (.rescope _ sc [] fun _ => rfl)
        exact goes ((closed _).congr (fun _ => rfl) fun s => Handle.count_scope sc s []) rfl
      · exact .rest rfl rfl rfl
  | through g =>
      simp only [resume, Ensures.go_iff]
      exact goes (.updateGuard fun s => Nat.le_refl _) rfl
  | expiring g => exact Move.Pays.close world g exit
  | releasingLate | guarding =>
      cases exit <;> simp only [resume, Ensures.go_iff, Ensures.answer_iff]
      · exact .rest (by simp) rfl rfl
      · exact .rest rfl rfl rfl
  | linking | handling =>
      cases exit <;> simp only [resume]
      · split <;> rw [Ensures.go_iff] <;> exact .rest rfl rfl rfl
      · rw [Ensures.go_iff]
        exact .rest rfl rfl rfl
  | getting | orNone | orElse =>
      simp only [resume]
      split <;> simp only [Ensures.run_iff, Ensures.go_iff, Ensures.answer_iff] <;> exact .rest rfl rfl rfl
  | reading announced =>
      cases exit <;> simp only [resume]
      · exact .configRead fun _ events _ => .rest (world.estate_emitAll events) rfl rfl
      · rw [Ensures.go_iff]
        exact .rest rfl rfl rfl
  | _ =>
      cases exit <;> simp only [resume, Ensures.run_iff, Ensures.go_iff, Ensures.answer_iff,
        Ensures.some_iff, Ensures.push_iff, Ensures.endDrop_iff] <;> exact .rest rfl rfl rfl

/-- Whatever holds a slot is counted there, and what a thread works on is held meanwhile. -/
structure Held (world : World σ ν) (thread : Thread σ ν) : Prop where
  covers : world.Covers thread.holdings
  backed : ∀ s, thread.control.works? = some s → .slot s ∈ thread.stack.flatMap Frame.holdings

theorem World.Covers.pays {world next : World σ ν} {before after : List Handle}
    (covers : world.Covers before) (pays : world.Pays before next after) : next.Covers after := by
  intro s
  have covered := covers s
  have counted := pays.counted s
  omega

theorem Held.shared {world : World σ ν} {thread : Thread σ ν} (held : Held world thread) {s : SlotId}
    (works : thread.control.works? = some s) : 0 < (world.slot s).shared :=
  held.covers.shared (List.mem_append_right _ (held.backed s works))

theorem Move.Pays.above {world : World σ ν} {before : List Handle} {works : Option SlotId}
    {move : Move σ ν} (pays : move.Pays world before works) (id : ThreadId) (stack : List (Frame σ ν))
    (backed : ∀ s, works = some s → .slot s ∈ stack.flatMap Frame.holdings) :
    let after : Thread σ ν := ⟨id, move.control, move.frames ++ stack⟩
    world.Pays (before ++ stack.flatMap Frame.holdings) move.world after.holdings ∧
      ∀ s, after.control.works? = some s → .slot s ∈ after.stack.flatMap Frame.holdings := by
  intro after
  have holdings : after.holdings = move.holdings ++ stack.flatMap Frame.holdings := by
    simp [after, Thread.holdings, Move.holdings]
  constructor
  · rw [holdings]
    exact pays.pays.append _
  · intro s works
    rw [List.flatMap_append]
    rcases pays.backed s works with same | pushed
    · exact List.mem_append_right _ (backed s same)
    · exact List.mem_append_left _ pushed

theorem Thread.step_pays {world next : World σ ν} {thread after : Thread σ ν}
    (held : Held world thread) (action : thread.step world = some (next, after)) :
    world.Pays thread.holdings next after.holdings ∧
      ∀ s, after.control.works? = some s → .slot s ∈ after.stack.flatMap Frame.holdings := by
  refine step_rule (fun thread next after => Held world thread →
    world.Pays thread.holdings next after.holdings ∧
      ∀ s, after.control.works? = some s → .slot s ∈ after.stack.flatMap Frame.holdings)
    ?_ ?_ ?_ action held
  · intro id code stack move made held
    have pays : move.Pays world [] none := by
      cases code <;> simp only [Code.step] at made <;> obtain rfl := Option.some.inj made <;>
        exact .rest rfl rfl rfl
    exact pays.above _ stack (by rintro _ ⟨⟩)
  · intro id task stack move made held
    have covers : world.Covers task.holdings := fun s => by
      have covered := held.covers s
      simp only [holdings, Control.holdings, List.count_append] at covered
      omega
    exact (task.step_pays id covers (fun s => held.shared) move made).above _ stack held.backed
  · intro id exit frame stack move made held
    exact (frame.resume_pays exit move made).above _ stack (by rintro _ ⟨⟩)

theorem Held.step {world next : World σ ν} {thread after : Thread σ ν} (held : Held world thread)
    (action : thread.step world = some (next, after)) : Held next after :=
  have ⟨pays, backed⟩ := Thread.step_pays held action
  ⟨held.covers.pays pays, backed⟩

theorem Held.ofCode (memory : σ) (id : ThreadId) (code : Code σ ν) :
    Held { memory } (.ofCode id code) :=
  ⟨fun _ => Nat.le_refl _, nofun⟩

theorem Held.advance (memory : σ) (id : ThreadId) (code : Code σ ν) (steps : Nat) :
    Held (Thread.advance steps { memory } (.ofCode id code)).1
      (Thread.advance steps { memory } (.ofCode id code)).2 :=
  Thread.advance_rule Held (fun _ _ _ _ held action => held.step action) (.ofCode memory id code) steps

end Relinquish
