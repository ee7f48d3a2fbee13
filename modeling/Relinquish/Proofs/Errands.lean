import Relinquish.Proofs.Reaction
import Relinquish.Proofs.Sharing

/-!
Threads on errands. A thread that gets or drops the value of a slot goes from spot to spot: each of
its steps is a transit between the cells of two worlds, as long as the code that the slot runs does
not touch the slot.
-/

namespace Relinquish

variable {σ ν : Type}

/-! ## What the threads of a pool do -/

def Errand.call (s : SlotId) : Errand → Call σ ν
  | get => .getValue s
  | drop => .dropSlot s

def Errand.base (s : SlotId) : Errand → List (Frame σ ν)
  | get => [.looking s, .holding [.slot s], .calling .ret]
  | drop => [.holding [.slot s], .calling .ret]

def Frame.Serves (s : SlotId) (frame : Frame σ ν) : Prop :=
  match frame with
  | .initializing t | .releasing t _ | .releasingLate t _ => t = s
  | frame => frame.Reacts s

def Thread.callers (thread : Thread σ ν) : List (Frame σ ν) :=
  match thread.control with
  | .task (.finish _) => thread.stack.tail
  | _ => thread.stack

def Thread.Serves (s : SlotId) (thread : Thread σ ν) : Prop :=
  ∃ frame ∈ thread.callers, frame.Serves s

instance (s : SlotId) (selection : Selection σ ν) : Decidable (selection.Of s) :=
  match selection with
  | .links t | .handlers t _ => inferInstanceAs (Decidable (t = s))
  | .numbers _ => inferInstanceAs (Decidable False)

instance (s : SlotId) (frame : Frame σ ν) : Decidable (frame.Serves s) :=
  match frame with
  | .initializing t | .releasing t _ | .releasingLate t _ | .linking t .. | .handling t .. =>
      inferInstanceAs (Decidable (t = s))
  | .judging selection .. => inferInstanceAs (Decidable (selection.Of s))
  | .calling .. | .attempted .. | .joined .. | .holding .. | .looking .. | .owning .. | .cloning ..
  | .getting .. | .using .. | .orNone .. | .orElse .. | .fallingBack .. | .tearing ..
  | .vanishing .. | .body .. | .closing .. | .through .. | .expiring .. | .guarding .. | .reading ..
  | .matched =>
      inferInstanceAs (Decidable False)

instance (s : SlotId) (thread : Thread σ ν) : Decidable (thread.Serves s) :=
  inferInstanceAs (Decidable (∃ frame ∈ thread.callers, frame.Serves s))

theorem Thread.mem_callers_above (inner : Thread σ ν) (frame : Frame σ ν) (base : List (Frame σ ν))
    (running : inner.exit? = none) : frame ∈ (inner.above (frame :: base)).callers := by
  obtain ⟨id, control, stack⟩ := inner
  have below : frame ∈ stack ++ frame :: base := List.mem_append_right _ (.head _)
  cases control with
  | code code => exact below
  | task task =>
      cases task with
      | finish exit =>
          cases stack with
          | nil => contradiction
          | cons top stack => exact List.mem_append_right _ (.head _)
      | _ => exact below

def Deed.slot : Deed → SlotId
  | began s | ended s | produced s _ | cloned s _ | handed s _ | lost s _ | warned s => s

def World.deeds (world : World σ ν) (s : SlotId) : List Deed :=
  world.ledger.filter fun deed => deed.slot = s

def World.holders (world : World σ ν) (s : SlotId) : List ThreadId :=
  (world.locks.filter fun held => held.1 = .value s).map Prod.snd

def World.cell (world : World σ ν) (s : SlotId) : Cell where
  dropped := (world.slot s).dropped
  value := (world.slot s).value
  initializing := (world.slot s).initializing
  entered := (world.slot s).entered
  holders := world.holders s
  handles := (world.slot s).handles

/-- The way from one world to another leaves the slot as it is. -/
structure World.Spares (s : SlotId) (world next : World σ ν) : Prop where
  slot : next.slot s = world.slot s
  holders : next.holders s = world.holders s
  deeds : next.deeds s = world.deeds s

theorem Exit.ofRelease_ne_value (exit : Exit) (value : Value) :
    exit.ofRelease ≠ .returned (.value value) := by
  cases exit with
  | panicked payload => exact nofun
  | returned reply =>
      rw [ofRelease]
      split <;> exact nofun

/-! ## Cells -/

namespace World

variable {world next : World σ ν} {s : SlotId}

theorem Spares.cell (spares : world.Spares s next) : next.cell s = world.cell s := by
  rw [World.cell, spares.slot, spares.holders, World.cell]

theorem free_iff : world.free (.value s) = true ↔ world.holders s = [] := by
  simp [free, holders, List.filter_eq_nil_iff]

theorem holders_lock (world : World σ ν) (s : SlotId) (id : ThreadId) :
    (world.lock (.value s) id).holders s = id :: world.holders s := by
  simp [holders, World.lock]

theorem holders_unlock (world : World σ ν) (s : SlotId) :
    (world.unlock (.value s)).holders s = [] :=
  free_iff.mp (world.free_unlock (.value s))

theorem cell_updateSlot (world : World σ ν) (s : SlotId) (change : Slot σ ν → Slot σ ν) :
    (world.updateSlot s change).cell s =
      { dropped := (change (world.slot s)).dropped
        value := (change (world.slot s)).value
        initializing := (change (world.slot s)).initializing
        entered := (change (world.slot s)).entered
        holders := world.holders s
        handles := (change (world.slot s)).handles } := by
  simp only [cell, slot_updateSlot, if_true]
  rfl

@[simp] theorem deeds_act (act : Act) :
    (world.act act).deeds s =
      ((Mark.deed? (.act act : Mark ν)).toList.filter fun deed => deed.slot = s) ++
        world.deeds s := by
  rw [deeds, ledger_act, List.filter_append, deeds]

@[simp] theorem deeds_emit (event : Event) :
    (world.emit event).deeds s =
      ((Mark.deed? (.event event : Mark ν)).toList.filter fun deed => deed.slot = s) ++
        world.deeds s := by
  rw [deeds, ledger_emit, List.filter_append, deeds]

end World

/-! ## Where threads stand -/

def Task.Reacts (s : SlotId) : Task σ ν → Prop
  | consult selection _ | sift selection _ _ _ => selection.Of s
  | links t _ _ _ _ | handlers t _ _ _ => t = s
  | _ => False

inductive Sequel.Goes (s : SlotId) : Sequel → Task σ ν → Prop
  | ending (exit : Exit) : Goes s (.ending exit) (.finish exit)
  | late (value : Value) : Goes s (.late value) (.releaseLate s value)
  | reacting {work : Task σ ν} (reacts : work.Reacts s) : Goes s .reacting work

inductive Thread.Ending (s : SlotId) (id : ThreadId) (exit : Exit) : Thread σ ν → Prop
  | worked (errand : Errand) : Ending s id exit ⟨id, .task (.finish exit), errand.base s⟩
  | letting : Ending s id exit ⟨id, .task (.letGo [.slot s] exit), [.calling .ret]⟩
  | free : Ending s id exit ⟨id, .task (.letGo [] exit), [.calling .ret]⟩
  | called : Ending s id exit ⟨id, .task (.finish exit), [.calling .ret]⟩
  | answered (reply : Reply) (returned : exit = .returned reply) :
      Ending s id exit ⟨id, .code (.ret reply), []⟩
  | ended : Ending s id exit ⟨id, .task (.finish exit), []⟩

/-- Where a thread stands on its errand. -/
inductive Stands (s : SlotId) (id : ThreadId) : Errand → Spot → Thread σ ν → Prop
  | calls (errand : Errand) : Stands s id errand .away (.ofCode id (.call (errand.call s) .ret))
  | starts (errand : Errand) :
      Stands s id errand .away ⟨id, .task (.start (errand.call s)), [.calling .ret]⟩
  | looks : Stands s id .get .away ⟨id, .task (.look s), Errand.get.base s⟩
  | enters : Stands s id .get .away ⟨id, .task (.enter s), Errand.get.base s⟩
  | looksAgain : Stands s id .get .inside ⟨id, .task (.lookAgain s), Errand.get.base s⟩
  | produces : Stands s id .get .vacant ⟨id, .task (.produce s), Errand.get.base s⟩
  | runs (inner : Thread σ ν) (home : inner.home = id) :
      Stands s id .get .running (inner.above (.initializing s :: Errand.get.base s))
  | locks (value : Value) :
      Stands s id .get (.carrying value) ⟨id, .task (.lockValue s value), Errand.get.base s⟩
  | confirms (value : Value) :
      Stands s id .get (.confirming value) ⟨id, .task (.confirm s value), Errand.get.base s⟩
  | stores (value : Value) :
      Stands s id .get (.storing value) ⟨id, .task (.store s value), Errand.get.base s⟩
  | unlocks {sequel : Sequel} {next : Task σ ν} (goes : sequel.Goes s next) :
      Stands s id .get (.unlocking sequel)
        ⟨id, .task (.unlockValue s (.leave s next)), Errand.get.base s⟩
  | leaves {sequel : Sequel} {next : Task σ ν} (goes : sequel.Goes s next) :
      Stands s id .get (.leaving sequel) ⟨id, .task (.leave s next), Errand.get.base s⟩
  | releasesLate (value : Value) :
      Stands s id .get (.late value) ⟨id, .task (.releaseLate s value), Errand.get.base s⟩
  | runsLate (value : Value) (inner : Thread σ ν) (home : inner.home = id) :
      Stands s id .get .away (inner.above (.releasingLate s value :: Errand.get.base s))
  | reacts {work : Task σ ν} (reacts : work.Reacts s) :
      Stands s id .get .away ⟨id, .task work, Errand.get.base s⟩
  | runsReaction {frame : Frame σ ν} (reacts : frame.Reacts s) (inner : Thread σ ν)
      (home : inner.home = id) : Stands s id .get .away (inner.above (frame :: Errand.get.base s))
  | swaps : Stands s id .drop .away ⟨id, .task (.swap s), Errand.drop.base s⟩
  | takes : Stands s id .drop .taking ⟨id, .task (.take s), Errand.drop.base s⟩
  | releases (value : Value) (inner : Thread σ ν) (home : inner.home = id) :
      Stands s id .drop .releasing (inner.above (.releasing s value :: Errand.drop.base s))
  | ends {errand : Errand} {exit : Exit} {thread : Thread σ ν} (ending : thread.Ending s id exit) :
      Stands s id errand (.done exit) thread

def Goes (s : SlotId) (id : ThreadId) (errand : Errand) (world : World σ ν) (spot : Spot)
    (next : World σ ν) (after : Thread σ ν) : Prop :=
  ∃ more there, Stands s id errand there after ∧
    Transit s id errand (world.cell s) spot more (next.cell s) there ∧
    next.deeds s = more ++ world.deeds s

structure World.Rests (s : SlotId) (world next : World σ ν) : Prop where
  cell : next.cell s = world.cell s
  deeds : next.deeds s = world.deeds s

/-- What of a slot stays as it is when its value is got or dropped. -/
def Slot.setup (slot : Slot σ ν) : Slot σ ν :=
  { slot with dropped := false, value := none, initializing := false, entered := none, shared := 0 }

/-- Between two worlds the calls of the slot share it so often before and so often after. -/
structure World.Lends (s : SlotId) (world : World σ ν) (before : Nat) (next : World σ ν)
    (after : Nat) : Prop where
  setup : (next.slot s).setup = (world.slot s).setup
  shared : (next.slot s).shared + before = (world.slot s).shared + after

theorem World.Lends.of_slot {s : SlotId} {world next : World σ ν} {lent : Nat}
    (same : next.slot s = world.slot s) : world.Lends s lent next lent := by
  constructor <;> rw [same]

theorem World.Spares.rests {s : SlotId} {world next : World σ ν} (spares : world.Spares s next) :
    world.Rests s next :=
  ⟨spares.cell, spares.deeds⟩

def Thread.borrows (thread : Thread σ ν) : Nat :=
  match thread.stack with
  | [] => 0
  | [_] =>
      match thread.control with
      | .task (.letGo (_ :: _) _) => 1
      | _ => 0
  | _ :: _ :: _ => 1

section
variable {s : SlotId} {id : ThreadId} {errand : Errand} {spot : Spot} {world next : World σ ν}

theorem Goes.keep {after : Thread σ ν} (rests : world.Rests s next)
    (stands : Stands s id errand spot after) : Goes s id errand world spot next after := by
  refine ⟨[], spot, stands, ?_, rests.deeds⟩
  rw [rests.cell]
  exact .rest

theorem Goes.rest {after : Thread σ ν} (spares : world.Spares s next)
    (stands : Stands s id errand spot after) : Goes s id errand world spot next after :=
  .keep spares.rests stands

theorem World.Spares.refl (s : SlotId) (world : World σ ν) : world.Spares s world :=
  ⟨rfl, rfl, rfl⟩

theorem World.Spares.trans {middle : World σ ν} (first : world.Spares s middle)
    (second : middle.Spares s next) : world.Spares s next :=
  ⟨second.slot.trans first.slot, second.holders.trans first.holders, second.deeds.trans first.deeds⟩

theorem World.Spares.act (s : SlotId) (world : World σ ν) {act : Act}
    (silent : Mark.deed? (.act act : Mark ν) = none) : world.Spares s (world.act act) := by
  refine ⟨rfl, rfl, ?_⟩
  rw [deeds_act, silent]
  rfl

theorem World.Spares.emit (s : SlotId) (world : World σ ν) {event : Event}
    (silent : Mark.deed? (.event event : Mark ν) = none) : world.Spares s (world.emit event) := by
  refine ⟨rfl, rfl, ?_⟩
  rw [deeds_emit, silent]
  rfl

theorem World.Spares.lock (world : World σ ν) {lock : Lock} (id : ThreadId)
    (other : lock ≠ .value s) : world.Spares s (world.lock lock id) := by
  refine ⟨rfl, ?_, rfl⟩
  simp [World.holders, World.lock, other]

theorem World.Spares.unlock (world : World σ ν) {lock : Lock} (other : lock ≠ .value s) :
    world.Spares s (world.unlock lock) := by
  refine ⟨rfl, ?_, rfl⟩
  rw [World.holders, World.unlock, List.filter_filter, World.holders]
  congr 1
  apply List.filter_congr
  intro held _
  by_cases equal : held.1 = .value s
  · simp [equal, other.symm]
  · simp [equal]

theorem World.Rests.retain (s : SlotId) (world : World σ ν) (handle : Handle) :
    world.Rests s (world.retain handle) := by
  refine ⟨?_, by rw [World.deeds, ledger_retain, World.deeds]⟩
  cases handle with
  | slot t =>
      simp only [World.cell, World.retain, slot_updateSlot]
      split <;> rfl
  | scope sc => rfl

theorem World.Rests.relinquish (s : SlotId) (world : World σ ν) (handle : Handle) :
    world.Rests s (world.relinquish handle) := by
  refine ⟨?_, by rw [World.deeds, World.ledger_relinquish, World.deeds]⟩
  cases handle with
  | slot t =>
      simp only [World.cell, World.relinquish, slot_updateSlot]
      split <;> rfl
  | scope sc => rfl

theorem World.Lends.retain (s : SlotId) (world : World σ ν) :
    world.Lends s 0 (world.retain (.slot s)) 1 := by
  constructor
  · simp only [World.retain, slot_updateSlot, if_true]
    rfl
  · simp only [World.retain, slot_updateSlot, if_true]

theorem World.Lends.relinquish {s : SlotId} {world : World σ ν} (shared : 0 < (world.slot s).shared) :
    world.Lends s 1 (world.relinquish (.slot s)) 0 := by
  constructor
  · simp only [World.relinquish, slot_updateSlot, if_true]
    rfl
  · simp only [World.relinquish, slot_updateSlot, if_true]
    exact Nat.sub_add_cancel shared

def Move.Goes (s : SlotId) (id : ThreadId) (errand : Errand) (world : World σ ν) (spot : Spot)
    (stack : List (Frame σ ν)) (move : Move σ ν) : Prop :=
  Relinquish.Goes s id errand world spot move.world
    ⟨move.thread.getD id, move.control, move.frames ++ stack⟩

theorem Thread.Ending.exit {exit other : Exit} {thread : Thread σ ν}
    (ending : thread.Ending s id exit) (ended : thread.exit? = some other) : other = exit := by
  cases ending with
  | ended => exact (Option.some.inj ended).symm
  | worked errand => cases errand <;> contradiction
  | _ => contradiction

/-- How many steps a thread that has its answer has before it, at most. -/
def Thread.wind (thread : Thread σ ν) : Nat :=
  match thread.control with
  | .task (.letGo handles _) => 3 * thread.stack.length + handles.length + 1
  | .task _ => 3 * thread.stack.length
  | .code _ => 3 * thread.stack.length + 1

theorem Thread.Ending.step {exit : Exit} {thread after : Thread σ ν}
    (ending : thread.Ending s id exit) (handles : 0 < (world.slot s).handles)
    (action : thread.step world = some (next, after)) :
    after.Ending s id exit ∧ world.Rests s next ∧ after.wind < thread.wind ∧
      (thread.borrows ≤ (world.slot s).shared → world.Lends s thread.borrows next after.borrows) := by
  have refl : world.Spares s world := .refl s world
  cases ending with
  | worked errand =>
      cases errand with
      | get =>
          obtain ⟨move, made, rfl, rfl⟩ := step_frame action
          obtain rfl := Option.some.inj made
          exact ⟨.worked .drop, ⟨rfl, rfl⟩, by simp [wind, Errand.base], fun _ => .of_slot rfl⟩
      | drop =>
          obtain ⟨move, made, rfl, rfl⟩ := step_frame action
          obtain rfl := Option.some.inj made
          exact ⟨.letting, refl.rests, by simp [wind, Errand.base], fun _ => .of_slot rfl⟩
  | letting =>
      have held : (world.relinquish (.slot s)).unheld (.slot s) = false := by
        simp [World.unheld, World.relinquish]
        omega
      obtain ⟨move, made, rfl, rfl⟩ := step_task action (by rintro _ ⟨⟩)
      simp only [Task.step, held] at made
      obtain rfl := Option.some.inj made
      exact ⟨.free, .relinquish s world (.slot s), by simp [wind], fun lent => .relinquish lent⟩
  | free =>
      obtain ⟨move, made, rfl, rfl⟩ := step_task action (by rintro _ ⟨⟩)
      obtain rfl := Option.some.inj made
      exact ⟨.called, refl.rests, by simp [wind], fun _ => .of_slot rfl⟩
  | called =>
      obtain ⟨move, made, rfl, rfl⟩ := step_frame action
      cases exit with
      | returned reply =>
          obtain rfl := Option.some.inj made
          exact ⟨.answered reply rfl, refl.rests, by simp [wind], fun _ => .of_slot rfl⟩
      | panicked payload =>
          obtain rfl := Option.some.inj made
          exact ⟨.ended, refl.rests, by simp [wind], fun _ => .of_slot rfl⟩
  | answered reply returned =>
      subst returned
      obtain ⟨rfl, rfl⟩ := Prod.mk.inj (Option.some.inj action)
      exact ⟨.ended, refl.rests, by simp [wind, Thread.after], fun _ => .of_slot rfl⟩
  | ended => contradiction

theorem Thread.step_serving {inner after : Thread σ ν} {frame : Frame σ ν}
    {base : List (Frame σ ν)} (home : inner.home = id) (serves : frame.Serves s)
    (spared : (inner.above (frame :: base)).Serves s → world.Spares s next)
    (action : (inner.above (frame :: base)).step world = some (next, after)) :
    (∃ further : Thread σ ν, after = further.above (frame :: base) ∧ further.home = id ∧
      (inner.above (frame :: base)).Serves s ∧ world.Spares s next) ∨
    ∃ exit move, inner = ⟨id, .task (.finish exit), []⟩ ∧ frame.resume world exit = some move ∧
      next = move.world ∧ after = ⟨move.thread.getD id, move.control, move.frames ++ base⟩ := by
  cases ended : inner.exit? with
  | some exit =>
      have whole := exit?_eq_some ended
      rw [whole] at home action ⊢
      obtain rfl : inner.id = id := home
      obtain ⟨move, made, rfl, rfl⟩ := step_frame action
      exact .inr ⟨exit, move, rfl, made, rfl, rfl⟩
  | none =>
      rw [step_above world inner (frame :: base) ended] at action
      obtain ⟨⟨reached, further⟩, made, equal⟩ := Option.map_eq_some_iff.mp action
      obtain ⟨rfl, rfl⟩ := Prod.mk.inj equal
      have busy : (inner.above (frame :: base)).Serves s :=
        ⟨frame, inner.mem_callers_above frame base ended, serves⟩
      exact .inl ⟨further, rfl, (home_step made).trans home, busy, spared busy⟩

end

/-! ## The steps of a thread on its errand -/

namespace Errand

variable {s : SlotId} {id : ThreadId} {world : World σ ν}

theorem start_goes (handles : 0 < (world.slot s).handles) (errand : Errand) :
    Ensures (Task.step world id (.start (errand.call s)))
      (Move.Goes s id errand world .away [.calling .ret]) := by
  have usable : ∀ handle ∈ [Handle.slot s], world.usable handle = true := by
    simp [World.usable, handles]
  cases errand with
  | get =>
      simp only [Task.step, call, Call.start, Ensures.operate_iff]
      exact ⟨fun _ => .keep (.retain s world (.slot s)) .looks,
        fun unusable => absurd usable unusable⟩
  | drop =>
      simp only [Task.step, call, Call.start, Ensures.operate_iff]
      exact ⟨fun _ => .keep (.retain s world (.slot s)) .swaps,
        fun unusable => absurd usable unusable⟩

theorem look_goes :
    Ensures (Task.step world id (.look s)) (Move.Goes s id .get world .away (base s .get)) := by
  simp only [Task.step, Ensures.whenFree_iff]
  intro _
  split
  · next value held =>
      rw [Ensures.answer_iff]
      exact ⟨[], _, .ends (.worked .get), .found held, rfl⟩
  · rw [Ensures.go_iff]
    exact .rest (.refl s world) .enters

theorem enter_goes :
    Ensures (Task.step world id (.enter s)) (Move.Goes s id .get world .away (base s .get)) := by
  simp only [Task.step, Ensures.bind_iff]
  intro entered action
  obtain ⟨depth, admits, rfl⟩ := world.enterSlot_eq action
  have cell := world.cell_updateSlot s fun slot => { slot with entered := some (id, depth + 1) }
  have admits : (world.slot s).entered = none ∧ depth + 1 = 1 ∨
      ∃ before, (world.slot s).entered = some (id, before) ∧ depth + 1 = before + 1 :=
    admits.imp (And.imp_right (congrArg (· + 1))) fun occupied => ⟨depth, occupied, rfl⟩
  simp only [Ensures.ite_iff, Ensures.go_iff, Bool.not_eq_true]
  constructor
  · intro initializing
    refine ⟨[], _, .leaves (.ending _), cell ▸ .enters admits (.inr ⟨?_, rfl⟩), rfl⟩
    simpa [World.cell] using initializing
  · intro unset
    refine ⟨[], _, .looksAgain, cell ▸ .enters admits (.inl ⟨?_, rfl⟩), rfl⟩
    simpa [World.cell] using unset

theorem lookAgain_goes :
    Ensures (Task.step world id (.lookAgain s))
      (Move.Goes s id .get world .inside (base s .get)) := by
  simp only [Task.step, Ensures.whenFree_iff]
  intro _
  split
  · next value held =>
      rw [Ensures.go_iff]
      exact ⟨[], _, .leaves (.ending _), .foundInside held, rfl⟩
  · next empty =>
      rw [Ensures.go_iff]
      exact ⟨[], _, .produces, .foundNothing empty, rfl⟩

theorem produce_goes :
    Ensures (Task.step world id (.produce s))
      (Move.Goes s id .get world .vacant (base s .get)) := by
  simp only [Task.step, Ensures.ite_iff, Ensures.go_iff, Ensures.run_iff, Bool.not_eq_true]
  constructor
  · intro dropped
    exact ⟨[], _, .leaves (.ending _), .refused dropped, rfl⟩
  · intro undropped
    have cell := world.cell_updateSlot s fun slot => { slot with initializing := true }
    refine ⟨[.began s], .running, .runs ⟨id, .code _, []⟩ rfl, cell ▸ .begins undropped, ?_⟩
    rw [World.deeds_act]
    simp [Mark.deed?, Deed.slot]
    rfl

theorem initializerEnded_goes (exit : Exit) :
    Ensures (world.initializerEnded s exit)
      (Move.Goes s id .get world .running (base s .get)) := by
  have cell := world.cell_updateSlot s fun slot => { slot with initializing := false }
  have ended (exit : Exit) :
      ((world.updateSlot s fun slot => { slot with initializing := false }).act
        (.initializerEnded s exit)).deeds s = .ended s :: world.deeds s := by
    rw [World.deeds_act]
    simp [Mark.deed?, Deed.slot]
    rfl
  simp only [Ensures.initializerEnded_iff]
  refine ⟨?_, ?_⟩
  · rintro payload rfl
    exact ⟨[.ended s], _, .leaves (.ending _), cell ▸ .fails (.inr ⟨_, rfl⟩), ended _⟩
  · rintro reply rfl
    refine ⟨fun error _ => ?_, fun _ => ?_⟩
    · exact ⟨[.ended s], _, .leaves (.reacting rfl), cell ▸ .fails (.inl rfl), ended _⟩
    · let value : Value := ⟨world.values, reply.content⟩
      refine ⟨[.produced s value, .ended s], .carrying value, .locks value, cell ▸ .produces, ?_⟩
      rw [World.deeds_act]
      simp [Mark.deed?, Deed.slot]
      exact ⟨rfl, ended (.returned reply)⟩

theorem lockValue_goes (value : Value) :
    Ensures (Task.step world id (.lockValue s value))
      (Move.Goes s id .get world (.carrying value) (base s .get)) := by
  simp only [Task.step, Ensures.whenFree_iff, Ensures.go_iff]
  intro free
  have unheld : (world.cell s).holders = [] := World.free_iff.mp (free _ (.head _))
  have cell : (world.lock (.value s) id).cell s = { world.cell s with holders := [id] } := by
    simp only [World.cell, World.holders_lock, World.free_iff.mp (free _ (.head _))]
    rfl
  exact ⟨[], _, .confirms value, cell ▸ .locks unheld, rfl⟩

theorem confirm_goes (value : Value) :
    Ensures (Task.step world id (.confirm s value))
      (Move.Goes s id .get world (.confirming value) (base s .get)) := by
  simp only [Task.step, Ensures.ite_iff, Ensures.go_iff, Bool.not_eq_true]
  exact ⟨fun dropped => ⟨[], _, .unlocks (.late value), .overtaken dropped, rfl⟩,
    fun undropped => ⟨[], _, .stores value, .confirms undropped, rfl⟩⟩

theorem store_goes (value : Value) :
    Ensures (Task.step world id (.store s value))
      (Move.Goes s id .get world (.storing value) (base s .get)) := by
  simp only [Task.step, Ensures.go_iff]
  have cell := world.cell_updateSlot s fun slot => { slot with value := some value }
  exact ⟨[], _, .unlocks (.ending _), cell ▸ .stores, rfl⟩

theorem unlock_goes {sequel : Sequel} {following : Task σ ν} (goes : sequel.Goes s following) :
    Ensures (Task.step world id (.unlockValue s (.leave s following)))
      (Move.Goes s id .get world (.unlocking sequel) (base s .get)) := by
  simp only [Task.step, Ensures.go_iff]
  have cell : (world.unlock (.value s)).cell s = { world.cell s with holders := [] } := by
    simp only [World.cell, World.holders_unlock]
    rfl
  exact ⟨[], _, .leaves goes, cell ▸ .unlocks, rfl⟩

theorem leave_goes {sequel : Sequel} {following : Task σ ν} (goes : sequel.Goes s following) :
    Ensures (Task.step world id (.leave s following))
      (Move.Goes s id .get world (.leaving sequel) (base s .get)) := by
  simp only [Task.step, Ensures.go_iff]
  have cell : (world.leaveSlot s).cell s = (world.cell s).left := world.cell_updateSlot s _
  cases goes with
  | ending exit => exact ⟨[], _, .ends (.worked .get), cell ▸ .ends, rfl⟩
  | late value => exact ⟨[], _, .releasesLate value, cell ▸ .turnsLate, rfl⟩
  | reacting reacts => exact ⟨[], _, .reacts reacts, cell ▸ .reacts, rfl⟩

theorem releaseLate_goes (value : Value) :
    Ensures (Task.step world id (.releaseLate s value))
      (Move.Goes s id .get world (.late value) (base s .get)) := by
  simp only [Task.step, Ensures.run_iff]
  refine ⟨[.handed s value], .away, .runsLate value ⟨id, .code _, []⟩ rfl, .handsLate, ?_⟩
  simp [Mark.deed?, Deed.slot]

theorem swap_goes :
    Ensures (Task.step world id (.swap s)) (Move.Goes s id .drop world .away (base s .drop)) := by
  simp only [Task.step, Ensures.ite_iff, Ensures.go_iff, Ensures.endDrop_iff, Bool.not_eq_true]
  have cell := world.cell_updateSlot s fun slot => { slot with dropped := true }
  exact ⟨fun dropped => ⟨[], _, .ends (.worked .drop), .second dropped, rfl⟩,
    fun undropped => ⟨[], _, .takes, cell ▸ .swaps undropped, rfl⟩⟩

theorem take_goes :
    Ensures (Task.step world id (.take s)) (Move.Goes s id .drop world .taking (base s .drop)) := by
  simp only [Task.step, Ensures.whenFree_iff]
  intro free
  have unheld : (world.cell s).holders = [] := World.free_iff.mp (free _ (.head _))
  split
  · next value held =>
      rw [Ensures.run_iff]
      have cell := world.cell_updateSlot s fun slot => { slot with value := none }
      refine ⟨[.handed s value], .releasing, .releases value ⟨id, .code _, []⟩ rfl,
        cell ▸ .takes unheld held, ?_⟩
      simp [Mark.deed?, Deed.slot]
      rfl
  · next empty =>
      rw [Ensures.endDrop_iff]
      exact ⟨[], _, .ends (.worked .drop), .misses unheld empty, rfl⟩

theorem reacts_goes {work : Task σ ν} (reacts : work.Reacts s) :
    Ensures (work.step world id) (Move.Goes s id .get world .away (base s .get)) := by
  cases work with
  | consult selection error =>
      simp only [Task.step, Ensures.whenFree_iff, Ensures.go_iff]
      exact fun _ => .rest (.lock world id (selection.lock_ne s)) (.reacts reacts)
  | sift selection error rest places =>
      cases rest with
      | nil =>
          have unlocks := World.Spares.unlock world (selection.lock_ne s)
          simp only [Task.step, Ensures.proceed_iff]
          refine ⟨?_, ?_, ?_⟩
          · rintro t rfl
            exact .rest unlocks (.reacts reacts)
          · rintro t chosen rfl
            exact .rest (unlocks.trans (.emit s _ rfl)) (.reacts reacts)
          · rintro r rfl
            exact False.elim reacts
      | cons entry rest =>
          simp only [Task.step, Ensures.ask_iff]
          refine ⟨fun _ => .rest (.refl s world) (.reacts reacts),
            fun _ => .rest (.refl s world) (.reacts reacts), fun code _ => ?_⟩
          refine .rest (.refl s world) (.runsReaction ?_ ⟨id, .code code, []⟩ rfl)
          exact reacts
  | links t error rest callbacks failures =>
      cases rest with
      | nil =>
          simp only [Task.step, Ensures.go_iff]
          exact .rest (.refl s world) (.reacts reacts)
      | cons link rest =>
          simp only [Task.step, Ensures.push_iff]
          refine .rest (.act s world rfl) (.runsReaction ?_ ⟨id, .task (.dispose link.2), []⟩ rfl)
          exact reacts
  | handlers t error rest failures =>
      cases rest with
      | nil =>
          simp only [Task.step, Ensures.answer_iff]
          exact ⟨[], _, .ends (.worked .get), .failed (by rintro _ ⟨⟩), rfl⟩
      | cons handler rest =>
          simp only [Task.step, Ensures.run_iff]
          refine .rest (.act s world rfl) (.runsReaction ?_ ⟨id, .code (handler.2 error), []⟩ rfl)
          exact reacts
  | _ => exact False.elim reacts

theorem fails_goes {next : World σ ν} (spares : world.Spares s next) {exit : Exit}
    (fails : ∀ value, exit ≠ .returned (.value value)) :
    Move.Goes s id .get world .away (base s .get)
      { world := next, control := .task (.finish exit) } :=
  ⟨[], _, .ends (.worked .get), spares.cell ▸ .failed fails, spares.deeds⟩

theorem reaction_goes {frame : Frame σ ν} (reacts : frame.Reacts s) (exit : Exit) :
    Ensures (frame.resume world exit) (Move.Goes s id .get world .away (base s .get)) := by
  cases frame with
  | judging selection error place rest places =>
      have unlocks := World.Spares.unlock world (selection.lock_ne s)
      cases exit with
      | panicked payload =>
          simp only [Frame.resume, Ensures.go_iff]
          exact fails_goes unlocks (by rintro _ ⟨⟩)
      | returned reply =>
          simp only [Frame.resume, Ensures.go_iff]
          exact .rest (.refl s world) (.reacts reacts)
  | linking t error rest callbacks failures =>
      cases exit with
      | panicked payload =>
          simp only [Frame.resume, Ensures.go_iff]
          exact fails_goes (.refl s world) (by rintro _ ⟨⟩)
      | returned reply =>
          simp only [Frame.resume]
          split
          · rw [Ensures.go_iff]
            exact .rest (.refl s world) (.reacts reacts)
          · rw [Ensures.go_iff]
            exact .rest (.emit s world rfl) (.reacts reacts)
  | handling t error rest failures =>
      cases exit with
      | panicked payload =>
          simp only [Frame.resume, Ensures.go_iff]
          exact fails_goes (.refl s world) (by rintro _ ⟨⟩)
      | returned reply =>
          simp only [Frame.resume]
          split
          · rw [Ensures.go_iff]
            exact .rest (.refl s world) (.reacts reacts)
          · rw [Ensures.go_iff]
            exact .rest (.emit s world rfl) (.reacts reacts)
  | _ => exact False.elim reacts

theorem releasingLate_goes (value : Value) (exit : Exit) :
    Ensures ((Frame.releasingLate s value : Frame σ ν).resume world exit)
      (Move.Goes s id .get world .away (base s .get)) := by
  cases exit with
  | panicked payload =>
      simp only [Frame.resume, Ensures.go_iff]
      exact fails_goes (.refl s world) (by rintro _ ⟨⟩)
  | returned reply =>
      have spares : world.Spares s
          (world.emitAll (reply.error?.map (.lateReleaseFailed s)).toList) := by
        cases reply.error? with
        | none => exact .refl s world
        | some error => exact .emit s world rfl
      simp only [Frame.resume, Ensures.answer_iff]
      exact fails_goes spares (by rintro _ ⟨⟩)

theorem releasing_goes (value : Value) (exit : Exit) :
    Ensures ((Frame.releasing s value : Frame σ ν).resume world exit)
      (Move.Goes s id .drop world .releasing (base s .drop)) := by
  simp only [Frame.resume, Ensures.endDrop_iff]
  exact ⟨[], _, .ends (.worked .drop), .released exit.ofRelease_ne_value, rfl⟩

end Errand

theorem Goes.of_task {s : SlotId} {id : ThreadId} {errand : Errand} {spot : Spot}
    {world next : World σ ν} {work : Task σ ν} {stack : List (Frame σ ν)} {after : Thread σ ν}
    (goes : Ensures (work.step world id) (Move.Goes s id errand world spot stack))
    (unfinished : ∀ exit, work ≠ .finish exit)
    (action : Thread.step world ⟨id, .task work, stack⟩ = some (next, after)) :
    Goes s id errand world spot next after := by
  obtain ⟨move, made, rfl, rfl⟩ := Thread.step_task action unfinished
  exact goes move made

theorem Stands.step {s : SlotId} {id : ThreadId} {errand : Errand} {spot : Spot}
    {world next : World σ ν} {thread after : Thread σ ν} (stands : Stands s id errand spot thread)
    (handles : 0 < (world.slot s).handles) (spared : thread.Serves s → world.Spares s next)
    (action : thread.step world = some (next, after)) :
    Goes s id errand world spot next after := by
  cases stands with
  | calls errand =>
      obtain ⟨rfl, rfl⟩ := Prod.mk.inj (Option.some.inj action)
      exact .rest (.refl s world) (.starts errand)
  | starts errand => exact .of_task (errand.start_goes handles) nofun action
  | looks => exact .of_task Errand.look_goes nofun action
  | enters => exact .of_task Errand.enter_goes nofun action
  | looksAgain => exact .of_task Errand.lookAgain_goes nofun action
  | produces => exact .of_task Errand.produce_goes nofun action
  -- Code of the slot either goes on and spares the slot, or has ended, and its frame gets the end.
  | runs inner home =>
      have serves : Frame.Serves s (.initializing s : Frame σ ν) := rfl
      rcases Thread.step_serving home serves spared action with
        ⟨further, rfl, home, _, spares⟩ | ⟨exit, move, _, made, rfl, rfl⟩
      · exact .rest spares (.runs further home)
      · exact Errand.initializerEnded_goes exit move made
  | locks value => exact .of_task (Errand.lockValue_goes value) nofun action
  | confirms value => exact .of_task (Errand.confirm_goes value) nofun action
  | stores value => exact .of_task (Errand.store_goes value) nofun action
  | unlocks goes => exact .of_task (Errand.unlock_goes goes) nofun action
  | leaves goes => exact .of_task (Errand.leave_goes goes) nofun action
  | releasesLate value => exact .of_task (Errand.releaseLate_goes value) nofun action
  | runsLate value inner home =>
      have serves : Frame.Serves s (.releasingLate s value : Frame σ ν) := rfl
      rcases Thread.step_serving home serves spared action with
        ⟨further, rfl, home, _, spares⟩ | ⟨exit, move, _, made, rfl, rfl⟩
      · exact .rest spares (.runsLate value further home)
      · exact Errand.releasingLate_goes value exit move made
  | @reacts work reacts =>
      refine .of_task (Errand.reacts_goes reacts) (fun exit equal => ?_) action
      rw [equal] at reacts
      exact reacts
  | @runsReaction frame reacts inner home =>
      have serves : frame.Serves s := by
        cases frame <;> first | exact reacts | exact False.elim reacts
      rcases Thread.step_serving home serves spared action with
        ⟨further, rfl, home, _, spares⟩ | ⟨exit, move, _, made, rfl, rfl⟩
      · exact .rest spares (.runsReaction reacts further home)
      · exact Errand.reaction_goes reacts exit move made
  | swaps => exact .of_task Errand.swap_goes nofun action
  | takes => exact .of_task Errand.take_goes nofun action
  | releases value inner home =>
      have serves : Frame.Serves s (.releasing s value : Frame σ ν) := rfl
      rcases Thread.step_serving home serves spared action with
        ⟨further, rfl, home, _, spares⟩ | ⟨exit, move, _, made, rfl, rfl⟩
      · exact .rest spares (.releases value further home)
      · exact Errand.releasing_goes value exit move made
  | ends ending =>
      obtain ⟨ending, rests, -⟩ := ending.step handles action
      exact .keep rests (.ends ending)

end Relinquish
