import Relinquish.Proofs.Callers
import Relinquish.Proofs.Pool
import Mathlib.Algebra.BigOperators.Fin
import Mathlib.Order.Bounds.Basic

/-!
Calls of one kind. Whatever the order in which the steps of threads come that all get, or all drop,
the value of one slot, they come to what the same calls come to that are made one after the other.
-/

namespace Relinquish

variable {σ ν : Type} {n : Nat}

/-! ## Plays -/

def World.attempts (world : World σ ν) (s : SlotId) : Nat :=
  (world.deeds s).count (.ended s)

def Thread.cost (s : SlotId) (thread : Thread σ ν) : Nat :=
  if thread.Serves s then 0 else 1

def Control.quiet : Control σ ν → Bool
  | .code (.call _ _) => false
  | .code _ | .task (.dispose (.action _)) => true
  | .task _ => false

def Thread.quiet (s : SlotId) (thread : Thread σ ν) : Bool :=
  thread.control.quiet || thread.stack.all fun frame => ¬ frame.Serves s

section
variable {o : Outcomes} {slot : Slot σ ν} {s : SlotId} {runs : Nat} {world next : World σ ν}
  {thread after : Thread σ ν}

theorem Frame.expects_of_idle {exit : Exit} {frame : Frame σ ν} (idle : ¬ frame.Serves s) :
    frame.Expects o slot s runs exit := by
  cases frame with
  | initializing | linking | handling | releasing => exact fun same => absurd same idle
  | judging => exact fun of => absurd of idle
  | _ => trivial

theorem Thread.expects_of_quiet (quiet : thread.quiet s = true) : thread.Expects o slot s runs := by
  intro exit frame stack control top
  rw [Thread.quiet, control, top, Bool.or_eq_true] at quiet
  have idle := List.all_eq_true.mp (quiet.resolve_left nofun) frame (.head _)
  exact Frame.expects_of_idle (of_decide_eq_true idle)

theorem Thread.spares_of_quiet (quiet : thread.quiet s = true)
    (action : thread.step world = some (next, after)) (serves : thread.Serves s) :
    world.Spares s next := by
  obtain ⟨id, control, stack⟩ := thread
  obtain ⟨frame, member, serves⟩ := serves
  rw [Thread.quiet, Bool.or_eq_true] at quiet
  rcases quiet with quiet | idle
  · cases control with
    | code code =>
        cases code <;> first
          | contradiction
          | (obtain ⟨rfl, rfl⟩ := Prod.mk.inj (Option.some.inj action); exact ⟨rfl, rfl, rfl⟩)
    | task work =>
        cases work with
        | dispose droppable =>
            cases droppable with
            | action code =>
                obtain ⟨rfl, rfl⟩ := Prod.mk.inj (Option.some.inj action)
                exact ⟨rfl, rfl, rfl⟩
            | _ => contradiction
        | _ => contradiction
  · have within : frame ∈ stack := by
      unfold callers at member
      split at member
      · exact List.mem_of_mem_tail member
      · exact member
    exact absurd serves (of_decide_eq_true (List.all_eq_true.mp idle frame within))

end

namespace Pool

/-- A run of a pool in which the code of the slot spares the slot and comes to what is known
beforehand, and in which a thread moves only when it has the turn. -/
inductive Plays (o : Outcomes) (s : SlotId) (turn : Pool n σ ν → Fin n → Prop) (first : Pool n σ ν) :
    Nat → Pool n σ ν → Prop
  | refl : Plays o s turn first 0 first
  | step {moves : Nat} {pool : Pool n σ ν} (run : Plays o s turn first moves pool) (i : Fin n)
      {next : World σ ν} {after : Thread σ ν} (may : turn pool i)
      (action : (pool.threads i).step pool.world = some (next, after))
      (spares : (pool.threads i).Serves s → pool.world.Spares s next)
      (expected : (pool.threads i).Expects o (first.world.slot s) s
        (pool.world.attempts s - first.world.attempts s)) :
      Plays o s turn first (moves + (pool.threads i).cost s)
        ⟨next, Function.update pool.threads i after⟩

theorem Plays.advance {o : Outcomes} {s : SlotId} {turn : Pool n σ ν → Fin n → Prop} {moves : Nat}
    {first pool : Pool n σ ν} (run : Plays o s turn first moves pool) (i : Fin n) (steps : Nat)
    (may : ∀ world thread, turn ⟨world, Function.update pool.threads i thread⟩ i)
    (quiet : ∀ k < steps, (Thread.advance k pool.world (pool.threads i)).2.quiet s = true) :
    let last := Thread.advance steps pool.world (pool.threads i)
    ∃ moves, Plays o s turn first moves ⟨last.1, Function.update pool.threads i last.2⟩ := by
  induction steps with
  | zero => exact ⟨moves, by simpa only [Thread.advance, Function.update_eq_self] using run⟩
  | succ steps ih =>
      obtain ⟨moves, run⟩ := ih fun k earlier => quiet k (Nat.lt_succ_of_lt earlier)
      have may := may (Thread.advance steps pool.world (pool.threads i)).1
        (Thread.advance steps pool.world (pool.threads i)).2
      have quiet := quiet steps (Nat.lt_succ_self steps)
      rw [Thread.advance_add]
      generalize Thread.advance steps pool.world (pool.threads i) = before at run may quiet
      obtain ⟨middle, thread⟩ := before
      cases action : thread.step middle with
      | none => exact ⟨moves, by simpa only [Thread.advance, action] using run⟩
      | some after =>
          have step : ∃ moves, Plays o s turn first moves
              ⟨after.1, Function.update (Function.update pool.threads i thread) i after.2⟩ := by
            refine ⟨_, run.step i may ?_ ?_ ?_⟩ <;> simp only [Function.update_self]
            · exact action
            · exact Thread.spares_of_quiet quiet action
            · exact Thread.expects_of_quiet quiet
          rw [Function.update_idem] at step
          simpa only [Thread.advance, action] using step

def InTurn (pool : Pool n σ ν) (i : Fin n) : Prop :=
  ∀ j < i, (pool.threads j).exit?.isSome

/-- No thread can go on, and none waits in the code of the slot. -/
def AtRest (s : SlotId) (pool : Pool n σ ν) : Prop :=
  ∀ i, (pool.threads i).step pool.world = none ∧ ¬ (pool.threads i).Serves s

end Pool

theorem Shifts.transit {o : Outcomes} {slot : Slot σ ν} {s : SlotId} {id : ThreadId} {runs : Nat}
    {errand : Errand} {cell next : Cell} {post there : Post} {more : List Deed}
    (shifts : Shifts o s id runs errand cell post more next there) :
    Transit s id errand cell (post.spot o slot) more next (there.spot o slot) := by
  cases shifts with
  | rest => exact .rest
  | found held => exact .found held
  | enters free unset => exact .enters (.inl ⟨free, rfl⟩) (.inl ⟨unset, rfl⟩)
  | foundInside held => exact .foundInside held
  | foundNothing empty => exact .foundNothing empty
  | begins undropped => exact .begins undropped
  | fails outcome => exact .fails (.inl rfl)
  | produces outcome => exact .produces
  | locks free => exact .locks free
  | confirms undropped => exact .confirms undropped
  | stores => exact .stores
  | unlocks => exact .unlocks
  | leaves => exact .ends
  | reacts => exact .reacts
  | tells => exact .failed (by rintro _ ⟨⟩)
  | swaps undropped => exact .swaps undropped
  | second dropped => exact .second dropped
  | takes free held => exact .takes free held
  | misses free empty => exact .misses free empty
  | released => exact .released (Exit.ofRelease_ne_value _)

/-! ## All threads together -/

structure World.Idle (world : World σ ν) (s : SlotId) : Prop extends world.Calm s where
  links : world.free (.links s) = true
  handlers : world.free (.handlers s) = true

theorem World.Idle.unlocked {world : World σ ν} {s : SlotId} (idle : world.Idle s) {lock : Lock}
    (of : lock ∈ Lock.ofSlot s) : world.free lock = true := by
  simp only [Lock.ofSlot, List.mem_cons, List.not_mem_nil, or_false] at of
  obtain rfl | rfl | rfl := of
  · exact idle.free
  · exact idle.links
  · exact idle.handlers

structure Pool.Attended (o : Outcomes) (s : SlotId) (errand : Errand) (world : World σ ν) (moves : Nat)
    (pool : Pool n σ ν) (posts : Fin n → Post) (left : Fin n → Nat) (deeds : List Deed) : Prop where
  posted : ∀ i, Posted o (world.slot s) s i.val errand (posts i) (left i) (pool.threads i)
  ledger : pool.world.deeds s = deeds ++ world.deeds s
  setup : (pool.world.slot s).setup = (world.slot s).setup
  lent : (pool.world.slot s).shared = (world.slot s).shared + ∑ i, (pool.threads i).borrows
  bounded : moves + ∑ i, left i ≤ n * ((world.slot s).toil + 8)
  undropped : errand = .get → (pool.world.slot s).dropped = false
  shared : Shared s (fun _ : Fin n => errand) (world.slot s).value (pool.world.cell s)
    (fun i => (posts i).spot o (world.slot s)) deeds
  entered : (pool.world.slot s).entered = none ∨
    ∃ i, ((posts i).spot o (world.slot s)).Inside

section
variable {o : Outcomes} {slot : Slot σ ν} {s : SlotId} {id : ThreadId} {runs : Nat} {errand : Errand}
  {cell next : Cell} {post there : Post} {more : List Deed}

theorem Shifts.dropped (shifts : Shifts o s id runs .get cell post more next there) :
    next.dropped = cell.dropped := by
  cases shifts <;> rfl

theorem Shifts.entered (shifts : Shifts o s id runs errand cell post more next there)
    (owner : (post.spot o slot).Inside → cell.entered = some (id, 1)) :
    next.entered = none ∨ (there.spot o slot).Inside ∨
      next.entered = cell.entered ∧ ¬ (post.spot o slot).Inside := by
  cases shifts with
  | rest =>
      by_cases inside : (post.spot o slot).Inside
      · exact .inr (.inl inside)
      · exact .inr (.inr ⟨rfl, inside⟩)
  | found | tells | swaps | second | takes | misses | released => exact .inr (.inr ⟨rfl, fun inside => inside⟩)
  | leaves | reacts =>
      left
      rw [Cell.left, owner trivial]
      rfl
  | _ => exact .inr (.inl trivial)

end

namespace Pool

variable {o : Outcomes} {s : SlotId} {errand : Errand} {world : World σ ν} {moves : Nat}
  {pool : Pool n σ ν} {posts : Fin n → Post} {left : Fin n → Nat} {deeds : List Deed}

theorem sum_update {α : Type} (measure : α → Nat) (all : Fin n → α) (i : Fin n) (one : α) :
    ∑ j, measure (Function.update all i one j) + measure (all i) = ∑ j, measure (all j) + measure one := by
  have others : ∑ j ∈ Finset.univ.erase i, measure (Function.update all i one j) =
      ∑ j ∈ Finset.univ.erase i, measure (all j) :=
    Finset.sum_congr rfl fun j member => by rw [Function.update_of_ne (Finset.ne_of_mem_erase member)]
  rw [← Finset.add_sum_erase _ _ (Finset.mem_univ i), Function.update_self, others,
    ← Finset.add_sum_erase _ (fun j => measure (all j)) (Finset.mem_univ i)]
  omega

namespace Attended

theorem start (calm : world.Calm s) :
    Attended o s errand world 0 (.start s (fun _ : Fin n => errand) world) (fun _ => .away)
      (fun _ => (world.slot s).toil + 8) [] where
  posted i := .calls errand
  ledger := rfl
  setup := rfl
  lent := (Nat.add_zero _).symm.trans (congrArg (_ + ·) Finset.sum_const_zero.symm)
  bounded := by simp
  undropped _ := calm.undropped
  shared := calm.shared _
  entered := .inl calm.entered

theorem offers (attended : Attended o s errand world moves pool posts left deeds)
    (calm : world.Calm s) (i : Fin n) :
    pool.world.Offers (world.slot s) s i.val errand (posts i) where
  handles := by
    have same : (pool.world.slot s).handles = (world.slot s).handles :=
      (congrArg Slot.handles attended.setup : (pool.world.slot s).setup.handles = _)
    rw [same]
    exact calm.handles
  setup := attended.setup
  undropped := attended.undropped
  unset := attended.shared.exclusive.unset
  apart away depth owned := by
    have inside := attended.shared.exclusive.entered i depth owned
    rw [away] at inside
    exact inside

theorem runs (attended : Attended o s errand world moves pool posts left deeds) :
    pool.world.attempts s - world.attempts s = deeds.count (.ended s) := by
  rw [World.attempts, attended.ledger, List.count_append, World.attempts, Nat.add_sub_cancel]

theorem borrows_le (attended : Attended o s errand world moves pool posts left deeds) (i : Fin n) :
    (pool.threads i).borrows ≤ (pool.world.slot s).shared := by
  rw [attended.lent, ← Finset.add_sum_erase _ _ (Finset.mem_univ i)]
  omega

theorem step (attended : Attended o s errand world moves pool posts left deeds) (calm : world.Calm s)
    {i : Fin n} {next : World σ ν} {after : Thread σ ν}
    (action : (pool.threads i).step pool.world = some (next, after))
    (spares : (pool.threads i).Serves s → pool.world.Spares s next)
    (expected : (pool.threads i).Expects o (world.slot s) s (deeds.count (.ended s))) :
    ∃ there fewer more,
      Attended o s errand world (moves + (pool.threads i).cost s)
        ⟨next, Function.update pool.threads i after⟩ (Function.update posts i there)
        (Function.update left i fewer) (more ++ deeds) ∧
      Shifts o s i.val (deeds.count (.ended s)) errand (pool.world.cell s) (posts i) more
        (next.cell s) there := by
  have steps : ∃ more there fewer, Posted o (world.slot s) s i.val errand there fewer after ∧
      fewer + (pool.threads i).cost s ≤ left i ∧
      Shifts o s i.val (deeds.count (.ended s)) errand (pool.world.cell s) (posts i) more
        (next.cell s) there ∧
      next.deeds s = more ++ pool.world.deeds s ∧
      pool.world.Lends s (pool.threads i).borrows next after.borrows := by
    -- A step of the slot's code costs nothing and shifts nobody; any other one has a step less ahead.
    rcases (attended.posted i).step (attended.offers calm i) spares expected (attended.borrows_le i)
      action with ⟨serves, spares, posted, same⟩ | ⟨more, there, fewer, posted, less, shifts, ledger, lends⟩
    · refine ⟨[], posts i, left i, posted, ?_, ?_, spares.deeds, same ▸ .of_slot spares.slot⟩
      · rw [Thread.cost, if_pos serves, Nat.add_zero]
      · rw [spares.cell]
        exact .rest
    · refine ⟨more, there, fewer, posted, ?_, shifts, ledger, lends⟩
      rw [Thread.cost]
      split <;> omega
  obtain ⟨more, there, fewer, posted, less, shifts, ledger, lends⟩ := steps
  have others (j : Fin n) (other : j ≠ i) : Function.update posts i there j = posts j :=
    Function.update_of_ne other _ _
  refine ⟨there, fewer, more, ⟨fun j => ?_, ?_, lends.setup.trans attended.setup, ?_, ?_, fun get => ?_, ?_, ?_⟩,
    shifts⟩
  · by_cases other : j = i
    · subst other
      simpa only [Function.update_self] using posted
    · simpa only [Function.update_of_ne other] using attended.posted j
  · rw [ledger, attended.ledger, List.append_assoc]
  · have borrowed := sum_update Thread.borrows pool.threads i after
    have lent := attended.lent
    have shared := lends.shared
    show (next.slot s).shared = _ + ∑ j, (Function.update pool.threads i after j).borrows
    omega
  · have spent : ∑ j, Function.update left i fewer j + left i = ∑ j, left j + fewer :=
      sum_update id left i fewer
    have bounded := attended.bounded
    omega
  · subst get
    rw [← attended.undropped rfl]
    exact shifts.dropped
  · refine attended.shared.step (fun j other => by rw [others j other]) ?_
    simpa only [Function.update_self] using shifts.transit
  · rcases shifts.entered (attended.shared.exclusive.owner i) with free | inside | ⟨same, outside⟩
    · exact .inl free
    · exact .inr ⟨i, by rwa [Function.update_self]⟩
    · refine attended.entered.imp same.trans fun ⟨j, inside⟩ => ⟨j, ?_⟩
      have other : j ≠ i := by
        rintro rfl
        exact outside inside
      rwa [others j other]

end Attended

variable {turn : Pool n σ ν → Fin n → Prop}

theorem Plays.rule (run : Plays o s turn (.start s (fun _ => errand) world) moves pool)
    (calm : world.Calm s) (invariant : Cell → (Fin n → Post) → List Deed → Prop)
    (starts : invariant (world.cell s) (fun _ => .away) [])
    (preserved : ∀ {cell next posts i there more deeds},
      Shared s (fun _ : Fin n => errand) (world.slot s).value cell
        (fun i => (posts i).spot o (world.slot s)) deeds →
      invariant cell posts deeds →
      Shifts o s (Fin.val i) (deeds.count (.ended s)) errand cell (posts i) more next there →
        invariant next (Function.update posts i there) (more ++ deeds)) :
    ∃ posts left deeds, Attended o s errand world moves pool posts left deeds ∧
      invariant (pool.world.cell s) posts deeds := by
  induction run with
  | refl => exact ⟨_, _, _, .start calm, starts⟩
  | step run i may action spares expected ih =>
      obtain ⟨posts, left, deeds, attended, holds⟩ := ih
      have expected : Thread.Expects o (world.slot s) s (deeds.count (.ended s)) _ :=
        attended.runs ▸ expected
      obtain ⟨there, fewer, more, further, shifts⟩ := attended.step calm action spares expected
      exact ⟨_, _, _, further, preserved attended.shared holds shifts⟩

/-! ## At rest -/

theorem Plays.holder (run : Plays o s turn (.start s (fun _ => errand) world) moves pool) {lock : Lock}
    (held : pool.world.free lock = false) :
    world.free lock = false ∨ ∃ i, lock ∈ (pool.threads i).locks := by
  induction run with
  | refl => exact .inl held
  | step run i may action spares expected ih =>
      rcases (Thread.step_latches action).held held with owns | ⟨held, free⟩
      · exact .inr ⟨i, by simpa only [Function.update_self] using owns⟩
      · refine (ih held).imp_right fun ⟨j, owns⟩ => ⟨j, ?_⟩
        have other : j ≠ i := by
          rintro rfl
          exact free owns
        simpa only [Function.update_of_ne other] using owns

/-- Calls wait for each other, but not in a circle: when nothing goes on, all have returned. -/
theorem Plays.returned (idle : world.Idle s)
    (run : Plays o s turn (.start s (fun _ => errand) world) moves pool)
    (attended : Attended o s errand world moves pool posts left deeds) (rest : pool.AtRest s)
    (i : Fin n) : ∃ exit, (pool.threads i).exit? = some exit := by
  have stuck (i : Fin n) : ¬ (pool.threads i).Moves pool.world := by
    rintro ⟨reached, action⟩
    rw [(rest i).1] at action
    contradiction
  have free (lock : Lock) (of : lock ∈ Lock.ofSlot s) : pool.world.free lock = true := by
    by_contra held
    rcases run.holder (Bool.eq_false_of_not_eq_true held) with taken | ⟨j, owns⟩
    · rw [idle.unlocked of] at taken
      contradiction
    · have owned : (pool.threads j).locks ≠ [] := List.ne_nil_of_mem owns
      rcases (attended.posted j).moves (rest j).2 (absurd · owned) (absurd · owned) with
        moves | ⟨exit, ended⟩
      · exact stuck j moves
      · rw [Thread.exit?_eq_some ended] at owned
        exact owned rfl
  have unentered : (pool.world.slot s).entered = none := by
    refine attended.entered.resolve_right fun ⟨j, inside⟩ => ?_
    rcases (attended.posted j).moves (rest j).2 (fun _ => free)
      (fun _ away => by rw [away] at inside; exact inside.elim) with moves | ⟨exit, ended⟩
    · exact stuck j moves
    · rw [(attended.posted j).done ended] at inside
      exact inside
  exact ((attended.posted i).moves (rest i).2 (fun _ => free) fun _ _ => unentered).resolve_left (stuck i)

end Pool

end Relinquish
