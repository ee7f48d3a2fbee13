import Relinquish.Proofs.Discipline
import Relinquish.Proofs.Pool
import Relinquish.Proofs.Waits
import Mathlib.Algebra.BigOperators.Group.Finset.Basic
import Mathlib.Algebra.Order.Group.Multiset
import Mathlib.Data.Fintype.Basic

/-!
Deadlocks. Whatever code the threads of a pool run, and in whatever order their steps come, a thread
waits for itself only where it runs the predicate of a kind: the registry that is being matched stays
locked meanwhile. All other code is run without any lock.
-/

namespace Relinquish

variable {σ ν : Type} {n : Nat}

/-! ## Pools of any code -/

namespace Pool

def ofCodes (memory : σ) (codes : Fin n → Code σ ν) : Pool n σ ν where
  world := { memory, threads := n }
  threads i := .ofCode i.val (codes i)

def move (pool : Pool n σ ν) (i : Fin n) : Pool n σ ν :=
  match (pool.threads i).step pool.world with
  | some (next, after) => ⟨next, Function.update pool.threads i after⟩
  | none => pool

/-- Lets the threads move in the order of a schedule; one that cannot go on is passed over. -/
def follow (pool : Pool n σ ν) (schedule : List (Fin n)) : Pool n σ ν :=
  schedule.foldl move pool

theorem follow_rule (invariant : Pool n σ ν → Prop)
    (preserved : ∀ (pool : Pool n σ ν) i next after, invariant pool →
      (pool.threads i).step pool.world = some (next, after) →
        invariant ⟨next, Function.update pool.threads i after⟩)
    {pool : Pool n σ ν} (start : invariant pool) (schedule : List (Fin n)) :
    invariant (pool.follow schedule) := by
  induction schedule generalizing pool with
  | nil => exact start
  | cons i rest ih =>
      apply ih
      unfold move
      split
      · next next after action => exact preserved pool i next after start action
      · exact start

def sum {α : Type} (data : Thread σ ν → List α) (pool : Pool n σ ν) : Multiset α :=
  ∑ i, (data (pool.threads i) : Multiset α)

theorem mem_sum {α : Type} {data : Thread σ ν → List α} {pool : Pool n σ ν} {a : α} :
    a ∈ pool.sum data ↔ ∃ i, a ∈ data (pool.threads i) := by
  simp [sum, Multiset.mem_sum]

theorem sum_split {α : Type} (data : Thread σ ν → List α) (pool : Pool n σ ν) (i : Fin n) :
    ∃ others : List α, pool.sum data = ↑(data (pool.threads i) ++ others) ∧
      ∀ next after, sum data ⟨next, Function.update pool.threads i after⟩ =
        ↑(data after ++ others) := by
  obtain ⟨others, same⟩ : ∃ others : List α,
      (others : Multiset α) = ∑ j ∈ Finset.univ.erase i, (data (pool.threads j) : Multiset α) :=
    Quot.exists_rep _
  refine ⟨others, ?_, fun next after => ?_⟩
  · rw [← Multiset.coe_add]
    refine (Finset.add_sum_erase _ _ (Finset.mem_univ i)).symm.trans ?_
    exact congrArg _ same.symm
  · rw [sum, ← Finset.add_sum_erase _ _ (Finset.mem_univ i), ← Multiset.coe_add]
    simp only [Function.update_self]
    refine congrArg _ (Eq.trans ?_ same.symm)
    refine Finset.sum_congr rfl fun j other => ?_
    simp only [Function.update_of_ne (Finset.ne_of_mem_erase other)]

end Pool

/-! ## Who has what -/

theorem World.not_mem_of_free {world : World σ ν} {lock : Lock} (free : world.free lock = true) :
    lock ∉ world.locks.map Prod.fst := by
  intro taken
  obtain ⟨entry, member, rfl⟩ := List.mem_map.mp taken
  have unequal := List.all_eq_true.mp free entry member
  simp at unequal

/-- The locks of the world are those that threads have taken, each taken once. -/
def Accounted (world : World σ ν) (held : List (Lock × ThreadId)) : Prop :=
  world.locks.Perm held ∧ (held.map Prod.fst).Nodup

theorem Accounted.perm {world : World σ ν} {held others : List (Lock × ThreadId)}
    (accounted : Accounted world held) (same : held.Perm others) : Accounted world others :=
  ⟨accounted.1.trans same, (same.map Prod.fst).nodup_iff.mp accounted.2⟩

theorem Latches.accounted {id : ThreadId} {world next : World σ ν} {before kept : List Lock}
    {rest : List (Lock × ThreadId)} (latches : Latches id world next before kept)
    (accounted : Accounted world (before.map (·, id) ++ rest)) :
    Accounted next (kept.map (·, id) ++ rest) := by
  obtain ⟨same, once⟩ := accounted
  cases latches with
  | keeps kept => exact ⟨kept ▸ same, once⟩
  | takes free taken =>
      rw [Accounted, taken]
      refine ⟨same.cons _, List.nodup_cons.mpr ⟨?_, once⟩⟩
      exact fun held => World.not_mem_of_free free ((same.map Prod.fst).mem_iff.mpr held)
  | @gives _ lock given =>
      obtain ⟨gone, once⟩ := List.nodup_cons.mp once
      refine ⟨?_, once⟩
      rw [given]
      refine (same.filter _).trans (List.Perm.of_eq ?_)
      rw [List.map_cons, List.cons_append, List.filter_cons_of_neg (by simp)]
      refine List.filter_eq_self.mpr fun entry member => decide_eq_true ?_
      rintro rfl
      exact gone (List.mem_map.mpr ⟨entry, member, rfl⟩)

theorem mem_ids_of_keepers {s : SlotId} {owner : ThreadId} (id : ThreadId)
    {stack : List (Frame σ ν)} (keeps : owner ∈ keepers s id stack) :
    owner ∈ id :: stack.filterMap Frame.starter? := by
  induction stack generalizing id with
  | nil => contradiction
  | cons frame rest ih =>
      rcases List.mem_append.mp keeps with here | below
      · rw [List.eq_of_mem_replicate here]
        exact .head _
      · exact Frame.mem_ids (ih _ below)

theorem Thread.mem_ids_of_keepers {thread : Thread σ ν} {s : SlotId} {owner : ThreadId}
    (keeps : owner ∈ thread.keepers s) : owner ∈ thread.ids := by
  rcases List.mem_append.mp keeps with here | below
  · rw [List.eq_of_mem_replicate here]
    exact .head _
  · exact Relinquish.mem_ids_of_keepers thread.id below

/-- What the world says of locks, slots and threads is what the threads of a pool have. -/
structure Pool.Coherent (pool : Pool n σ ν) : Prop where
  locks : ∃ held : List (Lock × ThreadId), pool.sum Thread.takings = ↑held ∧ Accounted pool.world held
  owned : ∀ s, ∃ keepers : List ThreadId, pool.sum (Thread.keepers · s) = ↑keepers ∧
    Owned (pool.world.entry s).entered keepers
  distinct : (pool.sum Thread.ids).Nodup
  made : ∀ id ∈ pool.sum Thread.ids, id < pool.world.threads

namespace Pool.Coherent

variable {pool : Pool n σ ν} {i : Fin n} {next : World σ ν} {after : Thread σ ν} {lock : Lock}

theorem step_ids (coherent : Coherent pool)
    (action : (pool.threads i).step pool.world = some (next, after)) :
    (sum Thread.ids ⟨next, Function.update pool.threads i after⟩).Nodup ∧
      ∀ id ∈ sum Thread.ids ⟨next, Function.update pool.threads i after⟩, id < next.threads := by
  obtain ⟨others, earlier, later⟩ := pool.sum_split Thread.ids i
  have distinct := coherent.distinct
  have made := coherent.made
  simp only [earlier, Multiset.coe_nodup, Multiset.mem_coe] at distinct made
  simp only [later, Multiset.coe_nodup, Multiset.mem_coe]
  rcases Thread.step_ids action with ⟨⟨ended, same⟩, kept⟩ | ⟨started, more⟩
  · have fewer : (after.ids ++ others).Sublist ((pool.threads i).ids ++ others) := by
      rw [← same, List.append_assoc]
      exact List.sublist_append_right _ _
    rw [kept]
    exact ⟨distinct.sublist fewer, fun id member => made id (fewer.subset member)⟩
  · -- The id of a thread that is started is above all ids so far.
    rw [started, more, List.cons_append]
    constructor
    · apply List.nodup_cons.mpr
      exact ⟨fun old => absurd (made _ old) (Nat.lt_irrefl _), distinct⟩
    · exact List.forall_mem_cons.mpr
        ⟨Nat.lt_succ_self _, fun id member => Nat.lt_succ_of_lt (made id member)⟩

theorem step (coherent : Coherent pool)
    (action : (pool.threads i).step pool.world = some (next, after)) :
    Coherent ⟨next, Function.update pool.threads i after⟩ := by
  have ids := coherent.step_ids action
  refine ⟨?_, fun s => ?_, ids.1, ids.2⟩
  · obtain ⟨others, earlier, later⟩ := pool.sum_split Thread.takings i
    obtain ⟨before, kept, rest, had, has, latches⟩ := Thread.step_takings action
    obtain ⟨held, total, accounted⟩ := coherent.locks
    rw [earlier, had, Multiset.coe_eq_coe, List.append_assoc] at total
    refine ⟨after.takings ++ others, later next after, ?_⟩
    rw [has, List.append_assoc]
    exact latches.accounted (accounted.perm total.symm)
  · obtain ⟨others, earlier, later⟩ := pool.sum_split (Thread.keepers · s) i
    obtain ⟨before, kept, rest, had, has, passes⟩ := Thread.step_passes action
    obtain ⟨keepers, total, owned⟩ := coherent.owned s
    rw [earlier, had, Multiset.coe_eq_coe, List.append_assoc] at total
    refine ⟨after.keepers s ++ others, later next after, ?_⟩
    rw [has, List.append_assoc]
    exact passes.owned (owned.perm total.symm)

theorem ofCodes (memory : σ) (codes : Fin n → Code σ ν) : Coherent (.ofCodes memory codes) := by
  have none {α : Type} {data : Thread σ ν → List α}
      (empty : ∀ id code, data (.ofCode id code) = []) :
      Pool.sum data (.ofCodes memory codes) = 0 :=
    Finset.sum_eq_zero fun i _ => by
      rw [Pool.ofCodes, empty]
      rfl
  have ids : Pool.sum Thread.ids (.ofCodes memory codes) =
      (Finset.univ.val : Multiset (Fin n)).map Fin.val := by
    refine Eq.trans ?_ (Multiset.sum_map_singleton _)
    rw [Multiset.map_map]
    rfl
  refine ⟨⟨[], none fun _ _ => rfl, .nil, .nil⟩, fun s => ⟨[], none fun _ _ => rfl, rfl⟩, ?_, ?_⟩
  · rw [ids]
    exact Finset.univ.nodup.map Fin.val_injective
  · intro id member
    obtain ⟨i, same⟩ := mem_sum.mp member
    rw [List.mem_singleton.mp same]
    exact i.isLt

theorem follow (memory : σ) (codes : Fin n → Code σ ν) (schedule : List (Fin n)) :
    Coherent ((Pool.ofCodes memory codes).follow schedule) :=
  follow_rule Coherent (fun _ _ _ _ coherent action => coherent.step action)
    (ofCodes memory codes) schedule

theorem apart (coherent : Coherent pool) {j : Fin n} {id : ThreadId}
    (one : id ∈ (pool.threads i).ids) (other : id ∈ (pool.threads j).ids) : j = i := by
  by_contra different
  have distinct := coherent.distinct
  rw [sum, ← Finset.add_sum_erase _ _ (Finset.mem_univ i)] at distinct
  refine Multiset.disjoint_left.mp (Multiset.nodup_add.mp distinct).2.2 one ?_
  exact Multiset.mem_sum.mpr ⟨j, Finset.mem_erase.mpr ⟨different, Finset.mem_univ j⟩, other⟩

theorem mem_locks (coherent : Coherent pool) {entry : Lock × ThreadId} :
    entry ∈ pool.world.locks ↔ ∃ j, entry ∈ (pool.threads j).takings := by
  obtain ⟨held, total, accounted⟩ := coherent.locks
  rw [accounted.1.mem_iff, ← mem_sum, total, Multiset.mem_coe]

theorem mem_locks_own (coherent : Coherent pool) :
    (lock, (pool.threads i).id) ∈ pool.world.locks ↔
      (lock, (pool.threads i).id) ∈ (pool.threads i).takings := by
  rw [coherent.mem_locks]
  constructor
  · rintro ⟨j, takes⟩
    obtain rfl := coherent.apart (.head _) (Thread.mem_ids_of_takings takes)
    exact takes
  · exact fun takes => ⟨i, takes⟩

theorem ids_nodup (coherent : Coherent pool) (i : Fin n) : (pool.threads i).ids.Nodup := by
  have distinct := coherent.distinct
  rw [sum, ← Finset.add_sum_erase _ _ (Finset.mem_univ i)] at distinct
  exact Multiset.coe_nodup.mp (Multiset.nodup_add.mp distinct).1

theorem mem_ids_of_waits (coherent : Coherent pool) {owner : ThreadId}
    (waits : (pool.threads i).WaitsFor pool.world owner) :
    ∃ j, owner ∈ (pool.threads j).ids := by
  cases waits with
  | lock _ _ taken =>
      obtain ⟨j, takes⟩ := coherent.mem_locks.mp taken
      exact ⟨j, Thread.mem_ids_of_takings takes⟩
  | @entry s depth _ entered _ =>
      obtain ⟨keepers, total, owned⟩ := coherent.owned s
      have same : (pool.world.entry s).entered = some (owner, depth) := entered
      rw [same] at owned
      obtain ⟨positive, rfl⟩ := owned
      have keeps : owner ∈ pool.sum (Thread.keepers · s) := by
        rw [total]
        exact List.mem_replicate.mpr ⟨Nat.ne_of_gt positive, rfl⟩
      obtain ⟨j, keeps⟩ := mem_sum.mp keeps
      exact ⟨j, Thread.mem_ids_of_keepers keeps⟩

end Pool.Coherent

/-! ## Predicates of kinds -/

/-- The thread runs the predicate of a kind, and holds the lock of the registry that has it. -/
def Thread.Asks (thread : Thread σ ν) (lock : Lock) : Prop :=
  ∃ selection error place rest places,
    .judging selection error place rest places ∈ thread.segment ∧ selection.lock = lock

theorem Thread.asks_iff {thread : Thread σ ν} {lock : Lock} :
    thread.Asks lock ↔ lock ∈ thread.segment.flatMap Frame.locks := by
  rw [List.mem_flatMap]
  constructor
  · rintro ⟨selection, error, place, rest, places, member, rfl⟩
    exact ⟨_, member, .head _⟩
  · rintro ⟨frame, member, locked⟩
    cases frame <;> try contradiction
    rw [List.mem_singleton.mp locked]
    exact ⟨_, _, _, _, _, member, rfl⟩

theorem mem_takings_own {id : ThreadId} {lock : Lock} {stack : List (Frame σ ν)}
    (different : id ∉ stack.filterMap Frame.starter?) :
    (lock, id) ∈ takings id stack ↔
      ∃ frame ∈ stack.takeWhile fun frame => frame.starter?.isNone, lock ∈ frame.locks := by
  induction stack with
  | nil => simp [takings]
  | cons frame rest ih =>
      cases starter : frame.starter? with
      | none =>
          rw [List.filterMap_cons, starter] at different
          simp [takings, starter, ih different]
      | some other =>
          rw [List.filterMap_cons, starter] at different
          have none : (lock, id) ∉ takings other rest := fun takes =>
            different (mem_ids_of_takings other takes)
          cases frame <;> simp only [Frame.starter?, reduceCtorEq, Option.some.injEq] at starter
          subst starter
          simpa [takings, Frame.locks, Frame.starter?] using none

theorem Thread.mem_takings {thread : Thread σ ν} {lock : Lock} (different : thread.ids.Nodup)
    (unlocked : thread.control.locks = []) :
    (lock, thread.id) ∈ thread.takings ↔ thread.Asks lock := by
  rw [takings, unlocked, asks_iff, List.mem_flatMap]
  exact mem_takings_own (List.nodup_cons.mp different).1

theorem Task.locks_of_awaits {world : World σ ν} {task : Task σ ν} {lock : Lock}
    (awaited : lock ∈ task.awaits world) : task.locks = [] := by
  cases task <;> first | rfl | contradiction

/-! ## What threads wait for -/

/-- What a thread of a pool holds, and what it can be waiting for. -/
structure Pool.Unhindered (pool : Pool n σ ν) (i : Fin n) : Prop where
  /-- While user code runs, the thread holds no lock but those of registries of which it asks kinds. -/
  unlocked : ∀ code, (pool.threads i).control = .code code → ∀ lock,
    (lock, (pool.threads i).id) ∈ pool.world.locks ↔ (pool.threads i).Asks lock
  /-- A thread that is not at its end goes on, or waits for a thread of the pool. -/
  goes : (pool.threads i).step pool.world = none → (pool.threads i).exit? = none →
    ∃ owner, (pool.threads i).WaitsFor pool.world owner ∧ ∃ j, owner ∈ (pool.threads j).ids
  /-- It waits for itself only where it needs a lock while it asks a kind under that lock. -/
  itself : (pool.threads i).WaitsFor pool.world (pool.threads i).id ↔
    ∃ task lock, (pool.threads i).control = .task task ∧ lock ∈ task.awaits pool.world ∧
      (pool.threads i).Asks lock
  /-- Within the initializer of a slot the value of the slot is refused. -/
  refuses : (∀ j, j = i) → ∀ (s : SlotId) (call : Call σ ν), call.Gets s →
    (pool.threads i).control = .task (.start call) → 0 < (pool.world.slot s).handles →
      .initializing s ∈ (pool.threads i).segment →
        Thread.Works pool.world (pool.threads i)
          (pool.world.act (.lookedUp s (.refused .reentrant)))
          ⟨(pool.threads i).id, .task (.finish (.refused .reentrant)), (pool.threads i).stack⟩

theorem Pool.follow_alone (pool : Pool n σ ν) {i : Fin n} (alone : ∀ j, j = i)
    (schedule : List (Fin n)) :
    Thread.Reaches pool.world (pool.threads i) (pool.follow schedule).world
      ((pool.follow schedule).threads i) := by
  refine follow_rule
    (fun reached => Thread.Reaches pool.world (pool.threads i) reached.world (reached.threads i))
    (fun reached j next after run action => ?_) (.refl _ _) schedule
  obtain rfl := alone j
  simpa only [Function.update_self] using run.snoc action

theorem Pool.regular_alone (memory : σ) (codes : Fin n → Code σ ν) {i : Fin n}
    (alone : ∀ j, j = i) (schedule : List (Fin n)) :
    Regular ((ofCodes memory codes).follow schedule).world
      (((ofCodes memory codes).follow schedule).threads i) := by
  have single : n = 1 := by
    have last := congrArg Fin.val (alone ⟨n - 1, Nat.sub_one_lt_of_lt i.isLt⟩)
    have first := congrArg Fin.val (alone ⟨0, Nat.zero_lt_of_lt i.isLt⟩)
    simp only at first last
    omega
  subst single
  have run : Thread.Reaches { memory } (.ofCode i.val (codes i)) _ _ :=
    follow_alone (ofCodes memory codes) alone schedule
  obtain ⟨steps, run⟩ := run
  have regular := Regular.advance memory i.val (codes i) steps
  rwa [run] at regular

theorem Pool.Coherent.waits_itself {pool : Pool n σ ν} {i : Fin n} (coherent : Coherent pool) :
    (pool.threads i).WaitsFor pool.world (pool.threads i).id ↔
      ∃ task lock, (pool.threads i).control = .task task ∧ lock ∈ task.awaits pool.world ∧
        (pool.threads i).Asks lock := by
  have asks {task : Task σ ν} {lock : Lock} (works : (pool.threads i).control = .task task)
      (awaited : lock ∈ task.awaits pool.world) :
      (lock, (pool.threads i).id) ∈ pool.world.locks ↔ (pool.threads i).Asks lock := by
    have unlocked : (pool.threads i).control.locks = [] := by
      rw [works]
      exact Task.locks_of_awaits awaited
    rw [coherent.mem_locks_own, Thread.mem_takings (coherent.ids_nodup i) unlocked]
  constructor
  · rintro (⟨works, awaited, taken⟩ | ⟨_, _, other⟩)
    · exact ⟨_, _, works, awaited, (asks works awaited).mp taken⟩
    · exact absurd rfl other
  · rintro ⟨task, lock, works, awaited, asked⟩
    exact .lock works awaited ((asks works awaited).mpr asked)

/-- Whatever code threads run, and in whatever order their steps come, none of them holds a lock
while it runs code, or waits for itself, but within the predicates of kinds. -/
theorem Pool.threads_unhindered (memory : σ) (codes : Fin n → Code σ ν) (schedule : List (Fin n))
    (i : Fin n) : Unhindered ((ofCodes memory codes).follow schedule) i := by
  have coherent := Coherent.follow memory codes schedule
  constructor
  case unlocked =>
    intro code runs lock
    rw [coherent.mem_locks_own]
    apply Thread.mem_takings (coherent.ids_nodup i)
    rw [runs]
    rfl
  case goes =>
    intro stuck unended
    rcases Thread.step_eq_none.mp stuck with ⟨exit, ended⟩ | ⟨owner, waits⟩
    · rw [unended] at ended
      contradiction
    · exact ⟨owner, waits, coherent.mem_ids_of_waits waits⟩
  case itself => exact coherent.waits_itself
  case refuses =>
    intro alone s call gets starts handles runs
    exact (regular_alone memory codes alone schedule).refuses gets starts handles runs

/-- An error handler registers with the slot whose failure it handles; a second thread looks at it. -/
def Code.registerWithin : Fin 2 → Code Unit Unit
  | 0 =>
      .call (.newSlot (fun _ => .ret .done) (.ret (.failed (.text "failure")))) fun _ =>
        .call (.callOnError 0 .any fun _ =>
          .call (.dropOnError 0 .any (.action (.ret .done))) .ret) fun _ =>
            .call (.getValue 0) .ret
  | 1 => .call (.inspectSlot 0) .ret

/-- While the failure is matched, the other thread waits; when the handler runs, nothing is locked. -/
theorem Pool.threads_unhindered_registerWithin :
    let first := List.replicate 16 0 ++ [1, 1]
    let matching := (ofCodes () Code.registerWithin).follow first
    let handling := (ofCodes () Code.registerWithin).follow (first ++ List.replicate 6 0)
    (matching.threads 1).WaitsFor matching.world 0 ∧
      ¬ (matching.threads 1).WaitsFor matching.world 1 ∧
      (∃ code, (handling.threads 0).control = .code code) ∧
      ∀ lock, (lock, 0) ∉ handling.world.locks := by
  intro first matching handling
  have waits := (threads_unhindered () Code.registerWithin first 1).itself
  have unlocked := (threads_unhindered () Code.registerWithin (first ++ List.replicate 6 0) 0).unlocked
  refine ⟨.lock rfl (.tail _ (.head _)) (.head _), fun itself => ?_, ⟨_, rfl⟩, fun lock taken => ?_⟩
  · obtain ⟨_, lock, _, _, asks⟩ := waits.mp itself
    rw [Thread.asks_iff] at asks
    contradiction
  · have asks := (unlocked _ rfl lock).mp taken
    rw [Thread.asks_iff] at asks
    contradiction

def Code.inspectAsking : Code Unit Unit :=
  .call (.newSlot (fun _ => .ret .done) (.ret (.failed (.text "failure")))) fun _ =>
    .call (.dropOnError 0 (.matching "inspecting" fun _ => .call (.inspectSlot 0) .ret)
      (.action (.ret .done))) fun _ => .call (.getValue 0) .ret

/-- The predicate is run with the links locked, so the thread waits for itself for ever. -/
theorem Code.inspectAsking_stuck :
    let asking := Thread.advance 17 { memory := () } (.ofCode 0 inspectAsking)
    let stuck := Thread.advance 18 { memory := () } (.ofCode 0 inspectAsking)
    (∃ code, asking.2.control = .code code) ∧ (.links 0, asking.2.id) ∈ asking.1.locks ∧
      stuck.2.WaitsFor stuck.1 stuck.2.id ∧
      ∀ steps, (Thread.advance steps stuck.1 stuck.2).2.exit? = none := by
  refine ⟨⟨_, rfl⟩, .head _, .lock rfl (.tail _ (.head _)) (.head _), fun steps => ?_⟩
  cases steps <;> rfl

end Relinquish
