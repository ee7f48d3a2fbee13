import Relinquish.Proofs.Deeds
import Relinquish.Proofs.Errands

/-!
Pools of threads. The threads of a pool each get or drop the value of one slot, their steps in any
order.
-/

namespace Relinquish

variable {σ ν : Type} {n : Nat}

structure Pool (n : Nat) (σ ν : Type) where
  world : World σ ν
  threads : Fin n → Thread σ ν

namespace Pool

def start (s : SlotId) (errands : Fin n → Errand) (world : World σ ν) : Pool n σ ν where
  world := world
  threads i := .ofCode i.val (.call ((errands i).call s) .ret)

/-- One thread makes a step; code that the slot runs spares the slot. -/
inductive Step (s : SlotId) (pool : Pool n σ ν) : Pool n σ ν → Prop
  | step (i : Fin n) {next : World σ ν} {after : Thread σ ν}
      (action : (pool.threads i).step pool.world = some (next, after))
      (spares : (pool.threads i).Serves s → pool.world.Spares s next) :
      Step s pool ⟨next, Function.update pool.threads i after⟩

inductive Runs (s : SlotId) (pool : Pool n σ ν) : Pool n σ ν → Prop
  | refl : Runs s pool pool
  | step {reached next : Pool n σ ν} (run : Runs s pool reached) (step : Step s reached next) :
      Runs s pool next

theorem Runs.advance {s : SlotId} {pool reached : Pool n σ ν} (run : Runs s pool reached) (i : Fin n)
    (steps : Nat)
    (idle : ∀ k < steps, ¬ (Thread.advance k reached.world (reached.threads i)).2.Serves s) :
    let last := Thread.advance steps reached.world (reached.threads i)
    Runs s pool ⟨last.1, Function.update reached.threads i last.2⟩ := by
  induction steps with
  | zero => simpa only [Thread.advance, Function.update_eq_self] using run
  | succ steps ih =>
      have run := ih fun k earlier => idle k (Nat.lt_succ_of_lt earlier)
      have idle := idle steps (Nat.lt_succ_self steps)
      rw [Thread.advance_add]
      generalize Thread.advance steps reached.world (reached.threads i) = before at run idle
      obtain ⟨middle, thread⟩ := before
      cases action : thread.step middle with
      | none => simpa only [Thread.advance, action] using run
      | some after =>
          have step : Step s ⟨middle, Function.update reached.threads i thread⟩
              ⟨after.1, Function.update (Function.update reached.threads i thread) i after.2⟩ := by
            refine .step i ?_ ?_
            · simpa only [Function.update_self] using action
            · simpa only [Function.update_self] using fun serves => absurd serves idle
          rw [Function.update_idem] at step
          simpa only [Thread.advance, action] using run.step step

end Pool

/-- Nobody is about to get or to drop the slot's value, and user code has a handle of it. -/
structure World.Calm (world : World σ ν) (s : SlotId) : Prop where
  handles : 0 < (world.slot s).handles
  undropped : (world.slot s).dropped = false
  initializing : (world.slot s).initializing = false
  entered : (world.slot s).entered = none
  free : world.free (.value s) = true

theorem World.Calm.shared {world : World σ ν} {s : SlotId} (calm : world.Calm s)
    (errands : Fin n → Errand) :
    Shared s errands (world.slot s).value (world.cell s) (fun _ => .away) [] := by
  have initializing : (world.cell s).initializing = false := calm.initializing
  have entered : (world.cell s).entered = none := calm.entered
  have undropped : (world.cell s).dropped = false := calm.undropped
  have away : ∀ i : Fin n, ((fun _ => Spot.away) i).load = none := fun _ => rfl
  refine ⟨⟨nofun, ?_, nofun, nofun, fun _ => initializing⟩, ⟨nofun, nofun, ?_, nofun⟩,
    ⟨?_, nofun, nofun, nofun, ?_⟩⟩
  · intro i depth owned
    exact absurd (entered.symm.trans owned) nofun
  · intro dropped
    exact absurd (undropped.symm.trans dropped) nofun
  · cases held : (world.slot s).value with
    | none => exact .unborn held away
    | some value => exact .stored held away
  · change 0 = 0 + if (world.cell s).initializing then 1 else 0
    rw [initializing]
    rfl

def Pool.Sound (s : SlotId) (errands : Fin n → Errand) (world : World σ ν)
    (pool : Pool n σ ν) : Prop :=
  ∃ (spots : Fin n → Spot) (deeds : List Deed),
    (∀ i, Stands s i.val (errands i) (spots i) (pool.threads i)) ∧
    pool.world.deeds s = deeds ++ world.deeds s ∧ 0 < (pool.world.cell s).handles ∧
    Shared s errands (world.slot s).value (pool.world.cell s) spots deeds

namespace Pool.Sound

variable {s : SlotId} {errands : Fin n → Errand} {world : World σ ν}

theorem start (calm : world.Calm s) : Sound s errands world (.start s errands world) :=
  ⟨fun _ => .away, [], fun i => .calls (errands i), rfl, calm.handles, calm.shared errands⟩

theorem step {pool next : Pool n σ ν} (sound : Sound s errands world pool)
    (step : Pool.Step s pool next) : Sound s errands world next := by
  obtain ⟨spots, deeds, stands, ledger, handles, shared⟩ := sound
  obtain ⟨i, action, spares⟩ := step
  -- Only the thread that moves gets to another spot; what it does is a transit of the shared cell.
  obtain ⟨more, there, stands', transit, added⟩ := (stands i).step handles spares action
  refine ⟨Function.update spots i there, more ++ deeds, ?_, ?_, ?_, ?_⟩
  · intro j
    by_cases other : j = i
    · subst other
      simpa only [Function.update_self] using stands'
    · simpa only [Function.update_of_ne other] using stands j
  · rw [added, ledger, List.append_assoc]
  · rwa [transit.handles]
  · apply shared.step (fun j other => Function.update_of_ne other _ _)
    simpa only [Function.update_self] using transit

theorem runs {pool : Pool n σ ν} (calm : world.Calm s)
    (run : Pool.Runs s (.start s errands world) pool) : Sound s errands world pool := by
  induction run with
  | refl => exact start calm
  | step run step ih => exact ih.step step

end Pool.Sound

/-! ## The value of a slot that threads share -/

theorem Stands.done_of_exit {s : SlotId} {id : ThreadId} {errand : Errand} {spot : Spot}
    {thread : Thread σ ν} {exit : Exit} (stands : Stands s id errand spot thread)
    (ended : thread.exit? = some exit) : spot = .done exit := by
  have emptied : thread.stack = [] := by rw [Thread.exit?_eq_some ended]
  cases stands with
  | runs inner | runsLate value inner | runsReaction reacts inner | releases value inner =>
      exact absurd emptied (List.append_ne_nil_of_right_ne_nil _ (List.cons_ne_nil _ _))
  | ends ending => rw [ending.exit ended]
  | _ => contradiction

/-- What the next step of a thread adds to the ledger about initializers and drop handlers is what it
does. -/
def Pool.Honest (pool : Pool n σ ν) : Prop :=
  ∀ i next after, (pool.threads i).step pool.world = some (next, after) →
    (pool.threads i).Honest pool.world next after

structure Pool.Settles (s : SlotId) (errands : Fin n → Errand) (world : World σ ν)
    (pool : Pool n σ ν) (deeds : List Deed) : Prop where
  ledger : pool.world.deeds s = deeds ++ world.deeds s
  honest : pool.Honest
  runs : deeds.count (.began s) ≤ deeds.count (.ended s) + 1
  entered : (entries (world.slot s).value deeds).length ≤ 1
  released : (releases deeds).length ≤ 1
  agreed : ∀ i j value other, (pool.threads i).exit? = some (.returned (.value value)) →
    (pool.threads j).exit? = some (.returned (.value other)) → value = other
  /-- Once all calls have returned and there was a drop, the value has been released. -/
  settled : (∀ i, (pool.threads i).exit?.isSome) → (∃ i, errands i = .drop) →
    (pool.world.slot s).value = none ∧ releases deeds = entries (world.slot s).value deeds

namespace Fate

variable {cell : Cell} {spots : Fin n → Spot} {born released : List Value}

theorem born_le_one (fate : Fate cell spots born released) : born.length ≤ 1 := by
  cases fate <;> simp

theorem released_le_one (fate : Fate cell spots born released) : released.length ≤ 1 := by
  cases fate <;> simp

theorem agreed (fate : Fate cell spots born released) {value other : Value} (one : value ∈ born)
    (another : other ∈ born) : value = other := by
  cases fate with
  | unborn => contradiction
  | carried | stored | released =>
      rw [List.mem_singleton] at one another
      rw [one, another]

theorem settled (fate : Fate cell spots born released) (empty : cell.value = none)
    (unladen : ∀ i, (spots i).load = none) : released = born := by
  cases fate with
  | unborn | released => rfl
  | carried i _ laden _ =>
      rw [unladen i] at laden
      contradiction
  | stored held _ =>
      rw [empty] at held
      contradiction

end Fate

theorem Pool.Sound.settles {s : SlotId} {errands : Fin n → Errand} {world : World σ ν}
    {pool : Pool n σ ν} (sound : Sound s errands world pool) :
    ∃ deeds, pool.Settles s errands world deeds := by
  obtain ⟨spots, deeds, stands, ledger, -, shared⟩ := sound
  have fate := shared.recorded.fate
  have listed : ∀ i value, (pool.threads i).exit? = some (.returned (.value value)) →
      value ∈ entries (world.slot s).value deeds := by
    intro i value ended
    apply shared.recorded.results i value
    rw [(stands i).done_of_exit ended]
    rfl
  refine ⟨deeds, ledger, fun _ _ _ => Thread.step_honest, ?_, fate.born_le_one, fate.released_le_one,
    ?_, ?_⟩
  · rw [shared.recorded.runs]
    split <;> omega
  · intro i j value other one another
    exact fate.agreed (listed i value one) (listed j other another)
  · intro returned dropper
    obtain ⟨d, errand⟩ := dropper
    have done : ∀ i, ∃ exit, spots i = .done exit := fun i =>
      have ⟨exit, ended⟩ := Option.isSome_iff_exists.mp (returned i)
      ⟨exit, (stands i).done_of_exit ended⟩
    have untaken : ∀ i, spots i ≠ .taking := fun i => by
      obtain ⟨exit, done⟩ := done i
      rw [done]
      exact nofun
    have unladen : ∀ i, (spots i).load = none := fun i => by
      obtain ⟨exit, done⟩ := done i
      rw [done]
      rfl
    have past : (spots d).Past := by
      obtain ⟨exit, done⟩ := done d
      rw [done]
      trivial
    have empty := (shared.watched.emptied (shared.watched.dropper d errand past) untaken).1
    exact ⟨empty, fate.settled empty unladen⟩

/-- Whatever threads each get or drop the value of one slot, and in whatever order their steps come:
the initializer is run by one thread at a time and succeeds at most once, all gettings that yield a
value yield the same one, and it is released at most once; when all are done and there was a drop,
it has been released. -/
theorem Pool.value_settled {s : SlotId} {errands : Fin n → Errand} {world : World σ ν}
    {pool : Pool n σ ν} (calm : world.Calm s) (run : Runs s (.start s errands world) pool) :
    ∃ deeds, pool.Settles s errands world deeds :=
  (Sound.runs calm run).settles

def World.withSlot : World Unit Unit where
  memory := ()
  slots := Table.push {}
    { release := fun _ => .ret .done, initializer := .ret (.text "value"), handles := 2 }

def Errand.getAndDrop : Fin 2 → Errand
  | 0 => get
  | 1 => drop

theorem Pool.value_settled_late :
    ∃ pool deeds, Pool.Settles 0 Errand.getAndDrop World.withSlot pool deeds ∧
      (∀ i, (pool.threads i).exit?.isSome) ∧ releases deeds = [⟨0, "value"⟩] := by
  have calm : World.withSlot.Calm 0 := ⟨by decide, rfl, rfl, rfl, rfl⟩
  have run : Runs 0 (.start 0 Errand.getAndDrop World.withSlot) _ := .refl
  have run := run.advance 0 6 (by decide)
  have run := run.advance 1 9 (by decide)
  have run := run.step (.step 0 rfl fun _ => ⟨rfl, rfl, rfl⟩)
  have run := run.advance 0 6 (by decide)
  have run := run.step (.step 0 rfl fun _ => ⟨rfl, rfl, rfl⟩)
  have run := run.advance 0 7 (by decide)
  obtain ⟨deeds, settles⟩ := value_settled calm run
  refine ⟨_, deeds, settles, fun i => ?_, ?_⟩
  · match i with
    | 0 | 1 => rfl
  · rw [← List.append_nil deeds]
    exact congrArg releases settles.ledger.symm

end Relinquish
