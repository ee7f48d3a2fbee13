import Relinquish.Proofs.Ledger
import Mathlib.Logic.Function.Basic

/-!
Threads that share a slot. Each thread gets or drops the slot's value once; of a thread only its
spot on the way is kept, and of the world only what the threads agree by. The invariant relates
the two, for any number of threads.
-/

namespace Relinquish

inductive Errand where
  | get
  | drop
  deriving DecidableEq

inductive Sequel where
  | ending (exit : Exit)
  | late (value : Value)
  | reacting

inductive Spot where
  | away
  | inside
  | vacant
  | running
  | carrying (value : Value)
  | confirming (value : Value)
  | storing (value : Value)
  | unlocking (sequel : Sequel)
  | leaving (sequel : Sequel)
  | late (value : Value)
  | taking
  | releasing
  | done (exit : Exit)

structure Cell where
  dropped : Bool
  value : Option Value
  initializing : Bool
  entered : Option (ThreadId × Nat)
  holders : List ThreadId
  handles : Nat

def Cell.left (cell : Cell) : Cell :=
  { cell with
    entered := cell.entered.bind fun (owner, depth) =>
      if depth ≤ 1 then none else some (owner, depth - 1) }

/-- The steps of a thread on its errand at a slot, and what they add to the ledger. -/
inductive Transit (s : SlotId) (id : ThreadId) :
    Errand → Cell → Spot → List Deed → Cell → Spot → Prop
  | rest {errand : Errand} {cell : Cell} {spot : Spot} : Transit s id errand cell spot [] cell spot
  | found {cell : Cell} {value : Value} (held : cell.value = some value) :
      Transit s id .get cell .away [] cell (.done (.returned (.value value)))
  | failed {cell : Cell} {exit : Exit} (fails : ∀ value, exit ≠ .returned (.value value)) :
      Transit s id .get cell .away [] cell (.done exit)
  | enters {cell : Cell} {depth : Nat} {spot : Spot}
      (admits : cell.entered = none ∧ depth = 1 ∨
        ∃ before, cell.entered = some (id, before) ∧ depth = before + 1)
      (goes : cell.initializing = false ∧ spot = .inside ∨
        cell.initializing = true ∧
          spot = .leaving (.ending (.returned (.failed (.drop .reentrant))))) :
      Transit s id .get cell .away [] { cell with entered := some (id, depth) } spot
  | foundInside {cell : Cell} {value : Value} (held : cell.value = some value) :
      Transit s id .get cell .inside [] cell (.leaving (.ending (.returned (.value value))))
  | foundNothing {cell : Cell} (empty : cell.value = none) :
      Transit s id .get cell .inside [] cell .vacant
  | refused {cell : Cell} (dropped : cell.dropped = true) :
      Transit s id .get cell .vacant [] cell
        (.leaving (.ending (.returned (.failed (.drop .dropped)))))
  | begins {cell : Cell} (undropped : cell.dropped = false) :
      Transit s id .get cell .vacant [.began s] { cell with initializing := true } .running
  | fails {cell : Cell} {sequel : Sequel}
      (fails : sequel = .reacting ∨ ∃ payload, sequel = .ending (.panicked payload)) :
      Transit s id .get cell .running [.ended s] { cell with initializing := false }
        (.leaving sequel)
  | produces {cell : Cell} {value : Value} :
      Transit s id .get cell .running [.produced s value, .ended s]
        { cell with initializing := false } (.carrying value)
  | locks {cell : Cell} {value : Value} (free : cell.holders = []) :
      Transit s id .get cell (.carrying value) [] { cell with holders := [id] } (.confirming value)
  | confirms {cell : Cell} {value : Value} (undropped : cell.dropped = false) :
      Transit s id .get cell (.confirming value) [] cell (.storing value)
  | overtaken {cell : Cell} {value : Value} (dropped : cell.dropped = true) :
      Transit s id .get cell (.confirming value) [] cell (.unlocking (.late value))
  | stores {cell : Cell} {value : Value} :
      Transit s id .get cell (.storing value) [] { cell with value := some value }
        (.unlocking (.ending (.returned (.value value))))
  | unlocks {cell : Cell} {sequel : Sequel} :
      Transit s id .get cell (.unlocking sequel) [] { cell with holders := [] } (.leaving sequel)
  | ends {cell : Cell} {exit : Exit} :
      Transit s id .get cell (.leaving (.ending exit)) [] cell.left (.done exit)
  | turnsLate {cell : Cell} {value : Value} :
      Transit s id .get cell (.leaving (.late value)) [] cell.left (.late value)
  | reacts {cell : Cell} :
      Transit s id .get cell (.leaving .reacting) [] cell.left .away
  | handsLate {cell : Cell} {value : Value} :
      Transit s id .get cell (.late value) [.handed s value] cell .away
  | swaps {cell : Cell} (undropped : cell.dropped = false) :
      Transit s id .drop cell .away [] { cell with dropped := true } .taking
  | second {cell : Cell} (dropped : cell.dropped = true) :
      Transit s id .drop cell .away [] cell (.done (.returned .done))
  | takes {cell : Cell} {value : Value} (free : cell.holders = [])
      (held : cell.value = some value) :
      Transit s id .drop cell .taking [.handed s value] { cell with value := none } .releasing
  | misses {cell : Cell} (free : cell.holders = []) (empty : cell.value = none) :
      Transit s id .drop cell .taking [] cell (.done (.returned .done))
  | released {cell : Cell} {exit : Exit} (fails : ∀ value, exit ≠ .returned (.value value)) :
      Transit s id .drop cell .releasing [] cell (.done exit)

/-! ## The invariant -/

namespace Spot

def Inside : Spot → Prop
  | inside | vacant | running | carrying _ | confirming _ | storing _ | unlocking _ | leaving _ =>
      True
  | _ => False

def Holds : Spot → Prop
  | confirming _ | storing _ | unlocking _ => True
  | _ => False

def load : Spot → Option Value
  | carrying value | confirming value | storing value | late value
  | unlocking (.late value) | leaving (.late value) => some value
  | _ => none

def Overtaken : Spot → Prop
  | late _ | unlocking (.late _) | leaving (.late _) => True
  | _ => False

theorem inside_or_overtaken {spot : Spot} {value : Value} (laden : spot.load = some value) :
    spot.Inside ∨ spot.Overtaken := by
  cases spot with
  | late => exact .inr trivial
  | carrying | confirming | storing | unlocking | leaving => exact .inl trivial
  | _ => contradiction

def exit? : Spot → Option Exit
  | done exit | unlocking (.ending exit) | leaving (.ending exit) => some exit
  | _ => none

def Past : Spot → Prop
  | taking | releasing | done _ => True
  | _ => False

end Spot

def Deed.produced? : Deed → Option Value
  | produced _ value => some value
  | _ => none

def Deed.released? : Deed → Option Value
  | handed _ value => some value
  | _ => none

variable {n : Nat}

structure Exclusive (cell : Cell) (spots : Fin n → Spot) : Prop where
  owner : ∀ i, (spots i).Inside → cell.entered = some (i.val, 1)
  entered : ∀ i depth, cell.entered = some (Fin.val i, depth) → (spots i).Inside
  holder : ∀ i, (spots i).Holds → cell.holders = [i.val]
  running : ∀ i, (spots i).Inside → (cell.initializing = true ↔ spots i = .running)
  unset : cell.entered = none → cell.initializing = false

structure Watched (errands : Fin n → Errand) (cell : Cell) (spots : Fin n → Spot) : Prop where
  vacancy : ∀ i, spots i = .vacant → cell.value = none
  overtaken : ∀ i, (spots i).Overtaken → cell.dropped = true
  emptied : cell.dropped = true → (∀ i, spots i ≠ .taking) →
    cell.value = none ∧ ∀ i value, spots i ≠ .storing value
  dropper : ∀ i, errands i = .drop → (spots i).Past → cell.dropped = true

def entries (first : Option Value) (deeds : List Deed) : List Value :=
  first.toList ++ deeds.filterMap Deed.produced?

def releases (deeds : List Deed) : List Value :=
  deeds.filterMap Deed.released?

/-- Where the value is that the slot had at first or that was produced, if there is one. -/
inductive Fate (cell : Cell) (spots : Fin n → Spot) : List Value → List Value → Prop
  | unborn (empty : cell.value = none) (unladen : ∀ i, (spots i).load = none) :
      Fate cell spots [] []
  | carried {value : Value} (i : Fin n) (empty : cell.value = none)
      (laden : (spots i).load = some value) (others : ∀ j, j ≠ i → (spots j).load = none) :
      Fate cell spots [value] []
  | stored {value : Value} (held : cell.value = some value)
      (unladen : ∀ i, (spots i).load = none) : Fate cell spots [value] []
  | released {value : Value} (empty : cell.value = none) (unladen : ∀ i, (spots i).load = none) :
      Fate cell spots [value] [value]

structure Recorded (s : SlotId) (first : Option Value) (cell : Cell) (spots : Fin n → Spot)
    (deeds : List Deed) : Prop where
  fate : Fate cell spots (entries first deeds) (releases deeds)
  unborn : ∀ i, spots i = .running → entries first deeds = []
  gone : releases deeds ≠ [] → cell.dropped = true
  results : ∀ i value, (spots i).exit? = some (.returned (.value value)) →
    value ∈ entries first deeds
  runs : deeds.count (.began s) = deeds.count (.ended s) + if cell.initializing then 1 else 0

section
variable {s : SlotId} {errands : Fin n → Errand} {first : Option Value} {cell next : Cell}
  {spots after : Fin n → Spot} {deeds more : List Deed} {i : Fin n}

theorem Exclusive.apart (exclusive : Exclusive cell spots) {i j : Fin n} (one : (spots i).Inside)
    (other : (spots j).Inside) : i = j := by
  have equal := (exclusive.owner i one).symm.trans (exclusive.owner j other)
  simp only [Option.some.injEq, Prod.mk.injEq, and_true] at equal
  exact Fin.ext equal

theorem Exclusive.left (exclusive : Exclusive cell spots) (inside : (spots i).Inside) :
    cell.left = { cell with entered := none } := by
  rw [Cell.left, exclusive.owner i inside]
  rfl

section
variable {here there : Spot} (at_i : spots i = here) (at_i' : after i = there)
  (others : ∀ j, j ≠ i → after j = spots j)
include at_i at_i' others

theorem Exclusive.same (exclusive : Exclusive cell spots) (entered : next.entered = cell.entered)
    (holders : next.holders = cell.holders) (initializing : next.initializing = cell.initializing)
    (inside : there.Inside ↔ here.Inside) (holds : there.Holds → here.Holds)
    (running : there = .running ↔ here = .running) : Exclusive next after where
  owner j member := by
    rw [entered]
    by_cases other : j = i
    · exact exclusive.owner j (by rwa [other, at_i, ← inside, ← at_i', ← other])
    · exact exclusive.owner j (by rwa [← others j other])
  entered j depth owner := by
    rw [entered] at owner
    have member := exclusive.entered j depth owner
    by_cases other : j = i
    · rwa [other, at_i', inside, ← at_i, ← other]
    · rwa [others j other]
  holder j member := by
    rw [holders]
    by_cases other : j = i
    · exact exclusive.holder j (by rw [other, at_i]; exact holds (by rwa [← at_i', ← other]))
    · exact exclusive.holder j (by rwa [← others j other])
  running j member := by
    rw [initializing]
    by_cases other : j = i
    · rw [other, at_i', running, ← at_i]
      exact exclusive.running i (by rwa [at_i, ← inside, ← at_i', ← other])
    · rw [others j other] at member ⊢
      exact exclusive.running j member
  unset := by
    rw [entered, initializing]
    exact exclusive.unset

theorem Watched.same (watched : Watched errands cell spots) (value : next.value = cell.value)
    (dropped : next.dropped = cell.dropped) (vacant : there = .vacant → cell.value = none)
    (overtaken : there.Overtaken → cell.dropped = true) (taking : here ≠ .taking)
    (storing : ∀ value, there ≠ .storing value)
    (dropper : errands i = .drop → there.Past → cell.dropped = true) :
    Watched errands next after where
  vacancy j member := by
    rw [value]
    by_cases other : j = i
    · exact vacant (by rw [← at_i', ← other, member])
    · exact watched.vacancy j (by rw [← others j other, member])
  overtaken j member := by
    rw [dropped]
    by_cases other : j = i
    · exact overtaken (by rwa [← at_i', ← other])
    · exact watched.overtaken j (by rwa [← others j other])
  emptied marked untaken := by
    rw [dropped] at marked
    rw [value]
    have none_taking (j : Fin n) : spots j ≠ .taking := by
      by_cases other : j = i
      · rw [other, at_i]
        exact taking
      · rw [← others j other]
        exact untaken j
    obtain ⟨empty, unstored⟩ := watched.emptied marked none_taking
    refine ⟨empty, fun j => ?_⟩
    by_cases other : j = i
    · rw [other, at_i']
      exact storing
    · rw [others j other]
      exact unstored j
  dropper j errand member := by
    rw [dropped]
    by_cases other : j = i
    · exact dropper (other ▸ errand) (by rwa [← at_i', ← other])
    · exact watched.dropper j errand (by rwa [← others j other])

end

theorem Exclusive.step (exclusive : Exclusive cell spots) (others : ∀ j, j ≠ i → after j = spots j)
    (transit : Transit s i.val (errands i) cell (spots i) more next (after i)) :
    Exclusive next after := by
  have freed : (spots i).Inside → cell.left = { cell with entered := none } := exclusive.left
  have apart : ∀ j, (spots i).Inside → (spots j).Inside → j = i :=
    fun _ one other => exclusive.apart other one
  generalize at_i : spots i = here at transit freed
  generalize at_i' : after i = there at transit
  generalize errands i = errand at transit
  cases transit
  case rest | found | failed | foundInside | foundNothing | refused | confirms | overtaken | stores
    | handsLate | swaps | second | takes | misses | released =>
      refine exclusive.same at_i at_i' others rfl rfl rfl ?_ ?_ ?_ <;>
        simp [Spot.Inside, Spot.Holds]
  case ends | turnsLate | reacts =>
      rw [freed trivial]
      obtain ⟨owner, entered, holder, running, unset⟩ := exclusive
      constructor <;> grind only [Spot.Inside, Spot.Holds]
  all_goals
    -- The thread has the right to initialize, or finds it free.
    have same : ∀ j : Fin n, i.val = j.val → i = j := fun j => Fin.ext
    have others' : ∀ j, j ≠ i → spots j = after j := fun j other => (others j other).symm
    obtain ⟨owner, entered, holder, running, unset⟩ := exclusive
    constructor <;> grind only [Spot.Inside, Spot.Holds]

/-- A value is stored by a thread that has found the slot not dropped and has had the lock since, so
that a thread which drops the slot meanwhile still has to take the value. -/
theorem Watched.step (exclusive : Exclusive cell spots) (watched : Watched errands cell spots)
    (others : ∀ j, j ≠ i → after j = spots j)
    (transit : Transit s i.val (errands i) cell (spots i) more next (after i)) :
    Watched errands next after := by
  have apart : ∀ j, (spots i).Inside → (spots j).Inside → j = i :=
    fun _ one other => exclusive.apart other one
  have holder := exclusive.holder
  have overtaken := watched.overtaken i
  generalize at_i : spots i = here at transit overtaken
  generalize at_i' : after i = there at transit
  generalize errand_i : errands i = errand at transit
  cases transit
  case rest =>
      have same : after = spots := by
        funext j
        by_cases other : j = i
        · rw [other, at_i, at_i']
        · exact others j other
      exact same ▸ watched
  case found | failed | begins | produces | locks | handsLate | ends | reacts =>
      refine watched.same at_i at_i' others rfl rfl ?_ ?_ ?_ ?_ ?_ <;>
        simp [Spot.Overtaken, Spot.Past, errand_i]
  case foundInside | refused | second =>
      refine watched.same at_i at_i' others rfl rfl ?_ ?_ ?_ ?_ ?_ <;>
        simp_all [Spot.Overtaken, Spot.Past]
  case foundNothing empty =>
      refine watched.same at_i at_i' others rfl rfl (fun _ => empty) ?_ ?_ ?_ ?_ <;>
        simp [Spot.Overtaken, Spot.Past]
  case overtaken dropped | turnsLate =>
      refine watched.same at_i at_i' others rfl rfl ?_ ?_ ?_ ?_ ?_ <;>
        simp_all [Spot.Overtaken, Spot.Past]
  case enters goes =>
      obtain ⟨_, rfl⟩ | ⟨_, rfl⟩ := goes <;>
        refine watched.same at_i at_i' others rfl rfl ?_ ?_ ?_ ?_ ?_ <;>
        simp [Spot.Overtaken, Spot.Past]
  case fails fails =>
      obtain rfl | ⟨payload, rfl⟩ := fails <;>
        refine watched.same at_i at_i' others rfl rfl ?_ ?_ ?_ ?_ ?_ <;>
        simp [Spot.Overtaken, Spot.Past]
  case unlocks sequel =>
      cases sequel <;>
        refine watched.same at_i at_i' others rfl rfl ?_ ?_ ?_ ?_ ?_ <;>
        simp_all [Spot.Overtaken, Spot.Past]
  case released =>
      have dropped := watched.dropper i errand_i (by rw [at_i]; trivial)
      refine watched.same at_i at_i' others rfl rfl ?_ ?_ ?_ ?_ ?_ <;>
        simp [Spot.Overtaken, dropped]
  all_goals
    have others' : ∀ j, j ≠ i → spots j = after j := fun j other => (others j other).symm
    -- These change the mark or the value, of which the other threads know something.
    obtain ⟨vacancy, overtaken, emptied, dropper⟩ := watched
    constructor <;> grind [Spot.Inside, Spot.Holds, Spot.Overtaken, Spot.Past]

namespace Fate

variable {born released : List Value}

theorem congr (fate : Fate cell spots born released) (value : next.value = cell.value)
    (load : ∀ j, (after j).load = (spots j).load) : Fate next after born released := by
  cases fate with
  | unborn empty unladen => exact .unborn (by rw [value, empty]) fun j => by rw [load, unladen]
  | carried i empty laden others =>
      exact .carried i (by rw [value, empty]) (by rw [load, laden]) fun j other => by
        rw [load, others j other]
  | stored held unladen => exact .stored (by rw [value, held]) fun j => by rw [load, unladen]
  | released empty unladen => exact .released (by rw [value, empty]) fun j => by rw [load, unladen]

theorem laden (fate : Fate cell spots born released) {value : Value}
    (load : (spots i).load = some value) :
    born = [value] ∧ released = [] ∧ cell.value = none ∧ ∀ j, j ≠ i → (spots j).load = none := by
  cases fate with
  | unborn _ unladen | stored _ unladen | released _ unladen =>
      rw [unladen i] at load
      contradiction
  | carried k empty laden others =>
      have equal : i = k := by
        by_contra other
        rw [others i other] at load
        contradiction
      subst equal
      rw [laden] at load
      obtain rfl := Option.some.inj load
      exact ⟨rfl, rfl, empty, others⟩

theorem held (fate : Fate cell spots born released) {value : Value}
    (held : cell.value = some value) :
    born = [value] ∧ released = [] ∧ ∀ j, (spots j).load = none := by
  cases fate with
  | unborn empty _ | carried _ empty _ _ | released empty _ =>
      rw [empty] at held
      contradiction
  | stored stored unladen =>
      rw [stored] at held
      obtain rfl := Option.some.inj held
      exact ⟨rfl, rfl, unladen⟩

theorem unborn_of_vacant (fate : Fate cell spots born released) (exclusive : Exclusive cell spots)
    (watched : Watched errands cell spots) (gone : released ≠ [] → cell.dropped = true)
    (vacant : spots i = .vacant) (undropped : cell.dropped = false) : born = [] := by
  cases fate with
  | unborn => rfl
  | carried k empty laden others =>
      have inside : (spots i).Inside := by rw [vacant]; trivial
      rcases Spot.inside_or_overtaken laden with other | overtaken
      · rw [← exclusive.apart inside other, vacant] at laden
        contradiction
      · rw [watched.overtaken k overtaken] at undropped
        contradiction
  | stored held unladen =>
      rw [watched.vacancy i vacant] at held
      contradiction
  | released empty unladen =>
      rw [gone (List.cons_ne_nil _ _)] at undropped
      contradiction

end Fate

section
variable {here there : Spot} (at_i : spots i = here) (at_i' : after i = there)
  (others : ∀ j, j ≠ i → after j = spots j)
include at_i at_i' others

theorem load_of_others (load : there.load = here.load) (j : Fin n) :
    (after j).load = (spots j).load := by
  by_cases other : j = i
  · rw [other, at_i, at_i', load]
  · rw [others j other]

theorem Recorded.quiet (recorded : Recorded s first cell spots deeds)
    (value : next.value = cell.value) (dropped : cell.dropped = true → next.dropped = true)
    (silent : entries none more = []) (unreleased : releases more = [])
    (runs : (more ++ deeds).count (.began s) =
      (more ++ deeds).count (.ended s) + if next.initializing then 1 else 0)
    (load : there.load = here.load) (running : there = .running → entries first deeds = [])
    (results : ∀ value, there.exit? = some (.returned (.value value)) →
      value ∈ entries first deeds) :
    Recorded s first next after (more ++ deeds) := by
  have same : entries first (more ++ deeds) = entries first deeds := by
    rw [entries, List.filterMap_append, show more.filterMap Deed.produced? = [] from silent]
    rfl
  have unreleased : releases (more ++ deeds) = releases deeds := by
    rw [releases, List.filterMap_append, ← releases, unreleased]
    rfl
  constructor
  · rw [same, unreleased]
    exact recorded.fate.congr value (load_of_others at_i at_i' others load)
  · intro j runs
    rw [same]
    by_cases other : j = i
    · exact running (at_i'.symm.trans (other ▸ runs))
    · exact recorded.unborn j ((others j other).symm.trans runs)
  · rw [unreleased]
    exact fun released => dropped (recorded.gone released)
  · intro j value result
    rw [same]
    by_cases other : j = i
    · rw [other, at_i'] at result
      exact results value result
    · exact recorded.results j value (by rw [← others j other, result])
  · exact runs

omit at_i in
theorem unladen_of_others (load : there.load = none)
    (unladen : ∀ j, j ≠ i → (spots j).load = none) (j : Fin n) : (after j).load = none := by
  by_cases other : j = i
  · rw [other, at_i', load]
  · rw [others j other, unladen j other]

omit at_i in
theorem Recorded.moved (recorded : Recorded s first cell spots deeds) {value : Value}
    (born : entries first deeds = [value]) (silent : entries none more = [])
    (fate : Fate next after [value] (releases (more ++ deeds)))
    (gone : releases (more ++ deeds) ≠ [] → next.dropped = true)
    (runs : (more ++ deeds).count (.began s) =
      (more ++ deeds).count (.ended s) + if next.initializing then 1 else 0)
    (running : there ≠ .running)
    (results : ∀ result, there.exit? = some (.returned (.value result)) → result = value) :
    Recorded s first next after (more ++ deeds) := by
  have same : entries first (more ++ deeds) = [value] := by
    rw [← born, entries, List.filterMap_append, show more.filterMap Deed.produced? = [] from silent]
    rfl
  constructor
  · rw [same]
    exact fate
  · intro j runs
    by_cases other : j = i
    · exact absurd (at_i'.symm.trans (other ▸ runs)) running
    · have none := recorded.unborn j ((others j other).symm.trans runs)
      rw [born] at none
      contradiction
  · exact gone
  · intro j result yields
    rw [same]
    by_cases other : j = i
    · rw [other, at_i'] at yields
      exact List.mem_singleton.mpr (results result yields)
    · rw [← born]
      exact recorded.results j result (by rw [← others j other, yields])
  · exact runs

theorem Recorded.produced (recorded : Recorded s first cell spots deeds) {value : Value}
    (running : here = .running) (carries : there = .carrying value)
    (alone : ∀ j, spots j = .running → j = i) (initializing : cell.initializing = true) :
    Recorded s first { cell with initializing := false } after
      ([.produced s value, .ended s] ++ deeds) := by
  subst carries
  have none := recorded.unborn i (at_i.trans running)
  have unset : first.toList = [] ∧ deeds.filterMap Deed.produced? = [] :=
    List.append_eq_nil_iff.mp none
  have one : entries first ([.produced s value, .ended s] ++ deeds) = [value] := by
    simp [entries, unset, List.filterMap_cons, Deed.produced?]
  have unreleased : releases ([.produced s value, .ended s] ++ deeds) = releases deeds := rfl
  have fate := recorded.fate
  rw [none] at fate
  constructor
  · rw [one, unreleased]
    generalize releases deeds = released at fate
    cases fate with
    | unborn empty unladen =>
        exact .carried i empty (by rw [at_i']; rfl) fun j other => by rw [others j other, unladen]
  · intro j runs
    by_cases other : j = i
    · rw [other, at_i'] at runs
      contradiction
    · exact absurd (alone j ((others j other).symm.trans runs)) other
  · exact recorded.gone
  · intro j result yields
    by_cases other : j = i
    · rw [other, at_i'] at yields
      contradiction
    · have listed := recorded.results j result (by rw [← others j other, yields])
      rw [none] at listed
      exact absurd listed List.not_mem_nil
  · simpa [initializing] using recorded.runs

end

theorem Recorded.running (recorded : Recorded s first cell spots deeds)
    (exclusive : Exclusive cell spots) (runs : spots i = .running) :
    entries first deeds = [] ∧ cell.initializing = true ∧ ∀ j, spots j = .running → j = i := by
  have inside : (spots i).Inside := by rw [runs]; trivial
  refine ⟨recorded.unborn i runs, (exclusive.running i inside).mpr runs, fun j other => ?_⟩
  exact exclusive.apart (by rw [other]; trivial) inside

theorem Recorded.step (exclusive : Exclusive cell spots) (watched : Watched errands cell spots)
    (recorded : Recorded s first cell spots deeds) (others : ∀ j, j ≠ i → after j = spots j)
    (transit : Transit s i.val (errands i) cell (spots i) more next (after i)) :
    Recorded s first next after (more ++ deeds) := by
  have results := recorded.results i
  have unborn := recorded.unborn i
  generalize at_i : spots i = here at transit results unborn
  generalize at_i' : after i = there at transit
  generalize errand_i : errands i = errand at transit
  have silent := recorded.runs
  cases transit
  case rest => exact recorded.quiet at_i at_i' others rfl id rfl rfl silent rfl unborn results
  case found value held | foundInside value held =>
    refine recorded.quiet at_i at_i' others rfl id rfl rfl silent rfl nofun ?_
    rintro value ⟨⟩
    rw [(recorded.fate.held held).1]
    exact List.mem_singleton_self _
  case failed exit fails | released exit fails =>
    refine recorded.quiet at_i at_i' others rfl id rfl rfl silent rfl nofun ?_
    rintro value ⟨⟩
    exact absurd rfl (fails value)
  case enters depth admits goes =>
    obtain ⟨_, rfl⟩ | ⟨_, rfl⟩ := goes
    · exact recorded.quiet at_i at_i' others rfl id rfl rfl silent rfl nofun nofun
    · exact recorded.quiet at_i at_i' others rfl id rfl rfl silent rfl nofun nofun
  case foundNothing | refused | locks | confirms | overtaken | second | turnsLate | reacts | misses =>
    exact recorded.quiet at_i at_i' others rfl id rfl rfl silent rfl nofun nofun
  case swaps => exact recorded.quiet at_i at_i' others rfl (fun _ => rfl) rfl rfl silent rfl nofun nofun
  case unlocks sequel =>
    cases sequel with
    | ending exit => exact recorded.quiet at_i at_i' others rfl id rfl rfl silent rfl nofun results
    | late value | reacting => exact recorded.quiet at_i at_i' others rfl id rfl rfl silent rfl nofun nofun
  case ends exit => exact recorded.quiet at_i at_i' others rfl id rfl rfl silent rfl nofun results
  case begins undropped =>
    have inside : (spots i).Inside := by rw [at_i]; trivial
    -- Whoever is inside without running the initializer has it to itself.
    have unset : cell.initializing = false := by
      rw [← Bool.not_eq_true, exclusive.running i inside, at_i]
      exact nofun
    refine recorded.quiet at_i at_i' others rfl id rfl rfl ?_ rfl (fun _ => ?_) nofun
    · simpa [unset] using silent
    · exact recorded.fate.unborn_of_vacant exclusive watched recorded.gone at_i undropped
  case fails sequel fails =>
    have initializing := (recorded.running exclusive at_i).2.1
    have runs : ([Deed.ended s] ++ deeds).count (.began s) =
        ([Deed.ended s] ++ deeds).count (.ended s) + if false then 1 else 0 := by
      simpa [initializing] using silent
    obtain rfl | ⟨payload, rfl⟩ := fails
    · exact recorded.quiet at_i at_i' others rfl id rfl rfl runs rfl nofun nofun
    · exact recorded.quiet at_i at_i' others rfl id rfl rfl runs rfl nofun nofun
  case produces value =>
    obtain ⟨_, initializing, alone⟩ := recorded.running exclusive at_i
    exact recorded.produced at_i at_i' others rfl rfl alone initializing
  case stores value =>
    obtain ⟨born, unreleased, empty, unladen⟩ :=
      recorded.fate.laden (show (spots i).load = some value by rw [at_i]; rfl)
    refine recorded.moved at_i' others born rfl ?_ recorded.gone silent nofun ?_
    · rw [List.nil_append, unreleased]
      exact .stored rfl (unladen_of_others at_i' others rfl unladen)
    · rintro result ⟨⟩
      rfl
  case handsLate value =>
    obtain ⟨born, unreleased, empty, unladen⟩ :=
      recorded.fate.laden (show (spots i).load = some value by rw [at_i]; rfl)
    have dropped := watched.overtaken i (by rw [at_i]; trivial)
    refine recorded.moved at_i' others born rfl ?_ (fun _ => dropped) silent nofun nofun
    rw [show releases ([.handed s value] ++ deeds) = value :: releases deeds from rfl, unreleased]
    exact .released empty (unladen_of_others at_i' others rfl unladen)
  case takes value free held =>
    obtain ⟨born, unreleased, unladen⟩ := recorded.fate.held held
    have dropped := watched.dropper i errand_i (by rw [at_i]; trivial)
    refine recorded.moved at_i' others born rfl ?_ (fun _ => dropped) silent nofun nofun
    rw [show releases ([.handed s value] ++ deeds) = value :: releases deeds from rfl, unreleased]
    exact .released rfl (unladen_of_others at_i' others rfl fun j _ => unladen j)

structure Shared (s : SlotId) (errands : Fin n → Errand) (first : Option Value) (cell : Cell)
    (spots : Fin n → Spot) (deeds : List Deed) : Prop where
  exclusive : Exclusive cell spots
  watched : Watched errands cell spots
  recorded : Recorded s first cell spots deeds

theorem Shared.step (shared : Shared s errands first cell spots deeds)
    (others : ∀ j, j ≠ i → after j = spots j)
    (transit : Transit s i.val (errands i) cell (spots i) more next (after i)) :
    Shared s errands first next after (more ++ deeds) where
  exclusive := shared.exclusive.step others transit
  watched := shared.watched.step shared.exclusive others transit
  recorded := shared.recorded.step shared.exclusive shared.watched others transit

theorem Transit.handles {id : ThreadId} {errand : Errand} {here there : Spot}
    (transit : Transit s id errand cell here more next there) : next.handles = cell.handles := by
  cases transit <;> rfl

end

end Relinquish
