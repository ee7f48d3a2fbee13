import Relinquish.Proofs.Plays

/-!
What calls of one kind come to. Threads that get a value run the initializer until it succeeds or
each of them has failed; of threads that drop a value one releases it. So every order of their steps
comes to the same, and to what one call after the other comes to.
-/

namespace Relinquish

variable {σ ν : Type} {n : Nat}

/-! ## Runs of the initializer -/

namespace Outcomes

variable (o : Outcomes)

/-- The first run that succeeds, among so many. -/
def first? (n : Nat) : Option Nat :=
  (List.range n).find? fun k => (o.initializer k).isRight

def runs (n : Nat) : Nat :=
  (o.first? n).elim n (· + 1)

def text? (n : Nat) : Option String :=
  (o.first? n).bind fun k => (o.initializer k).getRight?

def errors (runs : Nat) : List Error :=
  (List.range runs).filterMap fun k => (o.initializer k).getLeft?

def dropping : Option Value → Exit
  | none => .returned .done
  | some value => (o.release value).ofRelease

variable {o}

theorem runs_of_least {k : Nat} (least : IsLeast {k | (o.initializer k).isRight = true} k) :
    o.runs n = min n (k + 1) := by
  obtain ⟨succeeds, first⟩ := least
  rw [runs, first?]
  cases found : (List.range n).find? fun k => (o.initializer k).isRight with
  | none =>
      have late : n ≤ k := by
        by_contra early
        exact List.find?_eq_none.mp found k (List.mem_range.mpr (Nat.lt_of_not_le early)) succeeds
      exact (Nat.min_eq_left (Nat.le_succ_of_le late)).symm
  | some found' =>
      obtain ⟨right, member, earlier⟩ := List.find?_range_eq_some.mp found
      have same : found' = k := by
        refine Nat.le_antisymm (Nat.le_of_not_lt fun less => ?_) (first right)
        have fails := earlier k less
        rw [succeeds] at fails
        contradiction
      subst same
      exact (Nat.min_eq_right (List.mem_range.mp member)).symm

theorem runs_of_failures (fails : ∀ k, (o.initializer k).isLeft = true) : o.runs n = n := by
  have none : o.first? n = none := by
    refine List.find?_eq_none.mpr fun k _ => ?_
    rw [← Sum.not_isLeft, fails k]
    exact nofun
  rw [runs, none]
  rfl

section
variable {errors : List Error} (failed : errors.map .inl = (List.range errors.length).map o.initializer)
include failed

theorem errors_of_failed : o.errors errors.length = errors := by
  have lefts : (errors.map .inl : List (Error ⊕ String)).filterMap Sum.getLeft? = errors := by
    simp [List.filterMap_map, Function.comp_def]
  rw [failed, List.filterMap_map] at lefts
  exact lefts

theorem isRight_of_failed {k : Nat} (less : k < errors.length) :
    (o.initializer k).isRight = false := by
  have member : o.initializer k ∈ errors.map Sum.inl := by
    rw [failed]
    exact List.mem_map_of_mem (List.mem_range.mpr less)
  obtain ⟨error, _, same⟩ := List.mem_map.mp member
  rw [← same]
  rfl

end

end Outcomes

/-! ## Threads that get -/

inductive Yield (o : Outcomes) (n failures : Nat) : List Value → (ended : Nat) → Prop
  | nothing : Yield o n failures [] failures
  | value {value : Value} (outcome : o.initializer failures = .inr value.text)
      (spare : failures < n) : Yield o n failures [value] (failures + 1)

/-- Each run that has failed has been the run of one thread, the other threads have had none that
failed. -/
structure Tally (o : Outcomes) (s : SlotId) (first : Option Value) (posts : Fin n → Post)
    (deeds : List Deed) (callers : List (Fin n)) (errors : List Error) : Prop where
  distinct : callers.Nodup
  caught : callers.map (fun i => (posts i).caught?) = errors.map some
  uncaught : ∀ i, i ∉ callers → (posts i).caught? = none
  failed : errors.map .inl = (List.range errors.length).map o.initializer
  yields : Yield o n errors.length (deeds.filterMap Deed.produced?) (deeds.count (.ended s))
  unneeded : first ≠ none → deeds.count (.ended s) = 0

namespace Tally

variable {o : Outcomes} {s : SlotId} {first : Option Value} {posts : Fin n → Post}
  {deeds more : List Deed} {callers : List (Fin n)} {errors : List Error} {i : Fin n} {there : Post}
  {error : Error}

theorem start (first : Option Value) : Tally o s first (fun _ : Fin n => .away) [] [] [] where
  distinct := .nil
  caught := rfl
  uncaught _ _ := rfl
  failed := rfl
  yields := .nothing
  unneeded _ := rfl

theorem caller (tally : Tally o s first posts deeds callers errors) (member : i ∈ callers) :
    (posts i).caught? ≠ none := by
  have listed : (posts i).caught? ∈ errors.map some := by
    rw [← tally.caught]
    exact List.mem_map_of_mem member
  obtain ⟨error, _, same⟩ := List.mem_map.mp listed
  rw [← same]
  exact nofun

theorem length (tally : Tally o s first posts deeds callers errors) :
    callers.length = errors.length := by
  simpa using congrArg List.length tally.caught

theorem caught_update (caught : there.caught? = (posts i).caught?) (j : Fin n) :
    (Function.update posts i there j).caught? = (posts j).caught? := by
  by_cases other : j = i
  · rw [other, Function.update_self, caught]
  · rw [Function.update_of_ne other]

theorem quiet (tally : Tally o s first posts deeds callers errors)
    (caught : there.caught? = (posts i).caught?) (silent : more.filterMap Deed.produced? = [])
    (none : more.count (.ended s) = 0) :
    Tally o s first (Function.update posts i there) (more ++ deeds) callers errors := by
  have same := caught_update caught
  have ended : (more ++ deeds).count (.ended s) = deeds.count (.ended s) := by
    rw [List.count_append, none, Nat.zero_add]
  refine ⟨tally.distinct, ?_, fun j free => ?_, tally.failed, ?_, ?_⟩
  · simpa only [same] using tally.caught
  · rw [same, tally.uncaught j free]
  · rw [List.filterMap_append, silent, ended]
    exact tally.yields
  · rw [ended]
    exact tally.unneeded

theorem unborn (tally : Tally o s first posts deeds callers errors) (born : entries first deeds = []) :
    first = none ∧ deeds.filterMap Deed.produced? = [] ∧ deeds.count (.ended s) = errors.length := by
  obtain ⟨unheld, unproduced⟩ := List.append_eq_nil_iff.mp born
  have yields := tally.yields
  rw [unproduced] at yields
  generalize deeds.count (.ended s) = ended at yields ⊢
  cases yields
  exact ⟨Option.toList_eq_nil_iff.mp unheld, unproduced, rfl⟩

theorem fails (tally : Tally o s first posts deeds callers errors) (free : (posts i).caught? = none)
    (born : entries first deeds = [])
    (outcome : o.initializer (deeds.count (.ended s)) = .inl error) :
    Tally o s first (Function.update posts i (.failing error)) ([.ended s] ++ deeds)
      (callers ++ [i]) (errors ++ [error]) := by
  obtain ⟨unheld, unproduced, ended⟩ := tally.unborn born
  have fresh : i ∉ callers := fun member => tally.caller member free
  rw [ended] at outcome
  refine ⟨?_, ?_, fun j outside => ?_, ?_, ?_, fun held => absurd unheld held⟩
  · exact List.nodup_append.mpr ⟨tally.distinct, List.nodup_singleton i,
      fun j member _ last => by
        rw [List.mem_singleton.mp last]
        rintro rfl
        exact fresh member⟩
  · have same : callers.map (fun j => (Function.update posts i (.failing error) j).caught?) =
        callers.map fun j => (posts j).caught? := by
      refine List.map_congr_left fun j member => ?_
      rw [Function.update_of_ne]
      rintro rfl
      exact fresh member
    rw [List.map_append, same, tally.caught, List.map_append]
    simp [Post.caught?]
  · rw [List.mem_append, List.mem_singleton, not_or] at outside
    rw [Function.update_of_ne outside.2]
    exact tally.uncaught j outside.1
  · rw [List.map_append, tally.failed, List.length_append, List.length_singleton, List.range_succ,
      List.map_append]
    simp [outcome]
  · have produced : ([Deed.ended s] ++ deeds).filterMap Deed.produced? = [] := unproduced
    rw [produced, List.count_append, ended, List.length_append]
    simpa [Nat.add_comm] using Yield.nothing

theorem produces (tally : Tally o s first posts deeds callers errors) {value : Value}
    (free : (posts i).caught? = none) (born : entries first deeds = [])
    (outcome : o.initializer (deeds.count (.ended s)) = .inr value.text) :
    Tally o s first (Function.update posts i (.carrying value))
      ([.produced s value, .ended s] ++ deeds) callers errors := by
  obtain ⟨unheld, unproduced, ended⟩ := tally.unborn born
  have fresh : i ∉ callers := fun member => tally.caller member free
  have spare : errors.length < n := by
    rw [← tally.length]
    have whole := (List.nodup_cons.mpr ⟨fresh, tally.distinct⟩).length_le_card
    rwa [Fintype.card_fin] at whole
  rw [ended] at outcome
  have still : (Post.carrying value).caught? = (posts i).caught? := free.symm
  have same := caught_update still
  refine ⟨tally.distinct, ?_, fun j outside => ?_, tally.failed, ?_, fun held => absurd unheld held⟩
  · simpa only [same] using tally.caught
  · rw [same, tally.uncaught j outside]
  · have produced : ([Deed.produced s value, .ended s] ++ deeds).filterMap Deed.produced? = [value] :=
      congrArg (value :: ·) unproduced
    have count : ([Deed.produced s value, .ended s] ++ deeds).count (.ended s) = errors.length + 1 := by
      rw [List.count_append, ended]
      simp [Nat.add_comm]
    rw [produced, count]
    exact .value outcome spare

theorem step {cell next : Cell} {slot : Slot σ ν}
    (shared : Shared s (fun _ => .get) first cell (fun i => (posts i).spot o slot) deeds)
    (tally : Tally o s first posts deeds callers errors)
    (shifts : Shifts o s i.val (deeds.count (.ended s)) .get cell (posts i) more next there) :
    ∃ callers errors, Tally o s first (Function.update posts i there) (more ++ deeds) callers errors := by
  have born := shared.recorded.unborn i
  generalize here : posts i = post at shifts born
  have quiet (caught : there.caught? = post.caught?) (silent : more.filterMap Deed.produced? = [])
      (none : more.count (.ended s) = 0) :
      ∃ callers errors, Tally o s first (Function.update posts i there) (more ++ deeds) callers errors :=
    ⟨callers, errors, tally.quiet (here ▸ caught) silent none⟩
  cases shifts with
  | fails outcome => exact ⟨_, _, tally.fails (by rw [here]; rfl) (born rfl) outcome⟩
  | produces outcome => exact ⟨_, _, tally.produces (by rw [here]; rfl) (born rfl) outcome⟩
  | begins => exact quiet rfl rfl (by simp)
  | _ => exact quiet rfl rfl rfl

end Tally

theorem Yield.of_none {o : Outcomes} {failures ended : Nat} {produced : List Value}
    (yields : Yield o n failures produced ended) (none : ended = 0) : failures = 0 := by
  cases yields with
  | nothing => exact none
  | value => contradiction

theorem Slot.eq_of_setup {slot other : Slot σ ν} (same : slot.setup = other.setup) :
    slot = { other with
      dropped := slot.dropped, value := slot.value, initializing := slot.initializing,
      entered := slot.entered, shared := slot.shared } := by
  obtain ⟨⟩ := slot
  obtain ⟨⟩ := other
  simpa [Slot.setup] using same

theorem Yield.determines {o : Outcomes} {errors : List Error} {produced : List Value} {ended : Nat}
    (yields : Yield o n errors.length produced ended)
    (failed : errors.map .inl = (List.range errors.length).map o.initializer)
    (spent : produced = [] → errors.length = n) :
    o.runs n = ended ∧ o.text? n = produced.head?.map Value.text ∧ o.errors ended = errors := by
  generalize size : errors.length = failures at yields spent
  cases yields with
  | nothing =>
      obtain rfl := spent rfl
      have none : o.first? ended = none := by
        refine List.find?_eq_none.mpr fun k member => ?_
        rw [Outcomes.isRight_of_failed failed (size ▸ List.mem_range.mp member)]
        exact nofun
      refine ⟨?_, ?_, ?_⟩
      · rw [Outcomes.runs, none]
        rfl
      · rw [Outcomes.text?, none]
        rfl
      · rw [← size, Outcomes.errors_of_failed failed]
  | @value value outcome spare =>
      have found : o.first? n = some failures := by
        refine List.find?_range_eq_some.mpr ⟨?_, List.mem_range.mpr spare, fun k less => ?_⟩
        · rw [outcome]
          rfl
        · rw [Outcomes.isRight_of_failed failed (size ▸ less)]
          rfl
      refine ⟨?_, ?_, ?_⟩
      · rw [Outcomes.runs, found]
        rfl
      · rw [Outcomes.text?, found, Option.bind_some, outcome]
        rfl
      · have earlier := Outcomes.errors_of_failed failed
        rw [size, Outcomes.errors] at earlier
        rw [Outcomes.errors, List.range_succ, List.filterMap_append, earlier]
        simp [outcome]

theorem Fate.kept {cell : Cell} {spots : Fin n → Spot} {born released : List Value}
    (fate : Fate cell spots born released) (unladen : ∀ i, (spots i).load = none)
    (unreleased : released = []) : born = cell.value.toList := by
  cases fate with
  | unborn empty => rw [empty]; rfl
  | carried i _ laden =>
      rw [unladen i] at laden
      contradiction
  | stored held => rw [held]; rfl
  | released => contradiction

namespace Pool

variable {o : Outcomes} {s : SlotId} {world : World σ ν} {moves : Nat} {pool : Pool n σ ν}
  {posts : Fin n → Post} {left : Fin n → Nat} {deeds : List Deed} {callers : List (Fin n)}
  {errors : List Error} {errand : Errand}

theorem Attended.settled (attended : Attended o s errand world moves pool posts left deeds)
    (returned : ∀ i, ∃ exit, (pool.threads i).exit? = some exit) :
    (∀ i, ((posts i).spot o (world.slot s)).load = none) ∧ (pool.world.slot s).entered = none ∧
      (pool.world.slot s).initializing = false ∧
      (pool.world.slot s).shared = (world.slot s).shared := by
  have done (i : Fin n) : ∃ exit, (posts i).spot o (world.slot s) = .done exit :=
    (returned i).imp fun _ => (attended.posted i).done
  have unentered : (pool.world.slot s).entered = none := by
    refine attended.entered.resolve_right fun ⟨i, inside⟩ => ?_
    obtain ⟨exit, done⟩ := done i
    rw [done] at inside
    exact inside
  refine ⟨fun i => ?_, unentered, attended.shared.exclusive.unset unentered, ?_⟩
  · obtain ⟨exit, done⟩ := done i
    rw [done]
    rfl
  · rw [attended.lent]
    refine Nat.add_eq_left.mpr (Finset.sum_eq_zero fun i _ => ?_)
    obtain ⟨exit, ended⟩ := returned i
    rw [Thread.exit?_eq_some ended]
    rfl

theorem Attended.got_or_told (attended : Attended o s .get world moves pool posts left deeds)
    {i : Fin n} {exit : Exit} (ended : (pool.threads i).exit? = some exit) :
    (∃ value, posts i = .got value ∧ exit = .returned (.value value)) ∨
      ∃ error, posts i = .told error ∧ exit = o.answer (world.slot s) error := by
  have posted := attended.posted i
  have done := posted.done ended
  generalize posts i = post at posted done ⊢
  cases post with
  | got value => exact .inl ⟨value, rfl, (Spot.done.inj done).symm⟩
  | told error => exact .inr ⟨error, rfl, (Spot.done.inj done).symm⟩
  | dropped | second => exact nomatch posted
  | _ => exact nomatch done

/-- What comes of threads that get the value of a slot: as many runs of the initializer as are needed
or as there are threads, to each run that fails one thread that gets the error, and to all others the
value. -/
structure Gets (o : Outcomes) (s : SlotId) (world : World σ ν) (pool : Pool n σ ν)
    (callers : List (Fin n)) (deeds : List Deed) : Prop where
  ledger : pool.world.deeds s = deeds ++ world.deeds s
  runs : deeds.count (.began s) = (world.slot s).value.elim (o.runs n) fun _ => 0
  runs_of_success : (world.slot s).value = none → ∀ k, IsLeast {k | (o.initializer k).isRight = true} k →
    deeds.count (.began s) = min n (k + 1)
  runs_of_failures : (world.slot s).value = none → (∀ k, (o.initializer k).isLeft = true) →
    deeds.count (.began s) = n
  distinct : callers.Nodup
  told : callers.map (fun i => (pool.threads i).exit?) =
    (o.errors (deeds.count (.began s))).map fun error => some (o.answer (world.slot s) error)
  got : ∀ i, i ∉ callers → ∃ value, (pool.world.slot s).value = some value ∧
    (pool.threads i).exit? = some (.returned (.value value))
  text : (pool.world.slot s).value.map Value.text =
    ((world.slot s).value.map Value.text).or (o.text? n)
  kept : ∀ value, (world.slot s).value = some value → (pool.world.slot s).value = some value
  slot : pool.world.slot s = { world.slot s with value := (pool.world.slot s).value }

theorem Attended.gets (attended : Attended o s .get world moves pool posts left deeds)
    (calm : world.Calm s) (tally : Tally o s (world.slot s).value posts deeds callers errors)
    (returned : ∀ i, ∃ exit, (pool.threads i).exit? = some exit) :
    Gets o s world pool callers deeds := by
  obtain ⟨unladen, unentered, unset, shared⟩ := attended.settled returned
  have recorded := attended.shared.recorded
  have undropped := attended.undropped rfl
  have unreleased : releases deeds = [] := by
    by_contra released
    exact Bool.false_ne_true (undropped.symm.trans (recorded.gone released))
  have held : (world.slot s).value.toList ++ deeds.filterMap Deed.produced? =
      (pool.world.slot s).value.toList := recorded.fate.kept unladen unreleased
  have began : deeds.count (.began s) = deeds.count (.ended s) := by
    have runs := recorded.runs
    rw [show (pool.world.cell s).initializing = false from unset] at runs
    exact runs
  have told : callers.map (fun i => (pool.threads i).exit?) =
      errors.map fun error => some (o.answer (world.slot s) error) := by
    have exits : callers.map (fun i => (pool.threads i).exit?) =
        (callers.map fun i => (posts i).caught?).map (Option.map (o.answer (world.slot s))) := by
      rw [List.map_map]
      refine List.map_congr_left fun i member => ?_
      obtain ⟨exit, ended⟩ := returned i
      rcases attended.got_or_told ended with ⟨value, got, rfl⟩ | ⟨error, told, rfl⟩
      · exact absurd (got ▸ rfl : (posts i).caught? = none) (tally.caller member)
      · rw [ended, Function.comp_apply, told]
        rfl
    rw [exits, tally.caught, List.map_map]
    rfl
  have got (i : Fin n) (outside : i ∉ callers) : ∃ value, (pool.world.slot s).value = some value ∧
      (pool.threads i).exit? = some (.returned (.value value)) := by
    obtain ⟨exit, ended⟩ := returned i
    rcases attended.got_or_told ended with ⟨value, got, rfl⟩ | ⟨error, told, rfl⟩
    · have listed := recorded.results i value (by rw [got]; rfl)
      rw [entries, held, Option.mem_toList] at listed
      exact ⟨value, listed, ended⟩
    · have uncaught := tally.uncaught i outside
      rw [told] at uncaught
      contradiction
  have slot : pool.world.slot s = { world.slot s with value := (pool.world.slot s).value } := by
    refine (Slot.eq_of_setup attended.setup).trans ?_
    rw [undropped.trans calm.undropped.symm, unset.trans calm.initializing.symm,
      unentered.trans calm.entered.symm, shared]
  have kept (value : Value) (stored : (world.slot s).value = some value) :
      (pool.world.slot s).value = some value := by
    have listed : value ∈ (pool.world.slot s).value.toList := by
      rw [← held, stored]
      exact .head _
    exact Option.mem_toList.mp listed
  -- A value that the slot has had from the beginning makes all runs needless.
  have determined : deeds.count (.ended s) = ((world.slot s).value.elim (o.runs n) fun _ => 0) ∧
      (pool.world.slot s).value.map Value.text =
        ((world.slot s).value.map Value.text).or (o.text? n) ∧
      o.errors (deeds.count (.ended s)) = errors := by
    cases first : (world.slot s).value with
    | some value =>
        have none := tally.unneeded (by rw [first]; exact Option.some_ne_none _)
        refine ⟨none, ?_, ?_⟩
        · rw [kept value first]
          rfl
        · rw [none, List.length_eq_zero_iff.mp (tally.yields.of_none none)]
          rfl
    | none =>
        rw [first, Option.toList_none, List.nil_append] at held
        have spent : deeds.filterMap Deed.produced? = [] → errors.length = n := by
          intro nothing
          have all : callers.toFinset = Finset.univ := by
            refine Finset.eq_univ_iff_forall.mpr fun i => List.mem_toFinset.mpr ?_
            by_contra outside
            obtain ⟨value, stored, _⟩ := got i outside
            rw [nothing, stored] at held
            contradiction
          rw [← tally.length, ← List.toFinset_card_of_nodup tally.distinct, all, Finset.card_univ,
            Fintype.card_fin]
        obtain ⟨runs, text, failures⟩ := tally.yields.determines tally.failed spent
        refine ⟨runs.symm, ?_, failures⟩
        rw [text, held]
        cases (pool.world.slot s).value <;> rfl
  obtain ⟨runs, text, failures⟩ := determined
  refine ⟨attended.ledger, began.trans runs, fun empty k least => ?_, fun empty fails => ?_,
    tally.distinct, ?_, got, text, kept, slot⟩
  · rw [began, runs, empty]
    exact Outcomes.runs_of_least least
  · rw [began, runs, empty]
    exact Outcomes.runs_of_failures fails
  · rw [told, began, failures]

end Pool

/-! ## Threads that drop -/

/-- How far the thread is that has dropped the slot, by the value and the releases there are. -/
inductive Dropper (o : Outcomes) (first : Option Value) : Option Value → List Value → Post → Prop
  | taking : Dropper o first first [] .taking
  | releasing {value : Value} (held : first = some value) :
      Dropper o first none [value] (.releasing value)
  | dropped : Dropper o first none first.toList (.dropped (o.dropping first))

inductive Claimed (o : Outcomes) (first : Option Value) (cell : Cell) (posts : Fin n → Post)
    (deeds : List Deed) : Prop
  | unclaimed (undropped : cell.dropped = false) (away : ∀ i, posts i = .away)
      (value : cell.value = first) (unreleased : releases deeds = [])
  | claimed (i : Fin n) (dropped : cell.dropped = true)
      (dropper : Dropper o first cell.value (releases deeds) (posts i))
      (others : ∀ j, j ≠ i → posts j = .away ∨ posts j = .second)

section
variable {o : Outcomes} {s : SlotId} {first : Option Value} {cell next : Cell} {posts : Fin n → Post}
  {deeds more : List Deed} {i : Fin n} {post there : Post} {runs : Nat}

theorem Dropper.step (dropper : Dropper o first cell.value (releases deeds) post)
    (dropped : cell.dropped = true)
    (shifts : Shifts o s i.val runs .drop cell post more next there) :
    next.dropped = true ∧ Dropper o first next.value (releases (more ++ deeds)) there := by
  have still := dropper
  generalize held : cell.value = value at dropper
  generalize gone : releases deeds = released at dropper
  cases dropper with
  | taking =>
      cases shifts with
      | rest => exact ⟨dropped, still⟩
      | takes free found =>
          refine ⟨dropped, ?_⟩
          rw [show releases ([.handed s _] ++ deeds) = _ :: releases deeds from rfl, gone]
          exact .releasing (held.symm.trans found)
      | misses free empty =>
          obtain rfl := held.symm.trans empty
          refine ⟨dropped, ?_⟩
          rw [List.nil_append, gone, empty]
          exact .dropped
  | releasing found =>
      cases shifts with
      | rest => exact ⟨dropped, still⟩
      | released =>
          subst found
          refine ⟨dropped, ?_⟩
          rw [List.nil_append, gone, held]
          exact .dropped
  | dropped =>
      cases shifts with
      | rest => exact ⟨dropped, still⟩

theorem Claimed.start {world : World σ ν} (calm : world.Calm s) :
    Claimed o (world.slot s).value (world.cell s) (fun _ : Fin n => .away) [] :=
  .unclaimed calm.undropped (fun _ => rfl) rfl rfl

theorem Claimed.step (claimed : Claimed o first cell posts deeds)
    (shifts : Shifts o s i.val runs .drop cell (posts i) more next there) :
    Claimed o first next (Function.update posts i there) (more ++ deeds) := by
  have others (j : Fin n) (other : j ≠ i) : Function.update posts i there j = posts j :=
    Function.update_of_ne other _ _
  cases claimed with
  | unclaimed undropped away value unreleased =>
      rw [away i] at shifts
      cases shifts with
      | rest =>
          refine .unclaimed undropped (fun j => ?_) value unreleased
          by_cases other : j = i
          · rw [other, Function.update_self]
          · rw [others j other, away j]
      | swaps =>
          refine .claimed i rfl ?_ fun j other => .inl ((others j other).trans (away j))
          rw [Function.update_self, List.nil_append, unreleased]
          exact value ▸ .taking
      | second dropped =>
          rw [undropped] at dropped
          contradiction
  | claimed k dropped dropper seconds =>
      -- Either the one that has dropped the slot goes on, or another one finds it dropped.
      by_cases same : i = k
      · subst same
        obtain ⟨dropped, dropper⟩ := dropper.step dropped shifts
        refine .claimed i dropped ?_ fun j other => (others j other).symm ▸ seconds j other
        rwa [Function.update_self]
      · have quiet : next = cell ∧ more = [] ∧ (there = .away ∨ there = .second) := by
          rcases seconds i same with away | second
          · rw [away] at shifts
            cases shifts with
            | rest => exact ⟨rfl, rfl, .inl rfl⟩
            | second => exact ⟨rfl, rfl, .inr rfl⟩
            | swaps undropped =>
                rw [dropped] at undropped
                contradiction
          · rw [second] at shifts
            cases shifts with
            | rest => exact ⟨rfl, rfl, .inr rfl⟩
        obtain ⟨rfl, rfl, there⟩ := quiet
        refine .claimed k dropped (by rwa [others k (Ne.symm same)]) fun j other => ?_
        by_cases moved : j = i
        · rwa [moved, Function.update_self]
        · rw [others j moved]
          exact seconds j other

end

namespace Pool

variable {o : Outcomes} {s : SlotId} {world : World σ ν} {moves : Nat} {pool : Pool n σ ν}
  {posts : Fin n → Post} {left : Fin n → Nat} {deeds : List Deed}

/-- What comes of threads that drop the value of a slot: one of them releases it, if there is one,
and the others do nothing. -/
structure Drops (o : Outcomes) (s : SlotId) (world : World σ ν) (pool : Pool n σ ν)
    (dropper : Fin n) (deeds : List Deed) : Prop where
  ledger : pool.world.deeds s = deeds ++ world.deeds s
  released : releases deeds = (world.slot s).value.toList
  answer : (pool.threads dropper).exit? = some (o.dropping (world.slot s).value)
  others : ∀ i, i ≠ dropper → (pool.threads i).exit? = some (.returned .done)
  slot : pool.world.slot s = { world.slot s with dropped := true, value := none }

theorem Attended.drops (attended : Attended o s .drop world moves pool posts left deeds)
    (calm : world.Calm s) (claimed : Claimed o (world.slot s).value (pool.world.cell s) posts deeds)
    (returned : ∀ i, ∃ exit, (pool.threads i).exit? = some exit) (some : 0 < n) :
    ∃ dropper, Drops o s world pool dropper deeds := by
  obtain ⟨unladen, unentered, unset, shared⟩ := attended.settled returned
  have done (i : Fin n) : ∃ exit, (pool.threads i).exit? = .some exit ∧
      (posts i).spot o (world.slot s) = .done exit :=
    (returned i).imp fun _ ended => ⟨ended, (attended.posted i).done ended⟩
  cases claimed with
  | unclaimed undropped away =>
      obtain ⟨exit, _, done⟩ := done ⟨0, some⟩
      rw [away] at done
      contradiction
  | claimed i dropped dropper others =>
      obtain ⟨exit, ended, spot⟩ := done i
      generalize posts i = post at dropper spot
      generalize held : (pool.world.cell s).value = value at dropper
      generalize gone : releases deeds = released at dropper
      cases dropper with
      | taking | releasing => contradiction
      | dropped =>
          refine ⟨i, attended.ledger, gone, ?_, fun j other => ?_, ?_⟩
          · rw [ended, Spot.done.inj spot]
          · obtain ⟨exit, ended, spot⟩ := done j
            rcases others j other with away | second
            · rw [away] at spot
              contradiction
            · rw [second] at spot
              rw [ended, Spot.done.inj spot]
          · have dropped : (pool.world.slot s).dropped = true := dropped
            have emptied : (pool.world.slot s).value = none := held
            refine (Slot.eq_of_setup attended.setup).trans ?_
            rw [dropped, emptied, unset.trans calm.initializing.symm,
              unentered.trans calm.entered.symm, shared]

end Pool

/-! ## Any order and one after the other -/

/-- Values of different runs are the same when their texts are. -/
def Value.plain (value : Value) : Value :=
  ⟨0, value.text⟩

def Exit.plain : Exit → Exit
  | returned (.value value) => returned (.value value.plain)
  | exit => exit

def Slot.plain (slot : Slot σ ν) : Slot σ ν :=
  { slot with value := slot.value.map Value.plain }

def Outcomes.results (o : Outcomes) (slot : Slot σ ν) (n : Nat) : Errand → Multiset (Option Exit)
  | .get =>
      let errors := o.errors (slot.value.elim (o.runs n) fun _ => 0)
      let text := (slot.value.map Value.text).or (o.text? n)
      ↑(errors.map fun error => some (o.answer slot error)) +
        Multiset.replicate (n - errors.length) (text.map fun text => .returned (.value ⟨0, text⟩))
  | .drop => {some (o.dropping slot.value).plain} + Multiset.replicate (n - 1) (some (.returned .done))

namespace Pool

variable {o : Outcomes} {s : SlotId} {errand : Errand} {world : World σ ν} {moves : Nat}
  {pool : Pool n σ ν} {turn : Pool n σ ν → Fin n → Prop}

def results (pool : Pool n σ ν) : Multiset (Option Exit) :=
  Finset.univ.val.map fun i => (pool.threads i).exit?.map Exit.plain

structure Matches (s : SlotId) (pool serial : Pool n σ ν) : Prop where
  results : pool.results = serial.results
  slot : (pool.world.slot s).plain = (serial.world.slot s).plain

def Served (o : Outcomes) (s : SlotId) (errand : Errand) (world : World σ ν) (pool : Pool n σ ν) :
    Prop :=
  match errand with
  | .get => ∃ callers deeds, Gets o s world pool callers deeds
  | .drop => 0 < n → ∃ dropper deeds, Drops o s world pool dropper deeds

theorem results_of_others {callers : List (Fin n)} (distinct : callers.Nodup) {other : Option Exit}
    (others : ∀ i, i ∉ callers → (pool.threads i).exit?.map Exit.plain = other) :
    pool.results = ↑(callers.map fun i => (pool.threads i).exit?.map Exit.plain) +
      Multiset.replicate (n - callers.length) other := by
  have within : (callers : Multiset (Fin n)) ≤ Finset.univ.val :=
    (Multiset.le_iff_subset (Multiset.coe_nodup.mpr distinct)).mpr fun i _ => Finset.mem_univ i
  obtain ⟨rest, whole⟩ := Multiset.le_iff_exists_add.mp within
  have apart := (Multiset.nodup_add.mp (whole ▸ Finset.univ.nodup)).2.2
  have size : rest.card = n - callers.length := by
    have cards := congrArg Multiset.card whole
    rw [Finset.card_val, Finset.card_univ, Fintype.card_fin, Multiset.card_add, Multiset.coe_card]
      at cards
    omega
  rw [results, whole, Multiset.map_add, Multiset.map_coe, ← size]
  congr 1
  refine Multiset.eq_replicate.mpr ⟨Multiset.card_map _ _, fun result member => ?_⟩
  obtain ⟨i, outside, rfl⟩ := Multiset.mem_map.mp member
  exact others i fun listed => Multiset.disjoint_left.mp apart (Multiset.mem_coe.mpr listed) outside

theorem Gets.results {callers : List (Fin n)} {deeds : List Deed}
    (gets : Gets o s world pool callers deeds) : pool.results = o.results (world.slot s) n .get := by
  have told := gets.told
  rw [gets.runs] at told
  have size := congrArg List.length told
  simp only [List.length_map] at size
  have others (i : Fin n) (outside : i ∉ callers) : (pool.threads i).exit?.map Exit.plain =
      (((world.slot s).value.map Value.text).or (o.text? n)).map fun text =>
        .returned (.value ⟨0, text⟩) := by
    obtain ⟨value, stored, ended⟩ := gets.got i outside
    rw [ended, ← gets.text, stored]
    rfl
  have plain := congrArg (List.map (Option.map Exit.plain)) told
  rw [List.map_map, List.map_map] at plain
  rw [results_of_others gets.distinct others, size]
  exact congrArg (fun results => Multiset.ofList results + _) plain

theorem Drops.results {dropper : Fin n} {deeds : List Deed}
    (drops : Drops o s world pool dropper deeds) :
    pool.results = o.results (world.slot s) n .drop := by
  have others (i : Fin n) (outside : i ∉ [dropper]) :
      (pool.threads i).exit?.map Exit.plain = some (.returned .done) := by
    rw [drops.others i (List.mem_singleton.not.mp outside)]
    rfl
  rw [results_of_others (List.nodup_singleton dropper) others, List.map_singleton, drops.answer]
  rfl

theorem Plays.gets (idle : world.Idle s)
    (run : Plays o s turn (.start s (fun _ => .get) world) moves pool) (rest : pool.AtRest s) :
    ∃ callers deeds, Gets o s world pool callers deeds := by
  obtain ⟨posts, left, deeds, attended, callers, errors, tally⟩ := run.rule idle.toCalm
    (fun _ posts deeds => ∃ callers errors, Tally o s (world.slot s).value posts deeds callers errors)
    ⟨[], [], .start _⟩ fun shared ⟨_, _, tally⟩ shifts => tally.step shared shifts
  exact ⟨callers, deeds, attended.gets idle.toCalm tally (run.returned idle attended rest)⟩

theorem Plays.drops (idle : world.Idle s)
    (run : Plays o s turn (.start s (fun _ => .drop) world) moves pool) (rest : pool.AtRest s)
    (some : 0 < n) : ∃ dropper deeds, Drops o s world pool dropper deeds := by
  obtain ⟨posts, left, deeds, attended, claimed⟩ := run.rule idle.toCalm
    (Claimed o (world.slot s).value) (.start idle.toCalm) fun _ claimed shifts => claimed.step shifts
  obtain ⟨dropper, drops⟩ :=
    attended.drops idle.toCalm claimed (run.returned idle attended rest) some
  exact ⟨dropper, deeds, drops⟩

theorem Plays.unmoved {first : Pool n σ ν} (run : Plays o s turn first moves pool) (none : n = 0) :
    pool = first := by
  subst none
  cases run with
  | refl => rfl
  | step run i => exact i.elim0

theorem Plays.matches {other : Pool n σ ν} {turns : Nat} {order : Pool n σ ν → Fin n → Prop}
    (idle : world.Idle s) (run : Plays o s turn (.start s (fun _ => errand) world) moves pool)
    (rest : pool.AtRest s) (again : Plays o s order (.start s (fun _ => errand) world) turns other)
    (rest' : other.AtRest s) : pool.Matches s other := by
  cases errand with
  | get =>
      obtain ⟨callers, deeds, gets⟩ := run.gets idle rest
      obtain ⟨callers', deeds', gets'⟩ := again.gets idle rest'
      refine ⟨gets.results.trans gets'.results.symm, ?_⟩
      have text := gets.text.trans gets'.text.symm
      have same : (pool.world.slot s).value.map Value.plain =
          (other.world.slot s).value.map Value.plain := by
        have plain := congrArg (Option.map (Value.mk 0)) text
        rwa [Option.map_map, Option.map_map] at plain
      rw [Slot.plain, Slot.plain, same, gets.slot, gets'.slot]
  | drop =>
      rcases Nat.eq_zero_or_pos n with none | some
      · rw [run.unmoved none, again.unmoved none]
        exact ⟨rfl, rfl⟩
      · obtain ⟨dropper, deeds, drops⟩ := run.drops idle rest some
        obtain ⟨dropper', deeds', drops'⟩ := again.drops idle rest' some
        refine ⟨drops.results.trans drops'.results.symm, ?_⟩
        rw [drops.slot, drops'.slot]

/-- Threads that all get, or all drop, the value of one slot make so many steps at most, and when
nobody can go on, all have returned. They have come to what calls come to of which each is made when
the ones before it have returned. What is counted are runs of the initializer and calls of the drop
handler, as each step of a thread adds to the ledger what it does. -/
theorem calls_agree (idle : world.Idle s)
    (run : Plays o s turn (.start s (fun _ => errand) world) moves pool) :
    moves ≤ n * ((world.slot s).toil + 8) ∧ pool.Honest ∧
      (pool.AtRest s → pool.Served o s errand world ∧
        ∀ {turns : Nat} {serial : Pool n σ ν},
          Plays o s InTurn (.start s (fun _ => errand) world) turns serial → serial.AtRest s →
          pool.Matches s serial) := by
  obtain ⟨posts, left, deeds, attended, -⟩ :=
    run.rule idle.toCalm (fun _ _ _ => True) trivial fun _ _ _ => trivial
  refine ⟨Nat.le_trans (Nat.le_add_right _ _) attended.bounded, fun _ _ _ => Thread.step_honest,
    fun rest => ⟨?_, ?_⟩⟩
  · cases errand with
    | get => exact run.gets idle rest
    | drop => exact run.drops idle rest
  · exact fun again rest' => run.matches idle rest again rest'

end Pool

/-- The first run of the initializer fails, and then the link does. -/
def World.onceRefused : World Nat Unit where
  memory := 0
  slots := Table.push {}
    { release := fun _ => .ret .done
      initializer := .load fun tries => .store (tries + 1)
        (.ret (if tries = 0 then .failed (.text "refused") else .text "value"))
      links := .register {} .any (.action (.ret (.failed (.text "stuck"))))
      handles := 2 }

def Outcomes.onceRefused : Outcomes where
  initializer runs := if runs = 0 then .inl (.text "refused") else .inr "value"
  linkKind _ _ := false
  handlerKind _ _ := false
  link _ _ := some (.text "stuck")
  handler _ _ := none
  release _ := .returned .done

def Pool.twoGet : Pool 2 Nat Unit :=
  .start 0 (fun _ => .get) .onceRefused

theorem Pool.calls_agree_onceRefused :
    ∃ moves pool, Plays .onceRefused 0 (fun _ _ => True) twoGet moves pool ∧ pool.AtRest 0 ∧
      moves ≤ 54 ∧ Served .onceRefused 0 .get .onceRefused pool ∧
      ∃ turns serial, Plays .onceRefused 0 InTurn twoGet turns serial ∧ serial.AtRest 0 ∧
        pool.Matches 0 serial := by
  have idle : World.onceRefused.Idle 0 := ⟨⟨by decide, rfl, rfl, rfl, rfl⟩, rfl, rfl⟩
  have run : Plays .onceRefused 0 (fun _ _ => True) twoGet 0 _ := .refl
  -- the second thread looks before the first enters
  obtain ⟨_, run⟩ := run.advance 1 3 (fun _ _ => trivial) (by decide)
  obtain ⟨_, run⟩ := run.advance 0 9 (fun _ _ => trivial) (by decide)
  have run := run.step 0 trivial rfl (fun serves => absurd serves (by decide)) (by
    rintro _ _ _ ⟨⟩ ⟨⟩
    exact fun _ => ⟨_, rfl, rfl⟩)
  obtain ⟨_, run⟩ := run.advance 0 1 (fun _ _ => trivial) (by decide)
  -- and gets the value while the first reacts to the error
  obtain ⟨_, run⟩ := run.advance 1 6 (fun _ _ => trivial) (by decide)
  have run := run.step 1 trivial rfl (fun serves => absurd serves (by decide)) (by
    rintro _ _ _ ⟨⟩ ⟨⟩
    exact fun _ => ⟨_, rfl, rfl⟩)
  obtain ⟨_, run⟩ := run.advance 0 8 (fun _ _ => trivial) (by decide)
  have run := run.step 0 trivial rfl (fun serves => absurd serves (by decide)) (by
    rintro _ _ _ ⟨⟩ ⟨⟩
    exact fun _ => ⟨_, rfl, fun _ _ _ => rfl⟩)
  obtain ⟨_, run⟩ := run.advance 1 12 (fun _ _ => trivial) (by decide)
  obtain ⟨_, run⟩ := run.advance 0 12 (fun _ _ => trivial) (by decide)
  have serial : Plays .onceRefused 0 InTurn twoGet 0 _ := .refl
  obtain ⟨_, serial⟩ := serial.advance 0 9 (fun _ _ => nofun) (by decide)
  have serial := serial.step 0 nofun rfl (fun serves => absurd serves (by decide)) (by
    rintro _ _ _ ⟨⟩ ⟨⟩
    exact fun _ => ⟨_, rfl, rfl⟩)
  obtain ⟨_, serial⟩ := serial.advance 0 9 (fun _ _ => nofun) (by decide)
  have serial := serial.step 0 nofun rfl (fun serves => absurd serves (by decide)) (by
    rintro _ _ _ ⟨⟩ ⟨⟩
    exact fun _ => ⟨_, rfl, fun _ _ _ => rfl⟩)
  obtain ⟨_, serial⟩ := serial.advance 0 12 (fun _ _ => nofun) (by decide)
  have turn {world : World Nat Unit} {threads : Fin 2 → Thread Nat Unit}
      (ended : (threads 0).exit?.isSome = true) : InTurn ⟨world, threads⟩ 1 := by
    intro j before
    match j with
    | 0 => exact ended
  obtain ⟨_, serial⟩ := serial.advance 1 9 (fun _ _ => turn rfl) (by decide)
  have serial := serial.step 1 (turn rfl) rfl (fun serves => absurd serves (by decide)) (by
    rintro _ _ _ ⟨⟩ ⟨⟩
    exact fun _ => ⟨_, rfl, rfl⟩)
  obtain ⟨_, serial⟩ := serial.advance 1 12 (fun _ _ => turn rfl) (by decide)
  have agree := calls_agree idle run
  refine ⟨_, _, run, ?rest, agree.1, (agree.2.2 ?rest).1, _, _, serial, ?serialRest,
    (agree.2.2 ?rest).2 serial ?serialRest⟩ <;>
  · intro i
    match i with
    | 0 | 1 => exact ⟨rfl, by decide⟩

end Relinquish
