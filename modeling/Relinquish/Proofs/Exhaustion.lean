import Relinquish.Proofs.Adoption
import Relinquish.Proofs.Owners
import Relinquish.Proofs.Routes
import Mathlib.Data.Finset.Card
import Mathlib.Data.Finset.Order

/-!
Owners that are released again. A release that returns leaves every slot of an owner's tree dropped,
and from then on to release the tree or a part of it does nothing. A release that panics has dropped
one slot more than were dropped before, so that there are no more panics than slots.
-/

namespace Relinquish

variable {σ ν : Type} {id : ThreadId} {s : SlotId} {world middle next : World σ ν} {exit : Exit}

/-! ## Trees -/

namespace Droppable

/-- A tree of owners with slots for its leaves. -/
inductive OfSlots : Droppable σ ν → Prop
  | slot (s : SlotId) : OfSlots (.slot s)
  | owner (droppables : List (Droppable σ ν)) (each : ∀ droppable ∈ droppables, OfSlots droppable) :
      OfSlots (.owner droppables)

inductive PartOf (part : Droppable σ ν) : Droppable σ ν → Prop
  | whole : PartOf part part
  | deeper (droppable : Droppable σ ν) (droppables : List (Droppable σ ν))
      (listed : droppable ∈ droppables) (partOf : PartOf part droppable) :
      PartOf part (.owner droppables)

variable {part tree : Droppable σ ν}

theorem OfSlots.of_part (ofSlots : tree.OfSlots) (partOf : part.PartOf tree) : part.OfSlots := by
  induction partOf with
  | whole => exact ofSlots
  | deeper droppable droppables listed _ ih =>
      cases ofSlots with
      | owner _ each => exact ih (each droppable listed)

theorem PartOf.slots (partOf : part.PartOf tree) : ∀ s ∈ part.slots, s ∈ tree.slots := by
  induction partOf with
  | whole => exact fun s member => member
  | deeper droppable droppables listed _ ih =>
      intro s member
      exact mem_slotsOfAll.mpr ⟨droppable, listed, ih s member⟩

def turns (droppable : Droppable σ ν) : List SlotId :=
  droppable.slots.reverse

theorem turns_owner (droppables : List (Droppable σ ν)) :
    (Droppable.owner droppables).turns = droppables.reverse.flatMap turns := by
  have slots : (Droppable.owner droppables).slots = droppables.flatMap Droppable.slots := by
    show slotsOfAll droppables = _
    induction droppables with
    | nil => rfl
    | cons droppable rest ih => rw [slotsOfAll, ih, List.flatMap_cons]
  rw [turns, slots, List.reverse_flatMap]
  rfl

end Droppable

/-! ## Drops -/

theorem Thread.Reaches.dropped {thread after : Thread σ ν} (run : Reaches world thread next after)
    (dropped : (world.slot s).dropped = true) : (next.slot s).dropped = true := by
  refine run.rule (fun next _ => (next.slot s).dropped = true) ?_ dropped
  intro middle between next after dropped action
  obtain ⟨_, _, _, _, effect⟩ := step_affects action
  exact effect.dropped dropped

theorem Thread.Reaches.swap_drops {thread after : Thread σ ν} (run : Reaches world thread next after)
    (swaps : thread.control = .task (.swap s)) (swapped : after.control ≠ .task (.swap s)) :
    (next.slot s).dropped = true := by
  obtain ⟨middle, between, action, rest⟩ := run.next fun same => swapped (same ▸ swaps)
  refine rest.dropped ?_
  cases dropped : (world.slot s).dropped with
  | true => exact Reaches.dropped (.step action (.refl _ _)) dropped
  | false =>
      obtain ⟨id, control, stack⟩ := thread
      obtain rfl : control = .task (.swap s) := swaps
      rw [step_swap dropped] at action
      cases action
      rw [World.marked, World.slot_updateSlot, if_pos rfl]

theorem Ends.swap_drops (run : Ends id world (.task (.swap s)) exit next) :
    (next.slot s).dropped = true :=
  Thread.Reaches.swap_drops run rfl nofun

theorem Ends.undropped_of_panicked {payload : Payload}
    (run : Ends id world (.task (.swap s)) (.panicked payload) next) :
    (world.slot s).dropped = false := by
  by_contra dropped
  have again : Ends id world (.task (.swap s)) (.returned .done)
      (world.act (.dropEnded s (.returned .done))) :=
    (Thread.Works.swap_again (Bool.not_eq_false _ ▸ dropped)).reaches
  exact Exit.noConfusion (again.unique run).1

/-! ## The turns of a release -/

/-- Slots are dropped one after the other, each drop returns, and owners tell of failures between
them. -/
inductive Visits (id : ThreadId) : World σ ν → List SlotId → World σ ν → Prop
  | nobody (world : World σ ν) : Visits id world [] world
  | drops {world middle next : World σ ν} {s : SlotId} {slots : List SlotId} {reply : Reply}
      (run : Ends id world (.task (.swap s)) (.returned reply) middle)
      (further : Visits id middle slots next) : Visits id world (s :: slots) next
  | tells {world next : World σ ν} {slots : List SlotId} (failures : List Error)
      (further : Visits id (world.ownerTold failures) slots next) : Visits id world slots next

inductive Visited (id : ThreadId) (world : World σ ν) (slots : List SlotId) :
    Exit → World σ ν → Prop
  | returned {next : World σ ν} (reply : Reply) (visits : Visits id world slots next) :
      Visited id world slots (.returned reply) next
  | panicked {reached next : World σ ν} {payload : Payload} (done : List SlotId) (s : SlotId)
      (left : List SlotId) (split : slots = done ++ s :: left) (visits : Visits id world done reached)
      (panics : Ends id reached (.task (.swap s)) (.panicked payload) next) :
      Visited id world slots (.panicked payload) next

section Turns

variable {first second slots : List SlotId}

theorem Visits.append (visits : Visits id world first middle)
    (further : Visits id middle second next) : Visits id world (first ++ second) next := by
  induction visits with
  | nobody world => exact further
  | drops run _ ih => exact .drops run (ih further)
  | tells failures _ ih => exact .tells failures (ih further)

theorem Visits.visited (visits : Visits id world first middle)
    (further : Visited id middle second exit next) : Visited id world (first ++ second) exit next := by
  cases further with
  | returned reply further => exact .returned reply (visits.append further)
  | panicked done s left split further panics =>
      refine .panicked (first ++ done) s left ?_ (visits.append further) panics
      rw [split, List.append_assoc]

theorem Visits.keeps (visits : Visits id world slots next) (dropped : (world.slot s).dropped = true) :
    (next.slot s).dropped = true := by
  induction visits with
  | nobody world => exact dropped
  | drops run _ ih => exact ih (Thread.Reaches.dropped run dropped)
  | tells failures _ ih =>
      apply ih
      rw [World.slot_ownerTold]
      exact dropped

theorem Visits.dropped (visits : Visits id world slots next) :
    ∀ s ∈ slots, (next.slot s).dropped = true := by
  induction visits with
  | nobody world => exact List.forall_mem_nil _
  | drops run further ih => exact List.forall_mem_cons.mpr ⟨further.keeps run.swap_drops, ih⟩
  | tells failures _ ih => exact ih

theorem Ends.disposeAll_visits {rest : List (Droppable σ ν)} {failures : List Error}
    (each : ∀ droppable ∈ rest, ∀ {world next : World σ ν} {exit : Exit},
      Ends id world (.task (.dispose droppable)) exit next →
        Visited id world droppable.turns exit next)
    (run : Ends id world (.task (.disposeAll rest failures)) exit next) :
    Visited id world (rest.flatMap Droppable.turns) exit next := by
  induction rest generalizing world failures with
  | nil =>
      have told : Ends id world (.task (.disposeAll [] failures))
          (.returned (Droppable.ownerResult failures)) (world.ownerTold failures) :=
        .step rfl (.refl _ _)
      obtain ⟨rfl, rfl⟩ := told.unique run
      exact .returned _ (.tells failures (.nobody _))
  | cons droppable rest ih =>
      have begun : Thread.Reaches world ⟨id, .task (.disposeAll (droppable :: rest) failures), []⟩
          world (Thread.above ⟨id, .task (.dispose droppable), []⟩ [.owning rest failures]) :=
        .step rfl (.refl _ _)
      obtain ⟨middle, inner, ended, resumed⟩ := (begun.rest run).cut (Nat.zero_le _)
      have visited := each droppable (.head _) ended
      rw [List.flatMap_cons]
      cases visited with
      | returned reply visits =>
          have goesOn : Ends id middle
              (.task (.disposeAll rest (failures ++ reply.error?.toList))) exit next :=
            Thread.Reaches.rest (.step rfl (.refl _ _)) resumed
          exact visits.visited (ih (fun other member => each other (.tail _ member)) goesOn)
      | panicked done s left split visits panics =>
          have passed : Ends id middle (.task (.finish _)) exit next :=
            Thread.Reaches.rest (.step rfl (.refl _ _)) resumed
          obtain ⟨rfl, rfl⟩ := (Ends.finish ..).unique passed
          refine .panicked done s (left ++ rest.flatMap Droppable.turns) ?_ visits panics
          rw [split, List.append_assoc, List.cons_append]

theorem Ends.dispose_visits {tree : Droppable σ ν} (ofSlots : tree.OfSlots)
    (run : Ends id world (.task (.dispose tree)) exit next) :
    Visited id world tree.turns exit next := by
  induction ofSlots generalizing world exit next with
  | slot s =>
      have run : Ends id world (.task (.swap s)) exit next :=
        Thread.Reaches.rest (.step rfl (.refl _ _)) run
      cases exit with
      | returned reply => exact .returned reply (.drops run (.nobody _))
      | panicked payload => exact .panicked [] s [] rfl (.nobody _) run
  | owner droppables each ih =>
      have run : Ends id world (.task (.disposeAll droppables.reverse [])) exit next :=
        Thread.Reaches.rest (.step rfl (.refl _ _)) run
      rw [Droppable.turns_owner]
      exact run.disposeAll_visits fun droppable member => ih droppable (List.mem_reverse.mp member)

end Turns

/-! ## Releases of what is dropped already -/

/-- What drops of dropped slots leave behind: acts that no log shows. -/
def World.droppedAgain (world : World σ ν) (slots : List SlotId) : World σ ν :=
  world.actAll (slots.map fun s => .dropEnded s (.returned .done))

theorem World.droppedAgain_append (world : World σ ν) (first second : List SlotId) :
    world.droppedAgain (first ++ second) = (world.droppedAgain first).droppedAgain second := by
  simp only [droppedAgain, actAll, List.map_append, List.foldl_append]

theorem World.slot_droppedAgain (world : World σ ν) (slots : List SlotId) (s : SlotId) :
    (world.droppedAgain slots).slot s = world.slot s :=
  world.slot_actAll _ s

theorem World.log_droppedAgain (world : World σ ν) (slots : List SlotId) :
    (world.droppedAgain slots).log = world.log := by
  induction slots generalizing world with
  | nil => rfl
  | cons s rest ih =>
      refine (ih (world.act (.dropEnded s (.returned .done)))).trans ?_
      simp [log, act]

section Again

variable {base : List (Frame σ ν)}

theorem Thread.Works.disposeAll_again {rest : List (Droppable σ ν)}
    (each : ∀ droppable ∈ rest, ∀ {world : World σ ν} {base : List (Frame σ ν)},
      (∀ s ∈ droppable.slots, (world.slot s).dropped = true) →
        Works world ⟨id, .task (.dispose droppable), base⟩ (world.droppedAgain droppable.turns)
          ⟨id, .task (.finish (.returned .done)), base⟩)
    (dropped : ∀ s ∈ slotsOfAll rest, (world.slot s).dropped = true) :
    Works world ⟨id, .task (.disposeAll rest []), base⟩
      (world.droppedAgain (rest.flatMap Droppable.turns))
      ⟨id, .task (.finish (.returned .done)), base⟩ := by
  induction rest generalizing world with
  | nil => exact .step rfl rfl (.done _ _)
  | cons droppable rest ih =>
      rw [slotsOfAll, List.forall_mem_append] at dropped
      rw [List.flatMap_cons, World.droppedAgain_append]
      have first : Works world ⟨id, .task (.dispose droppable), .owning rest [] :: base⟩
          (world.droppedAgain droppable.turns) ⟨id, .task (.finish (.returned .done)), _⟩ :=
        each droppable (.head _) dropped.1
      have still : ∀ s ∈ slotsOfAll rest,
          ((world.droppedAgain droppable.turns).slot s).dropped = true := by
        intro s member
        rw [World.slot_droppedAgain]
        exact dropped.2 s member
      have others := ih (fun other member => each other (.tail _ member)) still
      exact .step rfl rfl (first.trans (.step rfl rfl others))

theorem Thread.Works.dispose_again {tree : Droppable σ ν} (ofSlots : tree.OfSlots)
    (dropped : ∀ s ∈ tree.slots, (world.slot s).dropped = true) :
    Works world ⟨id, .task (.dispose tree), base⟩ (world.droppedAgain tree.turns)
      ⟨id, .task (.finish (.returned .done)), base⟩ := by
  induction ofSlots generalizing world base with
  | slot s => exact .step rfl rfl (swap_again (dropped s (.head _)))
  | owner droppables each ih =>
      rw [Droppable.turns_owner]
      refine .step rfl rfl (disposeAll_again ?_ ?_)
      · intro droppable member world base
        exact ih droppable (List.mem_reverse.mp member)
      · intro s member
        obtain ⟨droppable, listed, mentioned⟩ := mem_slotsOfAll.mp member
        exact dropped s (mem_slotsOfAll.mpr ⟨droppable, List.mem_reverse.mp listed, mentioned⟩)

end Again

/-! ## Releases come to their end -/

/-- The drop handlers that the release of a droppable runs come to their ends. -/
def World.HandlersEnd (world : World σ ν) (id : ThreadId) (tree : Droppable σ ν) : Prop :=
  ∀ reached s value base, base.all Frame.isOwning = true →
    Thread.Reaches world ⟨id, .task (.dispose tree), []⟩ reached
      ⟨id, .code ((reached.slot s).release value), .releasing s value :: base⟩ →
    ∃ exit next, Ends id reached (.code ((reached.slot s).release value)) exit next

theorem Ends.swap_total (free : world.free (.value s) = true)
    (handled : ∀ value, (world.slot s).dropped = false → (world.slot s).value = some value →
      ∃ exit next, Ends id (world.released s value) (.code ((world.slot s).release value)) exit next) :
    ∃ exit next, Ends id world (.task (.swap s)) exit next := by
  cases dropped : (world.slot s).dropped with
  | true => exact ⟨_, _, (Thread.Works.swap_again dropped).reaches⟩
  | false =>
      cases held : (world.slot s).value with
      | none => exact ⟨_, _, (Thread.Works.swap_empty dropped free held).reaches⟩
      | some value =>
          obtain ⟨exit, next, ends⟩ := handled value dropped held
          have begun : Thread.Reaches world ⟨id, .task (.swap s), []⟩ (world.released s value)
              ⟨id, .code ((world.slot s).release value), [.releasing s value]⟩ :=
            (Thread.Works.swap_runs dropped free held).reaches
          exact ⟨_, _, begun.trans ((ends.above [.releasing s value]).trans (.step rfl (.refl _ _)))⟩

section Total

variable {origin : World σ ν} {root : Thread σ ν}
  (swaps : ∀ reached s base, base.all Frame.isOwning = true →
    Thread.Reaches origin root reached ⟨id, .task (.swap s), base⟩ →
    ∃ exit next, Ends id reached (.task (.swap s)) exit next)

include swaps

theorem Ends.dispose_total {tree : Droppable σ ν} (ofSlots : tree.OfSlots) {base : List (Frame σ ν)}
    (owning : base.all Frame.isOwning = true)
    (reach : Thread.Reaches origin root world ⟨id, .task (.dispose tree), base⟩) :
    ∃ exit next, Ends id world (.task (.dispose tree)) exit next := by
  induction ofSlots generalizing world base with
  | slot s =>
      obtain ⟨exit, next, ends⟩ := swaps world s base owning (reach.trans (.step rfl (.refl _ _)))
      exact ⟨exit, next, .step rfl ends⟩
  | owner droppables each ih =>
      have loops (rest : List (Droppable σ ν)) (listed : ∀ droppable ∈ rest, droppable ∈ droppables)
          (failures : List Error) {world : World σ ν}
          (reach : Thread.Reaches origin root world ⟨id, .task (.disposeAll rest failures), base⟩) :
          ∃ exit next, Ends id world (.task (.disposeAll rest failures)) exit next := by
        induction rest generalizing world failures with
        | nil => exact ⟨_, _, .step rfl (.refl _ _)⟩
        | cons droppable rest again =>
            have begun : Thread.Reaches origin root world
                ⟨id, .task (.dispose droppable), .owning rest failures :: base⟩ :=
              reach.trans (.step rfl (.refl _ _))
            have above : (Frame.owning rest failures :: base).all Frame.isOwning = true := owning
            obtain ⟨inner, middle, ends⟩ := ih droppable (listed droppable (.head _)) above begun
            have passed {base : List (Frame σ ν)} : Thread.Reaches world
                ⟨id, .task (.disposeAll (droppable :: rest) failures), base⟩ middle
                ⟨id, .task (.finish inner), .owning rest failures :: base⟩ :=
              .step rfl (ends.above _)
            cases inner with
            | panicked payload => exact ⟨_, _, passed.trans (.step rfl (.refl _ _))⟩
            | returned reply =>
                obtain ⟨exit, next, further⟩ := again
                  (fun other member => listed other (.tail _ member)) _
                  (reach.trans (passed.trans (.step rfl (.refl _ _))))
                exact ⟨exit, next, passed.trans (.step rfl further)⟩
      have listed : ∀ droppable ∈ droppables.reverse, droppable ∈ droppables :=
        fun droppable => List.mem_reverse.mp
      obtain ⟨exit, next, ends⟩ :=
        loops droppables.reverse listed [] (reach.trans (.step rfl (.refl _ _)))
      exact ⟨exit, next, .step rfl ends⟩

end Total

/-! ## What is left to drop -/

namespace Droppable

def undropped (tree : Droppable σ ν) (world : World σ ν) : Finset SlotId :=
  tree.slots.toFinset.filter fun s => (world.slot s).dropped = false

variable {tree : Droppable σ ν}

theorem mem_undropped :
    s ∈ tree.undropped world ↔ s ∈ tree.slots ∧ (world.slot s).dropped = false := by
  simp [undropped]

theorem card_undropped_le (tree : Droppable σ ν) (world : World σ ν) :
    (tree.undropped world).card ≤ tree.slots.toFinset.card :=
  Finset.card_filter_le _ _

theorem undropped_subset {thread after : Thread σ ν} (run : thread.Reaches world next after) :
    tree.undropped next ⊆ tree.undropped world := by
  intro s member
  rw [mem_undropped] at member ⊢
  refine ⟨member.1, Bool.eq_false_iff.mpr fun dropped => ?_⟩
  exact Bool.eq_false_iff.mp member.2 (run.dropped dropped)

theorem OfSlots.undropped_lt (ofSlots : tree.OfSlots) {payload : Payload}
    (run : Ends id world (.task (.dispose tree)) (.panicked payload) next) :
    (tree.undropped next).card < (tree.undropped world).card := by
  cases run.dispose_visits ofSlots with
  | panicked done s left split visits panics =>
      -- The slot whose drop handler panics is marked before the handler begins.
      have listed : s ∈ tree.slots := by
        rw [← List.mem_reverse, ← turns, split]
        simp
      have before : s ∈ tree.undropped world := by
        refine mem_undropped.mpr ⟨listed, Bool.eq_false_iff.mpr fun dropped => ?_⟩
        exact Bool.eq_false_iff.mp panics.undropped_of_panicked (visits.keeps dropped)
      have after : s ∉ tree.undropped next := by
        rw [mem_undropped, panics.swap_drops]
        exact fun both => Bool.noConfusion both.2
      exact Finset.card_lt_card ⟨undropped_subset run, fun same => after (same before)⟩

theorem dropped_of_none_left (none : (tree.undropped world).card = 0) :
    ∀ s ∈ tree.slots, (world.slot s).dropped = true := by
  intro s member
  by_contra undropped
  rw [Finset.card_eq_zero, Finset.eq_empty_iff_forall_notMem] at none
  exact none s (mem_undropped.mpr ⟨member, Bool.eq_false_iff.mpr undropped⟩)

end Droppable

/-! ## Calls in a run -/

/-- The run of some code after so many steps. -/
abbrev Code.moment (code : Code σ ν) (memory : σ) (steps : Nat) : World σ ν × Thread σ ν :=
  Thread.advance steps { memory } (.ofCode 0 code)

section Calls

variable {memory : σ} {code : Code σ ν} {tree part : Droppable σ ν} {begun past later : Nat}

theorem Code.moment_reaches (later : begun ≤ past) :
    Thread.Reaches (code.moment memory begun).1 (code.moment memory begun).2
      (code.moment memory past).1 (code.moment memory past).2 :=
  .onward { memory } (.ofCode 0 code) later

theorem Code.undropped_le (code : Code σ ν) (memory : σ) (tree : Droppable σ ν)
    (later : begun ≤ past) : (tree.undropped (code.moment memory past).1).card ≤
      (tree.undropped (code.moment memory begun).1).card :=
  Finset.card_le_card (Droppable.undropped_subset (Code.moment_reaches later))

/-- A call that releases the tree begins at one moment and is over at another one. -/
structure Disposal (memory : σ) (code : Code σ ν) (tree : Droppable σ ν) (begun past : Nat)
    (exit : Exit) : Prop where
  later : begun ≤ past
  asks : (code.moment memory begun).2.control = .task (.dispose tree)
  ends : Ends (code.moment memory begun).2.id (code.moment memory begun).1 (.task (.dispose tree)) exit
    (code.moment memory past).1
  back : (code.moment memory past).2 =
    ⟨(code.moment memory begun).2.id, .task (.finish exit), (code.moment memory begun).2.stack⟩

theorem Disposal.of_ends (asks : (code.moment memory begun).2.control = .task (.dispose tree))
    (ends : Ends (code.moment memory begun).2.id (code.moment memory begun).1 (.task (.dispose tree))
      exit next) : ∃ past, Disposal memory code tree begun past exit := by
  obtain ⟨steps, run⟩ := ends.above (code.moment memory begun).2.stack
  have same : (code.moment memory begun).2 = ⟨(code.moment memory begun).2.id, .task (.dispose tree),
      (code.moment memory begun).2.stack⟩ := by
    rw [← asks]
  rw [← same] at run
  have reached : code.moment memory (begun + steps) = (next, ⟨(code.moment memory begun).2.id,
      .task (.finish exit), (code.moment memory begun).2.stack⟩) := by
    rw [Code.moment, Thread.advance_add]
    exact run
  refine ⟨begun + steps, Nat.le_add_right .., asks, ?_, ?_⟩
  · rw [reached]
    exact ends
  · rw [reached]

/-- Whoever releases the droppable runs no code, leaves nothing behind but acts that no log shows, and
succeeds. -/
structure Thread.DropsAgain (world : World σ ν) (thread : Thread σ ν) (tree : Droppable σ ν) :
    Prop where
  works : thread.Works world (world.droppedAgain tree.turns)
    ⟨thread.id, .task (.finish (.returned .done)), thread.stack⟩
  silent : (world.droppedAgain tree.turns).log = world.log

theorem Droppable.OfSlots.drops_again (ofSlots : tree.OfSlots) {thread : Thread σ ν}
    (asks : thread.control = .task (.dispose tree))
    (dropped : ∀ s ∈ tree.slots, (world.slot s).dropped = true) : thread.DropsAgain world tree := by
  obtain ⟨id, control, stack⟩ := thread
  obtain rfl : control = .task (.dispose tree) := asks
  exact ⟨.dispose_again ofSlots dropped, world.log_droppedAgain _⟩

theorem Thread.DropsAgain.of_swap {thread : Thread σ ν} (asks : thread.control = .task (.swap s))
    (dropped : (world.slot s).dropped = true) : thread.DropsAgain world (.slot s) := by
  obtain ⟨id, control, stack⟩ := thread
  obtain rfl : control = .task (.swap s) := asks
  exact ⟨.swap_again dropped, world.log_droppedAgain _⟩

/-- How the release of an owner's tree goes, however often it is called. -/
structure Exhausts (memory : σ) (code : Code σ ν) (tree : Droppable σ ν) : Prop where
  /-- A call that returns has given every slot its turns. -/
  returned : ∀ begun past reply, Disposal memory code tree begun past (.returned reply) →
    Visits (code.moment memory begun).2.id (code.moment memory begun).1 tree.turns
      (code.moment memory past).1 ∧
    ∀ s ∈ tree.slots, ((code.moment memory past).1.slot s).dropped = true
  again : ∀ begun past reply, Disposal memory code tree begun past (.returned reply) →
    ∀ later part, past ≤ later → part.PartOf tree →
      (code.moment memory later).2.control = .task (.dispose part) →
        (code.moment memory later).2.DropsAgain (code.moment memory later).1 part
  /-- A call that panics has come to the drop handler of a slot that was not dropped before. -/
  panicked : ∀ begun past payload, Disposal memory code tree begun past (.panicked payload) →
    ∃ done s left reached between value, tree.turns = done ++ s :: left ∧
      Visits (code.moment memory begun).2.id (code.moment memory begun).1 done reached ∧
      Thread.Reaches reached ⟨(code.moment memory begun).2.id, .task (.swap s), []⟩ between
        ⟨(code.moment memory begun).2.id, .task (.finish (.panicked payload)),
          [.releasing s value]⟩ ∧
      ((code.moment memory begun).1.slot s).dropped = false ∧
      ((code.moment memory past).1.slot s).dropped = true
  /-- A slot that is dropped already has its turn without anything being run. -/
  skips : ∀ moment s, (code.moment memory moment).2.control = .task (.swap s) →
    ((code.moment memory moment).1.slot s).dropped = true →
      (code.moment memory moment).2.DropsAgain (code.moment memory moment).1 (.slot s)
  /-- No more calls panic than the tree has slots, and after so many the next one returns. -/
  bounded : ∀ calls : List (Nat × Nat), calls.Pairwise (fun earlier later => earlier.2 ≤ later.1) →
    (∀ call ∈ calls, ∃ payload, Disposal memory code tree call.1 call.2 (.panicked payload)) →
      calls.length ≤ tree.slots.toFinset.card ∧
      (calls.length = tree.slots.toFinset.card → ∀ later, (∀ call ∈ calls, call.2 ≤ later) →
        (code.moment memory later).2.control = .task (.dispose tree) →
          (code.moment memory later).2.DropsAgain (code.moment memory later).1 tree)
  ends : ∀ begun, (code.moment memory begun).2.control = .task (.dispose tree) →
    (code.moment memory begun).1.HandlersEnd (code.moment memory begun).2.id tree →
      ∃ past exit, Disposal memory code tree begun past exit
  /-- No drop handler has ever been called twice. -/
  once : ∀ moment s,
    ((code.moment memory moment).1.handed.filter fun entry => entry.1 = s).length ≤ 1

theorem Disposal.panics_before (ofSlots : tree.OfSlots) {calls : List (Nat × Nat)}
    (apart : calls.Pairwise fun earlier later => earlier.2 ≤ later.1)
    (panicked : ∀ call ∈ calls, ∃ payload, Disposal memory code tree call.1 call.2 (.panicked payload))
    (since : ∀ call ∈ calls, begun ≤ call.1) (ended : ∀ call ∈ calls, call.2 ≤ past)
    (later : begun ≤ past) :
    calls.length + (tree.undropped (code.moment memory past).1).card ≤
      (tree.undropped (code.moment memory begun).1).card := by
  induction calls generalizing begun with
  | nil =>
      rw [List.length_nil, Nat.zero_add]
      exact code.undropped_le memory tree later
  | cons call calls ih =>
      obtain ⟨payload, first⟩ := panicked call (.head _)
      have before := code.undropped_le memory tree (since call (.head _))
      have fewer := ofSlots.undropped_lt first.ends
      have rest := ih apart.tail (fun other member => panicked other (.tail _ member))
        (fun _ member => List.rel_of_pairwise_cons apart member)
        (fun other member => ended other (.tail _ member)) (ended call (.head _))
      rw [List.length_cons]
      omega

theorem Regular.of_reaches {thread : Thread σ ν}
    (reach : Thread.Reaches { memory } (.ofCode id code) world thread) : Regular world thread := by
  obtain ⟨steps, reach⟩ := reach
  have regular := Regular.advance memory id code steps
  rwa [reach] at regular

theorem Disposal.exists_of_handlersEnd (ofSlots : tree.OfSlots)
    (asks : (code.moment memory begun).2.control = .task (.dispose tree))
    (handled : (code.moment memory begun).1.HandlersEnd (code.moment memory begun).2.id tree) :
    ∃ past exit, Disposal memory code tree begun past exit := by
  have total : ∃ exit next, Ends (code.moment memory begun).2.id (code.moment memory begun).1
      (.task (.dispose tree)) exit next := by
    refine Ends.dispose_total (fun reached s base owning reach => ?_) ofSlots
      (List.all_nil : List.all [] Frame.isOwning = true) (.refl _ _)
    -- No moment of the run has the value of a slot locked but those at which the lock is used.
    have free : reached.free (.value s) = true := by
      have above := reach.above (code.moment memory begun).2.stack
      have start : Thread.above ⟨(code.moment memory begun).2.id, .task (.dispose tree), []⟩
          (code.moment memory begun).2.stack = (code.moment memory begun).2 := by
        rw [← asks]
        rfl
      rw [start] at above
      exact (Regular.of_reaches (.trans ⟨begun, rfl⟩ above)).value_free rfl
    refine Ends.swap_total free fun value undropped held => ?_
    have begins : Thread.Works reached ⟨(code.moment memory begun).2.id, .task (.swap s), base⟩
        (reached.released s value) _ :=
      .swap_runs undropped free held
    have same : ((reached.released s value).slot s).release = (reached.slot s).release := by
      simp [World.released, World.marked]
    rw [← same] at begins ⊢
    exact handled _ s value base owning (reach.trans begins.reaches)
  obtain ⟨exit, next, ends⟩ := total
  obtain ⟨past, call⟩ := Disposal.of_ends asks ends
  exact ⟨past, exit, call⟩

/-- Whatever code runs, the release of a tree of slots is exhausted by its calls. -/
theorem Thread.owner_exhausts (memory : σ) (code : Code σ ν) (tree : Droppable σ ν)
    (ofSlots : tree.OfSlots) : Exhausts memory code tree := by
  have dropped {begun past : Nat} {reply : Reply}
      (call : Disposal memory code tree begun past (.returned reply)) :
      Visits (code.moment memory begun).2.id (code.moment memory begun).1 tree.turns
          (code.moment memory past).1 ∧
        ∀ s ∈ tree.slots, ((code.moment memory past).1.slot s).dropped = true := by
    cases call.ends.dispose_visits ofSlots with
    | returned _ visits =>
        exact ⟨visits, fun s member => visits.dropped s (List.mem_reverse.mpr member)⟩
  constructor
  case returned => exact fun begun past reply call => dropped call
  case again =>
    intro begun past reply call later part after partOf asks
    refine (ofSlots.of_part partOf).drops_again asks fun s member => ?_
    exact (Code.moment_reaches after).dropped ((dropped call).2 s (partOf.slots s member))
  case panicked =>
    intro begun past payload call
    cases call.ends.dispose_visits ofSlots with
    | panicked done s left split visits panics =>
        obtain ⟨between, value, handled⟩ := panics.of_swap_panicked
        refine ⟨done, s, left, _, between, value, split, visits, handled, ?_, panics.swap_drops⟩
        refine Bool.eq_false_iff.mpr fun dropped => ?_
        exact Bool.eq_false_iff.mp panics.undropped_of_panicked (visits.keeps dropped)
  case skips =>
    intro moment s asks dropped
    exact .of_swap asks dropped
  case bounded =>
    -- A call that panics drops a slot that was not dropped before, and the tree has so many only.
    intro calls apart panicked
    have most := tree.card_undropped_le (code.moment memory 0).1
    refine ⟨?_, fun all later ended asks => ?_⟩
    · obtain ⟨last, latest⟩ := (calls.map Prod.snd).toFinset.exists_le
      have ended : ∀ call ∈ calls, call.2 ≤ last := fun call member =>
        latest call.2 (List.mem_toFinset.mpr (List.mem_map_of_mem member))
      have fewer := Disposal.panics_before ofSlots apart panicked (fun _ _ => Nat.zero_le _) ended
        (Nat.zero_le _)
      omega
    · have fewer := Disposal.panics_before ofSlots apart panicked (fun _ _ => Nat.zero_le _) ended
        (Nat.zero_le _)
      exact ofSlots.drops_again asks (Droppable.dropped_of_none_left (by omega))
  case ends => exact fun begun => Disposal.exists_of_handlersEnd ofSlots
  case once =>
    intro moment s
    obtain ⟨release, -, releases⟩ :=
      (Releases.ofCode memory 0 code s).advance (.ofCode memory 0 code) moment
    exact releases.handed_once

end Calls

def Droppable.shared : Droppable Unit Unit :=
  .owner [.slot 0, .owner [.slot 1, .slot 0]]

/-- Releases the owner three times. The drop handler of one of its slots panics. -/
def Code.releaseThrice : Code Unit Unit :=
  .call (.newSlot (fun _ => .ret .done) (.ret (.text "fine"))) fun _ =>
    .call (.newSlot (fun _ => .panic (.text "boom")) (.ret (.text "stubborn"))) fun _ =>
      .call (.getValue 0) fun _ =>
        .call (.getValue 1) fun _ =>
          .call (.keep Droppable.shared) fun _ =>
            .attempt (.call (.dispose 0) .ret) fun _ =>
              .call (.dispose 0) fun _ => .call (.dispose 0) .ret

theorem Droppable.shared_ofSlots : shared.OfSlots := by
  have inner : (Droppable.owner [.slot 1, .slot 0] : Droppable Unit Unit).OfSlots := by
    refine .owner _ fun droppable member => ?_
    obtain rfl | rfl := List.mem_pair.mp member <;> exact .slot _
  refine .owner _ fun droppable member => ?_
  obtain rfl | rfl := List.mem_pair.mp member
  · exact .slot 0
  · exact inner

/-- The first release panics, the second one returns, and the third one finds nothing to do. -/
theorem Thread.owner_exhausts_releaseThrice :
    Droppable.shared.OfSlots ∧
      Disposal () Code.releaseThrice Droppable.shared 48 66 (.panicked (.text "boom")) ∧
      Disposal () Code.releaseThrice Droppable.shared 75 93 (.returned .done) ∧
      (Code.releaseThrice.moment () 101).2.control = .task (.dispose Droppable.shared) ∧
      (Code.releaseThrice.moment () 101).2.DropsAgain (Code.releaseThrice.moment () 101).1
        Droppable.shared := by
  have panics : Disposal () Code.releaseThrice Droppable.shared 48 66 (.panicked (.text "boom")) :=
    ⟨by decide, rfl, ⟨18, rfl⟩, rfl⟩
  have returns : Disposal () Code.releaseThrice Droppable.shared 75 93 (.returned .done) :=
    ⟨by decide, rfl, ⟨18, rfl⟩, rfl⟩
  have exhausts := Thread.owner_exhausts () Code.releaseThrice Droppable.shared Droppable.shared_ofSlots
  refine ⟨Droppable.shared_ofSlots, panics, returns, rfl, ?_⟩
  exact exhausts.again 75 93 .done returns 101 Droppable.shared (by decide) .whole rfl

end Relinquish
