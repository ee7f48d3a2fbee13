import Relinquish.Proofs.Footprints
import Relinquish.Proofs.Lookups

/-!
Attempts to get a value that fail. By itself such an attempt changes nothing that slots show; it takes
back that the initializer runs before it selects or runs anybody, however it ends; and whoever asks
next for the value has the initializer run again.
-/

namespace Relinquish

variable {σ ν : Type}

/-! ## How a lookup goes -/

/-- A lookup gets to its initializer, or does not need it or is refused it, or has run it in vain. -/
inductive Phase where
  | opening
  | settled
  | failed (exit : Exit)

/-- What a lookup comes to of which the initializer has ended so. -/
inductive Exit.Reports : Exit → Exit → Prop
  | escapes (payload : Payload) : Reports (.panicked payload) (.panicked payload)
  | wraps (error : Error) (failures : List DropError) :
      Reports (.returned (.failed error)) (.returned (.failed (.drop (.initialization error failures))))
  | interrupted (error : Error) (payload : Payload) :
      Reports (.returned (.failed error)) (.panicked payload)

def Selection.Reacts (s : SlotId) (linked : Droppable σ ν → Prop) : Selection σ ν → Prop
  | .links t => t = s
  | .handlers t chosen => t = s ∧ ∀ entry ∈ chosen, linked entry.2
  | .numbers _ => False

namespace Task

def Opens (s : SlotId) : Task σ ν → Prop
  | look t | enter t | lookAgain t | produce t => t = s
  | _ => False

def Settles (s : SlotId) : Task σ ν → Prop
  | lockValue t _ | confirm t _ | store t _ => t = s
  | finish _ | releaseLate _ _ => True
  | unlockValue _ next | leave _ next => next.Settles s
  | _ => False

def Recovers (s : SlotId) (linked : Droppable σ ν → Prop) (exit : Exit) : Task σ ν → Prop
  | finish last => exit.Reports last
  | leave t next => t = s ∧ next.Recovers s linked exit
  | consult selection error | sift selection error _ _ =>
      selection.Reacts s linked ∧ exit = .returned (.failed error)
  | links t error rest _ _ =>
      t = s ∧ (∀ entry ∈ rest, linked entry.2) ∧ exit = .returned (.failed error)
  | handlers t error _ _ => t = s ∧ exit = .returned (.failed error)
  | _ => False

end Task

/-- Where a lookup of the slot is that a thread works on alone, if it has no links but these. -/
inductive Attempt (s : SlotId) (linked : Droppable σ ν → Prop) : Phase → Thread σ ν → Prop
  | opens {id : ThreadId} {work : Task σ ν} (opens : work.Opens s) :
      Attempt s linked .opening ⟨id, .task work, []⟩
  | tries (inner : Thread σ ν) (coded : inner.Coded) :
      Attempt s linked .opening (inner.above [.initializing s])
  | settles {id : ThreadId} {work : Task σ ν} (settles : work.Settles s) :
      Attempt s linked .settled ⟨id, .task work, []⟩
  | releases (inner : Thread σ ν) {t : SlotId} {value : Value} (coded : inner.Coded) :
      Attempt s linked .settled (inner.above [.releasingLate t value])
  | recovers {id : ThreadId} {work : Task σ ν} {exit : Exit} (recovers : work.Recovers s linked exit) :
      Attempt s linked (.failed exit) ⟨id, .task work, []⟩
  | asks (inner : Thread σ ν) {selection : Selection σ ν} {error : Error} {place : Nat}
      {rest : List (Nat × Kind σ ν)} {places : List Nat} (reacts : selection.Reacts s linked)
      (coded : inner.Coded) :
      Attempt s linked (.failed (.returned (.failed error)))
        (inner.above [.judging selection error place rest places])
  | unlinks (inner : Thread σ ν) {error : Error} {link : Droppable σ ν}
      {rest : List (Nat × Droppable σ ν)} {handlers : List (Nat × (Error → Code σ ν))}
      {failures : List DropError} (known : linked link) (disposes : inner.Disposes link.slots)
      (others : ∀ entry ∈ rest, linked entry.2) :
      Attempt s linked (.failed (.returned (.failed error)))
        (inner.above [.linking s error rest handlers failures])
  | handles (inner : Thread σ ν) {error : Error} {rest : List (Nat × (Error → Code σ ν))}
      {failures : List DropError} (coded : inner.Coded) :
      Attempt s linked (.failed (.returned (.failed error)))
        (inner.above [.handling s error rest failures])

section
variable {world next : World σ ν} {thread after : Thread σ ν} {s : SlotId} {phase : Phase}
  {linked : Droppable σ ν → Prop} {work : Task σ ν} {exit : Exit}

theorem Task.Opens.step (id : ThreadId) (opens : work.Opens s) :
    Ensures (work.step world id) fun move =>
      ∃ phase, ∀ id, Attempt s linked phase ⟨id, move.control, move.frames ++ []⟩ := by
  cases work with
  | look t =>
      simp only [Task.step, Ensures.whenFree_iff]
      intro _
      split
      · rw [Ensures.answer_iff]
        exact ⟨.settled, fun _ => .settles trivial⟩
      · rw [Ensures.go_iff]
        exact ⟨.opening, fun _ => .opens opens⟩
  | enter t =>
      simp only [Task.step, Ensures.bind_iff, Ensures.ite_iff, Ensures.go_iff]
      exact fun _ _ => ⟨fun _ => ⟨.settled, fun _ => .settles trivial⟩,
        fun _ => ⟨.opening, fun _ => .opens opens⟩⟩
  | lookAgain t =>
      simp only [Task.step, Ensures.whenFree_iff]
      intro _
      split <;> rw [Ensures.go_iff]
      · exact ⟨.settled, fun _ => .settles trivial⟩
      · exact ⟨.opening, fun _ => .opens opens⟩
  | produce t =>
      obtain rfl : t = s := opens
      simp only [Task.step, Ensures.ite_iff, Ensures.go_iff, Ensures.run_iff]
      exact ⟨fun _ => ⟨.settled, fun _ => .settles trivial⟩,
        fun _ => ⟨.opening, fun id => .tries ⟨id, _, []⟩ (.begins id _)⟩⟩
  | _ => exact False.elim opens

theorem Task.Settles.step (id : ThreadId) (settles : work.Settles s) :
    Ensures (work.step world id) fun move =>
      ∀ id, Attempt s linked .settled ⟨id, move.control, move.frames ++ []⟩ := by
  cases work with
  | finish exit => simp [Task.step]
  | lockValue t value =>
      simp only [Task.step, Ensures.whenFree_iff, Ensures.go_iff]
      exact fun _ _ => .settles settles
  | confirm t value =>
      simp only [Task.step, Ensures.ite_iff, Ensures.go_iff]
      exact ⟨fun _ _ => .settles trivial, fun _ _ => .settles settles⟩
  | store t value =>
      simp only [Task.step, Ensures.go_iff]
      exact fun _ => .settles trivial
  | unlockValue t next | leave t next =>
      simp only [Task.step, Ensures.go_iff]
      exact fun _ => .settles settles
  | releaseLate t value =>
      simp only [Task.step, Ensures.run_iff]
      exact fun id => .releases ⟨id, _, []⟩ (.begins id _)
  | _ => exact False.elim settles

theorem Task.Recovers.step (id : ThreadId) (recovers : work.Recovers s linked exit)
    (known : ∀ entry ∈ (world.slot s).links.entries, linked entry.2) :
    Ensures (work.step world id) fun move =>
      ∀ id, Attempt s linked (.failed exit) ⟨id, move.control, move.frames ++ []⟩ := by
  cases work with
  | finish exit => simp [Task.step]
  | leave t next =>
      simp only [Task.step, Ensures.go_iff]
      exact fun _ => .recovers recovers.2
  | consult selection error =>
      simp only [Task.step, Ensures.whenFree_iff, Ensures.go_iff]
      exact fun _ _ => .recovers recovers
  | sift selection error rest places =>
      obtain ⟨reacts, rfl⟩ := recovers
      cases rest <;> simp only [Task.step, Ensures.proceed_iff, Ensures.ask_iff]
      · refine ⟨?_, ?_, ?_⟩
        · rintro t rfl
          obtain rfl : t = s := reacts
          refine fun _ => .recovers ⟨⟨rfl, fun entry picked => ?_⟩, rfl⟩
          obtain ⟨place, _, found⟩ := List.mem_filterMap.mp picked
          obtain ⟨original, there, rfl⟩ := Option.map_eq_some_iff.mp found
          exact known original (List.mem_of_getElem? there)
        · rintro t links rfl
          exact fun _ => .recovers ⟨reacts.1, reacts.2, rfl⟩
        · rintro r rfl
          exact False.elim reacts
      · exact ⟨fun _ _ => .recovers ⟨reacts, rfl⟩, fun _ _ => .recovers ⟨reacts, rfl⟩,
          fun _ _ id => .asks ⟨id, _, []⟩ reacts (.begins id _)⟩
  | links t error rest callbacks failures =>
      obtain ⟨rfl, others, rfl⟩ := recovers
      cases rest <;> simp only [Task.step, Ensures.go_iff, Ensures.push_iff]
      · exact fun _ => .recovers ⟨rfl, rfl⟩
      · obtain ⟨first, others⟩ := List.forall_mem_cons.mp others
        exact fun id => .unlinks ⟨id, _, []⟩ first (.works (List.Subset.refl _)) others
  | handlers t error rest failures =>
      obtain ⟨rfl, rfl⟩ := recovers
      cases rest <;> simp only [Task.step, Ensures.answer_iff, Ensures.run_iff]
      · exact fun _ => .recovers (.wraps error failures)
      · exact fun id => .handles ⟨id, _, []⟩ (.begins id _)
  | _ => exact False.elim recovers

theorem World.initializerEnded_attempt (world : World σ ν) (s : SlotId)
    (linked : Droppable σ ν → Prop) (exit : Exit) :
    Ensures (world.initializerEnded s exit) fun move =>
      ∃ phase, (∀ id, Attempt s linked phase ⟨id, move.control, move.frames ++ []⟩) ∧
        (exit.failure? ≠ none → phase = .failed exit) := by
  simp only [Ensures.initializerEnded_iff]
  refine ⟨?_, ?_⟩
  · rintro payload rfl
    exact ⟨.failed (.panicked payload), fun _ => .recovers ⟨rfl, .escapes payload⟩, fun _ => rfl⟩
  · rintro reply rfl
    refine ⟨fun error failed => ?_, fun fine => ?_⟩
    · cases reply <;> cases failed
      exact ⟨_, fun _ => .recovers ⟨rfl, rfl, rfl⟩, fun _ => rfl⟩
    · exact ⟨.settled, fun _ => .settles rfl, fun fails => absurd fine fails⟩

theorem Attempt.step (attempt : Attempt s linked phase thread)
    (known : ∀ entry ∈ (world.slot s).links.entries, linked entry.2)
    (action : thread.step world = some (next, after)) :
    ∃ later, Attempt s linked later after ∧ (phase = .opening ∨ later = phase) := by
  -- What the lookup comes to is decided while it opens, at the latest when the initializer has ended.
  cases attempt with
  | opens opens =>
      obtain ⟨move, made, rfl, rfl⟩ := Thread.step_alone action
      obtain ⟨later, attempt⟩ := opens.step _ move made
      exact ⟨later, attempt _, .inl rfl⟩
  | tries inner coded =>
      rcases Thread.step_top action with ⟨further, moves, rfl⟩ | ⟨exit, move, _, made, rfl, rfl⟩
      · exact ⟨_, .tries further (coded.step moves), .inl rfl⟩
      · obtain ⟨later, attempt, _⟩ := world.initializerEnded_attempt s linked exit move made
        exact ⟨later, attempt _, .inl rfl⟩
  | settles settles =>
      obtain ⟨move, made, rfl, rfl⟩ := Thread.step_alone action
      exact ⟨_, settles.step _ move made _, .inr rfl⟩
  | releases inner coded =>
      rcases Thread.step_top action with ⟨further, moves, rfl⟩ | ⟨exit, move, _, made, rfl, rfl⟩
      · exact ⟨_, .releases further (coded.step moves), .inr rfl⟩
      · cases exit <;> obtain rfl := Option.some.inj made <;> exact ⟨_, .settles trivial, .inr rfl⟩
  | recovers recovers =>
      obtain ⟨move, made, rfl, rfl⟩ := Thread.step_alone action
      exact ⟨_, recovers.step _ known move made _, .inr rfl⟩
  | asks inner reacts coded =>
      rcases Thread.step_top action with ⟨further, moves, rfl⟩ | ⟨exit, move, _, made, rfl, rfl⟩
      · exact ⟨_, .asks further reacts (coded.step moves), .inr rfl⟩
      · cases exit <;> obtain rfl := Option.some.inj made
        · exact ⟨_, .recovers ⟨reacts, rfl⟩, .inr rfl⟩
        · exact ⟨_, .recovers (.interrupted _ _), .inr rfl⟩
  | unlinks inner link disposes others =>
      rcases Thread.step_top action with ⟨further, moves, rfl⟩ | ⟨exit, move, _, made, rfl, rfl⟩
      · exact ⟨_, .unlinks further link (disposes.step moves) others, .inr rfl⟩
      · cases exit with
        | panicked payload =>
            obtain rfl := Option.some.inj made
            exact ⟨_, .recovers (.interrupted _ _), .inr rfl⟩
        | returned reply =>
            cases reply <;> obtain rfl := Option.some.inj made <;>
              exact ⟨_, .recovers ⟨rfl, others, rfl⟩, .inr rfl⟩
  | handles inner coded =>
      rcases Thread.step_top action with ⟨further, moves, rfl⟩ | ⟨exit, move, _, made, rfl, rfl⟩
      · exact ⟨_, .handles further (coded.step moves), .inr rfl⟩
      · cases exit with
        | panicked payload =>
            obtain rfl := Option.some.inj made
            exact ⟨_, .recovers (.interrupted _ _), .inr rfl⟩
        | returned reply =>
            cases reply <;> obtain rfl := Option.some.inj made <;> exact ⟨_, .recovers ⟨rfl, rfl⟩, .inr rfl⟩

theorem Attempt.footprint (attempt : Attempt s linked phase thread)
    (action : thread.step world = some (next, after)) :
    thread.InCall ∨ world.ChangesOnly next fun t =>
      (phase = .settled ∧ t = s) ∨ thread.Unlinks s ∧ ∃ link, linked link ∧ t ∈ link.slots := by
  cases attempt with
  | @opens id work opens =>
      apply Or.inr
      apply Thread.step_footprint action
      intro t showing edit
      generalize Thread.top? _ = top at edit
      cases edit <;> exact False.elim opens
  | @settles id work settles =>
      apply Or.inr
      apply Thread.step_footprint action
      intro t showing edit
      cases work with
      | finish => contradiction
      | store =>
          cases edit
          exact .inl ⟨rfl, settles⟩
      | _ => cases edit <;> exact False.elim settles
  | @recovers id work exit recovers =>
      apply Or.inr
      apply Thread.step_footprint action
      intro t showing edit
      cases work with
      | finish => contradiction
      | _ => cases edit <;> exact False.elim recovers
  | unlinks inner known disposes others =>
      refine Thread.footprint_above nofun (fun further moves => ?_) action
      apply (disposes.footprint moves).imp_right
      intro changes
      exact changes.imp fun t owned =>
        .inr ⟨⟨_, _, _, _, List.mem_append_right _ (List.mem_singleton_self _)⟩, _, known, owned⟩
  | tries inner coded | releases inner coded | asks inner _ coded | handles inner coded =>
      exact Thread.footprint_above nofun (fun _ => coded.footprint _) action

end

/-! ## Attempts in a run -/

def World.lookup (world : World σ ν) (id : ThreadId) (s : SlotId) (steps : Nat) :
    World σ ν × Thread σ ν :=
  Thread.advance steps world ⟨id, .task (.look s), []⟩

def World.Linked (world : World σ ν) (id : ThreadId) (s : SlotId) : Droppable σ ν → Prop :=
  Thread.Linked world ⟨id, .task (.look s), []⟩ s

/-- How a lookup goes whose initializer ends so, and fails, at a moment of it. -/
structure World.Recovers (world : World σ ν) (id : ThreadId) (s : SlotId) (base : List (Frame σ ν))
    (moment : Nat) (exit : Exit) : Prop where
  called : ∃ rest, base = .looking s :: rest
  within : ∀ n, Thread.Reaches world ⟨id, .task (.look s), base⟩ (world.lookup id s n).1
    ((world.lookup id s n).2.above base)
  /-- Whatever is changed meanwhile, user code changes it by calls of its own, or it is changed because
  a link is dropped that is or owns the slot that it belongs to. -/
  unchanged : ∀ n next after,
    (world.lookup id s n).2.step (world.lookup id s n).1 = some (next, after) →
      (world.lookup id s n).2.InCall ∨ (world.lookup id s n).1.ChangesOnly next fun t =>
        (world.lookup id s n).2.Unlinks s ∧ ∃ link, world.Linked id s link ∧ t ∈ link.slots
  /-- From then on the slot is being initialized only while code has its initializer run again. -/
  clear : ∀ n, moment < n → .initializing s ∉ (world.lookup id s n).2.stack →
    ((world.lookup id s n).1.slot s).initializing = false
  ends : ∀ n last, (world.lookup id s n).2.exit? = some last → exit.Reports last
  /-- A panic of the initializer ends the lookup. -/
  unwinds : ∀ payload, exit = .panicked payload → ∀ more,
    (world.lookup id s (moment + 2 + more)).2.exit? = some exit
  /-- So does a panic of a predicate, a link or a handler. -/
  escapes : ∀ n, moment < n → ∀ j payload frame,
    (world.lookup id s n).2 = ⟨j, .task (.finish (.panicked payload)), [frame]⟩ → ∀ more,
      (world.lookup id s (n + 1 + more)).2.exit? = some (.panicked payload)

section
variable {world next : World σ ν} {thread after : Thread σ ν} {s : SlotId} {id j : ThreadId} {exit : Exit}
  {base : List (Frame σ ν)} {moment n : Nat} {linked : Droppable σ ν → Prop}

theorem World.lookup_add (world : World σ ν) (id : ThreadId) (s : SlotId) (first second : Nat) :
    world.lookup id s (first + second) =
      Thread.advance second (world.lookup id s first).1 (world.lookup id s first).2 :=
  Thread.advance_add first second _ _

theorem World.lookup_later {phase : Phase}
    (attempt : Attempt s (world.Linked id s) phase (world.lookup id s n).2) (more : Nat) :
    ∃ later, Attempt s (world.Linked id s) later (world.lookup id s (n + more)).2 ∧
      (phase = .opening ∨ later = phase) := by
  induction more with
  | zero => exact ⟨phase, attempt, .inr rfl⟩
  | succ more ih =>
      obtain ⟨middle, attempt, kept⟩ := ih
      rw [← Nat.add_assoc, lookup_add world id s (n + more) 1]
      simp only [Thread.advance]
      cases action : (world.lookup id s (n + more)).2.step (world.lookup id s (n + more)).1 with
      | none => exact ⟨middle, attempt, kept⟩
      | some moved =>
          obtain ⟨later, attempt, same⟩ :=
            attempt.step (fun entry member => ⟨n + more, List.mem_map_of_mem member⟩) action
          refine ⟨later, attempt, ?_⟩
          rcases kept with opening | rfl
          · exact .inl opening
          · exact same

theorem World.lookup_attempt (world : World σ ν) (id : ThreadId) (s : SlotId) (n : Nat) :
    ∃ phase, Attempt s (world.Linked id s) phase (world.lookup id s n).2 := by
  have begins : Attempt s (world.Linked id s) .opening (world.lookup id s 0).2 := .opens rfl
  obtain ⟨phase, attempt, _⟩ := lookup_later begins n
  rw [Nat.zero_add] at attempt
  exact ⟨phase, attempt⟩

theorem Attempt.fails (fails : thread = ⟨j, .task (.finish exit), [.initializing s]⟩)
    (failed : exit.failure? ≠ none) (linked : Droppable σ ν → Prop) :
    Attempt s linked (.failed exit) (Thread.advance 1 world thread).2 := by
  obtain ⟨move, made⟩ := Frame.resumes world exit (.initializing s)
  have action : thread.step world =
      some (move.world, ⟨move.thread.getD j, move.control, move.frames ++ []⟩) := by
    rw [fails]
    exact congrArg (Option.map _) made
  obtain ⟨phase, attempt, reports⟩ := world.initializerEnded_attempt s linked exit move made
  simp only [Thread.advance, action]
  rw [← reports failed]
  exact attempt _

theorem Attempt.opening {phase : Phase} (attempt : Attempt s linked phase thread)
    (tries : thread.stack = [.initializing s]) : phase = .opening := by
  cases attempt with
  | opens | tries => rfl
  | settles | recovers => contradiction
  | _ => exact absurd (Thread.above_ne tries) nofun

theorem Attempt.closes {phase : Phase} {last : Exit} (attempt : Attempt s linked phase thread)
    (ended : thread.exit? = some last) :
    phase = .settled ∨ ∃ exit, phase = .failed exit ∧ exit.Reports last := by
  have finished := Thread.exit?_eq_some ended
  cases attempt with
  | opens opens =>
      obtain rfl := Control.task.inj (congrArg Thread.control finished)
      exact False.elim opens
  | settles => exact .inl rfl
  | recovers recovers =>
      obtain rfl := Control.task.inj (congrArg Thread.control finished)
      exact .inr ⟨_, rfl, recovers⟩
  | _ =>
      have emptied := congrArg Thread.stack finished
      exact absurd emptied (List.append_ne_nil_of_right_ne_nil _ (List.cons_ne_nil _ _))

section
variable (fails : (world.lookup id s moment).2 = ⟨j, .task (.finish exit), [.initializing s]⟩)
include fails

theorem World.lookup_opening (earlier : n ≤ moment) :
    Attempt s (world.Linked id s) .opening (world.lookup id s n).2 := by
  obtain ⟨more, rfl⟩ := Nat.exists_eq_add_of_le earlier
  obtain ⟨phase, attempt⟩ := world.lookup_attempt id s n
  obtain ⟨later, tries, kept⟩ := lookup_later attempt more
  have opening : later = .opening := tries.opening (congrArg Thread.stack fails)
  rcases kept with same | same
  · exact same ▸ attempt
  · exact opening ▸ same ▸ attempt

theorem World.lookup_failed (failed : exit.failure? ≠ none) (later : moment < n) :
    Attempt s (world.Linked id s) (.failed exit) (world.lookup id s n).2 := by
  obtain ⟨more, rfl⟩ := Nat.exists_eq_add_of_lt later
  have begins : Attempt s (world.Linked id s) (.failed exit) (world.lookup id s (moment + 1)).2 := by
    rw [lookup_add]
    exact Attempt.fails fails failed _
  obtain ⟨phase, attempt, kept⟩ := lookup_later begins more
  rw [Nat.add_right_comm]
  rcases kept with opening | same
  · contradiction
  · exact same ▸ attempt

end

theorem Attempt.unwinds {frame : Frame σ ν} {payload : Payload}
    (attempt : Attempt s linked (.failed exit) thread)
    (panics : thread = ⟨j, .task (.finish (.panicked payload)), [frame]⟩) (world : World σ ν) :
    ∃ next, thread.step world = some (next, ⟨j, .task (.finish (.panicked payload)), []⟩) := by
  have stack := congrArg Thread.stack panics
  cases attempt with
  | recovers => contradiction
  | _ =>
      obtain rfl := Thread.above_ne stack
      rw [panics]
      exact ⟨_, rfl⟩

theorem World.lookup_over {last : Exit} {steps : Nat}
    (ends : Thread.advance steps (world.lookup id s n).1 (world.lookup id s n).2 =
      (next, ⟨j, .task (.finish last), []⟩)) (more : Nat) :
    (world.lookup id s (n + steps + more)).2.exit? = some last := by
  rw [lookup_add, lookup_add, ends, Thread.advance_finish]
  rfl

theorem Sound.alone {control : Control σ ν}
    (sound : Sound world ⟨id, control, .initializing s :: base⟩) : .initializing s ∉ base := by
  intro member
  have once := sound.guarded.ending.1
  exact List.count_eq_zero.mp once (List.mem_filterMap.mpr ⟨_, member, rfl⟩)

theorem World.lookup_recovers (sound : Sound world ⟨id, .task (.look s), base⟩)
    (placed : Thread.Placed world ⟨id, .task (.look s), base⟩)
    (fails : (world.lookup id s moment).2 = ⟨j, .task (.finish exit), [.initializing s]⟩)
    (failed : exit.failure? ≠ none) : world.Recovers id s base moment exit := by
  have run (n : Nat) : Thread.Reaches world ⟨id, .task (.look s), []⟩ (world.lookup id s n).1
    (world.lookup id s n).2 := ⟨n, rfl⟩
  have sound (n : Nat) : Sound (world.lookup id s n).1 ((world.lookup id s n).2.above base) :=
    ((run n).above base).sound sound
  constructor
  case called => exact placed.called
  case within => exact fun n => (run n).above base
  case unchanged =>
    intro n next after action
    obtain ⟨phase, attempt, other⟩ : ∃ phase,
        Attempt s (world.Linked id s) phase (world.lookup id s n).2 ∧ phase ≠ .settled := by
      rcases Nat.lt_or_ge moment n with later | earlier
      · exact ⟨_, lookup_failed fails failed later, nofun⟩
      · exact ⟨_, lookup_opening fails earlier, nofun⟩
    apply (attempt.footprint action).imp_right
    intro changes
    exact changes.imp fun t owned => owned.resolve_left fun settled => other settled.1
  case clear =>
    intro n later outside
    by_contra set
    have set := Bool.of_not_eq_false set
    -- The flag is set by an initializer that runs, and the one that failed ran below no other.
    have failure := sound moment
    rw [fails] at failure
    rcases List.mem_append.mp ((sound n).runs_of_set set) with above | below
    · exact outside above
    · exact failure.alone below
  case ends =>
    intro n last ended
    rcases Nat.lt_or_ge moment n with later | earlier
    · rcases (lookup_failed fails failed later).closes ended with settled | ⟨_, same, reports⟩
      · contradiction
      · exact Phase.failed.inj same ▸ reports
    · rcases (lookup_opening fails earlier).closes ended with settled | ⟨_, same, _⟩ <;> contradiction
  case unwinds =>
    rintro payload rfl more
    obtain ⟨next, ends⟩ : ∃ next,
        Thread.advance 2 (world.lookup id s moment).1 (world.lookup id s moment).2 =
          (next, ⟨j, .task (.finish (.panicked payload)), []⟩) := by
      rw [fails]
      exact ⟨_, rfl⟩
    exact lookup_over ends more
  case escapes =>
    intro n later j payload frame panics more
    obtain ⟨next, action⟩ := (lookup_failed fails failed later).unwinds panics (world.lookup id s n).1
    have ends : Thread.advance 1 (world.lookup id s n).1 (world.lookup id s n).2 =
        (next, ⟨j, .task (.finish (.panicked payload)), []⟩) := by
      simp only [Thread.advance, action]
    exact lookup_over ends more

/-! ## Calls that attempt it -/

theorem Call.Gets.attempts {call : Call σ ν} (gets : call.Gets s) (handles : 0 < (world.slot s).handles)
    (id : ThreadId) (stack : List (Frame σ ν)) :
    ∃ base, Thread.step world ⟨id, .task (.start call), stack⟩ =
        some (world.retain (.slot s), ⟨id, .task (.look s), .looking s :: base⟩) ∧
      ∀ (late : World σ ν) (j : ThreadId) (last : Exit), last.failure? ≠ none →
        0 < (late.slot s).handles → ∃ final,
          Thread.Works late ⟨j, .task (.finish last), .looking s :: base⟩ final
            ⟨j, .task (.finish last), stack⟩ ∧ ∀ t, final.shows t = late.shows t := by
  have gives (late : World σ ν) (j : ThreadId) (last : Exit) (left : 0 < (late.slot s).handles) :
      ∃ final, Thread.Works (late.act (.lookedUp s last))
          ⟨j, .task (.finish last), .holding [.slot s] :: stack⟩ final ⟨j, .task (.finish last), stack⟩ ∧
        ∀ t, final.shows t = late.shows t := by
    have left : 0 < ((late.act (.lookedUp s last)).slot s).handles := left
    exact ⟨_, .giveBack left j last stack, World.shows_relinquish _ _⟩
  cases call with
  | getValue t =>
      obtain rfl : t = s := gets
      have starts := Thread.step_operate handles (rfl : Call.start world (.getValue t) = _) id stack
      refine ⟨_, starts, ?_⟩
      intro late j last _ left
      obtain ⟨final, works, same⟩ := gives late j last left
      exact ⟨final, .step rfl rfl works, same⟩
  | withValue t use =>
      obtain rfl : t = s := gets
      have starts := Thread.step_operate handles (rfl : Call.start world (.withValue t use) = _) id stack
      refine ⟨_, starts, ?_⟩
      intro late j last fails left
      obtain ⟨final, works, same⟩ := gives late j last left
      have hands : Thread.step (late.act (.lookedUp t last))
          ⟨j, .task (.finish last), .getting use :: .holding [.slot t] :: stack⟩ =
          some (late.act (.lookedUp t last), ⟨j, .task (.finish last), .holding [.slot t] :: stack⟩) := by
        cases last with
        | panicked payload => rfl
        | returned reply => cases reply <;> first | rfl | exact absurd rfl fails
      exact ⟨final, .step rfl rfl (.step rfl hands works), same⟩
  | _ => exact False.elim gets

/-- Whatever code runs, a failed attempt to get a value leaves every slot as code makes it, or a link
that is dropped, and the next attempt has the initializer run again. -/
theorem Thread.attempts_recoverable (memory : σ) (begun : Nat) (code : Code σ ν)
    (run : advance begun { memory } (.ofCode id code) = (world, thread)) :
    (∀ s, .initializing s ∉ thread.stack → (world.slot s).initializing = false) ∧
    (∀ s base, thread = ⟨thread.id, .task (.look s), base⟩ → ∀ moment j exit,
      (world.lookup thread.id s moment).2 = ⟨j, .task (.finish exit), [.initializing s]⟩ →
        exit.failure? ≠ none → world.Recovers thread.id s base moment exit) ∧
    ∀ (call : Call σ ν) (s : SlotId), call.Gets s → thread.control = .task (.start call) →
      0 < (world.slot s).handles → ∃ base,
        thread.step world = some (world.retain (.slot s),
          ⟨thread.id, .task (.look s), .looking s :: base⟩) ∧
        (∀ (late : World σ ν) (j : ThreadId) (last : Exit), last.failure? ≠ none →
          0 < (late.slot s).handles → ∃ final,
            Works late ⟨j, .task (.finish last), .looking s :: base⟩ final
              ⟨j, .task (.finish last), thread.stack⟩ ∧ ∀ t, final.shows t = late.shows t) ∧
        ((world.slot s).dropped = false → (world.slot s).value = none →
          .initializing s ∉ thread.stack → ∃ next,
            Works world thread next
              ⟨thread.id, .code (world.slot s).initializer, .initializing s :: .looking s :: base⟩ ∧
            next.trials s = .begun :: world.trials s) := by
  have sound := Sound.advance memory id code begun
  have placed := Placed.advance memory id code begun
  have regular := Regular.advance memory id code begun
  rw [run] at sound placed regular
  refine ⟨?_, ?_, ?_⟩
  · intro s outside
    exact Bool.eq_false_iff.mpr fun set => outside (sound.runs_of_set set)
  · intro s base looks moment j exit fails failed
    rw [looks] at sound placed
    exact World.lookup_recovers sound placed fails failed
  · intro call s gets starts handles
    obtain ⟨i, control, stack⟩ := thread
    obtain rfl : control = .task (.start call) := starts
    obtain ⟨base, begins, returns⟩ := gets.attempts handles i stack
    refine ⟨base, begins, returns, ?_⟩
    intro undropped empty outside
    exact regular.tries rfl rfl begins (World.made_of_held (Nat.add_pos_left handles _)) undropped empty
      outside

end

/-- The drop of a link panics in each of two attempts. -/
def Code.failTwiceOver : Code Unit Unit :=
  .call (.newSlot (fun _ => .ret .done) (.ret (.failed (.text "refused")))) fun _ =>
    .call (.dropOnError 0 .any (.action (.panic (.text "stuck")))) fun _ =>
      .attempt (.call (.getValue 0) .ret) fun _ => .call (.getValue 0) .ret

theorem Thread.attempts_recoverable_failTwiceOver :
    let looking := advance 9 { memory := () } (.ofCode 0 Code.failTwiceOver)
    let asking := advance 32 { memory := () } (.ofCode 0 Code.failTwiceOver)
    (∃ base, looking.2 = ⟨0, .task (.look 0), base⟩ ∧
      looking.1.Recovers 0 0 base 5 (.returned (.failed (.text "refused")))) ∧
    ∃ base next, Works asking.1 asking.2 next ⟨0, .code (asking.1.slot 0).initializer, base⟩ ∧
      next.trials 0 = .begun :: asking.1.trials 0 := by
  intro looking asking
  have first := (attempts_recoverable () 9 Code.failTwiceOver (rfl : _ = looking)).2.1
  have second := (attempts_recoverable () 32 Code.failTwiceOver (rfl : _ = asking)).2.2
  obtain ⟨base, _, _, tries⟩ := second (.getValue 0) 0 rfl rfl Nat.one_pos
  obtain ⟨next, works, tried⟩ := tries rfl rfl nofun
  exact ⟨⟨_, rfl, first 0 _ rfl 5 0 (.returned (.failed (.text "refused"))) rfl nofun⟩,
    _, next, works, tried⟩

/-- The slot is a link of its own. -/
def Code.linkSelf : Code Unit Unit :=
  .call (.newSlot (fun _ => .ret .done) (.ret (.failed (.text "refused")))) fun _ =>
    .call (.dropOnError 0 .any (.slot 0)) fun _ => .call (.getValue 0) .ret

/-- A failed attempt drops the slot without a call of any code. -/
theorem World.attempt_drops_own :
    let looking := Thread.advance 8 { memory := () } (.ofCode 0 Code.linkSelf)
    (∃ base, looking.2 = ⟨0, .task (.look 0), base⟩) ∧ (looking.1.slot 0).dropped = false ∧
    (looking.1.lookup 0 0 5).2 =
      ⟨0, .task (.finish (.returned (.failed (.text "refused")))), [.initializing 0]⟩ ∧
    (looking.1.lookup 0 0 19).2 =
      ⟨0, .task (.finish (.returned (.failed (.drop (.initialization (.text "refused") []))))), []⟩ ∧
    ((looking.1.lookup 0 0 19).1.slot 0).dropped = true ∧
    ∀ n < 20, ¬ (looking.1.lookup 0 0 n).2.InCall :=
  ⟨⟨_, rfl⟩, rfl, rfl, rfl, rfl, by decide⟩

end Relinquish
