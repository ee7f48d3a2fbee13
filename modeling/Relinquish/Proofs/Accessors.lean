import Relinquish.Proofs.Attempts

/-!
Accessors. What an accessor gets it gets as a handle of its slot does, step by step and with the same
effects; it only makes something else of a failure. The fallback of an accessor is a value that no slot
ever has.
-/

namespace Relinquish

variable {σ ν : Type}

/-! ## Getting through an accessor -/

def Exit.orNone : Exit → Exit
  | .returned (.failed _) => .returned .nothing
  | exit => exit

def Exit.noneEvents (s : SlotId) : Exit → List Event
  | .returned (.failed error) => [.noneYielded s error]
  | _ => []

def Exit.orHeld : Exit → Exit
  | .returned (.value value) => .returned (.held value)
  | exit => exit

/-- What an accessor makes of the end of its fallback, when so many values have been made. -/
def Exit.fallen (values : Nat) : Exit → Exit
  | .returned reply => .returned (.fallback ⟨values, reply.content⟩)
  | exit => exit

def World.fallen (world : World σ ν) (s : SlotId) : Exit → World σ ν
  | .returned reply =>
      (world.makeValue reply.content).1.act (.fellBack s (world.makeValue reply.content).2)
  | .panicked _ => world

/-- What has come, so many steps later, of the lookup of a slot's value that a call has begun. -/
def World.sought (world : World σ ν) (id : ThreadId) (s : SlotId) (n : Nat) : World σ ν × Thread σ ν :=
  (world.retain (.slot s)).lookup id s n

def World.Finds (world : World σ ν) (id : ThreadId) (s : SlotId) (exit : Exit) (found : World σ ν) : Prop :=
  ∃ n, world.sought id s n = (found, ⟨id, .task (.finish exit), []⟩)

/-- How a get through an accessor goes, next to a get by a handle of the slot. The frames of the base
are those of the calls, which hold the slot until they end. -/
structure World.Refines (world : World σ ν) (id : ThreadId) (stack base : List (Frame σ ν))
    (a : AccessorId) (accessor : Accessor σ ν) : Prop where
  gets : 0 < (world.slot accessor.slot).handles → ∀ n,
    Thread.Reaches world ⟨id, .task (.start (.getValue accessor.slot)), stack⟩
      (world.sought id accessor.slot n).1
      ((world.sought id accessor.slot n).2.above (.looking accessor.slot :: base))
  accesses : ∀ n, Thread.Reaches world ⟨id, .task (.start (.access a)), stack⟩
    (world.sought id accessor.slot n).1
    ((world.sought id accessor.slot n).2.above (.looking accessor.slot :: accessor.frame :: base))
  /-- A lookup comes to a value of the slot, or to one of the three failures, unless it panics. -/
  answers : ∀ exit found, world.Finds id accessor.slot exit found →
    exit.Answers found.entered accessor.slot
  ends : ∀ exit found, world.Finds id accessor.slot exit found →
    Thread.Works found ⟨id, .task (.finish exit), .looking accessor.slot :: base⟩
      (found.act (.lookedUp accessor.slot exit)) ⟨id, .task (.finish exit), base⟩
  yields : accessor.fallback = none → ∀ exit found, world.Finds id accessor.slot exit found →
    Thread.Works found ⟨id, .task (.finish exit), .looking accessor.slot :: accessor.frame :: base⟩
      ((found.act (.lookedUp accessor.slot exit)).emitAll (exit.noneEvents accessor.slot))
      ⟨id, .task (.finish exit.orNone), base⟩
  holds : accessor.fallback ≠ none → ∀ exit found, world.Finds id accessor.slot exit found →
    (∀ error, exit ≠ .returned (.failed error)) →
      Thread.Works found ⟨id, .task (.finish exit), .looking accessor.slot :: accessor.frame :: base⟩
        (found.act (.lookedUp accessor.slot exit)) ⟨id, .task (.finish exit.orHeld), base⟩
  /-- Where the lookup fails, the event is emitted, the fallback runs, and its result is what is got. -/
  falls : ∀ code, accessor.fallback = some code → ∀ error found,
    world.Finds id accessor.slot (.returned (.failed error)) found → ∃ used,
      used = (found.act (.lookedUp accessor.slot (.returned (.failed error)))).emit
        (.fallbackUsed accessor.slot error) ∧
      Thread.Works found
        ⟨id, .task (.finish (.returned (.failed error))), .looking accessor.slot :: accessor.frame :: base⟩
        used ⟨id, .code code, .fallingBack accessor.slot :: base⟩ ∧
      ∀ exit last, Ends id used (.code code) exit last →
        Thread.Works last ⟨id, .task (.finish exit), .fallingBack accessor.slot :: base⟩
          (last.fallen accessor.slot exit) ⟨id, .task (.finish (exit.fallen last.values)), base⟩
  tries : (world.slot accessor.slot).dropped = false → (world.slot accessor.slot).value = none →
    .initializing accessor.slot ∉ stack → ∃ next,
      Thread.Works world ⟨id, .task (.start (.access a)), stack⟩ next
        ⟨id, .code (world.slot accessor.slot).initializer,
          .initializing accessor.slot :: .looking accessor.slot :: accessor.frame :: base⟩ ∧
      next.trials accessor.slot = .begun :: world.trials accessor.slot

section
variable {world : World σ ν} {id : ThreadId} {stack : List (Frame σ ν)} {a : AccessorId}
  {accessor : Accessor σ ν}

theorem Thread.step_access (found : world.accessor a = some accessor) (id : ThreadId)
    (stack : List (Frame σ ν)) :
    Thread.step world ⟨id, .task (.start (.access a)), stack⟩ =
      some (world.retain (.slot accessor.slot), ⟨id, .task (.look accessor.slot),
        .looking accessor.slot :: accessor.frame :: .holding [.slot accessor.slot] :: stack⟩) := by
  simp only [Thread.step, Task.step, Call.start, found]
  rfl

theorem Regular.refines (regular : Regular world ⟨id, .task (.start (.access a)), stack⟩)
    (placed : Thread.Placed world ⟨id, .task (.start (.access a)), stack⟩)
    (found : world.accessor a = some accessor) :
    world.Refines id stack (.holding [.slot accessor.slot] :: stack) a accessor := by
  obtain ⟨s, fallback⟩ := accessor
  have begins := Thread.step_access found id stack
  have sought (n : Nat) (base : List (Frame σ ν)) :
      Thread.Reaches (world.retain (.slot s)) ⟨id, .task (.look s), base⟩ (world.sought id s n).1
        ((world.sought id s n).2.above base) := by
    have alone : Thread.Reaches (world.retain (.slot s)) ⟨id, .task (.look s), []⟩
      (world.sought id s n).1 (world.sought id s n).2 := ⟨n, rfl⟩
    exact alone.above base
  have accesses (n : Nat) := Thread.Reaches.step begins (sought n _)
  constructor
  case gets =>
    intro handles n
    exact .step (Thread.step_operate handles rfl id stack) (sought n _)
  case accesses => exact accesses
  case answers =>
    rintro exit late ⟨n, ends⟩
    have run := accesses n
    rw [ends] at run
    exact (placed.reaches regular.tracked.sound run).answers
  case ends => exact fun exit late _ => .step rfl rfl (.done _ _)
  case yields =>
    rintro rfl exit late _
    have yields : Thread.step (late.act (.lookedUp s exit))
        ⟨id, .task (.finish exit), .orNone s :: .holding [.slot s] :: stack⟩ =
        some ((late.act (.lookedUp s exit)).emitAll (exit.noneEvents s),
          ⟨id, .task (.finish exit.orNone), .holding [.slot s] :: stack⟩) := by
      cases exit with
      | panicked payload => rfl
      | returned reply => cases reply <;> rfl
    exact .step rfl rfl (.step rfl yields (.done _ _))
  case holds =>
    intro falls exit late _ succeeds
    cases fallback with
    | none => exact absurd rfl falls
    | some code =>
        have holds : Thread.step (late.act (.lookedUp s exit))
            ⟨id, .task (.finish exit), .orElse s code :: .holding [.slot s] :: stack⟩ =
            some (late.act (.lookedUp s exit),
              ⟨id, .task (.finish exit.orHeld), .holding [.slot s] :: stack⟩) := by
          cases exit with
          | panicked payload => rfl
          | returned reply => cases reply <;> first | rfl | exact absurd rfl (succeeds _)
        exact .step rfl rfl (.step rfl holds (.done _ _))
  case falls =>
    rintro code rfl error late _
    refine ⟨_, rfl, .step rfl rfl (.step rfl rfl (.done _ _)), ?_⟩
    -- The frame below the fallback makes a new value of what it returns.
    intro exit last _
    cases exit <;> exact .step rfl rfl (.done _ _)
  case tries =>
    intro undropped empty outside
    have made : s < world.slots.size :=
      regular.tracked.sound.discreet.made.world.accessors a ⟨s, fallback⟩ found
    exact regular.tries rfl rfl begins made undropped empty outside

end

/-! ## Fallbacks -/

structure World.Outside (world : World σ ν) (value : Value) : Prop where
  made : value.id < world.values
  unentered : ∀ t, (t, value) ∉ world.entered

section
variable {world next : World σ ν} {thread after : Thread σ ν} {value : Value} {makes : Prop}
  {runs : Code σ ν → Prop} {stage stage' : Stage} {ended : Option Pause} {pushed : List Pause}

theorem Effect.enters (effect : Effect world next makes runs stage ended stage' pushed) :
    world.Alike next ∨ ∃ s condition deeds made, world.Alters next s condition deeds made ∧
      ∀ entry ∈ deeds.filterMap Deed.entry?, entry.2.id = world.values := by
  cases effect with
  | produced fresh change | cloned fresh change =>
      exact .inr ⟨_, _, _, _, change, List.forall_mem_singleton.mpr fresh⟩
  | began _ _ change | failed change | stored change | released _ change | swapped _ change
    | took _ _ change | discarded _ _ change => exact .inr ⟨_, _, _, _, change, nofun⟩
  | _ => exact .inl (by assumption)

theorem Effect.values (effect : Effect world next makes runs stage ended stage' pushed) :
    world.values ≤ next.values := by
  rcases effect.enters with same | ⟨_, _, _, made, change, _⟩
  · exact same.values
  · rw [change.values]
    exact Nat.le_add_right _ made

theorem Effect.outside (effect : Effect world next makes runs stage ended stage' pushed)
    (outside : world.Outside value) : next.Outside value := by
  refine ⟨Nat.lt_of_lt_of_le outside.made effect.values, fun t entered => ?_⟩
  rcases effect.enters with same | ⟨_, _, _, _, change, fresh⟩
  · rw [World.entered, same.ledger] at entered
    exact outside.unentered t entered
  · rw [World.entered, change.ledger, List.filterMap_append] at entered
    rcases List.mem_append.mp entered with new | old
    · exact Nat.ne_of_lt outside.made (fresh _ new)
    · exact outside.unentered t old

theorem Thread.Reaches.outside (run : Thread.Reaches world thread next after)
    (outside : world.Outside value) : next.Outside value := by
  apply run.rule (fun world _ => world.Outside value) _ outside
  rintro world thread next after outside action
  obtain ⟨_, _, _, _, effect⟩ := step_affects action
  exact effect.outside outside

theorem Thread.Reaches.values (run : Thread.Reaches world thread next after) :
    world.values ≤ next.values := by
  apply run.rule (fun next _ => world.values ≤ next.values) _ (Nat.le_refl _)
  rintro middle thread next after later action
  obtain ⟨_, _, _, _, effect⟩ := step_affects action
  exact Nat.le_trans later effect.values

end

/-- At a moment of a run no slot has the value, no drop handler has been given it, and nobody who looks
for the value of a slot gets it. -/
structure Thread.Unused (thread : Thread σ ν) (world : World σ ν) (value : Value) : Prop where
  stored : ∀ t, (world.slot t).value ≠ some value
  handed : ∀ t, (t, value) ∉ world.handed
  gotten : ∀ id t stack, thread ≠ ⟨id, .task (.finish (.returned (.value value))), .looking t :: stack⟩
  peeked : ∀ t next after, thread.control = .task (.start (.peek t)) →
    thread.step world = some (next, after) → after.control ≠ .task (.finish (.returned (.value value)))

theorem Thread.Unused.of_unentered {world : World σ ν} {thread : Thread σ ν} {value : Value}
    (sound : Sound world thread) (placed : thread.Placed world)
    (unentered : ∀ t, (t, value) ∉ world.entered) : thread.Unused world value := by
  have stored (t : SlotId) : (world.slot t).value ≠ some value :=
    fun held => unentered t (sound.balanced.entered_of_held held)
  constructor
  case stored => exact stored
  case handed =>
    intro t handed
    have balance := sound.balanced.balance t value
    have counted := List.count_pos_iff.mpr handed
    exact unentered t (List.count_pos_iff.mp (by omega))
  case gotten =>
    rintro id t stack rfl
    exact unentered t placed.answers
  case peeked =>
    intro t next after starts action
    obtain ⟨id, control, stack⟩ := thread
    obtain rfl : control = .task (.start (.peek t)) := starts
    have answers : Ensures (Call.start world (.peek t)) fun move =>
        move.control ≠ .task (.finish (.returned (.value value))) := by
      simp only [Call.start, Ensures.whenUsable_iff, Ensures.whenFree_iff, Ensures.answer_iff]
      constructor
      · intro _ _ same
        cases held : (world.slot t).value with
        | none =>
            rw [held] at same
            cases same
        | some other =>
            rw [held] at same
            cases same
            exact stored t held
      · rintro _ ⟨⟩
    obtain ⟨move, made, rfl, rfl⟩ := step_start action
    exact answers move made

/-- Whatever code runs, an accessor refines its slot, and what its fallback makes no slot ever has. -/
theorem Thread.accessors_refine (memory : σ) (id : ThreadId) (code : Code σ ν) {begun : Nat}
    {world : World σ ν} {thread : Thread σ ν}
    (run : advance begun { memory } (.ofCode id code) = (world, thread)) :
    (∀ a accessor, thread.control = .task (.start (.access a)) → world.accessor a = some accessor →
      world.Refines thread.id thread.stack (.holding [.slot accessor.slot] :: thread.stack) a accessor) ∧
    ∀ s reply base, thread = ⟨thread.id, .task (.finish (.returned reply)), .fallingBack s :: base⟩ →
      (∃ next, thread.step world = some (next,
        ⟨thread.id, .task (.finish (.returned (.fallback ⟨world.values, reply.content⟩))), base⟩)) ∧
      ∀ m, (advance m { memory } (.ofCode id code)).2.Unused
        (advance m { memory } (.ofCode id code)).1 ⟨world.values, reply.content⟩ := by
  have regular : Regular world thread := by
    have now := Regular.advance memory id code begun
    rwa [run] at now
  have placed : thread.Placed world := by
    have now := Placed.advance memory id code begun
    rwa [run] at now
  constructor
  · intro a accessor starts found
    obtain ⟨i, control, stack⟩ := thread
    obtain rfl : control = .task (.start (.access a)) := starts
    exact regular.refines placed found
  · intro s reply base falls
    have falling : thread.step world = some (world.fallen s (.returned reply),
        ⟨thread.id, .task (.finish (.returned (.fallback ⟨world.values, reply.content⟩))), base⟩) := by
      rw [falls]
      rfl
    refine ⟨⟨_, falling⟩, fun m => ?_⟩
    apply Unused.of_unentered (Sound.advance memory id code m) (Placed.advance memory id code m)
    rcases Nat.lt_or_ge begun m with later | earlier
    · -- From the next moment on the value has been made, and it stays outside.
      obtain ⟨more, rfl⟩ := Nat.exists_eq_add_of_lt later
      have made : (world.fallen s (.returned reply)).Outside ⟨world.values, reply.content⟩ := by
        refine ⟨Nat.lt_succ_self _, fun t entered => ?_⟩
        exact Nat.lt_irrefl _ (regular.tracked.sound.balanced.fresh _ entered)
      have since : Reaches (world.fallen s (.returned reply))
          ⟨thread.id, .task (.finish (.returned (.fallback ⟨world.values, reply.content⟩))), base⟩
          (advance (more + 1) world thread).1 (advance (more + 1) world thread).2 := by
        refine ⟨more, ?_⟩
        simp only [advance, falling]
      rw [Nat.add_assoc, advance_add, run]
      exact (since.outside made).unentered
    · -- Until then no value of that number has been made.
      intro t entered
      have onward : Reaches (advance m { memory } (.ofCode id code)).1
          (advance m { memory } (.ofCode id code)).2 world thread := by
        obtain ⟨more, rfl⟩ := Nat.exists_eq_add_of_le earlier
        rw [advance_add] at run
        exact ⟨more, run⟩
      have fresh := (Sound.advance memory id code m).balanced.fresh _ entered
      exact Nat.lt_irrefl _ (Nat.lt_of_lt_of_le fresh onward.values)

def Code.fallBack : Code Unit Unit :=
  .call (.newSlot (fun _ => .ret .done) (.ret (.failed (.text "refused")))) fun _ =>
    .call (.newAccessor 0 (some (.ret (.text "instead")))) fun _ =>
      .call (.access 0) fun _ => .call (.access 0) .ret

theorem Thread.accessors_refine_fallBack :
    let falling := advance 24 { memory := () } (.ofCode 0 Code.fallBack)
    let asking := advance 30 { memory := () } (.ofCode 0 Code.fallBack)
    (∀ m, (advance m { memory := () } (.ofCode 0 Code.fallBack)).2.Unused
      (advance m { memory := () } (.ofCode 0 Code.fallBack)).1 ⟨falling.1.values, "instead"⟩) ∧
    asking.1.Refines 0 asking.2.stack (.holding [.slot 0] :: asking.2.stack) 0
      ⟨0, some (.ret (.text "instead"))⟩ := by
  intro falling asking
  have falls := (accessors_refine () 0 Code.fallBack (rfl : _ = falling)).2
  have refines := (accessors_refine () 0 Code.fallBack (rfl : _ = asking)).1
  exact ⟨(falls 0 (.text "instead") _ rfl).2, refines 0 _ rfl rfl⟩

end Relinquish
