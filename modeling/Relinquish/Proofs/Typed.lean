import Relinquish.Proofs.Causes
import Relinquish.Proofs.Lookups

/-!
Typed handlers. A handler for errors of one type is registered under the kind of that type and looks
for its error again when it is called. The two searches are made at different moments, but for the same
error and along the same trail: whoever is called finds what it has been selected for.
-/

namespace Relinquish

variable {σ ν : Type}

/-! ## The nearest error of a type -/

def Error.Nearest (type : ErrorType) (error cause : Error) : Prop :=
  ∃ nearer further, error.Trail (nearer ++ cause :: further) ∧ cause.isA type = true ∧
    ∀ other ∈ nearer, other.isA type = false

theorem Error.find_eq_some_iff {type : ErrorType} {error cause : Error} :
    error.find type = some cause ↔ Nearest type error cause := by
  rw [find_eq, List.find?_eq_some_iff_append]
  simp only [Nearest, trail_iff, Bool.not_eq_true']
  constructor
  · rintro ⟨own, nearer, further, path, others⟩
    exact ⟨nearer, further, path.symm, own, others⟩
  · rintro ⟨nearer, further, path, own, others⟩
    exact ⟨own, nearer, further, path.symm, others⟩

/-- An error of the initializer stands right behind the error that reports it, so that no search but
one for errors of the library itself can tell the two apart. -/
theorem DropError.findCause_initialization {type : ErrorType} (other : type ≠ .drop) (error : Error)
    (failures : List DropError) :
    (DropError.initialization error failures).findCause type = error.find type := by
  have foreign : (Error.drop (.initialization error failures)).isA type = false := by
    cases type <;> first | rfl | exact absurd rfl other
  rw [findCause, Error.find_eq, Error.find_eq, Error.path, List.find?_cons_of_neg (by rw [foreign]; decide)]
  rfl

/-! ## Registration -/

def ErrorType.handler (type : ErrorType) (callback : Error → Code σ ν) (error : Error) : Code σ ν :=
  match error.find type with
  | some cause => callback cause
  | none => .ret .done

theorem ErrorType.handler_of_find {type : ErrorType} {error cause : Error}
    (found : error.find type = some cause) (callback : Error → Code σ ν) :
    type.handler callback error = callback cause := by
  rw [handler, found]

def Registry.Typed (registry : Registry σ ν (Error → Code σ ν)) (place : Nat) (type : ErrorType)
    (callback : Error → Code σ ν) : Prop :=
  registry.entries[place]? = some (.of type, type.handler callback)

section
variable {world next : World σ ν} {registry : Registry σ ν (Error → Code σ ν)} {s : SlotId} {place : Nat}
  {type : ErrorType} {callback : Error → Code σ ν}

theorem World.entry_made {entry : Kind σ ν × (Error → Code σ ν)}
    (found : (world.slot s).handlers.entries[place]? = some entry) : s < world.slots.size := by
  by_contra unmade
  rw [World.slot_unmade unmade] at found
  contradiction

theorem World.Grows.entry (grows : world.Grows next) {entry : Kind σ ν × (Error → Code σ ν)}
    (found : (world.slot s).handlers.entries[place]? = some entry) :
    (next.slot s).handlers.entries[place]? = some entry := by
  obtain ⟨added, more⟩ := grows.handlers s (World.entry_made found)
  rw [← more, List.getElem?_append_left (List.getElem?_eq_some_iff.mp found).1, found]

theorem Registry.typed_register :
    (registry.register (.of type) (type.handler callback)).Typed registry.size type callback := by
  simp [Typed, register, size]

theorem World.registers_typed {thread after : Thread σ ν}
    (starts : thread.control = .task (.start (.callOnType s type callback)))
    (action : thread.step world = some (next, after)) :
    (next.slot s).handlers.Typed (world.slot s).handlers.size type callback ∨
      next = world ∧ after.control = .task (.finish (.returned .missing)) := by
  obtain ⟨id, control, stack⟩ := thread
  obtain rfl := starts
  obtain ⟨move, made, rfl, rfl⟩ := Thread.step_task action nofun
  have registers : Ensures (Call.start world (.callOnType s type callback)) fun move =>
      (move.world.slot s).handlers.Typed (world.slot s).handlers.size type callback ∨
        move.world = world ∧ move.control = .task (.finish (.returned .missing)) := by
    simp only [Call.callOnType, Call.start, Ensures.whenUsable_iff, Ensures.whenFree_iff,
      Ensures.answer_iff, World.slot_act, World.slot_updateSlot, if_true]
    exact ⟨fun _ _ => .inl Registry.typed_register, fun _ => .inr ⟨trivial, trivial⟩⟩
  exact registers move made

end

/-! ## Entries that have their turn -/

section
variable {id : ThreadId} {s : SlotId} {error : Error} {world next origin failed begun : World σ ν}
  {place : Nat} {handler : Error → Code σ ν}

theorem Called.grows {α : Type} {begins : Nat → Act} {turn : α → Control σ ν} {event : Error → Event}
    {entries : List (Nat × α)} {errors : List Error}
    (called : Called id begins turn event world entries errors next) : world.Grows next := by
  induction called with
  | nobody world => exact .refl world
  | @returned world middle _ place _ _ _ reply run _ ih =>
      have begun := (World.Retains.act world (begins place)).grows
      have told := (World.Retains.emitAll middle (reply.error?.map event).toList).grows
      exact begun.trans ((Thread.Reaches.grows run).trans (told.trans ih))

theorem Chosen.registered {links : List (Nat × Droppable σ ν)}
    {handlers : List (Nat × (Error → Code σ ν))}
    (chosen : Chosen id s error origin links handlers begun) (member : (place, handler) ∈ handlers) :
    ∃ kind, (begun.slot s).handlers.entries[place]? = some (kind, handler) ∧
      kind.Verdict id error true := by
  obtain ⟨selecting, judged⟩ := chosen
  obtain ⟨kind, found⟩ := judged.decides.registered place handler member
  obtain ⟨holds, verdict, matching⟩ := judged.decides.matching place kind handler found
  obtain rfl := matching.mp member
  exact ⟨kind, judged.restores.preserves.toGrows.entry found, verdict⟩

theorem Reacting.registered {acts : List Act} {thread : Thread σ ν} {t : SlotId} {cause : Error}
    (reacting : Reacting id s error origin acts world thread)
    (invokes : thread.invokes? = some (.handlerStarted t place cause)) :
    ∃ kind handler rest failures,
      thread = ⟨id, .task (.handlers s error ((place, handler) :: rest) failures), []⟩ ∧
      (world.slot s).handlers.entries[place]? = some (kind, handler) ∧
      kind.Verdict id error true := by
  cases reacting with
  | leaves | consults | sifts | answered | panicked => contradiction
  | asks | linking | handling =>
      rw [Thread.invokes?_above] at invokes
      contradiction
  | @links _ _ rest =>
      cases rest with
      | nil => contradiction
      | cons => exact absurd (Option.some.inj invokes) nofun
  | @handlers _ _ done rest _ _ _ _ _ chosen released split handled =>
      cases rest with
      | nil => contradiction
      | cons entry rest =>
          obtain ⟨turn, handler⟩ := entry
          obtain rfl : turn = place := (Act.handlerStarted.inj (Option.some.inj invokes)).2.1
          have member : (turn, handler) ∈ done ++ (turn, handler) :: rest :=
            List.mem_append_right _ (.head _)
          obtain ⟨kind, found, verdict⟩ := chosen.registered (split ▸ member)
          have grows := (Called.grows released).trans (Called.grows handled)
          exact ⟨kind, handler, rest, _, rfl, grows.entry found, verdict⟩

theorem Reacting.reports {acts : List Act} {thread : Thread σ ν} {exit : Exit}
    (reacting : Reacting id s error origin acts world thread) (ended : thread.exit? = some exit) :
    (∃ payload, exit = .panicked payload) ∨
      ∃ failures, exit = .returned (.failed (.drop (.initialization error failures))) := by
  have empty : thread.stack = [] := by rw [Thread.exit?_eq_some ended]
  cases reacting with
  | leaves | consults | sifts | links | handlers => contradiction
  | asks | linking | handling => exact absurd empty (List.append_ne_nil_of_right_ne_nil _ nofun)
  | answered chosen => exact .inr ⟨_, (Option.some.inj ended).symm⟩
  | panicked => exact .inl ⟨_, (Option.some.inj ended).symm⟩

end

/-! ## Calls of typed handlers -/

theorem Kind.Verdict.of_type {id : ThreadId} {error : Error} {type : ErrorType} {holds : Bool}
    (verdict : (Kind.of type : Kind σ ν).Verdict id error holds) : (error.find type).isSome = holds := by
  cases verdict with
  | told verdict => exact Sum.inl.inj verdict
  | asked verdict => exact absurd verdict nofun

/-- At this moment the handler at the place is called and runs the callback on the nearest error of its
type. -/
def Thread.GivesNearest (thread : Thread σ ν) (world : World σ ν) (s : SlotId) (error : Error)
    (place : Nat) (type : ErrorType) (callback : Error → Code σ ν) : Prop :=
  ∃ cause rest failures, Error.Nearest type error cause ∧ error.find type = some cause ∧
    thread.step world = some (world.act (.handlerStarted s place error),
      ⟨thread.id, .code (callback cause), .handling s error rest failures :: thread.stack⟩)

/-- The reaction to an error calls the typed handlers for whose type the error has a cause, each once and
with the nearest such cause, which can be found behind the error that is reported in the end. -/
structure World.CallsTyped (failed : World σ ν) (id : ThreadId) (s : SlotId) (error : Error)
    (base : List (Frame σ ν)) : Prop where
  once : ∀ steps, ((Thread.failing id s error).invocations steps failed).Nodup
  called : ∀ place type callback, (failed.slot s).handlers.Typed place type callback →
    (∀ frame ∈ base, .links s ∉ frame.locks ∧ .handlers s ∉ frame.locks) →
    failed.ReturnsBefore id s error (.handlerStarted s place error) →
    ((∃ steps, .handlerStarted s place error ∈ (Thread.failing id s error).invocations steps failed) ↔
      ∃ cause, error.find type = some cause)
  given : ∀ steps place,
    let now := Thread.advance steps failed (.failing id s error)
    now.2.invokes? = some (.handlerStarted s place error) →
    ∀ type callback, (now.1.slot s).handlers.Typed place type callback →
      now.2.GivesNearest now.1 s error place type callback
  reported : (∃ rest, base = .looking s :: rest) ∧ ∀ steps exit,
    (Thread.advance steps failed (.failing id s error)).2.exit? = some exit →
      (∃ payload, exit = .panicked payload) ∨
      ∃ failures, exit = .returned (.failed (.drop (.initialization error failures))) ∧
        ∀ type, type ≠ .drop →
          (DropError.initialization error failures).findCause type = error.find type

section
variable {world failed : World σ ν} {id : ThreadId} {s : SlotId} {error : Error} {place : Nat}
  {type : ErrorType} {callback : Error → Code σ ν} {base : List (Frame σ ν)}

theorem Act.handlerStarted_mem {α β : Type} {links : List (Nat × α)} {handlers : List (Nat × β)} :
    .handlerStarted s place error ∈ Act.invocations s error links handlers ↔
      ∃ handler, (place, handler) ∈ handlers := by
  simp [Act.invocations, Act.links, Act.handlers]

theorem Registry.Decides.typed {registry : Registry σ ν (Error → Code σ ν)}
    {chosen : List (Nat × (Error → Code σ ν))} (decides : registry.Decides id error chosen)
    (typed : registry.Typed place type callback) :
    (∃ handler, (place, handler) ∈ chosen) ↔ ∃ cause, error.find type = some cause := by
  obtain ⟨holds, verdict, matching⟩ := decides.matching place _ _ typed
  rw [← Option.isSome_iff_exists, verdict.of_type, ← matching]
  constructor
  · rintro ⟨handler, member⟩
    obtain ⟨kind, found⟩ := decides.registered place handler member
    obtain ⟨_, rfl⟩ := Prod.mk.inj (Option.some.inj (found.symm.trans typed))
    exact member
  · exact fun member => ⟨_, member⟩

theorem World.Selects.typed {links : List (Nat × Droppable σ ν)}
    {handlers : List (Nat × (Error → Code σ ν))} (selects : failed.Selects id s error links handlers)
    (typed : (failed.slot s).handlers.Typed place type callback) :
    .handlerStarted s place error ∈ Act.invocations s error links handlers ↔
      ∃ cause, error.find type = some cause := by
  obtain ⟨asked, ⟨added, more⟩, decides, -⟩ := selects.handlers
  have typed : asked.Typed place type callback := by
    rw [Registry.Typed, ← more, List.getElem?_append_left (List.getElem?_eq_some_iff.mp typed).1]
    exact typed
  rw [Act.handlerStarted_mem, decides.typed typed]

theorem Thread.Placed.lookedFor (placed : ((Thread.failing id s error).above base).Placed world) :
    ∃ rest, base = .looking s :: rest := by
  obtain ⟨above, -, fitted⟩ := placed
  exact fitted.2.looking

theorem Thread.step_handlers (world : World σ ν) (handler : Error → Code σ ν)
    (rest : List (Nat × (Error → Code σ ν))) (failures : List DropError) (stack : List (Frame σ ν)) :
    Thread.step world ⟨id, .task (.handlers s error ((place, handler) :: rest) failures), stack⟩ =
      some (world.act (.handlerStarted s place error),
        ⟨id, .code (handler error), .handling s error rest failures :: stack⟩) := rfl

theorem Reacting.givesNearest {origin : World σ ν} {acts : List Act} {thread : Thread σ ν}
    (reacting : Reacting id s error origin acts world thread)
    (invokes : thread.invokes? = some (.handlerStarted s place error))
    (typed : (world.slot s).handlers.Typed place type callback) :
    thread.GivesNearest world s error place type callback := by
  obtain ⟨kind, handler, rest, failures, rfl, found, verdict⟩ := reacting.registered invokes
  obtain ⟨rfl, rfl⟩ := Prod.mk.inj (Option.some.inj (found.symm.trans typed))
  obtain ⟨cause, found⟩ := Option.isSome_iff_exists.mp verdict.of_type
  refine ⟨cause, rest, failures, Error.find_eq_some_iff.mp found, found, ?_⟩
  rw [Thread.step_handlers, type.handler_of_find found]

theorem Regular.callsTyped {thread : Thread σ ν} (regular : Regular world thread)
    (placed : thread.Placed world) (fails : thread = (Thread.failing id s error).above base) :
    world.CallsTyped id s error base := by
  have made := regular.made fails
  have reacts := regular.reactsOnce fails
  constructor
  case once => exact reacts.once
  case called =>
    intro place type callback typed unlocked returns
    obtain ⟨links, handlers, begun, chosen, invoked⟩ := reacts.reached unlocked _ returns
    rw [invoked, (reacts.selects links handlers begun chosen).typed typed]
  case given =>
    intro steps place now invokes type callback typed
    cases steps with
    | zero => contradiction
    | succ steps => exact (Reacting.of_failing made steps).givesNearest invokes typed
  case reported =>
    subst fails
    refine ⟨placed.lookedFor, fun steps exit ended => ?_⟩
    cases steps with
    | zero => contradiction
    | succ steps =>
        obtain panicked | ⟨failures, rfl⟩ := (Reacting.of_failing made steps).reports ended
        · exact .inl panicked
        · exact .inr ⟨failures, rfl, fun type other =>
            DropError.findCause_initialization other error failures⟩

theorem Thread.GivesNearest.above {inner : Thread σ ν}
    (gives : inner.GivesNearest world s error place type callback) (base : List (Frame σ ν)) :
    (inner.above base).GivesNearest world s error place type callback := by
  obtain ⟨cause, rest, failures, nearest, found, calls⟩ := gives
  refine ⟨cause, rest, failures, nearest, found, ?_⟩
  rw [step_above world inner base (running_of_step calls), calls]
  rfl

theorem Control.reaction_of_handlerStarted {control : Control σ ν}
    (invokes : control.invokes? = some (.handlerStarted s place error)) :
    control.reaction? = some (s, error) := by
  unfold Control.invokes? at invokes
  split at invokes
  · contradiction
  · unfold Task.invokes? at invokes
    split at invokes
    · exact absurd (Option.some.inj invokes) nofun
    · obtain ⟨rfl, -, rfl⟩ := Act.handlerStarted.inj (Option.some.inj invokes)
      rfl
    · contradiction

end

/-! ## Typed handlers in a run -/

theorem Thread.givesNearest (memory : σ) (id : ThreadId) (code : Code σ ν) (n : Nat) {s : SlotId}
    {error : Error} {place : Nat} {type : ErrorType} {callback : Error → Code σ ν}
    (invokes : (advance n { memory } (.ofCode id code)).2.control.invokes? =
      some (.handlerStarted s place error))
    (typed : ((advance n { memory } (.ofCode id code)).1.slot s).handlers.Typed place type callback) :
    (advance n { memory } (.ofCode id code)).2.GivesNearest
      (advance n { memory } (.ofCode id code)).1 s error place type callback := by
  generalize stacked : (advance n { memory } (.ofCode id code)).2.stack = base
  have inside : (advance n { memory } (.ofCode id code)).2.InReaction s error base :=
    .works (Control.reaction_of_handlerStarted invokes) stacked
  have fresh : ∀ s error base, ¬ (Thread.ofCode id code : Thread σ ν).InReaction s error base := by
    rintro s error base (control | stack)
    · contradiction
    · exact absurd stack (by simp [ofCode])
  obtain ⟨moment, steps, i, rfl, answers⟩ := inside.answers fresh n
  have calls := (Regular.advance memory id code moment).callsTyped (Placed.advance memory id code moment)
    answers.fails
  have given := calls.given (steps + 1) place
  rw [answers.reacts] at invokes typed stacked ⊢
  generalize advance (steps + 1) _ (failing i s error) = reached at given invokes typed stacked
  obtain ⟨now, ⟨j, control, stack⟩⟩ := reached
  -- The stack is the base itself, so that there is nothing on it that the reaction has pushed.
  obtain rfl : stack = [] := List.self_eq_append_left.mp stacked.symm
  exact (given invokes type callback typed).above base

/-- At every moment of a run: callbacks on errors of a type are registered as such and stay so, also in
copies; the reaction to an error calls those for whose type the error has a cause; and whoever is called
gets the nearest one. -/
theorem Thread.typed_handlers_called (memory : σ) (id : ThreadId) (code : Code σ ν) {n : Nat}
    {world : World σ ν} {thread : Thread σ ν}
    (run : advance n { memory } (.ofCode id code) = (world, thread)) :
    (∀ s type callback next after, thread.control = .task (.start (.callOnType s type callback)) →
      thread.step world = some (next, after) →
        (next.slot s).handlers.Typed (world.slot s).handlers.size type callback ∨
          next = world ∧ after.control = .task (.finish (.returned .missing))) ∧
    (∀ s place type callback,
      (∃ m ≤ n, ((advance m { memory } (.ofCode id code)).1.slot s).handlers.Typed place type callback) →
        (world.slot s).handlers.Typed place type callback ∧
        ((world.copySlot s).1.slot (world.copySlot s).2).handlers.Typed place type callback) ∧
    (∀ i s error base, thread = (failing i s error).above base → world.CallsTyped i s error base) ∧
    ∀ s error place, thread.control.invokes? = some (.handlerStarted s place error) →
      ∀ type callback, (world.slot s).handlers.Typed place type callback →
        thread.GivesNearest world s error place type callback := by
  obtain ⟨rfl, rfl⟩ := Prod.mk.inj run
  refine ⟨fun s type callback next after => World.registers_typed, ?_, ?_, ?_⟩
  · rintro s place type callback ⟨m, earlier, typed⟩
    have typed := (Reaches.onward { memory } (.ofCode id code) earlier).grows.entry typed
    refine ⟨typed, ?_⟩
    rwa [Registry.Typed, (World.copySlot_registries _ s).2]
  · intro i s error base fails
    exact (Regular.advance memory id code n).callsTyped (Placed.advance memory id code n) fails
  · intro s error place invokes type callback typed
    exact givesNearest memory id code n invokes typed

def Error.outer : Error :=
  .custom "Outer" "refused" none (some (.custom "Inner" "missing" none none))

/-- A slot of which the initializer fails, with a callback on what is behind the failure. -/
def Code.failTyped : Code Unit Unit :=
  .call (.newSlot (fun _ => .ret .done) (.ret (.failed .outer))) fun
    | .object s =>
        .call (.callOnType s (.custom "Inner") fun cause => .ret (.failed cause)) fun _ =>
          .call (.getValue s) .ret
    | reply => .ret reply

theorem Thread.step_sift_told {world : World σ ν} {id : ThreadId} {selection : Selection σ ν}
    {error : Error} {place : Nat} {kind : Kind σ ν} (verdict : kind.judge error = .inl true)
    (rest : List (Nat × Kind σ ν)) (places : List Nat) (stack : List (Frame σ ν)) :
    Thread.step world ⟨id, .task (.sift selection error ((place, kind) :: rest) places), stack⟩ =
      some (world, ⟨id, .task (.sift selection error rest (places ++ [place])), stack⟩) := by
  simp only [Thread.step, Task.step, World.ask, verdict]
  rfl

theorem Thread.typed_handlers_called_failTyped :
    let moment := fun n => advance n { memory := () } (.ofCode 0 Code.failTyped)
    ((moment 21).1.slot 0).handlers.Typed 0 (.custom "Inner") (fun cause => .ret (.failed cause)) ∧
      (∃ base, (moment 13).1.CallsTyped 0 0 .outer base) ∧
      (moment 21).2.GivesNearest (moment 21).1 0 .outer 0 (.custom "Inner")
        fun cause => .ret (.failed cause) := by
  intro moment
  have judged : (Kind.of (.custom "Inner") : Kind Unit Unit).judge .outer = .inl true := by
    rw [Kind.of_judges_true_iff]
    exact ⟨_, .tail _ (.head _), rfl⟩
  have told : Thread.step (moment 18).1 (moment 18).2 = some ((moment 18).1,
      ⟨0, .task (.sift (.handlers 0 []) .outer [] [0]), (moment 18).2.stack⟩) :=
    step_sift_told judged [] [] (moment 18).2.stack
  have chosen : moment 21 = advance 2 (moment 18).1
      ⟨0, .task (.sift (.handlers 0 []) .outer [] [0]), (moment 18).2.stack⟩ := by
    have onward : moment 21 = advance 3 (moment 18).1 (moment 18).2 := advance_add 18 3 _ _
    rw [onward, advance, told]
  have invokes : (moment 21).2.control.invokes? = some (.handlerStarted 0 0 .outer) := by
    rw [chosen]
    rfl
  obtain ⟨-, -, reacts, -⟩ := typed_handlers_called () 0 Code.failTyped (rfl : moment 13 = _)
  obtain ⟨-, stays, -, gives⟩ := typed_handlers_called () 0 Code.failTyped (rfl : moment 21 = (_, _))
  have typed := (stays 0 0 _ _ ⟨6, by decide, rfl⟩).1
  exact ⟨typed, ⟨_, reacts 0 0 _ _ rfl⟩, gives 0 _ 0 invokes _ _ typed⟩

end Relinquish
