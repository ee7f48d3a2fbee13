import Relinquish.Proofs.Deferring

/-!
Teardowns whose result nobody gets: that of a scope which goes away with its last hold, and that of
a scope whose body has panicked. Their failures can only be logged. Each of them is logged where
the first failure is reported; where all are collected, one summary is logged, which has the text of
the first failure and only the number of the others.
-/

namespace Relinquish

variable {σ ν : Type} {id : ThreadId} {sc : ScopeId} {world begun next : World σ ν}

/-! ## What an event tells of an error -/

/-- The event is a warning or worse, and one of its fields has the text of the error in it. -/
def Event.Tells (event : Event) (error : Error) : Prop :=
  (event.level = .warn ∨ event.level = .error) ∧
    ∃ field ∈ event.fields, ∃ shown, field.2 = .text shown ∧
      error.message.toList <:+: shown.toList

theorem Event.tells_laterFailure (sc : ScopeId) (later error : Error) :
    (laterFailure sc later).Tells error ↔ error.message.toList <:+: later.message.toList := by
  simp [Tells, level, fields, error?, counts]

theorem Event.tells_scopeFailed (sc : ScopeId) (report error : Error) :
    (scopeFailed sc report).Tells error ↔ error.message.toList <:+: report.message.toList := by
  simp [Tells, level, fields, error?, counts]

theorem Event.tells_unwindingFailed (sc : ScopeId) (report error : Error) :
    (unwindingFailed sc report).Tells error ↔
      error.message.toList <:+: report.message.toList := by
  simp [Tells, level, fields, error?, counts]

theorem Event.not_tells_tornDown (sc : ScopeId) (actions failures : Nat) (error : Error) :
    ¬ (tornDown sc actions failures).Tells error := by
  simp [Tells, level]

/-! ## What is logged of a teardown -/

theorem TeardownError.message_first (first : Error) (rest : List Error) (body : Option Error) :
    first.message.toList <:+: (mk (first :: rest) body).message.toList := by
  have shown (before : String) : first.message.toList <:+: (before ++ first.message).toList := by
    rw [String.toList_append]
    exact (List.suffix_append ..).isInfix
  have further {text : String} (inside : first.message.toList <:+: text.toList) (more : String) :
      first.message.toList <:+: (text ++ more).toList := by
    rw [String.toList_append]
    exact inside.trans (List.prefix_append ..).isInfix
  cases rest with
  | nil => exact shown _
  | cons second rest => exact further (further (further (shown _) _) _) _

def TeardownPolicy.told (policy : TeardownPolicy) (sc : ScopeId) (ran : Nat) (failures : List Error)
    (last : Error → Event) : List Event :=
  .tornDown sc ran failures.length :: (policy.unreturned failures).map (.laterFailure sc) ++
    ((policy.result failures).error?.map last).toList

section Told

variable {last : Error → Event}
  (tells : ∀ report error, (last report).Tells error ↔
    error.message.toList <:+: report.message.toList)

include tells

theorem TeardownPolicy.told_firstFailure (sc : ScopeId) (ran : Nat) (failures : List Error) :
    ∀ error ∈ failures, ∃ event ∈ firstFailure.told sc ran failures last, event.Tells error := by
  intro error failed
  cases failures with
  | nil => contradiction
  | cons first rest =>
      rcases List.mem_cons.mp failed with rfl | later
      · refine ⟨last (.teardown (.mk [error] none)), ?_, (tells _ _).mpr ?_⟩
        · simp [told, result, Reply.error?]
        · exact TeardownError.message_first error [] none
      · refine ⟨.laterFailure sc error, ?_, (Event.tells_laterFailure ..).mpr (List.infix_refl _)⟩
        simp [told, unreturned, later]

theorem TeardownPolicy.told_collectAll (sc : ScopeId) (ran : Nat) {failures : List Error}
    (some : failures ≠ []) (error : Error) :
    (∃ event ∈ collectAll.told sc ran failures last, event.Tells error) ↔
      error.message.toList <:+: (TeardownError.mk failures none).message.toList := by
  obtain ⟨first, rest, rfl⟩ := List.exists_cons_of_ne_nil some
  have events : collectAll.told sc ran (first :: rest) last =
      [.tornDown sc ran (first :: rest).length,
        last (.teardown (.mk (first :: rest) none))] := rfl
  have summary := tells (.teardown (.mk (first :: rest) none)) error
  simp only [events, List.mem_cons, List.not_mem_nil, or_false, exists_eq_or_imp, exists_eq_left,
    Event.not_tells_tornDown, false_or, summary]
  rfl

theorem TeardownPolicy.told_iff (policy : TeardownPolicy) (sc : ScopeId) (ran : Nat)
    (failures : List Error) :
    (∀ error ∈ failures, ∃ event ∈ policy.told sc ran failures last, event.Tells error) ↔
      policy = firstFailure ∨
        ∀ error ∈ failures,
          error.message.toList <:+: (TeardownError.mk failures none).message.toList := by
  cases policy with
  | firstFailure =>
      exact ⟨fun _ => .inl rfl, fun _ => told_firstFailure tells sc ran failures⟩
  | collectAll =>
      by_cases none : failures = []
      · subst none
        simp
      · simp only [told_collectAll tells sc ran none, reduceCtorEq, false_or]

end Told

/-! ## The runs -/

/-- The thread comes to a teardown whose result nobody gets. The teardown begins in a world, an event
tells of its failure, and then the thread goes on. -/
inductive Thread.Unheard (sc : ScopeId) (world : World σ ν) :
    Thread σ ν → World σ ν → (Error → Event) → Thread σ ν → Prop
  | vanishing {id : ThreadId} {rest : List Handle} {exit : Exit} {base : List (Frame σ ν)}
      (unheld : (world.relinquish (.scope sc)).unheld (.scope sc) = true)
      (waits : ((world.relinquish (.scope sc)).scope sc).pending ≠ []) :
      Unheard sc world ⟨id, .task (.letGo (.scope sc :: rest) exit), base⟩
        (world.relinquish (.scope sc)) (.scopeFailed sc) ⟨id, .task (.letGo rest exit), base⟩
  | unwinding {id : ThreadId} {payload : Payload} {base : List (Frame σ ν)} :
      Unheard sc world ⟨id, .task (.finish (.panicked payload)), .body sc :: base⟩ world
        (.unwindingFailed sc) ⟨id, .task (.finish (.panicked payload)), base⟩

/-- What became of a teardown whose result nobody got: the actions that were served up to one world,
their failures, and the events that were logged of them before the scope was gone in another. -/
structure World.Told (begun : World σ ν) (id : ThreadId) (sc : ScopeId) (last : Error → Event)
    (served : List Served) (failures : List Error) (events : List Event) (torn gone : World σ ν) :
    Prop where
  rounds : Rounds id sc begun served torn
  reports : Reports (served.map Served.exit) failures
  policy : sc < begun.scopes.size → (torn.scope sc).policy = (begun.scope sc).policy
  told : events = (torn.scope sc).policy.told sc served.length failures last
  logged : gone.history = (events.map .event).reverse ++ torn.history
  all : (∀ error ∈ failures, ∃ event ∈ events, event.Tells error) ↔
    (torn.scope sc).policy = .firstFailure ∨
      ∀ error ∈ failures,
        error.message.toList <:+: (TeardownError.mk failures none).message.toList
  first : ∀ error ∈ failures.head?, ∃ event ∈ events, event.Tells error

theorem World.history_emitAll (world : World σ ν) (events : List Event) :
    (world.emitAll events).history = (events.map .event).reverse ++ world.history := by
  induction events generalizing world with
  | nil => rfl
  | cons event rest ih =>
      have emitted : (world.emitAll (event :: rest)).history = _ := ih (world.emit event)
      rw [emitted]
      simp

theorem Rounds.tells {served : List Served} (rounds : Rounds id sc begun served next)
    {last : Error → Event}
    (tells : ∀ report error, (last report).Tells error ↔
      error.message.toList <:+: report.message.toList)
    {gone : World σ ν}
    (logged : gone.history =
      (((next.reported sc served.length (Served.failures served)).emitAll
        ((((next.scope sc).policy.result (Served.failures served)).error?.map last).toList))).history) :
    begun.Told id sc last served (Served.failures served)
      ((next.scope sc).policy.told sc served.length (Served.failures served) last) next gone where
  rounds := rounds
  reports := .of_served served
  policy := rounds.policy_kept
  told := rfl
  logged := by
    rw [logged, World.history_emitAll, World.reported, World.history_emitAll]
    simp [TeardownPolicy.told]
  all := TeardownPolicy.told_iff tells _ _ _ _
  first := by
    intro error head
    obtain ⟨rest, failures⟩ := List.head?_eq_some_iff.mp head
    rw [failures]
    cases (next.scope sc).policy with
    | firstFailure =>
        exact TeardownPolicy.told_firstFailure tells sc _ _ error (List.mem_cons_self ..)
    | collectAll =>
        rw [TeardownPolicy.told_collectAll tells sc _ (List.cons_ne_nil _ _)]
        exact TeardownError.message_first error rest none

theorem Rounds.vanishes {served : List Served} (rounds : Rounds id sc begun served next)
    (rest : List Handle) (exit : Exit) :
    Thread.Reaches begun ⟨id, .task (.drain sc 0 []), [.vanishing sc rest exit]⟩
      ((next.reported sc served.length (Served.failures served)).emitAll
        (((next.scope sc).policy.result (Served.failures served)).error?.map (.scopeFailed sc)).toList)
      ⟨id, .task (.letGo rest exit), []⟩ :=
  (rounds.ends.above _).trans (.step rfl (.refl _ _))

theorem TeardownPolicy.unwinding_events (policy : TeardownPolicy) (sc : ScopeId)
    (failures : List Error) (payload : Payload) :
    (Exit.panicked payload).unwindingEvents sc (policy.result failures).teardown? =
      ((policy.result failures).error?.map (.unwindingFailed sc)).toList := by
  cases failures with
  | nil => rfl
  | cons first rest => cases policy <;> rfl

theorem Exit.panicked_afterTeardown (payload : Payload) (teardown : Option TeardownError) :
    (panicked payload).afterTeardown teardown = panicked payload := by
  cases teardown <;> rfl

theorem Rounds.unwinds {served : List Served} (rounds : Rounds id sc begun served next)
    (payload : Payload) :
    Thread.Reaches begun ⟨id, .task (.drain sc 0 []), [.closing sc (.panicked payload)]⟩
      (((next.reported sc served.length (Served.failures served)).emitAll
        (((next.scope sc).policy.result (Served.failures served)).error?.map
          (.unwindingFailed sc)).toList).takeBack sc)
      ⟨id, .task (.finish (.panicked payload)), []⟩ := by
  have silent := (Concludes.of_failures (next.scope sc).policy sc (.panicked payload)
    (Served.failures served)).silent (ν := ν)
  have emptied := rounds.emptied
  rw [← next.agenda_reported sc served.length (Served.failures served),
    ← World.agenda_emitAll _ silent] at emptied
  have closes := rounds.ends.takeBack emptied
  rw [Exit.panicked_afterTeardown, TeardownPolicy.unwinding_events] at closes
  exact closes

/-- Where nobody gets the result of a teardown, the teardown still comes to its end, and logs the
failures of its actions as its policy says. -/
theorem Thread.Unheard.failures_told {thread after : Thread σ ν} {last : Error → Event}
    (unheard : thread.Unheard sc world begun last after) (finite : begun.Finite thread.id sc) :
    ∃ served failures events torn gone,
      begun.Told thread.id sc last served failures events torn gone ∧
      thread.Reaches world gone after := by
  obtain ⟨served, torn, rounds⟩ := finite.rounds
  cases unheard with
  | @vanishing id rest exit base unheld waits =>
      have begins : step world ⟨id, .task (.letGo (.scope sc :: rest) exit), base⟩ =
          some (world.relinquish (.scope sc),
            ⟨id, .task (.drain sc 0 []), .vanishing sc rest exit :: base⟩) := by
        simp [step, Task.step, unheld, waits, World.push, Thread.after]
      have vanishes := (rounds.vanishes rest exit).above base
      exact ⟨served, _, _, torn, _, rounds.tells (Event.tells_scopeFailed sc) rfl,
        .step begins vanishes⟩
  | @unwinding id payload base =>
      have unwinds := (rounds.unwinds payload).above base
      refine ⟨served, _, _, torn, _, rounds.tells (Event.tells_unwindingFailed sc) ?_,
        .step rfl unwinds⟩
      simp [World.takeBack]

/-- Of two actions that wait in a scope, and that fail both, the newer one is served first. -/
def Code.failTwice (policy : TeardownPolicy) : Code Unit Unit :=
  .call (.newScope policy) fun _ =>
    .call (.defer 0 (.ret (.failed (.text "older")))) fun _ =>
      .call (.defer 0 (.ret (.failed (.text "newer")))) fun _ => .call (.forgetScope 0) .ret

theorem Thread.Unheard.failures_told_failTwice :
    let asked := Thread.advance 11 { memory := () } (.ofCode 0 (Code.failTwice .firstFailure))
    let begun := asked.1.relinquish (.scope 0)
    asked.2.Unheard 0 asked.1 begun (.scopeFailed 0)
        ⟨0, .task (.letGo [] (.returned .done)), [.calling .ret]⟩ ∧
      begun.Finite 0 0 ∧
      ∃ served failures events torn gone,
        begun.Told 0 0 (.scopeFailed 0) served failures events torn gone ∧
        ∀ error ∈ failures, ∃ event ∈ events, event.Tells error := by
  intro asked begun
  have unheard : asked.2.Unheard 0 asked.1 begun (.scopeFailed 0)
      ⟨0, .task (.letGo [] (.returned .done)), [.calling .ret]⟩ :=
    .vanishing rfl (List.cons_ne_nil _ _)
  have run : Ends 0 begun (.task (.drain 0 0 []))
      (.returned (.failed (.teardown (.mk [.text "newer"] none))))
      (Thread.advance 10 begun ⟨0, .task (.drain 0 0 []), []⟩).1 := ⟨10, rfl⟩
  have finite : begun.Finite 0 0 := .of_ends run
  obtain ⟨served, failures, events, torn, gone, told, -⟩ := Unheard.failures_told unheard finite
  have policy : (torn.scope 0).policy = .firstFailure := told.policy Nat.one_pos
  exact ⟨unheard, finite, served, failures, events, torn, gone, told, told.all.mpr (.inl policy)⟩

/-- Where failures are collected, the text of the older one is in no event of the whole run. -/
theorem Code.failTwice_untold :
    let ended := Thread.advance 40 { memory := () } (.ofCode 0 (Code.failTwice .collectAll))
    ended.2.exit? = some (.returned .done) ∧
      ended.1.log =
        [.inl (.tornDown 0 2 2),
          .inl (.scopeFailed 0 (.teardown (.mk [.text "newer", .text "older"] none)))] ∧
      ∀ event, .inl event ∈ ended.1.log → ¬ event.Tells (.text "older") := by
  intro ended
  have log : ended.1.log =
      [.inl (.tornDown 0 2 2),
        .inl (.scopeFailed 0 (.teardown (.mk [.text "newer", .text "older"] none)))] := rfl
  refine ⟨rfl, log, fun event logged tells => ?_⟩
  rw [log] at logged
  simp only [List.mem_cons, Sum.inl.injEq, List.not_mem_nil, or_false] at logged
  rcases logged with rfl | rfl
  · exact Event.not_tells_tornDown _ _ _ _ tells
  · rw [Event.tells_scopeFailed] at tells
    revert tells
    decide +kernel

end Relinquish
