import Relinquish.Proofs.Deferring
import Relinquish.Proofs.Heeding

/-!
The policies of teardowns. Where the actions of a scope do not heed its policy, the two policies
serve the same actions with the same effects. Where all failures are collected, the teardown returns
them all; where the first is reported, it returns that one and warns of each of the others.
-/

namespace Relinquish

variable {σ ν : Type} {id : ThreadId} {sc : ScopeId} {world reached next : World σ ν}
  {policy : TeardownPolicy}

theorem World.agenda_setPolicy (world : World σ ν) (sc : ScopeId) (policy : TeardownPolicy) :
    (world.setPolicy sc policy).agenda = world.agenda := by
  simp only [agenda, pending_setPolicy]
  rfl

/-! ## Actions that do not heed the policy -/

/-- Each action whose turn comes in the teardown does the same where the scope has the policy. -/
def World.Indifferent (world : World σ ν) (id : ThreadId) (sc : ScopeId) (policy : TeardownPolicy) :
    Prop :=
  ∀ reached action rest ran failures exit after,
    Thread.Reaches world ⟨id, .task (.drain sc 0 []), []⟩ reached
      ⟨id, .task (.batch sc (action :: rest) ran failures), []⟩ →
    action.Ends id sc reached exit after →
    action.Ends id sc (reached.setPolicy sc policy) exit (after.setPolicy sc policy)

theorem World.Indifferent.of_heedless (made : sc < world.scopes.size)
    (heedless : ∀ reached thread, Thread.Reaches world ⟨id, .task (.drain sc 0 []), []⟩ reached thread →
      thread.stack ≠ [] → thread.heeds sc = false) (policy : TeardownPolicy) :
    world.Indifferent id sc policy := by
  intro reached action rest ran failures exit after reach run
  have begun := reach.trans
    (.step (Thread.step_serve reached id sc action rest ran failures []) (.refl _ _))
  refine Thread.Reaches.setPolicy run (Nat.lt_of_lt_of_le made begun.governs.made) ?_ policy
  intro later between further
  have above := heedless later _ (begun.trans (further.above _))
  exact above (List.append_ne_nil_of_right_ne_nil _ (List.cons_ne_nil _ _))

section Indifferent

variable {served : List Served} {ran : Nat} {failures : List Error}
  (indifferent : world.Indifferent id sc policy)

include indifferent

theorem World.Indifferent.batch {actions : List (Action σ ν)}
    (batch : Batch id sc reached actions served next)
    (reach : Thread.Reaches world ⟨id, .task (.drain sc 0 []), []⟩ reached
      ⟨id, .task (.batch sc actions ran failures), []⟩) :
    Batch id sc (reached.setPolicy sc policy) actions served (next.setPolicy sc policy) := by
  induction batch generalizing ran failures with
  | nobody world => exact .nobody _
  | @serves reached middle next action rest exit others run further ih =>
      have same := indifferent reached action rest ran failures exit middle reach run
      have alike := Batch.serves same (ih (reach.trans (run.reaches rest ran failures)))
      rwa [World.agenda_setPolicy, World.agenda_setPolicy] at alike

theorem World.Indifferent.rounds (rounds : Rounds id sc reached served next)
    (reach : Thread.Reaches world ⟨id, .task (.drain sc 0 []), []⟩ reached
      ⟨id, .task (.drain sc ran failures), []⟩) :
    Rounds id sc (reached.setPolicy sc policy) served (next.setPolicy sc policy) := by
  induction rounds generalizing ran failures with
  | @drained reached empty =>
      have same : Rounds id sc (reached.setPolicy sc policy) [] _ :=
        .drained ((reached.pending_setPolicy sc policy sc).trans empty)
      rwa [World.takePending_setPolicy] at same
  | @round reached middle next first later waits batch further ih =>
      have begun := reach.trans (.step (Thread.step_round id ran failures [] waits) (.refl _ _))
      have served := begun.trans ((batch.reaches ran failures).trans (.step rfl (.refl _ _)))
      have first := indifferent.batch batch begun
      have pending := reached.pending_setPolicy sc policy sc
      refine .round (pending ▸ waits) ?_ (ih served)
      rw [World.takePending_setPolicy, pending]
      exact first

end Indifferent

/-! ## What is logged -/

theorem World.log_emitAll (world : World σ ν) (events : List Event) :
    (world.emitAll events).log = world.log ++ events.map .inl := by
  induction events generalizing world with
  | nil => simp [emitAll]
  | cons event rest ih =>
      have one : (world.emit event).log = world.log ++ [.inl event] := by simp [log]
      rw [emitAll, List.foldl_cons, ← emitAll, ih, one, List.append_assoc]
      rfl

/-! ## Two teardowns -/

/-- Two teardowns of a scope from one state, of which the first collects all failures and the second
keeps the first of them. -/
structure World.ReportsApart (world : World σ ν) (id : ThreadId) (sc : ScopeId)
    (served : List Served) (failures : List Error) (torn collected kept : World σ ν)
    (all one : Reply) : Prop where
  /-- Both serve the same actions with the same ends and the same effects. -/
  rounds : Rounds id sc world served torn
  alike : Rounds id sc (world.setPolicy sc .firstFailure) served (torn.setPolicy sc .firstFailure)
  reports : Reports (served.map Served.exit) failures
  collects : Ends id world (.task (.drain sc 0 [])) (.returned all) collected
  keeps : Ends id (world.setPolicy sc .firstFailure) (.task (.drain sc 0 [])) (.returned one) kept
  returned : (failures = [] ∧ all = .done ∧ one = .done) ∨
    ∃ failure later, failures = failure :: later ∧
      all = .failed (.teardown (.mk (failure :: later) none)) ∧
      one = .failed (.teardown (.mk [failure] none))
  /-- To collect failures is to log no more than the numbers of actions and failures. -/
  quiet : collected = torn.emit (.tornDown sc served.length failures.length)
  /-- To keep the first is to log the same, and after that the later failures one by one. -/
  warned : kept =
    (collected.setPolicy sc .firstFailure).emitAll (failures.tail.map (.laterFailure sc))
  log : kept.log = collected.log ++ failures.tail.map fun failure => .inl (.laterFailure sc failure)
  warnings : (failures.tail.map (Event.laterFailure sc)).map (fun event => (event.level, event.fields)) =
    failures.tail.map fun failure => (.warn, [("error", .text failure.message)])
  /-- Calls that begin them return the same, and give up their holds of the scope. -/
  called : ∀ first : World σ ν, first.usable (.scope sc) = true → world = first.retain (.scope sc) →
    Ends id first (.task (.start (.runAll sc))) (.returned all) (collected.relinquish (.scope sc)) ∧
    Ends id (first.setPolicy sc .firstFailure) (.task (.start (.runAll sc))) (.returned one)
      (kept.relinquish (.scope sc))

theorem TeardownPolicy.results_apart (failures : List Error) :
    (failures = [] ∧ collectAll.result failures = .done ∧ firstFailure.result failures = .done) ∨
    ∃ failure later, failures = failure :: later ∧
      collectAll.result failures = .failed (.teardown (.mk (failure :: later) none)) ∧
      firstFailure.result failures = .failed (.teardown (.mk [failure] none)) := by
  cases failures with
  | nil => exact .inl ⟨rfl, rfl, rfl⟩
  | cons failure later => exact .inr ⟨failure, later, rfl, rfl, rfl⟩

theorem Rounds.ends_collecting {served : List Served} (rounds : Rounds id sc world served next)
    (collecting : (next.scope sc).policy = .collectAll) :
    Ends id world (.task (.drain sc 0 []))
      (.returned (TeardownPolicy.collectAll.result (Served.failures served)))
      (next.emit (.tornDown sc served.length (Served.failures served).length)) := by
  have ends := rounds.ends
  rwa [World.reported, collecting] at ends

theorem Rounds.ends_keeping {served : List Served} (rounds : Rounds id sc world served next)
    (keeping : (next.scope sc).policy = .firstFailure) :
    Ends id world (.task (.drain sc 0 []))
      (.returned (TeardownPolicy.firstFailure.result (Served.failures served)))
      ((next.emit (.tornDown sc served.length (Served.failures served).length)).emitAll
        ((Served.failures served).tail.map (.laterFailure sc))) := by
  have ends := rounds.ends
  rwa [World.reported, keeping] at ends

theorem Rounds.report_apart {served : List Served} (rounds : Rounds id sc world served next)
    (alike : Rounds id sc (world.setPolicy sc .firstFailure) served
      (next.setPolicy sc .firstFailure))
    (collecting : (next.scope sc).policy = .collectAll) :
    let failures := Served.failures served
    let collected := next.emit (.tornDown sc served.length failures.length)
    world.ReportsApart id sc served failures next collected
      ((collected.setPolicy sc .firstFailure).emitAll (failures.tail.map (.laterFailure sc)))
      (TeardownPolicy.collectAll.result failures) (TeardownPolicy.firstFailure.result failures) := by
  intro failures collected
  have collects := rounds.ends_collecting collecting
  have keeps := alike.ends_keeping (by simp)
  exact
    { rounds, alike, collects, keeps
      reports := .of_served served
      returned := TeardownPolicy.results_apart failures
      quiet := rfl
      warned := rfl
      log := by
        rw [World.log_emitAll, List.map_map]
        rfl
      warnings := List.map_map
      called := by
        rintro first usable rfl
        refine ⟨Ends.runAll usable collects, Ends.runAll ?_ ?_⟩
        · exact (first.usable_setPolicy sc .firstFailure _).trans usable
        · rw [World.retain_setPolicy]
          exact keeps }

/-- Under either policy a teardown does the same and fails alike; the policies differ in which of the
failures are returned, and in which are logged. -/
theorem World.policies_report_apart (world : World σ ν) (id : ThreadId) (sc : ScopeId)
    (made : sc < world.scopes.size) (collecting : (world.scope sc).policy = .collectAll)
    (finite : world.Finite id sc) (indifferent : world.Indifferent id sc .firstFailure) :
    ∃ served failures torn collected kept all one,
      world.ReportsApart id sc served failures torn collected kept all one := by
  obtain ⟨served, torn, rounds⟩ := finite.rounds
  have alike := indifferent.rounds rounds (.refl _ _)
  have kept := (rounds.policy_kept made).trans collecting
  exact ⟨served, _, torn, _, _, _, _, rounds.report_apart alike kept⟩

/-- The older of two actions defers another one and fails, and the late one panics. -/
theorem World.policies_report_apart_deferLate :
    let asked := Thread.advance 10 { memory := () } (.ofCode 0 Code.deferLate)
    let world := asked.1.retain (.scope 0)
    asked.2.control = .task (.start (.runAll 0)) ∧ (world.scope 0).policy = .collectAll ∧
      ∃ served failures torn collected kept all one,
        world.ReportsApart 0 0 served failures torn collected kept all one ∧
        one = .failed (.teardown (.mk [.drop .dropped] none)) ∧
        kept.log = collected.log ++ [.inl (.laterFailure 0 (.drop (.panicked "unknown panic")))] := by
  intro asked world
  have run : Ends 0 world (.task (.drain 0 0 []))
      (.returned (.failed (.teardown
        (.mk [.drop .dropped, .drop (.panicked "unknown panic")] none))))
      (Thread.advance 18 world ⟨0, .task (.drain 0 0 []), []⟩).1 := ⟨18, rfl⟩
  have heedless : ∀ n ≤ 18,
      (Thread.advance n world ⟨0, .task (.drain 0 0 []), []⟩).2.stack.isEmpty = true ∨
        (Thread.advance n world ⟨0, .task (.drain 0 0 []), []⟩).2.heeds 0 = false := by
    decide +kernel
  have indifferent : world.Indifferent 0 0 .firstFailure := by
    refine .of_heedless (by decide) (fun reached thread reach above => ?_) .firstFailure
    obtain ⟨n, early, reach⟩ := reach.within (rfl : (Thread.advance 18 world _).2.exit? = some _)
    have apart := heedless n early
    rw [reach] at apart
    exact apart.resolve_left fun empty => above (List.isEmpty_iff.mp empty)
  obtain ⟨served, failures, torn, collected, kept, all, one, apart⟩ :=
    policies_report_apart world 0 0 (by decide) rfl (.of_ends run) indifferent
  have same := (run.unique apart.collects).1
  rcases apart.returned with ⟨-, rfl, -⟩ | ⟨failure, later, rfl, rfl, rfl⟩
  · nomatch same
  · simp only [Exit.returned.injEq, Reply.failed.injEq, Error.teardown.injEq, TeardownError.mk.injEq,
      and_true, List.cons.injEq] at same
    obtain ⟨rfl, rfl⟩ := same
    exact ⟨rfl, rfl, _, _, _, _, _, _, _, apart, rfl, apart.log⟩

end Relinquish
