import Relinquish.Proofs.Teardown

/-!
Rounds of a teardown. All actions that wait in a scope are served, newest first, and then in a further
round those that were deferred on the scope meanwhile, until none waits. What the actions fail with is
reported in the order in which they were served.
-/

namespace Relinquish

variable {σ ν : Type} {id : ThreadId} {sc : ScopeId} {world middle next : World σ ν}

/-! ## What has happened since -/

def Turn.deferredOn? (sc : ScopeId) : Turn → Option Nat
  | deferred t a => if t = sc then some a else none
  | _ => none

def Turn.startedOn? (sc : ScopeId) : Turn → Option Nat
  | started t a => if t = sc then some a else none
  | _ => none

namespace Agenda

/-- The turns of a later agenda that an earlier one does not have yet, in the order of time. -/
def since (agenda later : Agenda) : List Turn :=
  (later.turns.take (later.turns.length - agenda.turns.length)).reverse

def deferredSince (agenda : Agenda) (sc : ScopeId) (later : Agenda) : List Nat :=
  (agenda.since later).filterMap (Turn.deferredOn? sc)

def startedSince (agenda : Agenda) (sc : ScopeId) (later : Agenda) : List Nat :=
  (agenda.since later).filterMap (Turn.startedOn? sc)

variable {agenda between later : Agenda}

theorem since_of_append (agenda later : Agenda) (turns : List Turn)
    (more : later.turns = turns ++ agenda.turns) : agenda.since later = turns.reverse := by
  simp [since, more]

theorem since_self (agenda : Agenda) : agenda.since agenda = [] :=
  since_of_append agenda agenda [] rfl

theorem since_discard (agenda : Agenda) (sc : ScopeId) :
    agenda.since (agenda.discard sc) =
      (agenda.waiting sc).map (.discarded sc) ++
        if (agenda.waiting sc).isEmpty then [] else [.reset sc (agenda.waiting sc).length] := by
  cases waiting : agenda.waiting sc with
  | nil => exact since_of_append agenda _ [] (by simp [discard, waiting])
  | cons a rest =>
      rw [since_of_append agenda (agenda.discard sc)
        (.reset sc (a :: rest).length :: ((a :: rest).map (.discarded sc)).reverse)
        (by simp [discard, waiting])]
      simp

theorem since_trans (first : agenda.turns <:+ between.turns) (second : between.turns <:+ later.turns) :
    agenda.since later = agenda.since between ++ between.since later := by
  obtain ⟨older, first⟩ := first
  obtain ⟨newer, second⟩ := second
  have all : later.turns = (newer ++ older) ++ agenda.turns := by
    rw [List.append_assoc, first, second]
  rw [since_of_append _ _ _ all, since_of_append _ _ _ first.symm, since_of_append _ _ _ second.symm,
    List.reverse_append]

theorem deferredSince_trans (first : agenda.turns <:+ between.turns)
    (second : between.turns <:+ later.turns) (sc : ScopeId) :
    agenda.deferredSince sc later =
      agenda.deferredSince sc between ++ between.deferredSince sc later := by
  rw [deferredSince, since_trans first second, List.filterMap_append, deferredSince, deferredSince]

theorem startedSince_trans (first : agenda.turns <:+ between.turns)
    (second : between.turns <:+ later.turns) (sc : ScopeId) :
    agenda.startedSince sc later =
      agenda.startedSince sc between ++ between.startedSince sc later := by
  rw [startedSince, since_trans first second, List.filterMap_append, startedSince, startedSince]

end Agenda

/-! ## Serving actions -/

/-- The action is started and comes to its end. -/
def Action.Ends (action : Action σ ν) (id : ThreadId) (sc : ScopeId) (world : World σ ν)
    (exit : Exit) (next : World σ ν) : Prop :=
  Thread.Reaches (world.act (.started sc action.id)) (action.job.thread id) next
    ⟨id, .task (.finish exit), []⟩

/-- An action that was served: how it ended, and which actions were deferred on the scope meanwhile,
oldest first. -/
structure Served where
  action : Nat
  exit : Exit
  late : List Nat

/-- The actions of a batch are served one after the other, each to its end. -/
inductive Batch (id : ThreadId) (sc : ScopeId) :
    World σ ν → List (Action σ ν) → List Served → World σ ν → Prop
  | nobody (world : World σ ν) : Batch id sc world [] [] world
  | serves {world middle next : World σ ν} {action : Action σ ν} {rest : List (Action σ ν)}
      {exit : Exit} {others : List Served} (run : action.Ends id sc world exit middle)
      (further : Batch id sc middle rest others next) :
      Batch id sc world (action :: rest)
        (⟨action.id, exit, world.agenda.deferredSince sc middle.agenda⟩ :: others) next

/-- In each round all that waits in the scope is taken and served, newest first. -/
inductive Rounds (id : ThreadId) (sc : ScopeId) : World σ ν → List Served → World σ ν → Prop
  | drained {world : World σ ν} (empty : (world.scope sc).pending = []) :
      Rounds id sc world [] (world.takePending sc).1
  | round {world middle next : World σ ν} {first later : List Served}
      (waits : (world.scope sc).pending ≠ [])
      (batch : Batch id sc (world.takePending sc).1 (world.scope sc).pending.reverse first middle)
      (further : Rounds id sc middle later next) : Rounds id sc world (first ++ later) next

/-- The errors of those that failed, in order. A panic is reported by its text. -/
inductive Reports : List Exit → List Error → Prop
  | nothing : Reports [] []
  | fine {reply : Reply} {exits : List Exit} {errors : List Error} (fine : reply.error? = none)
      (rest : Reports exits errors) : Reports (.returned reply :: exits) errors
  | failed {error : Error} {exits : List Exit} {errors : List Error} (rest : Reports exits errors) :
      Reports (.returned (.failed error) :: exits) (error :: errors)
  | panicked {message : String} {exits : List Exit} {errors : List Error}
      (rest : Reports exits errors) :
      Reports (.panicked (.text message) :: exits) (.drop (.panicked message) :: errors)
  | unknown {exits : List Exit} {errors : List Error} (rest : Reports exits errors) :
      Reports (.panicked .other :: exits) (.drop (.panicked "unknown panic") :: errors)

def Served.failures (served : List Served) : List Error :=
  served.filterMap fun turn => turn.exit.failure?

theorem Reports.of_served (served : List Served) :
    Reports (served.map Served.exit) (Served.failures served) := by
  induction served with
  | nil => exact .nothing
  | cons turn rest ih =>
      obtain ⟨action, exit, late⟩ := turn
      cases exit with
      | panicked payload =>
          cases payload with
          | text message => exact .panicked ih
          | other => exact .unknown ih
      | returned reply =>
          cases error : reply.error? with
          | none =>
              have silent : Served.failures (⟨action, .returned reply, late⟩ :: rest) =
                  Served.failures rest := by
                simp [Served.failures, Exit.failure?, error]
              rw [silent]
              exact .fine error ih
          | some error =>
              cases reply <;> simp only [Reply.error?, reduceCtorEq, Option.some.injEq] at error
              subst error
              exact .failed ih

/-! ## Rounds as runs of a thread -/

theorem Action.Ends.reaches {action : Action σ ν} {exit : Exit}
    (run : action.Ends id sc world exit next) (rest : List (Action σ ν)) (ran : Nat)
    (failures : List Error) :
    Thread.Reaches world ⟨id, .task (.batch sc (action :: rest) ran failures), []⟩ next
      ⟨id, .task (.batch sc rest (ran + 1) (failures ++ exit.failure?.toList)), []⟩ := by
  have started := Thread.step_serve world id sc action rest ran failures []
  exact .step started ((Thread.Reaches.above run _).trans (.step rfl (.refl next _)))

theorem Batch.actions {actions : List (Action σ ν)} {served : List Served}
    (batch : Batch id sc world actions served next) :
    served.map Served.action = actions.map Action.id := by
  induction batch with
  | nobody world => rfl
  | serves run further ih => simp [ih]

theorem Batch.reaches {actions : List (Action σ ν)} {served : List Served}
    (batch : Batch id sc world actions served next) (ran : Nat) (failures : List Error) :
    Thread.Reaches world ⟨id, .task (.batch sc actions ran failures), []⟩ next
      ⟨id, .task (.batch sc [] (ran + served.length) (failures ++ Served.failures served)), []⟩ := by
  induction batch generalizing ran failures with
  | nobody world => simpa [Served.failures] using Thread.Reaches.refl world _
  | @serves world middle next action rest exit others run further ih =>
      have first := run.reaches rest ran failures
      have failed (late : List Nat) : Served.failures (⟨action.id, exit, late⟩ :: others) =
          exit.failure?.toList ++ Served.failures others := by
        unfold Served.failures
        rw [List.filterMap_cons]
        cases exit.failure? <;> rfl
      rw [failed, List.length_cons, ← List.append_assoc, Nat.add_comm others.length, ← Nat.add_assoc]
      exact first.trans (ih _ _)

theorem Rounds.reaches {served : List Served} (rounds : Rounds id sc world served next) (ran : Nat)
    (failures : List Error) :
    Thread.Reaches world ⟨id, .task (.drain sc ran failures), []⟩ next
      ⟨id, .task (.report sc (ran + served.length) (failures ++ Served.failures served)), []⟩ := by
  induction rounds generalizing ran failures with
  | drained empty =>
      simpa [Served.failures] using
        Thread.Reaches.step (Thread.step_over id ran failures [] empty) (.refl _ _)
  | @round world middle next first later waits batch further ih =>
      have begun := Thread.Reaches.step (Thread.step_round id ran failures [] waits) (.refl _ _)
      have served := begun.trans ((batch.reaches ran failures).trans (.step rfl (.refl _ _)))
      have failed : Served.failures (first ++ later) =
          Served.failures first ++ Served.failures later := List.filterMap_append
      rw [failed, List.length_append, ← List.append_assoc, ← Nat.add_assoc]
      exact served.trans (ih _ _)

/-- What a teardown logs and returns. -/
def World.reported (world : World σ ν) (sc : ScopeId) (ran : Nat) (failures : List Error) :
    World σ ν :=
  (world.emit (.tornDown sc ran failures.length)).emitAll
    (((world.scope sc).policy.unreturned failures).map (.laterFailure sc))

theorem Rounds.ends {served : List Served} (rounds : Rounds id sc world served next) :
    Ends id world (.task (.drain sc 0 []))
      (.returned ((next.scope sc).policy.result (Served.failures served)))
      (next.reported sc served.length (Served.failures served)) := by
  have reports := rounds.reaches 0 []
  rw [Nat.zero_add, List.nil_append] at reports
  exact reports.trans (.step rfl (.refl _ _))

/-! ## Teardowns that come to their end -/

/-- Each action whose turn comes in the teardown comes to its end, and the actions that are deferred
meanwhile, on whatever scope, are not more than so many. -/
structure World.Finite (world : World σ ν) (id : ThreadId) (sc : ScopeId) : Prop where
  ends : ∀ reached action rest ran failures,
    Thread.Reaches world ⟨id, .task (.drain sc 0 []), []⟩ reached
      ⟨id, .task (.batch sc (action :: rest) ran failures), []⟩ →
    ∃ exit after, action.Ends id sc reached exit after
  bounded : ∃ bound, ∀ reached thread,
    Thread.Reaches world ⟨id, .task (.drain sc 0 []), []⟩ reached thread → reached.actions ≤ bound

theorem Deals.made_le {control after : Control σ ν} {agenda later : Agenda}
    {taken left : List (ScopeId × Nat)} (deals : Deals control after agenda taken later left) :
    agenda.made ≤ later.made := by
  cases deals with
  | defers => exact Nat.le_succ _
  | _ => exact Nat.le_refl _

theorem Deals.idle_or_registers {control after : Control σ ν} {agenda later : Agenda}
    {taken left : List (ScopeId × Nat)} (deals : Deals control after agenda taken later left)
    (empty : agenda.waiting sc = []) :
    later.waiting sc = [] ∨
      (∃ call handles, control = .task (.start call) ∧ call.registers? = some (sc, handles)) ∧
        agenda.made < later.made := by
  cases deals with
  | quiet | starts => exact .inl empty
  | defers t starting registers =>
      by_cases same : sc = t
      · subst same
        exact .inr ⟨⟨_, _, starting, registers⟩, Nat.lt_succ_self _⟩
      · exact .inl ((Function.update_of_ne same _ _).trans empty)
  | discards t =>
      left
      by_cases same : sc = t <;> simp [Agenda.discard, Agenda.empty, same]
      simpa [same] using empty
  | takes t =>
      left
      by_cases same : sc = t <;> simp [Agenda.empty, same, empty]

theorem Thread.Reaches.actions_le {thread after : Thread σ ν}
    (run : Reaches world thread next after) : world.actions ≤ next.actions := by
  obtain ⟨steps, run⟩ := run
  have grows : world.actions ≤ (Thread.advance steps world thread).1.actions :=
    Thread.advance_rule (fun next _ => world.actions ≤ next.actions)
      (fun _ _ _ _ earlier action => Nat.le_trans earlier (step_deals action).made_le)
      (Nat.le_refl _) steps
  rwa [run] at grows

theorem Thread.Reaches.waiting_or_made {thread after : Thread σ ν}
    (run : Reaches world thread next after) (empty : world.agenda.waiting sc = []) :
    next.agenda.waiting sc = [] ∨ world.actions < next.actions := by
  obtain ⟨steps, run⟩ := run
  have grows : world.actions ≤ (Thread.advance steps world thread).1.actions ∧
      ((Thread.advance steps world thread).1.agenda.waiting sc = [] ∨
        world.actions < (Thread.advance steps world thread).1.actions) := by
    refine Thread.advance_rule
      (fun next _ => world.actions ≤ next.actions ∧
        (next.agenda.waiting sc = [] ∨ world.actions < next.actions))
      (fun middle _ next _ earlier action => ?_) ⟨Nat.le_refl _, .inl empty⟩ steps
    have deals := step_deals action
    have more : middle.actions ≤ next.actions := deals.made_le
    refine ⟨Nat.le_trans earlier.1 more, ?_⟩
    rcases earlier.2 with empty | made
    · rcases deals.idle_or_registers empty with none | ⟨-, made⟩
      · exact .inl none
      · exact .inr (Nat.lt_of_le_of_lt earlier.1 made)
    · exact .inr (Nat.lt_of_lt_of_le made more)
  rw [run] at grows
  exact grows.2

theorem World.Finite.batch (finite : world.Finite id sc) (actions : List (Action σ ν))
    {reached : World σ ν} {ran : Nat} {failures : List Error}
    (reach : Thread.Reaches world ⟨id, .task (.drain sc 0 []), []⟩ reached
      ⟨id, .task (.batch sc actions ran failures), []⟩) :
    ∃ served next, Batch id sc reached actions served next := by
  induction actions generalizing reached ran failures with
  | nil => exact ⟨[], reached, .nobody reached⟩
  | cons action rest ih =>
      obtain ⟨exit, middle, run⟩ := finite.ends reached action rest ran failures reach
      obtain ⟨others, next, further⟩ := ih (reach.trans (run.reaches rest ran failures))
      exact ⟨_, next, .serves run further⟩

theorem World.Finite.rounds_from (finite : world.Finite id sc) {bound : Nat}
    (bounded : ∀ reached thread,
      Thread.Reaches world ⟨id, .task (.drain sc 0 []), []⟩ reached thread → reached.actions ≤ bound)
    (left : Nat) {reached : World σ ν} {ran : Nat} {failures : List Error}
    (reach : Thread.Reaches world ⟨id, .task (.drain sc 0 []), []⟩ reached
      ⟨id, .task (.drain sc ran failures), []⟩)
    (room : bound - reached.actions = left) : ∃ served next, Rounds id sc reached served next := by
  induction left using Nat.strongRecOn generalizing reached ran failures with
  | ind left ih =>
      by_cases empty : (reached.scope sc).pending = []
      · exact ⟨[], _, .drained empty⟩
      · have begun := reach.trans (.step (Thread.step_round id ran failures [] empty) (.refl _ _))
        obtain ⟨first, middle, batch⟩ := finite.batch _ begun
        have again := begun.trans ((batch.reaches ran failures).trans (.step rfl (.refl _ _)))
        -- A further round serves actions that were deferred in this one.
        have rounds : ∃ later next, Rounds id sc middle later next := by
          have emptied : (reached.takePending sc).1.agenda.waiting sc = [] := by
            rw [reached.agenda_takePending]
            exact Function.update_self ..
          rcases (batch.reaches 0 []).waiting_or_made emptied with none | more
          · exact ⟨[], _, .drained (List.map_eq_nil_iff.mp none)⟩
          · have more : reached.actions < middle.actions := more
            have most : middle.actions ≤ bound := bounded _ _ again
            exact ih (bound - middle.actions) (by omega) again rfl
        obtain ⟨later, next, further⟩ := rounds
        exact ⟨_, next, .round empty batch further⟩

theorem World.Finite.rounds (finite : world.Finite id sc) :
    ∃ served next, Rounds id sc world served next := by
  obtain ⟨bound, bounded⟩ := finite.bounded
  exact finite.rounds_from bounded _ (.refl _ _) rfl

theorem World.Finite.of_ends {exit : Exit}
    (run : Ends id world (.task (.drain sc 0 [])) exit next) : world.Finite id sc where
  ends reached action rest ran failures reach := by
    have begun := reach.trans
      (.step (Thread.step_serve reached id sc action rest ran failures []) (.refl _ _))
    obtain ⟨middle, inner, ended, -⟩ := (begun.rest run).cut (Nat.zero_le _)
    rw [Job.home_thread] at ended
    exact ⟨inner, middle, ended⟩
  bounded := ⟨next.actions, fun _ _ reach => (reach.rest run).actions_le⟩

/-! ## The order of service -/

/-- The order in which a teardown serves the actions that wait, oldest first: it turns them round, and
goes on in the same way with those that were deferred meanwhile. -/
inductive Ordered : List Nat → List Served → Prop
  | nobody : Ordered [] []
  | round {waiting : List Nat} {first later : List Served} (waits : waiting ≠ [])
      (newest : first.map Served.action = waiting.reverse)
      (rest : Ordered (first.flatMap Served.late) later) : Ordered waiting (first ++ later)

/-- The thread is about to reset the scope, or to take its actions while others are being served. -/
def Thread.disturbs (sc : ScopeId) (thread : Thread σ ν) : Bool :=
  match thread.control with
  | .task (.start (.resetScope t)) => t == sc
  | .task (.drain t _ _) => t == sc && !thread.stack.isEmpty
  | _ => false

/-- While the teardown serves actions, these only defer further ones on the scope. -/
def World.Undisturbed (world : World σ ν) (id : ThreadId) (sc : ScopeId) : Prop :=
  ∀ reached thread, Thread.Reaches world ⟨id, .task (.drain sc 0 []), []⟩ reached thread →
    thread.disturbs sc = false

theorem Deals.undisturbed {control after : Control σ ν} {agenda later : Agenda}
    {taken left : List (ScopeId × Nat)} (deals : Deals control after agenda taken later left)
    (unreset : control ≠ .task (.start (.resetScope sc)))
    (undrained : ∀ ran failures, control ≠ .task (.drain sc ran failures))
    (foreign : ∀ entry ∈ taken, entry.1 ≠ sc) :
    later.waiting sc = agenda.waiting sc ++ agenda.deferredSince sc later ∧
      agenda.startedSince sc later = [] ∧ ∀ entry ∈ left, entry.1 ≠ sc := by
  unfold Agenda.deferredSince Agenda.startedSince
  cases deals with
  | quiet =>
      rw [agenda.since_self]
      exact ⟨(List.append_nil _).symm, rfl, foreign⟩
  | defers t =>
      rw [agenda.since_of_append _ [.deferred t agenda.made] rfl]
      refine ⟨?_, rfl, foreign⟩
      by_cases same : t = sc
      · subst same
        simp [Agenda.defer, Turn.deferredOn?]
      · simp [Agenda.defer, Turn.deferredOn?, same, Ne.symm same]
  | discards t starting =>
      -- Another scope is reset, so that neither its actions nor its tally are turns of this one.
      have other : sc ≠ t := fun same => unreset (same ▸ starting)
      have waiting : (agenda.discard t).waiting sc = agenda.waiting sc :=
        Function.update_of_ne other _ _
      have silent : ∀ turn ∈ agenda.since (agenda.discard t),
          turn.deferredOn? sc = none ∧ turn.startedOn? sc = none := by
        rw [agenda.since_discard]
        intro turn member
        rcases List.mem_append.mp member with gone | told
        · obtain ⟨a, -, rfl⟩ := List.mem_map.mp gone
          exact ⟨rfl, rfl⟩
        · split at told
          · simp at told
          · obtain rfl := List.mem_singleton.mp told
            exact ⟨rfl, rfl⟩
      have undeferred := List.filterMap_eq_nil_iff.mpr fun turn member => (silent turn member).1
      have unstarted := List.filterMap_eq_nil_iff.mpr fun turn member => (silent turn member).2
      rw [waiting, undeferred, unstarted, List.append_nil]
      exact ⟨rfl, rfl, foreign⟩
  | takes t draining =>
      have other : sc ≠ t := fun same => undrained _ _ (same ▸ draining)
      rw [agenda.since_of_append (agenda.empty t) [] rfl]
      refine ⟨?_, rfl, ?_⟩
      · simp [Agenda.empty, other]
      · intro entry member
        rcases List.mem_append.mp member with new | old
        · obtain ⟨a, -, rfl⟩ := List.mem_map.mp new
          exact other.symm
        · exact foreign entry old
  | starts t action =>
      have other : t ≠ sc := foreign _ (List.mem_cons_self ..)
      rw [agenda.since_of_append _ [.started t action.id] rfl]
      refine ⟨?_, ?_, fun entry member => foreign entry (List.mem_cons_of_mem _ member)⟩
      · simp [Agenda.start, Turn.deferredOn?]
      · simp [Turn.startedOn?, other]

theorem Thread.Reaches.undisturbed {thread after : Thread σ ν} (run : Reaches world thread next after)
    (foreign : ∀ entry ∈ thread.taken, entry.1 ≠ sc)
    (calm : ∀ reached between, Reaches world thread reached between →
      between.control ≠ .task (.start (.resetScope sc)) ∧
        ∀ ran failures, between.control ≠ .task (.drain sc ran failures)) :
    next.agenda.waiting sc = world.agenda.waiting sc ++ world.agenda.deferredSince sc next.agenda ∧
      world.agenda.startedSince sc next.agenda = [] := by
  obtain ⟨steps, run⟩ := run
  induction steps generalizing world thread with
  | zero =>
      obtain ⟨rfl, rfl⟩ := Prod.mk.inj run
      simp [Agenda.deferredSince, Agenda.startedSince, Agenda.since_self]
  | succ steps ih =>
      cases action : thread.step world with
      | none =>
          simp only [advance, action] at run
          obtain ⟨rfl, rfl⟩ := Prod.mk.inj run
          simp [Agenda.deferredSince, Agenda.startedSince, Agenda.since_self]
      | some reached =>
          obtain ⟨middle, between⟩ := reached
          rw [advance_succ action] at run
          have now := calm world thread (.refl world thread)
          have deals := step_deals action
          obtain ⟨waits, unstarted, foreign⟩ := deals.undisturbed now.1 now.2 foreign
          obtain ⟨waits', unstarted'⟩ := ih foreign
            (fun reached between later => calm reached between (.step action later)) run
          have further : middle.agenda.turns <:+ next.agenda.turns :=
            Reaches.extends ⟨steps, run⟩
          rw [Agenda.deferredSince_trans deals.extends further,
            Agenda.startedSince_trans deals.extends further, waits', waits, unstarted, unstarted',
            List.append_assoc]
          exact ⟨rfl, rfl⟩

theorem Agenda.deferredSince_start (agenda : Agenda) (sc : ScopeId) (a : Nat) :
    agenda.deferredSince sc (agenda.start sc a) = [] := by
  rw [deferredSince, agenda.since_of_append (agenda.start sc a) [.started sc a] rfl]
  rfl

theorem Agenda.startedSince_start (agenda : Agenda) (sc : ScopeId) (a : Nat) :
    agenda.startedSince sc (agenda.start sc a) = [a] := by
  rw [startedSince, agenda.since_of_append (agenda.start sc a) [.started sc a] rfl]
  simp [Turn.startedOn?]

section Undisturbed

variable {reached : World σ ν} {ran : Nat} {failures : List Error}
  (undisturbed : world.Undisturbed id sc)

include undisturbed

theorem World.Undisturbed.action {action : Action σ ν} {rest : List (Action σ ν)} {exit : Exit}
    (reach : Thread.Reaches world ⟨id, .task (.drain sc 0 []), []⟩ reached
      ⟨id, .task (.batch sc (action :: rest) ran failures), []⟩)
    (run : action.Ends id sc reached exit next) :
    next.agenda.waiting sc =
        reached.agenda.waiting sc ++ reached.agenda.deferredSince sc next.agenda ∧
      reached.agenda.startedSince sc next.agenda = [action.id] := by
  have untaken : (action.job.thread id).taken = [] := by
    obtain ⟨a, job⟩ := action
    cases job <;> rfl
  have begun := reach.trans
    (.step (Thread.step_serve reached id sc action rest ran failures []) (.refl _ _))
  have calm : ∀ later between,
      Thread.Reaches (reached.act (.started sc action.id)) (action.job.thread id) later between →
      between.control ≠ .task (.start (.resetScope sc)) ∧
        ∀ ran failures, between.control ≠ .task (.drain sc ran failures) := by
    intro later between further
    have calm := undisturbed later _ (begun.trans (further.above _))
    constructor
    · intro same
      simp [Thread.disturbs, Thread.above, same] at calm
    · intro ran failures same
      simp [Thread.disturbs, Thread.above, same] at calm
  obtain ⟨waits, unstarted⟩ :=
    Thread.Reaches.undisturbed run (by simp [untaken]) calm
  have started : (reached.act (.started sc action.id)).agenda =
      reached.agenda.start sc action.id := reached.agenda_act _
  rw [started] at waits unstarted
  have first : reached.agenda.turns <:+ (reached.agenda.start sc action.id).turns :=
    List.suffix_cons _ _
  have second : (reached.agenda.start sc action.id).turns <:+ next.agenda.turns := by
    rw [← started]
    exact Thread.Reaches.extends run
  rw [Agenda.deferredSince_trans first second, Agenda.startedSince_trans first second, unstarted,
    Agenda.deferredSince_start, Agenda.startedSince_start]
  exact ⟨waits, rfl⟩

theorem World.Undisturbed.batch {actions : List (Action σ ν)} {served : List Served}
    (batch : Batch id sc reached actions served next)
    (reach : Thread.Reaches world ⟨id, .task (.drain sc 0 []), []⟩ reached
      ⟨id, .task (.batch sc actions ran failures), []⟩) :
    next.agenda.waiting sc = reached.agenda.waiting sc ++ served.flatMap Served.late ∧
      reached.agenda.startedSince sc next.agenda = served.map Served.action := by
  induction batch generalizing ran failures with
  | nobody world => simp [Agenda.startedSince, Agenda.since_self]
  | @serves reached middle next action rest exit others run further ih =>
      obtain ⟨waits, started⟩ := undisturbed.action reach run
      obtain ⟨waits', started'⟩ := ih (reach.trans (run.reaches rest ran failures))
      have first : reached.agenda.turns <:+ middle.agenda.turns :=
        (run.reaches rest ran failures).extends
      have second : middle.agenda.turns <:+ next.agenda.turns := (further.reaches 0 []).extends
      rw [Agenda.startedSince_trans first second, started, started', waits', waits]
      simp

theorem World.Undisturbed.rounds {served : List Served} (rounds : Rounds id sc reached served next)
    (reach : Thread.Reaches world ⟨id, .task (.drain sc 0 []), []⟩ reached
      ⟨id, .task (.drain sc ran failures), []⟩) :
    Ordered (reached.agenda.waiting sc) served ∧
      reached.agenda.startedSince sc next.agenda = served.map Served.action := by
  induction rounds generalizing ran failures with
  | @drained reached empty =>
      have none : reached.agenda.waiting sc = [] := List.map_eq_nil_iff.mpr empty
      have same : (reached.takePending sc).1.agenda.turns = reached.agenda.turns := by
        rw [reached.agenda_takePending]
        rfl
      rw [none]
      refine ⟨.nobody, ?_⟩
      rw [Agenda.startedSince, Agenda.since_of_append _ _ [] same]
      rfl
  | @round reached middle next first later waits batch further ih =>
      have begun := reach.trans (.step (Thread.step_round id ran failures [] waits) (.refl _ _))
      have served := begun.trans ((batch.reaches ran failures).trans (.step rfl (.refl _ _)))
      obtain ⟨waiting, started⟩ := undisturbed.batch batch begun
      obtain ⟨ordered, started'⟩ := ih served
      rw [reached.agenda_takePending] at waiting started
      have emptied : (reached.agenda.empty sc).waiting sc = [] := Function.update_self ..
      rw [emptied, List.nil_append] at waiting
      rw [waiting] at ordered
      have newest : first.map Served.action = (reached.agenda.waiting sc).reverse := by
        rw [batch.actions]
        exact List.map_reverse
      have some : reached.agenda.waiting sc ≠ [] := fun none => waits (List.map_eq_nil_iff.mp none)
      refine ⟨.round some newest ordered, ?_⟩
      have now : reached.agenda.turns <:+ middle.agenda.turns :=
        Thread.Reaches.extends (.step (Thread.step_round id 0 [] [] waits) (batch.reaches 0 []))
      have after : middle.agenda.turns <:+ next.agenda.turns := (further.reaches 0 []).extends
      rw [Agenda.startedSince_trans now after, started', List.map_append, ← started]
      rfl

end Undisturbed

theorem World.Undisturbed.of_advance {steps : Nat}
    (ended : ∃ exit,
      (Thread.advance steps world ⟨id, .task (.drain sc 0 []), []⟩).2.exit? = some exit)
    (calm : ∀ n ≤ steps,
      (Thread.advance n world ⟨id, .task (.drain sc 0 []), []⟩).2.disturbs sc = false) :
    world.Undisturbed id sc := by
  intro reached thread reach
  obtain ⟨exit, ended⟩ := ended
  obtain ⟨n, early, reach⟩ := reach.within ended
  simpa only [reach] using calm n early

/-! ## What a teardown does -/

theorem TeardownPolicy.result_eq_done_iff (policy : TeardownPolicy) (failures : List Error) :
    policy.result failures = .done ↔ failures = [] := by
  cases failures <;> cases policy <;> simp [result]

/-- A teardown that starts in one world serves the actions of its scope in order, up to another
world, and then reports what they failed with. -/
structure World.TearsDown (world : World σ ν) (id : ThreadId) (sc : ScopeId) (served : List Served)
    (failures : List Error) (torn : World σ ν) : Prop where
  rounds : Rounds id sc world served torn
  ordered : Ordered (world.agenda.waiting sc) served
  started : world.agenda.startedSince sc torn.agenda = served.map Served.action
  reports : Reports (served.map Served.exit) failures
  ends : Ends id world (.task (.drain sc 0 []))
    (.returned ((torn.scope sc).policy.result failures)) (torn.reported sc served.length failures)
  fine : (torn.scope sc).policy.result failures = .done ↔ failures = []
  /-- Where a call begins it, the call returns the same, and gives up its hold of the scope. -/
  called : ∀ first : World σ ν, first.usable (.scope sc) = true → world = first.retain (.scope sc) →
    Ends id first (.task (.start (.runAll sc))) (.returned ((torn.scope sc).policy.result failures))
      ((torn.reported sc served.length failures).relinquish (.scope sc))

/-- A teardown of finitely many actions, each of which comes to its end and only defers further ones
on the scope, serves each batch newest first, and then those that were deferred meanwhile. -/
theorem World.teardown_ordered (world : World σ ν) (id : ThreadId) (sc : ScopeId)
    (finite : world.Finite id sc) (undisturbed : world.Undisturbed id sc) :
    ∃ served failures torn, world.TearsDown id sc served failures torn := by
  obtain ⟨served, torn, rounds⟩ := finite.rounds
  obtain ⟨ordered, started⟩ := undisturbed.rounds rounds (.refl _ _)
  refine ⟨served, Served.failures served, torn, ?_⟩
  exact
    { rounds, ordered, started
      reports := .of_served served
      ends := rounds.ends
      fine := TeardownPolicy.result_eq_done_iff _ _
      called := by
        rintro first usable rfl
        exact Ends.runAll usable rounds.ends }

/-- The older of two actions defers another and then fails, and the late one panics. -/
def Code.deferLate : Code Unit Unit :=
  .call (.newScope .collectAll) fun _ =>
    .call (.defer 0 (.call (.defer 0 (.panic .other)) fun _ => .ret (.failed (.drop .dropped))))
      fun _ => .call (.defer 0 (.ret .done)) fun _ => .call (.runAll 0) .ret

theorem World.teardown_ordered_deferLate :
    let asked := Thread.advance 10 { memory := () } (.ofCode 0 Code.deferLate)
    let world := asked.1.retain (.scope 0)
    asked.2.control = .task (.start (.runAll 0)) ∧ world.agenda.waiting 0 = [0, 1] ∧
      ∃ served failures torn, world.TearsDown 0 0 served failures torn ∧
        (torn.scope 0).policy.result failures =
          .failed (.teardown (.mk [.drop .dropped, .drop (.panicked "unknown panic")] none)) := by
  intro asked world
  have run : Ends 0 world (.task (.drain 0 0 []))
      (.returned (.failed (.teardown
        (.mk [.drop .dropped, .drop (.panicked "unknown panic")] none))))
      (Thread.advance 18 world ⟨0, .task (.drain 0 0 []), []⟩).1 := ⟨18, rfl⟩
  have calm : ∀ n ≤ 18,
      (Thread.advance n world ⟨0, .task (.drain 0 0 []), []⟩).2.disturbs 0 = false := by
    decide +kernel
  obtain ⟨served, failures, torn, tears⟩ :=
    teardown_ordered world 0 0 (.of_ends run) (.of_advance ⟨_, rfl⟩ calm)
  obtain ⟨same, -⟩ := run.unique tears.ends
  exact ⟨rfl, rfl, served, failures, torn, tears, Exit.returned.inj same⟩

end Relinquish
