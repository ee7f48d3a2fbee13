import Relinquish.Proofs.Policies
import Relinquish.Proofs.Rounds

/-!
Calls that lend a scope to a body. The body runs once, then all that waits in the scope is served,
and what the call comes to depends on how the body ended and on what failed in the teardown.
-/

namespace Relinquish

variable {σ ν : Type} {id : ThreadId} {sc : ScopeId} {world middle next : World σ ν}

/-! ## Nothing that was deferred is forgotten -/

/-- Each action that was deferred on the scope since an earlier agenda waits, or is taken, or was
started or discarded since. -/
def Agenda.Attends (earlier : Agenda) (sc : ScopeId) (agenda : Agenda)
    (taken : List (ScopeId × Nat)) : Prop :=
  ∀ a, .deferred sc a ∈ earlier.since agenda →
    a ∈ agenda.waiting sc ∨ (sc, a) ∈ taken ∨ .started sc a ∈ earlier.since agenda ∨
      .discarded sc a ∈ earlier.since agenda

theorem Deals.attends {control after : Control σ ν} {earlier agenda later : Agenda}
    {taken left : List (ScopeId × Nat)} (deals : Deals control after agenda taken later left)
    (before : earlier.turns <:+ agenda.turns) (attends : earlier.Attends sc agenda taken) :
    earlier.Attends sc later left := by
  intro a deferred
  have all := Agenda.since_trans before deals.extends
  rw [all, List.mem_append] at deferred
  -- What was true of an action before stays true, unless this step moves it on.
  have kept (waits : a ∈ agenda.waiting sc → a ∈ later.waiting sc ∨ (sc, a) ∈ left ∨
        .discarded sc a ∈ agenda.since later)
      (stays : (sc, a) ∈ taken → (sc, a) ∈ left ∨ .started sc a ∈ agenda.since later)
      (old : .deferred sc a ∈ earlier.since agenda) :
      a ∈ later.waiting sc ∨ (sc, a) ∈ left ∨ .started sc a ∈ earlier.since later ∨
        .discarded sc a ∈ earlier.since later := by
    simp only [all, List.mem_append]
    rcases attends a old with waiting | taken | started | discarded
    · rcases waits waiting with still | taken | discarded
      · exact .inl still
      · exact .inr (.inl taken)
      · exact .inr (.inr (.inr (.inr discarded)))
    · rcases stays taken with still | started
      · exact .inr (.inl still)
      · exact .inr (.inr (.inl (.inr started)))
    · exact .inr (.inr (.inl (.inl started)))
    · exact .inr (.inr (.inr (.inl discarded)))
  cases deals with
  | quiet =>
      rw [agenda.since_self] at deferred
      exact kept .inl .inl (by simpa using deferred)
  | defers t =>
      rw [agenda.since_of_append _ [.deferred t agenda.made] rfl] at deferred
      rcases deferred with old | new
      · refine kept (fun waiting => .inl ?_) .inl old
        by_cases same : sc = t
        · subst same
          simp [Agenda.defer, waiting]
        · simpa [Agenda.defer, same] using waiting
      · simp only [List.reverse_singleton, List.mem_singleton, Turn.deferred.injEq] at new
        obtain ⟨rfl, rfl⟩ := new
        left
        simp [Agenda.defer]
  | discards t =>
      rw [agenda.since_discard] at deferred
      have old : .deferred sc a ∈ earlier.since agenda := by
        refine deferred.resolve_right ?_
        split <;> simp
      refine kept (fun waiting => ?_) .inl old
      by_cases same : sc = t
      · subst same
        right; right
        rw [agenda.since_discard]
        simp [waiting]
      · left
        simpa [Agenda.discard, Agenda.empty, same] using waiting
  | takes t =>
      rw [agenda.since_of_append (agenda.empty t) [] rfl] at deferred
      refine kept (fun waiting => ?_) (fun taken => .inl (List.mem_append_right _ taken))
        (by simpa using deferred)
      by_cases same : sc = t
      · subst same
        right; left
        simp [waiting]
      · left
        simpa [Agenda.empty, same] using waiting
  | starts t action =>
      rw [agenda.since_of_append (agenda.start t action.id) [.started t action.id] rfl] at deferred
      refine kept .inl (fun taken => ?_) (by simpa using deferred)
      rcases List.mem_cons.mp taken with first | rest
      · obtain ⟨rfl, rfl⟩ := Prod.mk.inj first
        right
        rw [agenda.since_of_append (agenda.start sc action.id) [.started sc action.id] rfl]
        exact List.mem_singleton.mpr rfl
      · exact .inl rest

theorem Thread.Reaches.attends {thread after : Thread σ ν} (run : Reaches world thread next after) :
    world.agenda.Attends sc next.agenda after.taken := by
  obtain ⟨steps, run⟩ := run
  have attends : world.agenda.turns <:+ (Thread.advance steps world thread).1.agenda.turns ∧
      world.agenda.Attends sc (Thread.advance steps world thread).1.agenda
        (Thread.advance steps world thread).2.taken := by
    refine Thread.advance_rule
      (fun next after => world.agenda.turns <:+ next.agenda.turns ∧
        world.agenda.Attends sc next.agenda after.taken)
      (fun _ _ _ _ earlier action => ?_) ⟨List.suffix_refl _, ?_⟩ steps
    · have deals := step_deals action
      exact ⟨earlier.1.trans deals.extends, deals.attends earlier.1 earlier.2⟩
    · intro a deferred
      rw [Agenda.since_self] at deferred
      contradiction
  rw [run] at attends
  exact attends.2

/-! ## What the rounds of a teardown leave -/

theorem Agenda.started_since_start (agenda : Agenda) (sc : ScopeId) (a : Nat) :
    Turn.started sc a ∈ agenda.since (agenda.start sc a) := by
  rw [agenda.since_of_append (agenda.start sc a) [.started sc a] rfl]
  exact List.mem_singleton.mpr rfl

theorem Batch.started {actions : List (Action σ ν)} {served : List Served}
    (batch : Batch id sc world actions served next) :
    ∀ turn ∈ served, Turn.started sc turn.action ∈ world.agenda.since next.agenda := by
  induction batch with
  | nobody world => nofun
  | @serves world middle next action rest exit others run further ih =>
      have begun : (world.act (.started sc action.id)).agenda = world.agenda.start sc action.id :=
        world.agenda_act _
      have first := Thread.Reaches.extends run
      rw [begun] at first
      have now : world.agenda.turns <:+ (world.agenda.start sc action.id).turns :=
        List.suffix_cons _ _
      have second : middle.agenda.turns <:+ next.agenda.turns := (further.reaches 0 []).extends
      have all := Agenda.since_trans (now.trans first) second
      rw [Agenda.since_trans now first] at all
      intro turn member
      rw [all]
      rcases List.mem_cons.mp member with rfl | other
      · exact List.mem_append_left _
          (List.mem_append_left _ (world.agenda.started_since_start sc action.id))
      · exact List.mem_append_right _ (ih turn other)

namespace Rounds

variable {served : List Served} (rounds : Rounds id sc world served next)

include rounds

theorem emptied : next.agenda.waiting sc = [] := by
  induction rounds with
  | @drained world empty =>
      rw [world.agenda_takePending]
      exact Function.update_self ..
  | round waits batch further ih => exact ih

theorem started : ∀ turn ∈ served, Turn.started sc turn.action ∈ world.agenda.since next.agenda := by
  induction rounds with
  | drained empty => nofun
  | @round world middle next first later waits batch further ih =>
      have begun : world.agenda.turns <:+ middle.agenda.turns :=
        Thread.Reaches.extends (.step (Thread.step_round id 0 [] [] waits) (batch.reaches 0 []))
      have rest : middle.agenda.turns <:+ next.agenda.turns := (further.reaches 0 []).extends
      intro turn member
      rw [Agenda.since_trans begun rest]
      rcases List.mem_append.mp member with now | afterwards
      · have started := batch.started turn now
        rw [world.agenda_takePending] at started
        exact List.mem_append_left _ started
      · exact List.mem_append_right _ (ih turn afterwards)

theorem waiting_prefix : (world.agenda.waiting sc).reverse <+: served.map Served.action := by
  cases rounds with
  | drained empty =>
      have none : world.agenda.waiting sc = [] := List.map_eq_nil_iff.mpr empty
      rw [none]
      exact List.nil_prefix
  | round waits batch further =>
      rw [List.map_append, batch.actions, List.map_reverse]
      exact List.prefix_append _ _

theorem late {a : Nat} (deferred : .deferred sc a ∈ world.agenda.since next.agenda) :
    .started sc a ∈ world.agenda.since next.agenda ∨
      .discarded sc a ∈ world.agenda.since next.agenda := by
  have attends := (rounds.reaches 0 []).attends a deferred
  rw [rounds.emptied] at attends
  simpa [Thread.taken, Control.taken, Task.taken] using attends

end Rounds

/-! ## The course of a call -/

def ScopeConfig.lentScope (config : ScopeConfig) : Scope σ ν :=
  { policy := config.policy, shared := 1, lent := true }

def World.lend (world : World σ ν) (config : ScopeConfig) : World σ ν :=
  (world.addScope config.lentScope).1

def World.takeBack (world : World σ ν) (sc : ScopeId) : World σ ν :=
  (world.updateScope sc fun scope => { scope with lent := false }).relinquish (.scope sc)

/-- What a call returns or resumes, and which events it emits itself: an outcome of the body stands
where nothing failed in the teardown, and a panic always. -/
inductive Concludes (policy : TeardownPolicy) (sc : ScopeId) :
    Exit → List Error → Exit → List Event → Prop
  | clean (outcome : Exit) : Concludes policy sc outcome [] outcome []
  | failed {reply : Reply} {failures : List Error} {report : TeardownError}
      (fine : reply.error? = none) (some : failures ≠ [])
      (reported : policy.result failures = .failed (.teardown report))
      (alone : report.interrupted = none) :
      Concludes policy sc (.returned reply) failures
        (.returned (.failed (.drop (.teardown report)))) []
  | interrupted {body : Error} {failures : List Error} {report error : TeardownError}
      (some : failures ≠ []) (reported : policy.result failures = .failed (.teardown report))
      (kept : error.failures = report.failures) (interrupts : error.interrupted = .some body)
      (source : (DropError.teardown error).source = .some body) :
      Concludes policy sc (.returned (.failed body)) failures
        (.returned (.failed (.drop (.teardown error)))) []
  | panicked {payload : Payload} {failures : List Error} {report : TeardownError} {event : Event}
      (some : failures ≠ []) (reported : policy.result failures = .failed (.teardown report))
      (told : event = .unwindingFailed sc (.teardown report)) (level : event.level = .error) :
      Concludes policy sc (.panicked payload) failures (.panicked payload) [event]

/-- What happened in a call that lends a scope: how and where its body ended, which actions were
served then, up to where and with which failures, which events the call emitted at last, and how it
ended itself. -/
structure Course (σ ν : Type) where
  outcome : Exit
  closing : World σ ν
  served : List Served
  torn : World σ ν
  failures : List Error
  events : List Event
  exit : Exit

def Course.last (course : Course σ ν) (sc : ScopeId) : World σ ν :=
  ((course.torn.reported sc course.served.length course.failures).emitAll course.events).takeBack sc

structure Course.Follows (course : Course σ ν) (id : ThreadId) (world : World σ ν)
    (config : ScopeConfig) (body : ScopeId → Code σ ν) : Prop where
  fresh : (world.lend config).scope world.scopes.size = config.lentScope
  begins : ∀ base, Thread.step world ⟨id, .task (.start (.deferring config body)), base⟩ =
    some (world.lend config, ⟨id, .code (body world.scopes.size), .body world.scopes.size :: base⟩)
  runs : Ends id (world.lend config) (.code (body world.scopes.size)) course.outcome course.closing
  closes : ∀ base,
    Thread.step course.closing ⟨id, .task (.finish course.outcome), .body world.scopes.size :: base⟩ =
      some (course.closing,
        ⟨id, .task (.drain world.scopes.size 0 []), .closing world.scopes.size course.outcome :: base⟩)
  rounds : Rounds id world.scopes.size course.closing course.served course.torn
  waiting : (course.closing.agenda.waiting world.scopes.size).reverse <+:
    course.served.map Served.action
  started : ∀ turn ∈ course.served,
    .started world.scopes.size turn.action ∈ course.closing.agenda.since course.torn.agenda
  late : ∀ a, .deferred world.scopes.size a ∈ course.closing.agenda.since course.torn.agenda →
    .started world.scopes.size a ∈ course.closing.agenda.since course.torn.agenda ∨
      .discarded world.scopes.size a ∈ course.closing.agenda.since course.torn.agenda
  emptied : (course.last world.scopes.size).agenda.waiting world.scopes.size = []
  reports : Reports (course.served.map Served.exit) course.failures
  concludes :
    Concludes config.policy world.scopes.size course.outcome course.failures course.exit course.events
  ends : Ends id world (.task (.start (.deferring config body))) course.exit
    (course.last world.scopes.size)

theorem Concludes.of_failures (policy : TeardownPolicy) (sc : ScopeId) (outcome : Exit)
    (failures : List Error) :
    Concludes policy sc outcome failures
      (outcome.afterTeardown (policy.result failures).teardown?)
      (outcome.unwindingEvents sc (policy.result failures).teardown?) := by
  cases failures with
  | nil =>
      cases outcome <;> exact .clean _
  | cons first rest =>
      obtain ⟨report, reported, alone⟩ : ∃ report,
          policy.result (first :: rest) = .failed (.teardown report) ∧ report.interrupted = none := by
        cases policy <;> exact ⟨_, rfl, rfl⟩
      rw [reported]
      cases outcome with
      | panicked payload => exact .panicked (List.cons_ne_nil _ _) reported rfl rfl
      | returned reply =>
          cases fine : reply.error? with
          | none =>
              simp only [Reply.teardown?, Exit.afterTeardown, fine]
              exact .failed fine (List.cons_ne_nil _ _) reported alone
          | some body =>
              cases reply <;> simp only [Reply.error?, reduceCtorEq, Option.some.injEq] at fine
              subst fine
              exact .interrupted (List.cons_ne_nil _ _) reported rfl rfl rfl

theorem World.agenda_takeBack (world : World σ ν) (sc : ScopeId) :
    (world.takeBack sc).agenda = world.agenda := by
  unfold takeBack
  rw [World.agenda_relinquish]
  exact world.agenda_updateScope sc _ fun _ => rfl

theorem World.agenda_reported (world : World σ ν) (sc : ScopeId) (ran : Nat)
    (failures : List Error) : (world.reported sc ran failures).agenda = world.agenda := by
  unfold reported
  exact (World.agenda_emitAll _ (List.forall_mem_map.mpr fun _ _ => rfl)).trans rfl

theorem Concludes.silent {policy : TeardownPolicy} {outcome exit : Exit} {failures : List Error}
    {events : List Event} (concludes : Concludes policy sc outcome failures exit events) :
    ∀ event ∈ events, Mark.turn? (.event event : Mark ν) = none := by
  cases concludes with
  | panicked some reported told level =>
      subst told
      simp [Mark.turn?]
  | _ => exact List.forall_mem_nil _

theorem Rounds.policy_kept {served : List Served} (rounds : Rounds id sc world served next)
    (made : sc < world.scopes.size) : (next.scope sc).policy = (world.scope sc).policy :=
  (rounds.reaches 0 []).governs.policy sc made

theorem Rounds.policy {config : ScopeConfig} {thread after : Thread σ ν} {served : List Served}
    (run : Thread.Reaches (world.lend config) thread middle after)
    (rounds : Rounds id world.scopes.size middle served next) :
    (next.scope world.scopes.size).policy = config.policy := by
  have made : world.scopes.size < (world.lend config).scopes.size := by
    simp [World.lend, World.addScope, Table.size_push]
  have lent := run.governs.policy _ made
  rw [rounds.policy_kept (Nat.lt_of_lt_of_le made run.governs.made), lent, World.lend,
    World.scope_addScope, if_pos rfl]
  rfl

theorem Ends.takeBack {outcome : Exit} {reply : Reply}
    (drained : Ends id world (.task (.drain sc 0 [])) (.returned reply) next)
    (emptied : (next.emitAll (outcome.unwindingEvents sc reply.teardown?)).agenda.waiting sc = []) :
    Thread.Reaches world ⟨id, .task (.drain sc 0 []), [.closing sc outcome]⟩
      ((next.emitAll (outcome.unwindingEvents sc reply.teardown?)).takeBack sc)
      ⟨id, .task (.finish (outcome.afterTeardown reply.teardown?)), []⟩ := by
  let closed := (next.emitAll (outcome.unwindingEvents sc reply.teardown?)).updateScope sc
    fun scope => { scope with lent := false }
  have resumed : Thread.step next ⟨id, .task (.finish (.returned reply)), [.closing sc outcome]⟩ =
      some (closed, ⟨id, .task (.letGo [.scope sc] (outcome.afterTeardown reply.teardown?)), []⟩) :=
    rfl
  have same : closed.agenda = _ := World.agenda_updateScope _ sc _ fun _ => rfl
  have gone := Thread.step_letGo closed id sc [] (outcome.afterTeardown reply.teardown?)
    (by rw [same]; exact emptied)
  exact (drained.above _).trans (.step resumed (.step gone (.step rfl (.refl _ _))))

theorem Ends.lent {config : ScopeConfig} {body : ScopeId → Code σ ν} {outcome exit : Exit}
    (run : Ends id (world.lend config) (.code (body world.scopes.size)) outcome middle)
    (closes : Thread.Reaches middle
      ⟨id, .task (.drain world.scopes.size 0 []), [.closing world.scopes.size outcome]⟩ next
      ⟨id, .task (.finish exit), []⟩) :
    Ends id world (.task (.start (.deferring config body))) exit next := by
  have begins : Thread.step world ⟨id, .task (.start (.deferring config body)), []⟩ =
      some (world.lend config,
        ⟨id, .code (body world.scopes.size), [.body world.scopes.size]⟩) := rfl
  exact .step begins ((run.above _).trans (.step rfl closes))

theorem Course.agenda_last {policy : TeardownPolicy} (course : Course σ ν)
    (concludes : Concludes policy sc course.outcome course.failures course.exit course.events) :
    (course.last sc).agenda = course.torn.agenda :=
  (World.agenda_takeBack _ sc).trans
    ((World.agenda_emitAll _ concludes.silent).trans (course.torn.agenda_reported ..))

theorem Rounds.closes {served : List Served} (rounds : Rounds id sc world served next)
    (outcome : Exit) :
    ∃ exit events,
      Concludes (next.scope sc).policy sc outcome (Served.failures served) exit events ∧
      Thread.Reaches world ⟨id, .task (.drain sc 0 []), [.closing sc outcome]⟩
        (((next.reported sc served.length (Served.failures served)).emitAll events).takeBack sc)
        ⟨id, .task (.finish exit), []⟩ := by
  have concludes :=
    Concludes.of_failures (next.scope sc).policy sc outcome (Served.failures served)
  refine ⟨_, _, concludes, rounds.ends.takeBack ?_⟩
  rw [World.agenda_emitAll _ concludes.silent, next.agenda_reported]
  exact rounds.emptied

theorem Rounds.course {config : ScopeConfig} {body : ScopeId → Code σ ν} {outcome : Exit}
    {served : List Served}
    (run : Ends id (world.lend config) (.code (body world.scopes.size)) outcome middle)
    (rounds : Rounds id world.scopes.size middle served next) :
    ∃ course : Course σ ν, course.outcome = outcome ∧ course.closing = middle ∧
      course.served = served ∧ course.torn = next ∧ course.Follows id world config body := by
  obtain ⟨exit, events, concludes, closes⟩ := rounds.closes outcome
  rw [Rounds.policy run rounds] at concludes
  let course : Course σ ν :=
    { outcome, served, events, exit
      closing := middle
      torn := next
      failures := Served.failures served }
  exact ⟨course, rfl, rfl, rfl, rfl,
    { fresh := by rw [World.lend, World.scope_addScope, if_pos rfl]
      begins := fun _ => rfl
      runs := run
      closes := fun _ => rfl
      rounds, concludes
      ends := Ends.lent run closes
      waiting := rounds.waiting_prefix
      started := rounds.started
      late := fun _ => rounds.late
      emptied := by
        rw [course.agenda_last concludes]
        exact rounds.emptied
      reports := .of_served served }⟩

/-- Whatever the body does, a call that lends it a scope takes this course, when the body comes to
its end and then the teardown too. -/
theorem Call.deferring_follows (id : ThreadId) (world : World σ ν) (config : ScopeConfig)
    (body : ScopeId → Code σ ν) {outcome : Exit} {closing : World σ ν}
    (run : Ends id (world.lend config) (.code (body world.scopes.size)) outcome closing)
    (finite : closing.Finite id world.scopes.size) :
    ∃ course : Course σ ν, course.outcome = outcome ∧ course.closing = closing ∧
      course.Follows id world config body := by
  obtain ⟨served, torn, rounds⟩ := finite.rounds
  obtain ⟨course, ended, closes, -, -, follows⟩ := rounds.course run
  exact ⟨course, ended, closes, follows⟩

/-- The body fails, and the action that it has deferred panics. -/
def Code.failAfterDefer (sc : ScopeId) : Code Unit Unit :=
  .call (.defer sc (.panic .other)) fun _ => .ret (.failed (.text "body"))

theorem Call.deferring_follows_failAfterDefer :
    ∃ course : Course Unit Unit,
      course.outcome = .returned (.failed (.text "body")) ∧
      course.Follows 0 { memory := () } {} Code.failAfterDefer ∧
      course.exit = .returned (.failed (.drop (.teardown
        (.mk [.drop (.panicked "unknown panic")] (some (.text "body")))))) := by
  let world : World Unit Unit := { memory := () }
  let closing := (Thread.advance 10 (world.lend {}) (.ofCode 0 (Code.failAfterDefer 0))).1
  have run : Ends 0 (world.lend {}) (.code (Code.failAfterDefer 0))
      (.returned (.failed (.text "body"))) closing := ⟨10, rfl⟩
  have drained : Ends 0 closing (.task (.drain 0 0 []))
      (.returned (.failed (.teardown (.mk [.drop (.panicked "unknown panic")] none))))
      (Thread.advance 10 closing ⟨0, .task (.drain 0 0 []), []⟩).1 := ⟨10, rfl⟩
  have ended : Ends 0 world (.task (.start (.deferring {} Code.failAfterDefer)))
      (.returned (.failed (.drop (.teardown
        (.mk [.drop (.panicked "unknown panic")] (some (.text "body")))))))
      (Thread.advance 25 world
        ⟨0, .task (.start (.deferring {} Code.failAfterDefer)), []⟩).1 := ⟨25, rfl⟩
  obtain ⟨course, outcome, -, follows⟩ :=
    deferring_follows 0 world {} Code.failAfterDefer run (.of_ends drained)
  exact ⟨course, outcome, follows, (ended.unique follows.ends).1⟩

end Relinquish
