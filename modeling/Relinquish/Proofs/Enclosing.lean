import Relinquish.Proofs.Nesting

/-!
Nested programs: each call that lends a scope serves what was deferred on it after its body and before
anything around it goes on, and a panic tears down one scope after the other on its way out.
-/

namespace Relinquish

variable {σ ν : Type} {id : ThreadId} {sc : ScopeId} {base scopes : List ScopeId}
  {shut : ScopeId → Prop} {world middle next : World σ ν} {thread after : Thread σ ν}

/-! ## What nested threads defer and start -/

theorem Deals.turn {control after : Control σ ν} {agenda later : Agenda}
    {taken left : List (ScopeId × Nat)} (deals : Deals control after agenda taken later left)
    {turn : Turn} (new : turn ∈ agenda.since later) :
    (∃ call sc handles, control = .task (.start call) ∧ call.registers? = some (sc, handles) ∧
      turn = .deferred sc agenda.made) ∨
    (∃ sc, control = .task (.start (.resetScope sc))) ∨
    ∃ sc action rest ran failures, control = .task (.batch sc (action :: rest) ran failures) ∧
      turn = .started sc action.id := by
  cases deals with
  | quiet =>
      rw [agenda.since_self] at new
      contradiction
  | defers t starting registers =>
      rw [agenda.since_of_append _ [.deferred t agenda.made] rfl] at new
      exact .inl ⟨_, _, _, starting, registers, List.mem_singleton.mp new⟩
  | discards t starting => exact .inr (.inl ⟨t, starting⟩)
  | takes t =>
      rw [agenda.since_of_append (agenda.empty t) [] rfl] at new
      contradiction
  | starts t action turn =>
      rw [agenda.since_of_append (agenda.start t action.id) [.started t action.id] rfl] at new
      exact .inr (.inr ⟨_, _, _, _, _, turn, List.mem_singleton.mp new⟩)

theorem Layers.base_subset {stack : List (Frame σ ν)} (below : Layers base scopes stack) :
    base ⊆ scopes := by
  induction below with
  | bottom => exact List.Subset.refl _
  | calling rest below ih => exact ih
  | body sc below ih | tearing sc ran failures outcome nests below ih =>
      exact List.subset_cons_of_subset _ ih

theorem Layers.closing_mem {stack : List (Frame σ ν)} {outcome : Exit}
    (below : Layers base scopes stack) (closing : .closing sc outcome ∈ stack) : sc ∈ scopes := by
  induction below with
  | bottom => contradiction
  | calling rest below ih =>
      exact ih ((List.mem_cons.mp closing).resolve_left nofun)
  | body t below ih =>
      exact List.mem_cons_of_mem _ (ih ((List.mem_cons.mp closing).resolve_left nofun))
  | tearing t ran failures ended nests below ih =>
      have closing := (List.mem_cons.mp closing).resolve_left nofun
      rcases List.mem_cons.mp closing with same | lower
      · obtain ⟨rfl, -⟩ := Frame.closing.inj same
        exact List.mem_cons_self ..
      · exact List.mem_cons_of_mem _ (ih lower)

namespace Thread.Nests

theorem unreset (nests : thread.Nests base shut world) (sc : ScopeId) :
    thread.control ≠ .task (.start (.resetScope sc)) := by
  intro same
  obtain ⟨opened, -, nested, -⟩ := nests.opens
  rw [same] at nested
  cases nested with
  | start nests below => exact nests

theorem draining (nests : thread.Nests base shut world) {ran : Nat} {failures : List Error}
    (draining : thread.control = .task (.drain sc ran failures)) : sc ∉ base := by
  obtain ⟨opened, encloses, nested, -⟩ := nests.opens
  rw [draining] at nested
  obtain ⟨stack, nested⟩ : ∃ stack, Nested base opened (.task (.drain sc ran failures)) stack :=
    ⟨_, nested⟩
  cases nested with
  | drain sc ran failures outcome below =>
      exact fun member => encloses.innermost_not_mem (below.base_subset member)

theorem step_turn (nests : thread.Nests base shut world)
    (action : thread.step world = some (next, after)) {turn : Turn}
    (new : turn ∈ world.agenda.since next.agenda) :
    (∃ sc a, turn = .deferred sc a ∧ ¬ shut sc) ∨
      ∃ sc a, turn = .started sc a ∧ ¬ shut sc ∧ sc ∉ base := by
  obtain ⟨opened, encloses, nested, closed⟩ := nests.opens
  rcases (step_deals action).turn new with
    ⟨call, sc, handles, starting, registers, rfl⟩ | ⟨sc, resets⟩ |
    ⟨sc, served, rest, ran, failures, serving, rfl⟩
  · rw [starting] at nested
    cases nested with
    | start nests below =>
        cases call <;> try contradiction
        case defer t code =>
          obtain ⟨outer, enclosing, -⟩ := nests
          obtain ⟨rfl, -⟩ := Prod.mk.inj (Option.some.inj registers)
          exact .inl ⟨t, _, rfl, closed t (enclosing.subset (List.mem_cons_self ..))⟩
  · exact absurd resets (nests.unreset sc)
  · rw [serving] at nested
    obtain ⟨stack, nested⟩ : ∃ stack,
        Nested base opened (.task (.batch sc (served :: rest) ran failures)) stack := ⟨_, nested⟩
    cases nested with
    | batch sc ran failures outcome nests below =>
        refine .inr ⟨sc, _, rfl, closed sc (List.mem_cons_self ..), fun member => ?_⟩
        exact encloses.innermost_not_mem (below.base_subset member)

theorem turn (nests : thread.Nests base shut world) (run : Reaches world thread next after)
    {turn : Turn} (new : turn ∈ world.agenda.since next.agenda) :
    (∃ sc a, turn = .deferred sc a ∧ ¬ shut sc) ∨
      ∃ sc a, turn = .started sc a ∧ ¬ shut sc ∧ sc ∉ base := by
  obtain ⟨steps, run⟩ := run
  induction steps generalizing world thread with
  | zero =>
      obtain ⟨rfl, rfl⟩ := Prod.mk.inj run
      rw [Agenda.since_self] at new
      contradiction
  | succ steps ih =>
      cases action : thread.step world with
      | none =>
          simp only [advance, action] at run
          obtain ⟨rfl, rfl⟩ := Prod.mk.inj run
          rw [Agenda.since_self] at new
          contradiction
      | some reached =>
          rw [advance_succ action] at run
          have further : reached.1.agenda.turns <:+ next.agenda.turns :=
            Reaches.extends ⟨steps, run⟩
          rw [Agenda.since_trans (step_deals action).extends further, List.mem_append] at new
          rcases new with now | later
          · exact nests.step_turn action now
          · exact ih (nests.step action).1 later run

theorem started (nests : thread.Nests base shut world) (run : Reaches world thread next after)
    (none : shut sc ∨ sc ∈ base) : world.agenda.startedSince sc next.agenda = [] := by
  refine List.filterMap_eq_nil_iff.mpr fun turn new => ?_
  rcases nests.turn run new with ⟨t, a, rfl, -⟩ | ⟨t, a, rfl, open', above⟩
  · rfl
  · have other : t ≠ sc := by
      rintro rfl
      exact none.elim open' above
    simp [Turn.startedOn?, other]

theorem deferred (nests : thread.Nests base shut world) (run : Reaches world thread next after)
    (gone : shut sc) : world.agenda.deferredSince sc next.agenda = [] := by
  refine List.filterMap_eq_nil_iff.mpr fun turn new => ?_
  rcases nests.turn run new with ⟨t, a, rfl, open'⟩ | ⟨t, a, rfl, -⟩
  · have other : t ≠ sc := by
      rintro rfl
      exact open' gone
    simp [Turn.deferredOn?, other]
  · rfl

end Thread.Nests

/-! ## Teardowns in nested programs -/

theorem World.Encloses.nests_closing (encloses : world.Encloses (sc :: scopes)) (id : ThreadId)
    (outcome : Exit) (closed : ∀ t ∈ sc :: scopes, ¬ shut t)
    (made : ∀ t, shut t → t < world.scopes.size) :
    Thread.Nests scopes shut world ⟨id, .task (.drain sc 0 []), [.closing sc outcome]⟩ :=
  ⟨⟨sc :: scopes, encloses, .drain sc 0 [] outcome .bottom, closed⟩, made⟩

theorem World.Encloses.finite (encloses : world.Encloses (sc :: scopes)) (id : ThreadId) :
    world.Finite id sc := by
  let outcome : Exit := .returned .done
  have nests : Thread.Nests scopes (fun _ => False) world
      ⟨id, .task (.drain sc 0 []), [.closing sc outcome]⟩ :=
    encloses.nests_closing id outcome (fun _ _ => not_false) fun _ => False.elim
  obtain ⟨exit, next, run⟩ := nests.ends
  have run : Thread.Reaches world
      (Thread.above ⟨id, .task (.drain sc 0 []), []⟩ [.closing sc outcome]) next
      ⟨id, .task (.finish exit), []⟩ := run
  obtain ⟨middle, inner, drained, -⟩ := run.cut (Nat.zero_le _)
  exact .of_ends drained

/-- Actions of nested programs only defer further actions on the scope that is torn down. -/
theorem World.Encloses.undisturbed (encloses : world.Encloses (sc :: scopes)) (id : ThreadId) :
    world.Undisturbed id sc := by
  intro reached between run
  let outcome : Exit := .returned .done
  have nests : Thread.Nests scopes (fun _ => False) world
      ⟨id, .task (.drain sc 0 []), [.closing sc outcome]⟩ :=
    encloses.nests_closing id outcome (fun _ _ => not_false) fun _ => False.elim
  have nests := (nests.reaches (run.above [.closing sc outcome])).1
  obtain ⟨_, control, stack⟩ := between
  unfold Thread.disturbs
  split
  · next t resets =>
      refine beq_eq_false_iff_ne.mpr fun same => nests.unreset t ?_
      exact resets
  · next t ran failures draining =>
      by_cases same : t = sc
      · subst same
        obtain ⟨opened, encloses, nested, -⟩ := nests.opens
        obtain rfl : control = _ := draining
        cases stack with
        | nil => simp
        | cons frame stack =>
            -- The scope would be open twice, on top of the stack and below.
            cases nested with
            | drain t ran failures ended below =>
                have member := below.closing_mem (List.mem_append_right stack (List.mem_singleton.mpr rfl))
                exact absurd member encloses.innermost_not_mem
      · simp [same]
  · rfl

/-! ## The course of a call in a nested program -/

theorem Batch.late {actions : List (Action σ ν)} {served : List Served}
    (batch : Batch id sc world actions served next) :
    served.flatMap Served.late = world.agenda.deferredSince sc next.agenda := by
  induction batch with
  | nobody world => simp [Agenda.deferredSince, Agenda.since_self]
  | @serves world middle next action rest exit others run further ih =>
      have first : world.agenda.turns <:+ middle.agenda.turns := (run.reaches rest 0 []).extends
      have second : middle.agenda.turns <:+ next.agenda.turns := (further.reaches 0 []).extends
      rw [Agenda.deferredSince_trans first second, List.flatMap_cons, ih]

theorem Rounds.late_deferred {served : List Served} (rounds : Rounds id sc world served next) :
    served.flatMap Served.late = world.agenda.deferredSince sc next.agenda := by
  induction rounds with
  | @drained world empty =>
      rw [world.agenda_takePending, Agenda.deferredSince,
        world.agenda.since_of_append (world.agenda.empty sc) [] rfl]
      rfl
  | @round world middle next first later waits batch further ih =>
      have begun : world.agenda.turns <:+ middle.agenda.turns :=
        Thread.Reaches.extends (.step (Thread.step_round id 0 [] [] waits) (batch.reaches 0 []))
      have rest : middle.agenda.turns <:+ next.agenda.turns := (further.reaches 0 []).extends
      have now := batch.late
      rw [world.agenda_takePending] at now
      rw [Agenda.deferredSince_trans begun rest, List.flatMap_append, now, ih]
      rfl

theorem Ordered.perm {waiting : List Nat} {served : List Served} (ordered : Ordered waiting served) :
    (served.map Served.action).Perm (waiting ++ served.flatMap Served.late) := by
  induction ordered with
  | nobody => exact .nil
  | @round waiting first later waits newest rest ih =>
      rw [List.map_append, newest, List.flatMap_append]
      exact (List.reverse_perm waiting).append ih

/-- How a call that lends a scope fits into the nested program around it. -/
structure Course.Fits (course : Course σ ν) (world : World σ ν) (thread : Thread σ ν) : Prop where
  /-- None of the scope's actions is started before the body has ended. -/
  unstarted : world.agenda.startedSince world.scopes.size course.closing.agenda = []
  ordered : Ordered (world.agenda.deferredSince world.scopes.size course.closing.agenda) course.served
  exact : (course.served.map Served.action).Perm
    (world.agenda.deferredSince world.scopes.size (course.last world.scopes.size).agenda)
  started : world.agenda.startedSince world.scopes.size (course.last world.scopes.size).agenda =
    course.served.map Served.action
  /-- No action of a scope that was there before is started until the call has ended. -/
  older : ∀ sc < world.scopes.size,
    world.agenda.startedSince sc (course.last world.scopes.size).agenda = []
  /-- What the call stands above goes on only then. -/
  continues : Thread.Reaches world thread (course.last world.scopes.size)
    ⟨thread.id, .task (.finish course.exit), thread.stack⟩
  /-- Nothing is deferred on the scope or started from it ever after. -/
  silent : ∀ later after, Thread.Reaches (course.last world.scopes.size)
      ⟨thread.id, .task (.finish course.exit), thread.stack⟩ later after →
    (course.last world.scopes.size).agenda.deferredSince world.scopes.size later.agenda = [] ∧
      (course.last world.scopes.size).agenda.startedSince world.scopes.size later.agenda = []

section Lending

variable {config : ScopeConfig} {body : ScopeId → Code σ ν}

theorem World.agenda_lend (world : World σ ν) (config : ScopeConfig) :
    (world.lend config).agenda = world.agenda :=
  world.agenda_addScope rfl

theorem World.Encloses.nests_body (encloses : world.Encloses scopes) (id : ThreadId)
    (config : ScopeConfig) (nests : ∀ sc, (body sc).Nests (sc :: scopes)) :
    Thread.Nests (world.scopes.size :: scopes) (fun _ => False) (world.lend config)
      ⟨id, .code (body world.scopes.size), []⟩ :=
  ⟨⟨_, encloses.lend config, .code (nests _) .bottom, fun _ _ => not_false⟩, fun _ => False.elim⟩

theorem World.Encloses.body_quiet (encloses : world.Encloses scopes)
    (nests : ∀ sc, (body sc).Nests (sc :: scopes)) {outcome : Exit}
    (run : Ends id (world.lend config) (.code (body world.scopes.size)) outcome middle) :
    middle.agenda.waiting world.scopes.size =
        world.agenda.deferredSince world.scopes.size middle.agenda ∧
      world.agenda.startedSince world.scopes.size middle.agenda = [] := by
  have inside := encloses.nests_body id config nests
  have calm : ∀ reached between,
      Thread.Reaches (world.lend config) ⟨id, .code (body world.scopes.size), []⟩ reached between →
      between.control ≠ .task (.start (.resetScope world.scopes.size)) ∧
        ∀ ran failures, between.control ≠ .task (.drain world.scopes.size ran failures) := by
    intro reached between reach
    have inside := (inside.reaches reach).1
    refine ⟨inside.unreset _, fun ran failures draining => ?_⟩
    exact inside.draining draining (List.mem_cons_self ..)
  obtain ⟨waits, unstarted⟩ := Thread.Reaches.undisturbed run nofun calm
  have none : world.agenda.waiting world.scopes.size = [] :=
    List.map_eq_nil_iff.mpr (World.pending_unmade (Nat.le_refl _))
  rw [world.agenda_lend] at waits unstarted
  rw [none, List.nil_append] at waits
  exact ⟨waits, unstarted⟩

theorem World.Encloses.course (encloses : world.Encloses scopes) (id : ThreadId)
    (config : ScopeConfig) (nests : ∀ sc, (body sc).Nests (sc :: scopes)) :
    ∃ course : Course σ ν, course.Follows id world config body ∧
      course.closing.Encloses (world.scopes.size :: scopes) := by
  have inside := encloses.nests_body id config nests
  obtain ⟨outcome, closing, run⟩ := inside.ends
  have encloses := (inside.reaches run).1.finished
  obtain ⟨served, torn, rounds⟩ := (encloses.finite id).rounds
  obtain ⟨course, -, rfl, -, -, follows⟩ := rounds.course run
  exact ⟨course, follows, encloses⟩

end Lending

theorem Thread.Nests.course {config : ScopeConfig} {body : ScopeId → Code σ ν}
    (nests : thread.Nests [] shut world)
    (starting : thread.control = .task (.start (.deferring config body))) :
    ∃ course : Course σ ν, course.Follows thread.id world config body ∧ course.Fits world thread := by
  obtain ⟨scopes, encloses, nested, -⟩ := nests.opens
  obtain ⟨id, control, stack⟩ := thread
  subst starting
  cases nested with
  | start bodies below =>
      obtain ⟨course, follows, closing⟩ := encloses.course id config bodies
      have last := course.agenda_last follows.concludes
      obtain ⟨waits, unstarted⟩ := encloses.body_quiet bodies follows.runs
      obtain ⟨ordered, served⟩ := (closing.undisturbed id).rounds follows.rounds (.refl _ _)
      rw [waits] at ordered
      have begun : world.agenda.turns <:+ course.closing.agenda.turns := by
        rw [← world.agenda_lend config]
        exact Thread.Reaches.extends follows.runs
      have torn : course.closing.agenda.turns <:+ course.torn.agenda.turns :=
        (follows.rounds.reaches 0 []).extends
      -- The call by itself is a nested program on the scopes around it, which it leaves as they are.
      have whole : Thread.Nests scopes (fun t => t < world.scopes.size ∧ t ∉ scopes) world
          ⟨id, .task (.start (.deferring config body)), []⟩ :=
        ⟨⟨scopes, encloses, .start bodies .bottom, fun t member shut => shut.2 member⟩,
          fun t shut => shut.1⟩
      have left := (whole.reaches follows.ends).1.finished
      have continues := follows.ends.above stack
      have made : world.scopes.size < (course.last world.scopes.size).scopes.size := by
        have begun : Thread.Reaches world ⟨id, .task (.start (.deferring config body)), []⟩
            (world.lend config) ⟨id, .code (body world.scopes.size), [.body world.scopes.size]⟩ :=
          .step (follows.begins []) (.refl _ _)
        refine Nat.lt_of_lt_of_le ?_ (begun.rest follows.ends).governs.made
        rw [World.lend, World.addScope, Table.size_push]
        exact Nat.lt_succ_self _
      have later : Thread.Nests [] (fun t => t = world.scopes.size) (course.last world.scopes.size)
          ⟨id, .task (.finish course.exit), stack⟩ := by
        refine ⟨⟨scopes, left, .finish _ below, ?_⟩, fun t shut => shut ▸ made⟩
        rintro t member rfl
        exact Nat.lt_irrefl _ (encloses.made _ member)
      refine ⟨course, follows, ?_⟩
      exact
        { unstarted, ordered, continues
          exact := by
            rw [last, Agenda.deferredSince_trans begun torn, ← follows.rounds.late_deferred]
            exact ordered.perm
          started := by
            rw [last, Agenda.startedSince_trans begun torn, unstarted, served, List.nil_append]
          older := fun t older => whole.started follows.ends (by
            by_cases open' : t ∈ scopes
            · exact .inr open'
            · exact .inl ⟨older, open'⟩)
          silent := fun _ _ further => ⟨later.deferred further rfl, later.started further (.inl rfl)⟩ }

/-! ## Panics on their way out -/

/-- How a panic leaves the calls and bodies on a stack: it passes the calls, and tears down the scope
of each body, innermost first. It comes to the top, or to the action of a teardown. -/
inductive Unwinds (id : ThreadId) (payload : Payload) :
    World σ ν → List (Frame σ ν) → List ScopeId → World σ ν → List (Frame σ ν) → Prop
  | top (world : World σ ν) : Unwinds id payload world [] [] world []
  | action (world : World σ ν) (sc : ScopeId) (rest : List (Action σ ν)) (ran : Nat)
      (failures : List Error) (below : List (Frame σ ν)) :
      Unwinds id payload world (.tearing sc rest ran failures :: below) [] world
        (.tearing sc rest ran failures :: below)
  | passes {world last : World σ ν} {stack left : List (Frame σ ν)} {torn : List ScopeId}
      {next : Reply → Code σ ν} (further : Unwinds id payload world stack torn last left) :
      Unwinds id payload world (.calling next :: stack) torn last left
  | tears {world middle last : World σ ν} {stack left : List (Frame σ ν)} {torn : List ScopeId}
      {sc : ScopeId} {served : List Served} {failures : List Error} {events : List Event}
      (rounds : Rounds id sc world served middle)
      (ordered : Ordered (world.agenda.waiting sc) served)
      (reports : Reports (served.map Served.exit) failures)
      (concludes :
        Concludes (middle.scope sc).policy sc (.panicked payload) failures (.panicked payload) events)
      (further : Unwinds id payload
        (((middle.reported sc served.length failures).emitAll events).takeBack sc) stack torn last left) :
      Unwinds id payload world (.body sc :: stack) (sc :: torn) last left

theorem Concludes.panicking {policy : TeardownPolicy} {payload : Payload} {failures : List Error}
    {exit : Exit} {events : List Event}
    (concludes : Concludes policy sc (.panicked payload) failures exit events) :
    exit = .panicked payload := by
  cases concludes <;> rfl

theorem Layers.unwinds {stack : List (Frame σ ν)} (below : Layers [] scopes stack)
    (encloses : world.Encloses scopes) (id : ThreadId) (payload : Payload) :
    ∃ torn last left, Unwinds id payload world stack torn last left ∧ torn <+: scopes ∧
      Thread.Reaches world ⟨id, .task (.finish (.panicked payload)), stack⟩ last
        ⟨id, .task (.finish (.panicked payload)), left⟩ := by
  induction below generalizing world with
  | bottom => exact ⟨[], world, [], .top world, List.nil_prefix, .refl _ _⟩
  | @calling scopes stack next rest below ih =>
      obtain ⟨torn, last, left, unwinds, innermost, run⟩ := ih encloses
      have passed : Thread.step world ⟨id, .task (.finish (.panicked payload)), .calling next :: stack⟩ =
          some (world, ⟨id, .task (.finish (.panicked payload)), stack⟩) := rfl
      exact ⟨torn, last, left, .passes unwinds, innermost, .step passed run⟩
  | @body scopes stack sc below ih =>
      obtain ⟨served, middle, rounds⟩ := (encloses.finite id).rounds
      obtain ⟨exit, events, concludes, closed⟩ := rounds.closes (.panicked payload)
      obtain rfl := concludes.panicking
      have ordered := ((encloses.undisturbed id).rounds rounds (.refl _ _)).1
      have nests : Thread.Nests scopes (fun _ => False) world
          ⟨id, .task (.drain sc 0 []), [.closing sc (.panicked payload)]⟩ :=
        encloses.nests_closing id _ (fun _ _ => not_false) fun _ => False.elim
      obtain ⟨torn, last, left, unwinds, innermost, run⟩ := ih (nests.reaches closed).1.finished
      have begun : Thread.step world ⟨id, .task (.finish (.panicked payload)), .body sc :: stack⟩ =
          some (world,
            ⟨id, .task (.drain sc 0 []), .closing sc (.panicked payload) :: stack⟩) := rfl
      refine ⟨sc :: torn, last, left, .tears rounds ordered (.of_served served) concludes unwinds,
        List.cons_prefix_cons.mpr ⟨rfl, innermost⟩, .step begun ?_⟩
      exact (closed.above stack).trans run
  | tearing sc ran failures outcome nests below ih =>
      exact ⟨[], world, _, .action world sc _ ran failures _, List.nil_prefix, .refl _ _⟩

/-- The panic has left the program, or the teardown records it as what its action failed with. -/
def Payload.Settles (payload : Payload) (id : ThreadId) (world : World σ ν)
    (stack : List (Frame σ ν)) : Prop :=
  stack = [] ∨ ∃ sc rest ran failures below, stack = .tearing sc rest ran failures :: below ∧
    Thread.step world ⟨id, .task (.finish (.panicked payload)), stack⟩ =
      some (world, ⟨id, .task (.batch sc rest ran (failures ++ [.drop (.ofPanic payload)])), below⟩)

theorem Unwinds.stops {payload : Payload} {last : World σ ν} {stack left : List (Frame σ ν)}
    {torn : List ScopeId} (unwinds : Unwinds id payload world stack torn last left) :
    payload.Settles id last left := by
  induction unwinds with
  | top world => exact .inl rfl
  | action world sc rest ran failures below => exact .inr ⟨sc, rest, ran, failures, below, rfl, rfl⟩
  | passes further ih => exact ih
  | tears rounds ordered reports concludes further ih => exact ih

theorem Thread.Nests.unwinds {payload : Payload} (nests : thread.Nests [] shut world)
    (panicking : thread.control = .task (.finish (.panicked payload))) :
    ∃ torn last left, Unwinds thread.id payload world thread.stack torn last left ∧
      torn.Pairwise (· > ·) ∧
      Reaches world thread last ⟨thread.id, .task (.finish (.panicked payload)), left⟩ ∧
      payload.Settles thread.id last left := by
  obtain ⟨opened, encloses, nested, -⟩ := nests.opens
  obtain ⟨id, control, stack⟩ := thread
  subst panicking
  cases nested with
  | finish exit below =>
      obtain ⟨torn, last, left, unwinds, innermost, run⟩ := below.unwinds encloses id payload
      exact ⟨torn, last, left, unwinds, encloses.newer.sublist innermost.sublist, run, unwinds.stops⟩

/-! ## Nested programs -/

theorem Agenda.deferredSince_nodup {agenda later : Agenda}
    (distinct : (later.turns.filterMap Turn.deferred?).Nodup) (sc : ScopeId) :
    (agenda.deferredSince sc later).Nodup := by
  unfold deferredSince since
  rw [List.filterMap_reverse, List.nodup_reverse]
  have taken := distinct.sublist ((List.take_sublist
    (later.turns.length - agenda.turns.length) later.turns).filterMap Turn.deferred?)
  have same {turn : Turn} {a : Nat} (on : turn.deferredOn? sc = some a) : turn.deferred? = some a := by
    cases turn <;> simp only [Turn.deferredOn?, Option.ite_none_right_eq_some, reduceCtorEq] at on
    exact on.2
  refine List.pairwise_filterMap.mpr ((List.pairwise_filterMap.mp taken).imp ?_)
  exact fun apart a first b second => apart a (same first) b (same second)

/-- At a moment of a nested program, a call that lends a scope takes its course, which fits in with
what is around it, and a panic tears down the scopes around it one by one. -/
structure Thread.ScopesNest (world : World σ ν) (thread : Thread σ ν) : Prop where
  lends : ∀ config body, thread.control = .task (.start (.deferring config body)) →
    ∃ course : Course σ ν, course.Follows thread.id world config body ∧ course.Fits world thread ∧
      (course.served.map Served.action).Nodup
  unwinds : ∀ payload, thread.control = .task (.finish (.panicked payload)) →
    ∃ torn last left, Unwinds thread.id payload world thread.stack torn last left ∧
      torn.Pairwise (· > ·) ∧
      Reaches world thread last ⟨thread.id, .task (.finish (.panicked payload)), left⟩ ∧
      payload.Settles thread.id last left

theorem Code.Nests.ofCode {code : Code σ ν} (nests : code.Nests []) (memory : σ) :
    Thread.Nests [] (fun _ => False) ({ memory } : World σ ν) (.ofCode 0 code) := by
  have encloses : World.Encloses ({ memory } : World σ ν) [] :=
    ⟨nofun, nofun, .nil, nofun, fun sc _ => World.pending_unmade (Nat.zero_le sc)⟩
  exact ⟨⟨[], encloses, .code nests .bottom, nofun⟩, fun _ => False.elim⟩

/-- A program of nested scopes comes to its end, and at every moment before its scopes nest. -/
theorem Code.Nests.scopes_nest (memory : σ) {code : Code σ ν} (nests : code.Nests []) :
    (∃ exit last, Ends 0 { memory } (.code code) exit last) ∧
      ∀ steps, Thread.ScopesNest (Thread.advance steps { memory } (.ofCode 0 code)).1
        (Thread.advance steps { memory } (.ofCode 0 code)).2 := by
  have begins := nests.ofCode memory
  refine ⟨begins.ends, fun steps => ?_⟩
  have reach : Thread.Reaches { memory } (.ofCode 0 code)
      (Thread.advance steps { memory } (.ofCode 0 code)).1
      (Thread.advance steps { memory } (.ofCode 0 code)).2 := ⟨steps, rfl⟩
  have inside := (begins.reaches reach).1
  constructor
  · intro config body starting
    obtain ⟨course, follows, fits⟩ := inside.course starting
    obtain ⟨n, last⟩ := reach.trans fits.continues
    have settles := Agenda.Settles.advance memory code n
    rw [last] at settles
    exact ⟨course, follows, fits,
      fits.exact.symm.nodup (Agenda.deferredSince_nodup settles.distinct _)⟩
  · intro payload panicking
    exact inside.unwinds panicking

def Code.panicAfterDefer (sc : ScopeId) : Code Unit Unit :=
  .call (.defer sc (.panic .other)) fun _ => .panic (.text "inner")

/-- The body of a scope defers an action and lends another scope, whose body panics. -/
def Code.lendTwice : Code Unit Unit :=
  .call (.deferring {} fun outer =>
    .call (.defer outer (.ret .done)) fun _ => .call (.deferring {} panicAfterDefer) .ret) .ret

theorem Code.Nests.scopes_nest_lendTwice :
    let asked := Thread.advance 6 { memory := () } (.ofCode 0 Code.lendTwice)
    asked.2.control = .task (.start (.deferring {} panicAfterDefer)) ∧
      (∃ course : Course Unit Unit,
        course.Follows 0 asked.1 {} panicAfterDefer ∧ course.Fits asked.1 asked.2 ∧
          course.exit = .panicked (.text "inner")) ∧
      ∃ exit last, Ends 0 { memory := () } (.code Code.lendTwice) exit last := by
  intro asked
  have nests : Code.lendTwice.Nests [] :=
    .deferring {} (fun outer => .defer (List.suffix_refl _) (.ret _) fun _ =>
      .deferring {} (fun inner => .defer (List.suffix_refl _) (.panic _) fun _ => .panic _) .ret) .ret
  obtain ⟨ends, moments⟩ := scopes_nest () nests
  obtain ⟨course, follows, fits, -⟩ := (moments 6).lends {} panicAfterDefer rfl
  have run : Ends 0 asked.1 (.task (.start (.deferring {} panicAfterDefer)))
      (.panicked (.text "inner"))
      (Thread.advance 30 asked.1 ⟨0, .task (.start (.deferring {} panicAfterDefer)), []⟩).1 :=
    ⟨30, rfl⟩
  exact ⟨rfl, ⟨course, follows, fits, (run.unique follows.ends).1⟩, ends⟩

end Relinquish
