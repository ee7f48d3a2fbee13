import Relinquish.Proofs.Agenda
import Relinquish.Proofs.Runs
import Mathlib.Data.List.Nodup

/-!
The teardown of a scope: its actions are run batch by batch until none waits, whatever becomes of
each.
-/

namespace Relinquish

variable {σ ν : Type} {id : ThreadId} {sc : ScopeId} {world next : World σ ν} {exit : Exit}

/-! ## Turns are never taken back -/

theorem Deals.extends {control after : Control σ ν} {agenda later : Agenda}
    {taken left : List (ScopeId × Nat)} (deals : Deals control after agenda taken later left) :
    agenda.turns <:+ later.turns := by
  cases deals with
  | quiet | takes => exact List.suffix_refl _
  | defers | starts => exact List.suffix_cons _ _
  | discards =>
      unfold Agenda.discard
      simp only
      split
      · exact List.suffix_append _ _
      · exact (List.suffix_append _ _).trans (List.suffix_cons _ _)

theorem Thread.Reaches.extends {thread after : Thread σ ν} (run : Reaches world thread next after) :
    world.agenda.turns <:+ next.agenda.turns := by
  obtain ⟨steps, run⟩ := run
  have grows : world.agenda.turns <:+ (Thread.advance steps world thread).1.agenda.turns :=
    Thread.advance_rule (fun next _ => world.agenda.turns <:+ next.agenda.turns)
      (fun _ _ _ _ earlier action => earlier.trans (step_deals action).extends)
      (List.suffix_refl _) steps
  rwa [run] at grows

/-! ## Batches -/

/-- A teardown has returned, when the given actions have been started and none waits. -/
structure TornDown (sc : ScopeId) (ids : List Nat) (exit : Exit) (next : World σ ν) : Prop where
  returned : ∃ reply, exit = .returned reply
  emptied : next.agenda.waiting sc = []
  started : ∀ a ∈ ids, Turn.started sc a ∈ next.agenda.turns

theorem Thread.advance_succ {middle : World σ ν} {thread between : Thread σ ν}
    (action : thread.step world = some (middle, between)) (steps : Nat) :
    advance (steps + 1) world thread = advance steps middle between := by
  simp only [advance, action]

theorem Thread.advance_tearing {thread : Thread σ ν} {rest : List (Action σ ν)} {ran : Nat}
    {failures : List Error} (steps : Nat)
    (run : advance steps world (thread.above [.tearing sc rest ran failures]) =
      (next, ⟨id, .task (.finish exit), []⟩)) :
    ∃ middle inner left, left ≤ steps ∧
      Reaches world thread middle ⟨thread.home, .task (.finish inner), []⟩ ∧
      advance left middle
          ⟨thread.home, .task (.batch sc rest ran (failures ++ inner.failure?.toList)), []⟩ =
        (next, ⟨id, .task (.finish exit), []⟩) := by
  obtain ⟨middle, inner, left, fewer, ended, resumed⟩ := advance_cut steps run (Nat.zero_le _)
  cases left with
  | zero =>
      have emptied := congrArg (fun reached => reached.2.stack) resumed
      simp [advance] at emptied
  | succ left =>
      rw [advance_succ rfl] at resumed
      exact ⟨middle, inner, left, Nat.le_of_succ_le fewer, ended, resumed⟩

def Job.frames : Job σ ν → List (Frame σ ν)
  | run _ => []
  | release s => [.holding [.slot s]]

def Job.thread (id : ThreadId) (job : Job σ ν) : Thread σ ν :=
  { id, control := job.control, stack := job.frames }

@[simp] theorem Job.home_thread (id : ThreadId) (job : Job σ ν) : (job.thread id).home = id := by
  cases job <;> rfl

theorem Thread.step_serve (world : World σ ν) (id : ThreadId) (sc : ScopeId) (action : Action σ ν)
    (rest : List (Action σ ν)) (ran : Nat) (failures : List Error) (base : List (Frame σ ν)) :
    step world ⟨id, .task (.batch sc (action :: rest) ran failures), base⟩ =
      some (world.act (.started sc action.id),
        (action.job.thread id).above (.tearing sc rest (ran + 1) failures :: base)) := by
  obtain ⟨a, job⟩ := action
  cases job <;> rfl

theorem Thread.step_round (id : ThreadId) (ran : Nat) (failures : List Error)
    (base : List (Frame σ ν)) (waits : (world.scope sc).pending ≠ []) :
    step world ⟨id, .task (.drain sc ran failures), base⟩ =
      some ((world.takePending sc).1,
        ⟨id, .task (.batch sc (world.scope sc).pending.reverse ran failures), base⟩) := by
  have waits : (world.scope sc).pending.reverse ≠ [] := by simpa using waits
  simp only [step, Task.step, World.takePending]
  rfl

theorem Thread.step_over (id : ThreadId) (ran : Nat) (failures : List Error)
    (base : List (Frame σ ν)) (empty : (world.scope sc).pending = []) :
    step world ⟨id, .task (.drain sc ran failures), base⟩ =
      some ((world.takePending sc).1, ⟨id, .task (.report sc ran failures), base⟩) := by
  simp [step, Task.step, World.takePending, empty, World.go, after]

theorem Ends.report (id : ThreadId) (world : World σ ν) (sc : ScopeId) (ran : Nat)
    (failures : List Error) :
    ∃ reply next, Ends id world (.task (.report sc ran failures)) (.returned reply) next ∧
      next.agenda = world.agenda := by
  refine ⟨_, _, .step rfl (.refl _ _), ?_⟩
  exact (World.agenda_emitAll _ (List.forall_mem_map.mpr fun _ _ => rfl)).trans rfl

theorem TornDown.of_empty {ran : Nat} {failures : List Error}
    (empty : (world.scope sc).pending = [])
    (run : Ends id world (.task (.drain sc ran failures)) exit next) :
    TornDown sc (world.agenda.waiting sc) exit next := by
  obtain ⟨reply, reported, ended, same⟩ := Ends.report id (world.takePending sc).1 sc ran failures
  obtain ⟨rfl, rfl⟩ := Ends.unique (.step (Thread.step_over id ran failures [] empty) ended) run
  have none : world.agenda.waiting sc = [] := List.map_eq_nil_iff.mpr empty
  constructor
  · exact ⟨reply, rfl⟩
  · rw [same, world.agenda_takePending]
    exact Function.update_self ..
  · rw [none]
    nofun

theorem TornDown.of_steps (steps : Nat) :
    (∀ (world : World σ ν) ran failures,
      Thread.advance steps world ⟨id, .task (.drain sc ran failures), []⟩ =
        (next, ⟨id, .task (.finish exit), []⟩) →
      TornDown sc (world.agenda.waiting sc) exit next) ∧
    ∀ (world : World σ ν) rest ran failures,
      Thread.advance steps world ⟨id, .task (.batch sc rest ran failures), []⟩ =
        (next, ⟨id, .task (.finish exit), []⟩) →
      TornDown sc (rest.map Action.id) exit next := by
  -- An action may take any number of steps, so the rest of its batch has any fewer steps left.
  induction steps using Nat.strongRecOn with
  | ind steps ih =>
      cases steps with
      | zero => constructor <;> intros <;> simp_all [Thread.advance]
      | succ steps =>
          obtain ⟨drained, batched⟩ := ih steps (Nat.lt_succ_self steps)
          constructor
          · intro world ran failures run
            by_cases empty : (world.scope sc).pending = []
            · exact of_empty empty ⟨steps + 1, run⟩
            · rw [Thread.advance_succ (Thread.step_round id ran failures [] empty)] at run
              have torn := batched _ _ _ _ run
              refine ⟨torn.returned, torn.emptied, fun a member => torn.started a ?_⟩
              rw [List.map_reverse]
              exact List.mem_reverse.mpr member
          · intro world rest ran failures run
            cases rest with
            | nil =>
                have drained := drained world ran failures run
                exact ⟨drained.returned, drained.emptied, List.forall_mem_nil _⟩
            | cons action rest =>
                rw [Thread.advance_succ (Thread.step_serve world id sc action rest ran failures [])]
                  at run
                obtain ⟨middle, inner, left, fewer, ended, resumed⟩ :=
                  Thread.advance_tearing steps run
                rw [Job.home_thread] at ended resumed
                have torn := (ih left (Nat.lt_succ_of_le fewer)).2 middle rest _ _ resumed
                have last := Thread.Reaches.extends ⟨left, resumed⟩
                have kept := (ended.extends.trans last).subset
                refine ⟨torn.returned, torn.emptied, List.forall_mem_cons.mpr ⟨?_, torn.started⟩⟩
                exact kept (.head _)

theorem Ends.drain {ran : Nat} {failures : List Error}
    (run : Ends id world (.task (.drain sc ran failures)) exit next) :
    TornDown sc (world.agenda.waiting sc) exit next := by
  obtain ⟨steps, run⟩ := run
  exact (TornDown.of_steps steps).1 world ran failures run

/-! ## The ends of scopes and of teardowns -/

theorem Thread.step_letGo (world : World σ ν) (id : ThreadId) (sc : ScopeId) (rest : List Handle)
    (exit : Exit) (empty : world.agenda.waiting sc = []) :
    step world ⟨id, .task (.letGo (.scope sc :: rest) exit), []⟩ =
      some (world.relinquish (.scope sc), ⟨id, .task (.letGo rest exit), []⟩) := by
  have none : ((world.relinquish (.scope sc)).scope sc).pending = [] := by
    rw [← world.agenda_relinquish (.scope sc)] at empty
    exact List.map_eq_nil_iff.mp empty
  simp [step, Task.step, none, World.go, Thread.after]

theorem Thread.step_runAll (id : ThreadId) (base : List (Frame σ ν))
    (usable : world.usable (.scope sc) = true) :
    step world ⟨id, .task (.start (.runAll sc)), base⟩ =
      some (world.retain (.scope sc),
        ⟨id, .task (.drain sc 0 []), .holding [.scope sc] :: base⟩) := by
  simp [step, Task.step, Call.start, World.operate, World.whenUsable, usable, World.push,
    Thread.after, World.retainAll]

theorem Ends.runAll {reply : Reply} (usable : world.usable (.scope sc) = true)
    (run : Ends id (world.retain (.scope sc)) (.task (.drain sc 0 [])) (.returned reply) next) :
    Ends id world (.task (.start (.runAll sc))) (.returned reply) (next.relinquish (.scope sc)) := by
  have gone := Thread.step_letGo next id sc [] (.returned reply) run.drain.emptied
  have resumed : Thread.step next ⟨id, .task (.finish (.returned reply)), [.holding [.scope sc]]⟩ =
      some (next, ⟨id, .task (.letGo [.scope sc] (.returned reply)), []⟩) := rfl
  have last := Thread.Reaches.step resumed (.step gone (.step rfl (.refl _ _)))
  exact .step (Thread.step_runAll id [] usable) ((run.above _).trans last)

theorem Thread.Leaves.runAll {thread after : Thread σ ν}
    (starting : thread.control = .task (.start (.runAll sc)))
    (usable : world.usable (.scope sc) = true) (leaves : thread.Leaves world next after) :
    ∃ reply middle, Ends thread.id world thread.control (.returned reply) middle ∧
      middle.agenda.waiting sc = [] := by
  obtain ⟨id, control, stack⟩ := thread
  subst starting
  obtain ⟨exit, middle, drained⟩ := leaves.ends (step_runAll id stack usable)
  have torn := Ends.drain drained
  obtain ⟨reply, rfl⟩ := torn.returned
  refine ⟨reply, _, .runAll usable drained, ?_⟩
  rw [World.agenda_relinquish]
  exact torn.emptied

theorem Thread.Leaves.letGo {thread after : Thread σ ν} {rest : List Handle}
    (giving : thread.control = .task (.letGo (.scope sc :: rest) exit))
    (unheld : (world.relinquish (.scope sc)).unheld (.scope sc) = true)
    (leaves : thread.Leaves world next after) :
    ∃ middle, Reaches world ⟨thread.id, thread.control, []⟩ middle
        ⟨thread.id, .task (.letGo rest exit), []⟩ ∧
      middle.agenda.waiting sc = [] ∧
      ∀ a ∈ world.agenda.waiting sc, Turn.started sc a ∈ middle.agenda.turns := by
  obtain ⟨id, control, stack⟩ := thread
  subst giving
  have same : (world.relinquish (.scope sc)).agenda = world.agenda := world.agenda_relinquish _
  cases empty : (world.agenda.waiting sc).isEmpty with
  | true =>
      rw [List.isEmpty_iff] at empty
      have gone := step_letGo world id sc rest exit empty
      refine ⟨_, .step gone (.refl _ _), ?_, ?_⟩
      · rw [same, empty]
      · rw [empty]
        nofun
  | false =>
      have begins (stack : List (Frame σ ν)) :
          step world ⟨id, .task (.letGo (.scope sc :: rest) exit), stack⟩ =
            some (world.relinquish (.scope sc),
              ⟨id, .task (.drain sc 0 []), .vanishing sc rest exit :: stack⟩) := by
        have some : ((world.relinquish (.scope sc)).scope sc).pending ≠ [] := by
          rw [← same] at empty
          simpa [World.agenda] using empty
        simp [step, Task.step, unheld, some, World.push, Thread.after]
      obtain ⟨inner, middle, drained⟩ := leaves.ends (begins stack)
      have torn := Ends.drain drained
      -- A panic would go past the frame and leave the rest of the handles where they are.
      obtain ⟨reply, rfl⟩ := torn.returned
      have silent : ∀ event ∈ (reply.error?.map (Event.scopeFailed sc)).toList,
          Mark.turn? (.event event : Mark ν) = none := by
        simp [Mark.turn?]
      have after := middle.agenda_emitAll silent
      have passed := (drained.above [.vanishing sc rest exit]).trans (.step rfl (.refl _ _))
      refine ⟨_, .step (begins []) passed, ?_, ?_⟩
      · exact (congrArg (fun agenda => agenda.waiting sc) after).trans torn.emptied
      · intro a member
        rw [← same] at member
        exact (congrArg Agenda.turns after) ▸ torn.started a member

/-! ## Calls that deal with actions -/

/-- A step of the thread leaves the agenda so, and the thread takes and starts no action. -/
def Thread.Arranges (world : World σ ν) (thread : Thread σ ν) (agenda : Agenda) : Prop :=
  ∃ next after, thread.step world = some (next, after) ∧ next.agenda = agenda ∧
    after.taken = thread.taken

theorem Thread.Arranges.of_call {thread : Thread σ ν} {call : Call σ ν} {task : Task σ ν}
    (starting : thread.control = .task (.start call)) (made : call.start world = next.go task)
    (idle : task.taken = []) : thread.Arranges world next.agenda := by
  obtain ⟨id, control, stack⟩ := thread
  subst starting
  refine ⟨next, ⟨id, .task task, stack⟩, ?_, rfl, ?_⟩
  · simp [step, Task.step, made, World.go, after]
  · simp [taken, Control.taken, Task.taken, idle]

theorem Thread.Arranges.of_register {thread : Thread σ ν} {call : Call σ ν} {handles : List Handle}
    (starting : thread.control = .task (.start call))
    (registers : call.registers? = some (sc, handles))
    (usable : ∀ handle ∈ handles, world.usable handle = true) :
    thread.Arranges world (world.agenda.defer sc) := by
  have usable : handles.all world.usable = true := List.all_eq_true.mpr usable
  cases call <;> simp only [Call.registers?, reduceCtorEq, Option.some.injEq, Prod.mk.injEq] at registers
  case defer t action =>
    obtain ⟨rfl, rfl⟩ := registers
    rw [← world.agenda_addAction t (.run action)]
    exact .of_call starting (if_pos usable) rfl
  case adopt t s =>
    obtain ⟨rfl, rfl⟩ := registers
    rw [← world.agenda_adopt t s]
    exact .of_call starting (if_pos usable) rfl
  case registerSlot t release initializer =>
    obtain ⟨rfl, rfl⟩ := registers
    rw [← world.agenda_makeSlot release initializer, ← World.agenda_adopt]
    exact .of_call starting (if_pos usable) rfl

theorem Thread.Arranges.of_reset {thread : Thread σ ν}
    (starting : thread.control = .task (.start (.resetScope sc)))
    (usable : world.usable (.scope sc) = true) :
    thread.Arranges world (world.agenda.discard sc) := by
  rw [← world.agenda_discardPending sc]
  exact .of_call starting (if_pos (by simp [usable])) rfl

theorem Thread.step_inspectScope {thread : Thread σ ν}
    (starting : thread.control = .task (.start (.inspectScope sc)))
    (usable : world.usable (.scope sc) = true) :
    ∃ view, thread.step world =
        some (world, { thread with control := .task (.finish (.returned (.scope view))) }) ∧
      view.pending = (world.agenda.waiting sc).length := by
  obtain ⟨id, control, stack⟩ := thread
  subst starting
  refine ⟨(world.scope sc).view, ?_, ?_⟩
  · simp [step, Task.step, Call.start, World.whenUsable, usable, World.answer, World.go, after]
  · exact List.length_map .. |>.symm

/-! ## Every run -/

/-- Each action that was ever deferred waits, or is taken but not started, or was started, or was
discarded, one of them and once; and nothing else does or was. -/
structure Agenda.OneFate (agenda : Agenda) (taken : List (ScopeId × Nat)) : Prop where
  distinct : (agenda.turns.filterMap Turn.deferred?).Nodup
  deferred : ∀ sc a, .deferred sc a ∈ agenda.turns →
    (agenda.waiting sc).count a + taken.count (sc, a) + agenda.turns.count (.started sc a) +
      agenda.turns.count (.discarded sc a) = 1
  others : ∀ sc a, .deferred sc a ∉ agenda.turns →
    a ∉ agenda.waiting sc ∧ (sc, a) ∉ taken ∧ .started sc a ∉ agenda.turns ∧
      .discarded sc a ∉ agenda.turns
  tallied : Tallied agenda.turns

theorem Agenda.Settles.oneFate {agenda : Agenda} {taken : List (ScopeId × Nat)}
    (settles : agenda.Settles taken) : agenda.OneFate taken where
  distinct := settles.distinct
  deferred sc a member := by
    have listed : a ∈ agenda.turns.filterMap Turn.deferred? :=
      List.mem_filterMap.mpr ⟨_, member, rfl⟩
    have once := List.count_eq_one_of_mem settles.distinct listed
    have least : 1 ≤ agenda.turns.count (.deferred sc a) := List.count_pos_iff.mpr member
    have most : agenda.turns.count (.deferred sc a) ≤
        (agenda.turns.filterMap Turn.deferred?).count a := by
      rw [List.count, List.count, List.countP_filterMap]
      apply List.countP_mono_left
      intro turn _ same
      rw [beq_iff_eq.mp same]
      simp [Turn.deferred?]
    have fate := settles.fate sc a
    omega
  others sc a absent := by
    have fate := settles.fate sc a
    rw [List.count_eq_zero.mpr absent] at fate
    refine ⟨?_, ?_, ?_, ?_⟩ <;> refine List.count_eq_zero.mp ?_ <;> omega
  tallied := settles.tallied

theorem Agenda.Settles.advance (memory : σ) (code : Code σ ν) (steps : Nat) :
    (Thread.advance steps { memory } (.ofCode 0 code)).1.agenda.Settles
      (Thread.advance steps { memory } (.ofCode 0 code)).2.taken := by
  refine Thread.advance_rule (fun world thread => world.agenda.Settles thread.taken)
    (fun _ _ _ _ settles action => settles.step (Thread.step_deals action)) ?_ steps
  exact ⟨.nil, nofun, fun _ _ => rfl, .nil⟩

structure Thread.ActionsSettled (world : World σ ν) (thread : Thread σ ν) : Prop where
  oneFate : world.agenda.OneFate thread.taken
  deals : ∀ next after, thread.step world = some (next, after) →
    Deals thread.control after.control world.agenda thread.taken next.agenda after.taken
  registered : ∀ call sc handles, thread.control = .task (.start call) →
    call.registers? = some (sc, handles) → (∀ handle ∈ handles, world.usable handle = true) →
    thread.Arranges world (world.agenda.defer sc)
  reset : ∀ sc, thread.control = .task (.start (.resetScope sc)) →
    world.usable (.scope sc) = true → thread.Arranges world (world.agenda.discard sc)
  counted : ∀ sc, thread.control = .task (.start (.inspectScope sc)) →
    world.usable (.scope sc) = true →
    ∃ view, thread.step world =
        some (world, { thread with control := .task (.finish (.returned (.scope view))) }) ∧
      view.pending = (world.agenda.waiting sc).length
  /-- Every teardown, also that of a scope which goes away or whose body has ended. -/
  drained : ∀ sc ran failures exit next, thread.control = .task (.drain sc ran failures) →
    Ends thread.id world thread.control exit next → TornDown sc (world.agenda.waiting sc) exit next
  /-- A call for a teardown that has left the stack has returned, when no action waited. -/
  tornDown : ∀ sc next after, thread.control = .task (.start (.runAll sc)) →
    world.usable (.scope sc) = true → thread.Leaves world next after →
    ∃ reply middle, Ends thread.id world thread.control (.returned reply) middle ∧
      middle.agenda.waiting sc = []
  /-- A scope whose last hold is given up goes away when what waited in it has been started. -/
  gone : ∀ sc rest outcome next after,
    thread.control = .task (.letGo (.scope sc :: rest) outcome) →
    (world.relinquish (.scope sc)).unheld (.scope sc) = true → thread.Leaves world next after →
    ∃ middle, Reaches world ⟨thread.id, thread.control, []⟩ middle
        ⟨thread.id, .task (.letGo rest outcome), []⟩ ∧
      middle.agenda.waiting sc = [] ∧
      ∀ a ∈ world.agenda.waiting sc, .started sc a ∈ middle.agenda.turns

/-- Whatever code is run, and whatever its deferred actions do in turn, each of them has one fate. -/
theorem Thread.actions_settled (memory : σ) (code : Code σ ν) (steps : Nat) :
    ActionsSettled (advance steps { memory } (.ofCode 0 code)).1
      (advance steps { memory } (.ofCode 0 code)).2 where
  oneFate := (Agenda.Settles.advance memory code steps).oneFate
  deals _ _ := step_deals
  registered _ _ _ := .of_register
  reset _ := .of_reset
  counted _ := step_inspectScope
  drained sc ran failures exit next draining run := by
    rw [draining] at run
    exact run.drain
  tornDown _ _ _ := Leaves.runAll
  gone _ _ _ _ _ := Leaves.letGo

def Code.deferTwice : Code Unit Unit :=
  .call (.newScope .collectAll) fun _ =>
    .call (.defer 0 (.call (.defer 0 (.panic .other)) .ret)) fun _ =>
      .call (.runAll 0) .ret

theorem Thread.actions_settled_deferTwice :
    let asked := advance 7 { memory := () } (.ofCode 0 Code.deferTwice)
    let answered := advance 26 { memory := () } (.ofCode 0 Code.deferTwice)
    asked.2.control = .task (.start (.runAll 0)) ∧ asked.1.agenda.waiting 0 = [0] ∧
      answered.1.agenda.waiting 0 = [] ∧ answered.1.agenda.OneFate [] ∧
      answered.1.agenda.turns = [.started 0 1, .deferred 0 1, .started 0 0, .deferred 0 0] := by
  intro asked answered
  have begun := actions_settled () Code.deferTwice 7
  have ended := actions_settled () Code.deferTwice 26
  have run : Ends 0 asked.1 asked.2.control
      (.returned (.failed (.teardown (.mk [.drop (.ofPanic .other)] none)))) answered.1 := ⟨19, rfl⟩
  have leaves : asked.2.Leaves asked.1 answered.1 answered.2 := ⟨18, rfl, Nat.le_refl _⟩
  obtain ⟨reply, middle, ends, emptied⟩ := begun.tornDown 0 _ _ rfl rfl leaves
  obtain ⟨-, rfl⟩ := run.unique ends
  exact ⟨rfl, rfl, emptied, ended.oneFate, rfl⟩

end Relinquish
