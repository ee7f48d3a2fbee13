import Relinquish.Proofs.Moves
import Relinquish.Proofs.Recall
import Mathlib.Data.List.Count
import Mathlib.Logic.Function.Basic

/-!
The agenda: which deferred actions wait in each scope, and what the history says of the others. Each
step of a thread deals with actions in one of a few ways, and each action has one fate.
-/

namespace Relinquish

variable {σ ν : Type}

inductive Turn where
  | deferred (scope : ScopeId) (action : Nat)
  | started (scope : ScopeId) (action : Nat)
  | discarded (scope : ScopeId) (action : Nat)
  /-- The event that tells how many actions a reset has discarded. -/
  | reset (scope : ScopeId) (discarded : Nat)
  deriving DecidableEq

def Mark.turn? : Mark ν → Option Turn
  | .act (.deferred sc a) => some (.deferred sc a)
  | .act (.started sc a) => some (.started sc a)
  | .act (.discarded sc a) => some (.discarded sc a)
  | .event (.scopeReset sc discarded) => some (.reset sc discarded)
  | _ => none

@[ext]
structure Agenda where
  waiting : ScopeId → List Nat
  made : Nat
  turns : List Turn

def World.agenda (world : World σ ν) : Agenda where
  waiting sc := (world.scope sc).pending.map Action.id
  made := world.actions
  turns := world.history.filterMap Mark.turn?

/-! ## Dealing with actions -/

namespace Agenda

def defer (agenda : Agenda) (sc : ScopeId) : Agenda where
  waiting := Function.update agenda.waiting sc (agenda.waiting sc ++ [agenda.made])
  made := agenda.made + 1
  turns := .deferred sc agenda.made :: agenda.turns

def empty (agenda : Agenda) (sc : ScopeId) : Agenda :=
  { agenda with waiting := Function.update agenda.waiting sc [] }

def discard (agenda : Agenda) (sc : ScopeId) : Agenda :=
  let ids := agenda.waiting sc
  let discarded := (ids.map (.discarded sc)).reverse ++ agenda.turns
  { agenda.empty sc with
    turns := if ids.isEmpty then discarded else .reset sc ids.length :: discarded }

def start (agenda : Agenda) (sc : ScopeId) (a : Nat) : Agenda :=
  { agenda with turns := .started sc a :: agenda.turns }

end Agenda

def Call.registers? : Call σ ν → Option (ScopeId × List Handle)
  | defer sc _ => some (sc, [.scope sc])
  | adopt sc s => some (sc, [.scope sc, .slot s])
  | registerSlot sc _ _ => some (sc, [.scope sc])
  | _ => none

def Job.control : Job σ ν → Control σ ν
  | run code => .code code
  | release s => .task (.swap s)

/-- What a step from one control to another does to the agenda and to the actions that are taken but
not started: it registers an action, resets a scope, takes a batch, or starts the next action of
one. -/
inductive Deals (control after : Control σ ν) (agenda : Agenda) :
    List (ScopeId × Nat) → Agenda → List (ScopeId × Nat) → Prop
  | quiet {taken : List (ScopeId × Nat)} : Deals control after agenda taken agenda taken
  | defers {taken : List (ScopeId × Nat)} {call : Call σ ν} {handles : List Handle} (sc : ScopeId)
      (starting : control = .task (.start call)) (registers : call.registers? = some (sc, handles)) :
      Deals control after agenda taken (agenda.defer sc) taken
  | discards {taken : List (ScopeId × Nat)} (sc : ScopeId)
      (starting : control = .task (.start (.resetScope sc))) :
      Deals control after agenda taken (agenda.discard sc) taken
  | takes {taken : List (ScopeId × Nat)} {ran : Nat} {failures : List Error} (sc : ScopeId)
      (draining : control = .task (.drain sc ran failures)) :
      Deals control after agenda taken (agenda.empty sc)
        ((agenda.waiting sc).reverse.map (fun a => (sc, a)) ++ taken)
  | starts {taken : List (ScopeId × Nat)} {rest : List (Action σ ν)} {ran : Nat}
      {failures : List Error} (sc : ScopeId) (action : Action σ ν)
      (turn : control = .task (.batch sc (action :: rest) ran failures))
      (runs : after = action.job.control) :
      Deals control after agenda ((sc, action.id) :: taken) (agenda.start sc action.id) taken

theorem Deals.append {control after : Control σ ν} {agenda next : Agenda}
    {taken left : List (ScopeId × Nat)} (deals : Deals control after agenda taken next left)
    (rest : List (ScopeId × Nat)) :
    Deals control after agenda (taken ++ rest) next (left ++ rest) := by
  cases deals with
  | quiet => exact .quiet
  | defers sc starting registers => exact .defers sc starting registers
  | discards sc starting => exact .discards sc starting
  | takes sc draining =>
      rw [List.append_assoc]
      exact .takes sc draining
  | starts sc action turn runs => exact .starts sc action turn runs

/-! ## One fate for each action -/

/-- Every reset has told of the actions that it has discarded. -/
inductive Tallied : List Turn → Prop
  | nil : Tallied []
  | deferred {turns : List Turn} (sc : ScopeId) (a : Nat) (rest : Tallied turns) :
      Tallied (.deferred sc a :: turns)
  | started {turns : List Turn} (sc : ScopeId) (a : Nat) (rest : Tallied turns) :
      Tallied (.started sc a :: turns)
  | reset {turns : List Turn} (sc : ScopeId) (ids : List Nat) (some : ids ≠ [])
      (rest : Tallied turns) :
      Tallied (.reset sc ids.length :: ((ids.map (.discarded sc)).reverse ++ turns))

def Turn.deferred? : Turn → Option Nat
  | deferred _ a => some a
  | _ => none

structure Agenda.Settles (agenda : Agenda) (taken : List (ScopeId × Nat)) : Prop where
  distinct : (agenda.turns.filterMap Turn.deferred?).Nodup
  made : ∀ a ∈ agenda.turns.filterMap Turn.deferred?, a < agenda.made
  fate : ∀ sc a, agenda.turns.count (.deferred sc a) =
    (agenda.waiting sc).count a + taken.count (sc, a) + agenda.turns.count (.started sc a) +
      agenda.turns.count (.discarded sc a)
  tallied : Tallied agenda.turns

theorem count_taken (ids : List Nat) (sc t : ScopeId) (a : Nat) :
    (ids.map fun b => (sc, b)).count (t, a) = if sc = t then ids.count a else 0 := by
  split
  · next same =>
      subst same
      exact List.count_map_of_injective ids _ (fun _ _ equal => (Prod.mk.inj equal).2) a
  · next other =>
      apply List.count_eq_zero.mpr
      intro member
      obtain ⟨b, _, equal⟩ := List.mem_map.mp member
      exact other (Prod.mk.inj equal).1

theorem count_discarded (ids : List Nat) (sc t : ScopeId) (a : Nat) :
    (ids.map (Turn.discarded sc)).reverse.count (.discarded t a) =
      if sc = t then ids.count a else 0 := by
  rw [List.count_reverse]
  split
  · next same =>
      subst same
      exact List.count_map_of_injective ids _ (fun _ _ equal => (Turn.discarded.inj equal).2) a
  · next other =>
      apply List.count_eq_zero.mpr
      intro member
      obtain ⟨b, _, equal⟩ := List.mem_map.mp member
      exact other (Turn.discarded.inj equal).1

theorem count_of_discarded (ids : List Nat) (sc : ScopeId) (turn : Turn)
    (other : ∀ a, turn ≠ .discarded sc a) :
    (ids.map (Turn.discarded sc)).reverse.count turn = 0 := by
  apply List.count_eq_zero.mpr
  intro member
  obtain ⟨a, _, equal⟩ := List.mem_map.mp (List.mem_reverse.mp member)
  exact other a equal.symm

theorem Agenda.count_discard (agenda : Agenda) (sc : ScopeId) (turn : Turn)
    (other : ∀ n, turn ≠ .reset sc n) :
    (agenda.discard sc).turns.count turn =
      ((agenda.waiting sc).map (Turn.discarded sc)).reverse.count turn + agenda.turns.count turn := by
  unfold discard
  simp only
  split
  · exact List.count_append
  · rw [List.count_cons_of_ne fun same => other _ same.symm]
    exact List.count_append

theorem Agenda.deferred_discard (agenda : Agenda) (sc : ScopeId) :
    (agenda.discard sc).turns.filterMap Turn.deferred? = agenda.turns.filterMap Turn.deferred? := by
  have silent : ((agenda.waiting sc).map (Turn.discarded sc)).reverse.filterMap Turn.deferred? = [] := by
    rw [List.filterMap_eq_nil_iff]
    intro turn member
    obtain ⟨a, _, rfl⟩ := List.mem_map.mp (List.mem_reverse.mp member)
    rfl
  unfold discard
  simp only
  split
  · rw [List.filterMap_append, silent]
    rfl
  · rw [List.filterMap_cons, List.filterMap_append, silent]
    rfl

namespace Agenda.Settles

variable {agenda : Agenda} {taken left : List (ScopeId × Nat)}

theorem defer (settles : agenda.Settles taken) (sc : ScopeId) :
    (agenda.defer sc).Settles taken where
  distinct := by
    refine List.nodup_cons.mpr ⟨fun member => ?_, settles.distinct⟩
    exact Nat.lt_irrefl _ (settles.made _ member)
  made := by
    refine List.forall_mem_cons.mpr ⟨Nat.lt_succ_self _, fun a member => ?_⟩
    exact Nat.lt_succ_of_lt (settles.made a member)
  fate t a := by
    have before := settles.fate t a
    by_cases same : sc = t
    · subst same
      by_cases new : agenda.made = a
      · simp [Agenda.defer, new]
        omega
      · simp [Agenda.defer, new]
        omega
    · have other : t ≠ sc := Ne.symm same
      simpa [Agenda.defer, same, other] using before
  tallied := .deferred sc agenda.made settles.tallied

theorem empty (settles : agenda.Settles taken) (sc : ScopeId) :
    (agenda.empty sc).Settles ((agenda.waiting sc).reverse.map (fun a => (sc, a)) ++ taken) where
  distinct := settles.distinct
  made := settles.made
  fate t a := by
    have before := settles.fate t a
    rw [List.count_append, count_taken, List.count_reverse]
    by_cases same : sc = t
    · subst same
      simpa [Agenda.empty] using before
    · have other : t ≠ sc := Ne.symm same
      simpa [Agenda.empty, same, other] using before
  tallied := settles.tallied

theorem discard (settles : agenda.Settles taken) (sc : ScopeId) :
    (agenda.discard sc).Settles taken where
  distinct := by
    rw [agenda.deferred_discard]
    exact settles.distinct
  made := by
    rw [agenda.deferred_discard]
    exact settles.made
  fate t a := by
    have before := settles.fate t a
    have deferred := count_of_discarded (agenda.waiting sc) sc (.deferred t a) nofun
    have started := count_of_discarded (agenda.waiting sc) sc (.started t a) nofun
    rw [agenda.count_discard sc (.deferred t a) nofun, agenda.count_discard sc (.started t a) nofun,
      agenda.count_discard sc (.discarded t a) nofun, deferred, started, count_discarded]
    by_cases same : sc = t
    · subst same
      simp [Agenda.discard, Agenda.empty]
      omega
    · have other : t ≠ sc := Ne.symm same
      simpa [Agenda.discard, Agenda.empty, same, other] using before
  tallied := by
    unfold Agenda.discard
    simp only
    split
    · next none =>
        rw [List.isEmpty_iff.mp none]
        exact settles.tallied
    · next some => exact .reset sc _ (fun none => some (List.isEmpty_iff.mpr none)) settles.tallied

theorem start (sc : ScopeId) (a : Nat) (settles : agenda.Settles ((sc, a) :: taken)) :
    (agenda.start sc a).Settles taken where
  distinct := settles.distinct
  made := settles.made
  fate t b := by
    have before := settles.fate t b
    by_cases same : (sc, a) = (t, b)
    · obtain ⟨rfl, rfl⟩ := Prod.mk.inj same
      simp [Agenda.start] at before ⊢
      omega
    · have others : Turn.started sc a ≠ .started t b := fun equal => same (by cases equal; rfl)
      simpa [Agenda.start, List.count_cons, same, others] using before
  tallied := .started sc a settles.tallied

theorem step {next : Agenda} {control after : Control σ ν} (settles : agenda.Settles taken)
    (deals : Deals control after agenda taken next left) : next.Settles left := by
  cases deals with
  | quiet => exact settles
  | defers sc => exact settles.defer sc
  | discards sc => exact settles.discard sc
  | takes sc => exact settles.empty sc
  | starts sc action => exact settles.start sc action.id

end Agenda.Settles

/-! ## What changes do to the agenda -/

namespace World

variable (world : World σ ν)

theorem agenda_congr {next : World σ ν} (scopes : ∀ sc, (next.scope sc).pending = (world.scope sc).pending)
    (actions : next.actions = world.actions) (history : next.history = world.history) :
    next.agenda = world.agenda := by
  simp [agenda, scopes, actions, history]

@[simp] theorem agenda_record (mark : Mark ν) :
    (world.record mark).agenda =
      { world.agenda with turns := mark.turn?.toList ++ world.agenda.turns } :=
  Agenda.ext rfl rfl (world.recollect_record Mark.turn? mark)

@[simp] theorem agenda_act (act : Act) :
    (world.act act).agenda =
      { world.agenda with
        turns := (Mark.turn? (.act act : Mark ν)).toList ++ world.agenda.turns } :=
  world.agenda_record (.act act)

@[simp] theorem agenda_emit (event : Event) :
    (world.emit event).agenda =
      { world.agenda with
        turns := (Mark.turn? (.event event : Mark ν)).toList ++ world.agenda.turns } :=
  world.agenda_record (.event event)

theorem agenda_emitAll {events : List Event}
    (silent : ∀ event ∈ events, Mark.turn? (.event event : Mark ν) = none) :
    (world.emitAll events).agenda = world.agenda := by
  refine world.foldl_same_of_mem (·.agenda) emit fun world event member => ?_
  rw [agenda_emit, silent event member]
  rfl

theorem agenda_actAll (acts : List Act) :
    (world.actAll acts).agenda =
      { world.agenda with
        turns := (acts.filterMap fun act => Mark.turn? (.act act : Mark ν)).reverse ++
          world.agenda.turns } := by
  induction acts generalizing world with
  | nil => rfl
  | cons act rest ih =>
      apply (ih (world.act act)).trans
      rw [agenda_act, List.filterMap_cons]
      cases Mark.turn? (.act act : Mark ν) <;> simp

theorem agenda_actAll_of_silent {acts : List Act}
    (silent : ∀ act ∈ acts, Mark.turn? (.act act : Mark ν) = none) :
    (world.actAll acts).agenda = world.agenda := by
  rw [agenda_actAll, List.filterMap_eq_nil_iff.mpr silent]
  rfl

@[simp] theorem agenda_mk (memory : σ) (slots : Table (Slot σ ν))
    (accessors : Table (Option (Accessor σ ν))) (guards : Table (Guard σ ν))
    (parcels : Table (Option (Droppable σ ν))) (registries : Table (Registry σ ν Int))
    (locks : List (Lock × ThreadId)) (values threads : Nat) :
    agenda
      ⟨memory, slots, world.scopes, accessors, guards, parcels, registries, locks, values,
        world.actions, threads, world.history⟩ = world.agenda := rfl

@[simp] theorem agenda_updateSlot (s : SlotId) (change : Slot σ ν → Slot σ ν) :
    (world.updateSlot s change).agenda = world.agenda := rfl

@[simp] theorem agenda_updateGuard (g : GuardId) (change : Guard σ ν → Guard σ ν) :
    (world.updateGuard g change).agenda = world.agenda := rfl

@[simp] theorem agenda_makeSlot (release : Value → Code σ ν) (initializer : Code σ ν) :
    (world.makeSlot release initializer).1.agenda = world.agenda := rfl

@[simp] theorem agenda_addAccessor (accessor : Accessor σ ν) :
    (world.addAccessor accessor).1.agenda = world.agenda := rfl

@[simp] theorem agenda_addGuard (guard : Guard σ ν) :
    (world.addGuard guard).1.agenda = world.agenda := rfl

@[simp] theorem agenda_addParcel (droppable : Droppable σ ν) :
    (world.addParcel droppable).1.agenda = world.agenda := rfl

@[simp] theorem agenda_addRegistry (registry : Registry σ ν Int) :
    (world.addRegistry registry).1.agenda = world.agenda := rfl

theorem agenda_updateScope (sc : ScopeId) (change : Scope σ ν → Scope σ ν)
    (pending : ∀ scope, (change scope).pending = scope.pending) :
    (world.updateScope sc change).agenda = world.agenda := by
  refine world.agenda_congr (fun t => ?_) rfl rfl
  rw [scope_updateScope]
  split
  · exact pending _
  · rfl

@[simp] theorem agenda_retain (handle : Handle) : (world.retain handle).agenda = world.agenda := by
  cases handle with
  | slot s => rfl
  | scope sc => exact world.agenda_updateScope sc _ fun _ => rfl

@[simp] theorem agenda_retainAll (handles : List Handle) :
    (world.retainAll handles).agenda = world.agenda :=
  world.foldl_same (·.agenda) retain agenda_retain handles

@[simp] theorem agenda_surrender (handle : Handle) :
    (world.surrender handle).agenda = world.agenda := by
  cases handle with
  | slot s => rfl
  | scope sc => exact world.agenda_updateScope sc _ fun _ => rfl

@[simp] theorem agenda_relinquish (handle : Handle) :
    (world.relinquish handle).agenda = world.agenda := by
  cases handle with
  | slot s => rfl
  | scope sc => exact world.agenda_updateScope sc _ fun _ => rfl

theorem agenda_addScope {scope : Scope σ ν} (fresh : scope.pending = []) :
    (world.addScope scope).1.agenda = world.agenda := by
  refine world.agenda_congr (fun sc => ?_) rfl rfl
  rw [scope_addScope]
  split
  · next new =>
      rw [fresh, new, World.scope, Table.get_size]
      rfl
  · rfl

@[simp] theorem agenda_discardSlot (s : SlotId) :
    (world.discardSlot s).agenda = world.agenda := by
  unfold discardSlot
  split
  · rw [agenda_emit, agenda_act, agenda_updateSlot]
    rfl
  · rfl

@[simp] theorem agenda_copySlot (s : SlotId) : (world.copySlot s).1.agenda = world.agenda := by
  unfold copySlot
  simp only
  rw [agenda_actAll_of_silent _ (List.forall_mem_map.mpr fun _ _ => rfl),
    agenda_actAll_of_silent _ (List.forall_mem_map.mpr fun _ _ => rfl), agenda_act, agenda_retainAll]
  rfl

theorem agenda_enterSlot {entered : World σ ν} {s : SlotId} {id : ThreadId}
    (action : world.enterSlot s id = some entered) : entered.agenda = world.agenda := by
  obtain ⟨depth, _, rfl⟩ := world.enterSlot_eq action
  rfl

theorem waiting_updateScope (sc : ScopeId) (change : Scope σ ν → Scope σ ν) :
    (world.updateScope sc change).agenda.waiting =
      Function.update world.agenda.waiting sc
        ((change (world.scope sc)).pending.map Action.id) := by
  funext t
  simp only [agenda, scope_updateScope, Function.update_apply]
  by_cases same : sc = t
  · subst same
    simp
  · simp [same, Ne.symm same]

@[simp] theorem agenda_addAction (sc : ScopeId) (job : Job σ ν) :
    (world.addAction sc job).agenda = world.agenda.defer sc := by
  refine Agenda.ext ?_ rfl rfl
  apply (waiting_updateScope _ sc _).trans
  rw [List.map_append]
  rfl

@[simp] theorem agenda_adopt (sc : ScopeId) (s : SlotId) :
    (world.adopt sc s).agenda = world.agenda.defer sc := by
  rw [adopt, agenda_addAction, agenda_retain]

@[simp] theorem agenda_takePending (sc : ScopeId) :
    (world.takePending sc).1.agenda = world.agenda.empty sc :=
  Agenda.ext (world.waiting_updateScope sc _) rfl rfl

@[simp] theorem agenda_discardPending (sc : ScopeId) :
    (world.discardPending sc).agenda = world.agenda.discard sc := by
  have ids : ((world.scope sc).pending.map fun action => Act.discarded sc action.id).filterMap
      (fun act => Mark.turn? (.act act : Mark ν)) =
      (world.agenda.waiting sc).map (Turn.discarded sc) := by
    rw [List.filterMap_map, agenda, List.map_map]
    exact List.filterMap_eq_map ▸ rfl
  have acted : ((world.takePending sc).1.actAll
      ((world.scope sc).pending.map fun action => .discarded sc action.id)).agenda =
      { world.agenda.empty sc with
        turns := ((world.agenda.waiting sc).map (.discarded sc)).reverse ++ world.agenda.turns } := by
    rw [agenda_actAll, ids, agenda_takePending]
    rfl
  have none_iff : (world.agenda.waiting sc).isEmpty = (world.scope sc).pending.isEmpty := by
    simp [agenda]
  have length : (world.agenda.waiting sc).length = (world.scope sc).pending.length := by
    simp [agenda]
  unfold discardPending Agenda.discard
  simp only [none_iff, length]
  split
  · exact acted
  · exact congrArg (fun agenda : Agenda =>
      { agenda with turns := .reset sc (world.scope sc).pending.length :: agenda.turns }) acted

end World

/-! ## Steps -/

def Task.taken : Task σ ν → List (ScopeId × Nat)
  | batch sc rest _ _ => rest.map fun action => (sc, action.id)
  | unlockValue _ next | leave _ next => next.taken
  | _ => []

def Control.taken : Control σ ν → List (ScopeId × Nat)
  | code _ => []
  | task work => work.taken

def Frame.taken : Frame σ ν → List (ScopeId × Nat)
  | tearing sc rest _ _ => rest.map fun action => (sc, action.id)
  | _ => []

def Thread.taken (thread : Thread σ ν) : List (ScopeId × Nat) :=
  thread.control.taken ++ thread.stack.flatMap Frame.taken

def Move.taken (move : Move σ ν) : List (ScopeId × Nat) :=
  move.control.taken ++ move.frames.flatMap Frame.taken

def Move.Idle (world : World σ ν) (taken : List (ScopeId × Nat)) (move : Move σ ν) : Prop :=
  move.world.agenda = world.agenda ∧ move.taken = taken

theorem Move.Idle.deals {world : World σ ν} {taken : List (ScopeId × Nat)} {move : Move σ ν}
    (control : Control σ ν) (idle : move.Idle world taken) :
    Deals control move.control world.agenda taken move.world.agenda move.taken := by
  rw [idle.1, idle.2]
  exact .quiet

theorem Call.start_deals (world : World σ ν) (call : Call σ ν) :
    Ensures (call.start world) fun move =>
      Deals (.task (.start call)) move.control world.agenda [] move.world.agenda move.taken := by
  have defers {next : World σ ν} {after : Control σ ν} {sc : ScopeId} {handles : List Handle}
      (registers : call.registers? = some (sc, handles)) (same : next.agenda = world.agenda.defer sc) :
      Deals (.task (.start call)) after world.agenda [] next.agenda [] := by
    rw [same]
    exact .defers sc rfl registers
  cases call
  case defer sc action =>
    simp only [start, Ensures.whenUsable_iff, Ensures.answer_iff]
    exact ⟨fun _ => defers rfl (world.agenda_addAction sc _), fun _ => .quiet⟩
  case adopt sc s =>
    simp only [start, Ensures.whenUsable_iff, Ensures.answer_iff]
    exact ⟨fun _ => defers rfl (world.agenda_adopt sc s), fun _ => .quiet⟩
  case registerSlot sc release initializer =>
    simp only [start, Ensures.whenUsable_iff, Ensures.answer_iff]
    refine ⟨fun _ => defers rfl ?_, fun _ => .quiet⟩
    rw [World.agenda_adopt, World.agenda_makeSlot]
  case resetScope sc =>
    simp only [start, Ensures.whenUsable_iff, Ensures.go_iff]
    refine ⟨fun _ => ?_, fun _ => .quiet⟩
    rw [World.agenda_discardPending]
    exact .discards sc rfl
  all_goals
    refine Ensures.imp ?_ fun _ => Move.Idle.deals _
    simp only [start]
  case access =>
    split
    · unfold Accessor.frame
      split <;> simp [Move.Idle, Move.taken, Control.taken, Task.taken, Frame.taken]
    · simp [Move.Idle, Move.taken, Control.taken, Task.taken]
  case dropAccessed | forgetAccessor | dispose | forgetParcel | matchKind =>
    split <;> simp [Move.Idle, Move.taken, Control.taken, Task.taken, Frame.taken]
  case dropThrough | releaseGuard | disarmGuard | forgetGuard =>
    simp only [Ensures.whenConsumable_iff, Ensures.ite_iff, Guard.close]
    split <;> simp [Move.Idle, Move.taken, Control.taken, Task.taken, Frame.taken]
  all_goals
    simp only [Ensures.whenUsable_iff, Ensures.whenFree_iff, Ensures.operate_iff, Ensures.ite_iff,
      Ensures.answer_iff, Ensures.go_iff, Ensures.run_iff]
    simp [Move.Idle, Move.taken, Control.taken, Task.taken, Frame.taken, World.agenda_addScope,
      Mark.turn?]

theorem Task.step_deals (world : World σ ν) (id : ThreadId) (task : Task σ ν) :
    Ensures (task.step world id) fun move =>
      Deals (.task task) move.control world.agenda task.taken move.world.agenda move.taken := by
  have same {next : World σ ν} {taken : List (ScopeId × Nat)} {after : Control σ ν}
      (same : next.agenda = world.agenda) :
      Deals (.task task) after world.agenda taken next.agenda taken := by
    rw [same]
    exact .quiet
  cases task with
  | start call => exact call.start_deals world
  | drain sc ran failures =>
      have takes {after : Control σ ν} :
          Deals (.task (.drain sc ran failures)) after world.agenda []
            (world.takePending sc).1.agenda
            ((world.scope sc).pending.reverse.map fun action => (sc, action.id)) := by
        have takes : Deals (.task (.drain sc ran failures)) after world.agenda []
            (world.agenda.empty sc) (_ ++ []) := .takes sc rfl
        rw [← world.agenda_takePending, List.append_nil] at takes
        simpa [World.agenda, Function.comp_def] using takes
      simp only [step, World.takePending] at takes ⊢
      split
      · next none =>
          rw [none] at takes
          rw [Ensures.go_iff]
          exact takes
      · rw [Ensures.go_iff]
        simpa [Move.taken, Control.taken, Task.taken] using takes
  | batch sc rest ran failures =>
      cases rest with
      | nil =>
          simp only [step, Ensures.go_iff]
          exact .quiet
      | cons action rest =>
          have starts : Deals (.task (.batch sc (action :: rest) ran failures)) action.job.control
              world.agenda (batch sc (action :: rest) ran failures : Task σ ν).taken
              (world.act (.started sc action.id)).agenda (rest.map fun action => (sc, action.id)) :=
            .starts sc action rfl rfl
          obtain ⟨a, job⟩ := action
          cases job <;> simp only [step, Ensures.run_iff, Ensures.push_iff] <;>
            simpa [Move.taken, Control.taken, Task.taken, Frame.taken, Job.control] using starts
  | enter s =>
      simp only [step, Ensures.bind_iff, Ensures.ite_iff, Ensures.go_iff]
      intro entered action
      have kept := world.agenda_enterSlot action
      exact ⟨fun _ => same kept, fun _ => same kept⟩
  | letGo handles exit =>
      refine .letGo (fun _ => .quiet) (fun handle _ _ _ => same (world.agenda_relinquish handle))
        (fun s _ _ _ => same ?_) fun sc _ _ => same (world.agenda_relinquish (.scope sc))
      exact (World.agenda_discardSlot _ s).trans (world.agenda_relinquish (.slot s))
  | look s | lookAgain s | take s | copy s cloner | copyValue s made cloner =>
      simp only [step, Ensures.whenFree_iff]
      intro _
      split <;> simp only [Ensures.go_iff, Ensures.run_iff, Ensures.answer_iff, Ensures.endDrop_iff] <;>
        exact same (by simp [Mark.turn?])
  | sift selection error rest places =>
      cases rest <;> simp only [step, Ensures.proceed_iff, Ensures.ask_iff]
      · exact ⟨fun _ _ => same rfl, fun _ _ _ => same rfl, fun _ _ => same rfl⟩
      · exact ⟨fun _ => .quiet, fun _ => .quiet, fun _ _ => .quiet⟩
  | links s error rest | handlers s error rest | disposeAll rest =>
      cases rest <;>
        simp only [step, Ensures.go_iff, Ensures.push_iff, Ensures.run_iff, Ensures.answer_iff] <;>
        refine same ?_ <;> first | rfl | (split <;> rfl)
  | dispose droppable =>
      cases droppable <;> simp only [step, Ensures.go_iff, Ensures.run_iff, Ensures.answer_iff] <;>
        exact .quiet
  | report sc ran failures =>
      simp only [step, Ensures.answer_iff]
      exact same ((World.agenda_emitAll _ (List.forall_mem_map.mpr fun _ _ => rfl)).trans rfl)
  | finish exit => simp [step]
  | produce s | swap s | confirm s value =>
      simp only [step, Ensures.ite_iff, Ensures.go_iff, Ensures.run_iff, Ensures.endDrop_iff]
      exact ⟨fun _ => same rfl, fun _ => same rfl⟩
  | consult selection error | lockValue s value =>
      simp only [step, Ensures.whenFree_iff, Ensures.go_iff]
      exact fun _ => same rfl
  | unlockValue s following | leave s following =>
      simp only [step, Ensures.go_iff, Move.taken, List.flatMap_nil, List.append_nil]
      exact same rfl
  | store s value | releaseLate s value | deliver made =>
      simp only [step, Ensures.go_iff, Ensures.run_iff, Ensures.answer_iff]
      exact same rfl

theorem Frame.resume_deals (world : World σ ν) (exit : Exit) (frame : Frame σ ν) :
    Ensures (frame.resume world exit) fun move =>
      Deals (.task (.finish exit)) move.control world.agenda frame.taken move.world.agenda
        move.taken := by
  have same {next : World σ ν} {taken : List (ScopeId × Nat)} {after : Control σ ν}
      (same : next.agenda = world.agenda) :
      Deals (.task (.finish exit)) after world.agenda taken next.agenda taken := by
    rw [same]
    exact .quiet
  cases frame with
  | initializing s =>
      simp only [resume, Ensures.initializerEnded_iff]
      exact ⟨fun _ _ => same rfl, fun _ _ => ⟨fun _ _ => same rfl, fun _ => same rfl⟩⟩
  | linking | handling =>
      cases exit <;> simp only [resume]
      · split <;> rw [Ensures.go_iff] <;> exact same rfl
      · rw [Ensures.go_iff]
        exact same rfl
  | getting | orNone | orElse | expiring =>
      simp only [resume, Guard.close]
      split <;> simp only [Ensures.go_iff, Ensures.push_iff, Ensures.run_iff, Ensures.answer_iff] <;>
        exact same rfl
  | reading announced =>
      cases exit <;> simp only [resume]
      · refine .configRead fun _ events told => same (world.agenda_emitAll fun event member => ?_)
        obtain ⟨policy, rfl⟩ | ⟨error, rfl⟩ := told event member <;> rfl
      · rw [Ensures.go_iff]
        exact same rfl
  | closing sc outcome =>
      cases exit <;> simp only [resume, Ensures.go_iff]
      · refine same ((World.agenda_updateScope _ sc _ ?_).trans ?_)
        · exact fun _ => rfl
        · exact world.agenda_emitAll (outcome.unwindingEvents_silent (fun _ _ => rfl) sc _)
      · exact same rfl
  | releasingLate | vanishing | guarding =>
      cases exit with
      | panicked payload =>
          simp only [resume, Ensures.go_iff]
          exact same rfl
      | returned reply =>
          simp only [resume, Ensures.go_iff, Ensures.answer_iff]
          cases reply.error? <;> exact same rfl
  | tearing sc rest ran failures =>
      simp only [resume, Ensures.go_iff, Move.taken, List.flatMap_nil, List.append_nil]
      exact same rfl
  | _ =>
      cases exit <;>
        simp only [resume, Ensures.go_iff, Ensures.run_iff, Ensures.push_iff, Ensures.answer_iff,
          Ensures.some_iff, Ensures.endDrop_iff] <;>
        exact same rfl

theorem Thread.step_deals {world next : World σ ν} {thread after : Thread σ ν}
    (action : thread.step world = some (next, after)) :
    Deals thread.control after.control world.agenda thread.taken next.agenda after.taken := by
  refine step_rule (fun thread next after =>
    Deals thread.control after.control world.agenda thread.taken next.agenda after.taken) ?_ ?_ ?_
    action
  · intro id code stack move made
    have deals : Deals (.code code) move.control world.agenda [] move.world.agenda move.taken := by
      cases code <;> simp only [Code.step] at made <;> obtain rfl := Option.some.inj made <;>
        exact .quiet
    simpa [Thread.taken, Move.taken, Control.taken] using deals.append (stack.flatMap Frame.taken)
  · intro id task stack move made
    have deals := (task.step_deals world id move made).append (stack.flatMap Frame.taken)
    simpa [Thread.taken, Move.taken, Control.taken] using deals
  · intro id exit frame stack move made
    have deals := (frame.resume_deals world exit move made).append (stack.flatMap Frame.taken)
    simpa [Thread.taken, Move.taken, Control.taken, Task.taken] using deals

end Relinquish
