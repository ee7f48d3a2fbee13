import Relinquish.Proofs.Entry
import Relinquish.Proofs.Locks

/-!
Waiting. A thread that has not ended goes on unless it waits for another thread, or for itself: for
a lock that somebody has taken, or for a slot that somebody else has entered.
-/

namespace Relinquish

variable {σ ν : Type}

/-! ## What work waits for -/

def World.needs (world : World σ ν) (handles : List Handle) (locks : List Lock) : List Lock :=
  if handles.all world.usable then locks else []

def Call.awaits (world : World σ ν) : Call σ ν → List Lock
  | peek s => world.needs [.slot s] [.value s]
  | inspectSlot s => world.needs [.slot s] (Lock.ofSlot s)
  | dropOnError s _ droppable => world.needs (.slot s :: droppable.handles) [.links s]
  | callOnError s _ _ => world.needs [.slot s] [.handlers s]
  | inspectGuard g =>
      if (world.guard g).held then (world.guard g).droppable.elim [] Droppable.locks else []
  | register r _ _ | snapshotRegistry r | inspectRegistry r =>
      if r < world.registries.size then [.numbers r] else []
  | _ => []

def Task.awaits (world : World σ ν) : Task σ ν → List Lock
  | start call => call.awaits world
  | look s | lookAgain s | lockValue s _ | take s | copyValue s _ _ => [.value s]
  | consult selection _ => [selection.lock]
  | copy s _ => [.links s, .handlers s]
  | _ => []

namespace World

variable (world : World σ ν)

@[simp] theorem go_ne_none (task : Task σ ν) : world.go task ≠ none :=
  Option.some_ne_none _

@[simp] theorem push_ne_none (frames : List (Frame σ ν)) (task : Task σ ν) :
    world.push frames task ≠ none :=
  Option.some_ne_none _

@[simp] theorem run_ne_none (frames : List (Frame σ ν)) (code : Code σ ν) :
    world.run frames code ≠ none :=
  Option.some_ne_none _

@[simp] theorem answer_ne_none (reply : Reply) : world.answer reply ≠ none :=
  Option.some_ne_none _

@[simp] theorem endDrop_ne_none (s : SlotId) (exit : Exit) : world.endDrop s exit ≠ none :=
  Option.some_ne_none _

@[simp] theorem operate_ne_none (handles : List Handle) (frames : List (Frame σ ν))
    (task : Task σ ν) : world.operate handles frames task ≠ none := by
  unfold operate whenUsable
  split <;> simp

@[simp] theorem borrow_ne_none (s : SlotId) (frames : List (Frame σ ν)) (task : Task σ ν) :
    world.borrow s frames task ≠ none :=
  Option.some_ne_none _

theorem whenFree_eq_none (locks : List Lock) {move : Option (Move σ ν)} (moves : move ≠ none) :
    world.whenFree locks move = none ↔ ∃ lock ∈ locks, world.free lock = false := by
  simp [whenFree, moves]

theorem whenUsable_eq_none (handles : List Handle) (locks : List Lock) {move : Option (Move σ ν)}
    (moves : move ≠ none) :
    world.whenUsable handles (world.whenFree locks move) = none ↔
      ∃ lock ∈ world.needs handles locks, world.free lock = false := by
  unfold whenUsable needs
  split
  · exact world.whenFree_eq_none locks moves
  · simp

end World

theorem Call.start_eq_none (world : World σ ν) (call : Call σ ν) :
    call.start world = none ↔ ∃ lock ∈ call.awaits world, world.free lock = false := by
  cases call <;> simp only [start, awaits]
  case peek | inspectSlot | dropOnError | callOnError =>
    exact world.whenUsable_eq_none _ _ (Option.some_ne_none _)
  case inspectGuard | register | snapshotRegistry | inspectRegistry =>
    split
    · exact world.whenFree_eq_none _ (Option.some_ne_none _)
    · simp
  case access | dropAccessed | forgetAccessor | dispose | forgetParcel | matchKind =>
    split <;> simp
  case dropThrough =>
    split
    · split <;> simp
    · simp
  case releaseGuard | disarmGuard | forgetGuard =>
    unfold World.whenConsumable
    simp only [Guard.close]
    split
    · split <;> simp
    · simp
  all_goals
    (try simp only [World.whenUsable])
    (try split) <;> simp

theorem Task.step_eq_none (world : World σ ν) (id : ThreadId) (task : Task σ ν) :
    task.step world id = none ↔
      (∃ exit, task = .finish exit) ∨ (∃ lock ∈ task.awaits world, world.free lock = false) ∨
        ∃ s owner depth, task = .enter s ∧ (world.slot s).entered = some (owner, depth) ∧
          owner ≠ id := by
  cases task with
  | finish exit => simp [step]
  | start call => simp [step, awaits, call.start_eq_none]
  | look s | lookAgain s | take s | copyValue s | copy s =>
      simp only [step, awaits]
      rw [World.whenFree_eq_none]
      · simp
      · split <;> simp
  | lockValue s value | consult selection error =>
      simp only [step, awaits]
      rw [World.whenFree_eq_none] <;> simp
  | enter s =>
      simp only [step, awaits, World.enterSlot]
      cases entered : (world.slot s).entered with
      | none =>
          simp only [Option.bind_some]
          split <;> simp [entered]
      | some entry =>
          obtain ⟨owner, depth⟩ := entry
          by_cases own : owner = id
          · simp only [own, if_true, Option.bind_some]
            split <;> simp [entered, own]
          · simp [own, entered]
  | letGo handles =>
      cases handles with
      | nil => simp [step, awaits]
      | cons handle rest =>
          simp only [step, awaits]
          split
          · split
            · simp
            · split <;> simp
          · simp
  | sift selection error rest =>
      cases rest with
      | nil => cases selection <;> simp [step, awaits, World.proceed]
      | cons entry rest =>
          simp only [step, World.ask]
          split <;> simp [awaits]
  | batch sc rest =>
      cases rest with
      | nil => simp [step, awaits]
      | cons action rest =>
          simp only [step]
          split <;> simp [awaits]
  | links s error rest | handlers s error rest | disposeAll rest =>
      cases rest <;> simp [step, awaits]
  | dispose droppable => cases droppable <;> simp [step, awaits]
  | drain | produce | confirm | swap =>
      simp only [step]
      split <;> simp [awaits]
  | _ => simp [step, awaits]

/-- One thread waits for another, or for itself, that has taken a lock or has entered a slot. -/
inductive Thread.WaitsFor (world : World σ ν) (thread : Thread σ ν) (owner : ThreadId) : Prop
  | lock {task : Task σ ν} {lock : Lock} (works : thread.control = .task task)
      (awaited : lock ∈ task.awaits world) (taken : (lock, owner) ∈ world.locks) :
      WaitsFor world thread owner
  | entry {s : SlotId} {depth : Nat} (works : thread.control = .task (.enter s))
      (entered : (world.slot s).entered = some (owner, depth)) (other : owner ≠ thread.id) :
      WaitsFor world thread owner

theorem World.free_eq_false {world : World σ ν} {lock : Lock} :
    world.free lock = false ↔ ∃ owner, (lock, owner) ∈ world.locks := by
  simp [free]

theorem Thread.waits_iff {world : World σ ν} {id : ThreadId} {task : Task σ ν}
    {stack : List (Frame σ ν)} :
    (∃ owner, WaitsFor world ⟨id, .task task, stack⟩ owner) ↔
      (∃ lock ∈ task.awaits world, world.free lock = false) ∨
        ∃ s owner depth, task = .enter s ∧ (world.slot s).entered = some (owner, depth) ∧
          owner ≠ id := by
  constructor
  · rintro ⟨owner, ⟨works, awaited, taken⟩ | ⟨works, entered, other⟩⟩
    · obtain rfl := Control.task.inj works
      exact .inl ⟨_, awaited, World.free_eq_false.mpr ⟨owner, taken⟩⟩
    · exact .inr ⟨_, owner, _, Control.task.inj works, entered, other⟩
  · rintro (⟨lock, awaited, taken⟩ | ⟨s, owner, depth, rfl, entered, other⟩)
    · obtain ⟨owner, taken⟩ := World.free_eq_false.mp taken
      exact ⟨owner, .lock rfl awaited taken⟩
    · exact ⟨owner, .entry rfl entered other⟩

theorem Thread.step_eq_none {world : World σ ν} {thread : Thread σ ν} :
    thread.step world = none ↔
      (∃ exit, thread.exit? = some exit) ∨ ∃ owner, thread.WaitsFor world owner := by
  obtain ⟨id, control, stack⟩ := thread
  cases control with
  | code code =>
      have moves : ∃ move, code.step world id = some move := by
        cases code <;> exact ⟨_, rfl⟩
      obtain ⟨move, made⟩ := moves
      simp only [step, made, Option.map_some, exit?]
      constructor
      · intro none
        contradiction
      · rintro (⟨exit, ended⟩ | ⟨owner, works | works⟩) <;> contradiction
  | task task =>
      rw [waits_iff]
      cases task with
      | finish exit =>
          cases stack with
          | nil => simp [step, exit?]
          | cons frame stack =>
              obtain ⟨move, made⟩ := frame.resumes world exit
              simp [step, made, exit?, Task.awaits]
      | _ =>
          simp only [step, exit?, Option.map_eq_none_iff, Task.step_eq_none]
          simp

/-! ## Threads and those that wait for their end -/

/-- The thread itself, and the threads below it that wait for its end. -/
def Thread.ids (thread : Thread σ ν) : List ThreadId :=
  thread.id :: thread.stack.filterMap Frame.starter?

theorem Move.ids (id : ThreadId) (stack : List (Frame σ ν)) {move : Move σ ν}
    (stays : move.Stays) :
    Thread.ids ⟨move.thread.getD id, move.control, move.frames ++ stack⟩ =
      id :: stack.filterMap Frame.starter? := by
  rw [Thread.ids, stays.1, Option.getD_none, List.filterMap_append, stays.2, List.nil_append]

theorem Frame.mem_ids {owner id : ThreadId} {frame : Frame σ ν} {rest : List (Frame σ ν)}
    (below : owner ∈ frame.starter?.getD id :: rest.filterMap starter?) :
    owner ∈ id :: (frame :: rest).filterMap starter? := by
  cases starter : frame.starter? with
  | none =>
      rw [List.filterMap_cons, starter]
      rwa [starter] at below
  | some other =>
      rw [List.filterMap_cons, starter]
      rw [starter] at below
      exact .tail _ below

theorem Thread.step_ids {world next : World σ ν} {thread after : Thread σ ν}
    (action : thread.step world = some (next, after)) :
    after.ids <:+ thread.ids ∧ next.threads = world.threads ∨
      after.ids = world.threads :: thread.ids ∧ next.threads = world.threads + 1 := by
  refine step_rule (fun thread next after =>
    after.ids <:+ thread.ids ∧ next.threads = world.threads ∨
      after.ids = world.threads :: thread.ids ∧ next.threads = world.threads + 1) ?_ ?_ ?_ action
  · intro id code stack move made
    cases code with
    | elsewhere body continuation =>
        obtain rfl := Option.some.inj made
        exact .inr ⟨rfl, rfl⟩
    | _ =>
        obtain rfl := Option.some.inj made
        exact .inl ⟨List.suffix_refl _, rfl⟩
  · intro id task stack move made
    have same := Move.ids id stack (task.step_stays world id move made)
    exact .inl ⟨same ▸ List.suffix_refl _, (task.step_writes world id move made).threads_eq⟩
  · intro id exit frame stack move made
    refine .inl ⟨?_, (frame.resume_writes world exit move made).threads_eq⟩
    cases starter : frame.starter? with
    | none =>
        have same := Move.ids id stack (frame.resume_stays world exit move made starter)
        have equal : Thread.ids ⟨id, .task (.finish exit), frame :: stack⟩ =
            id :: stack.filterMap Frame.starter? :=
          congrArg (List.cons id) (List.filterMap_cons_none starter)
        exact same.trans equal.symm ▸ List.suffix_refl _
    | some other =>
        cases frame <;> simp only [Frame.starter?, reduceCtorEq, Option.some.injEq] at starter
        obtain rfl := Option.some.inj made
        exact List.suffix_cons id _

/-! ## Who has taken what -/

def takings : ThreadId → List (Frame σ ν) → List (Lock × ThreadId)
  | _, [] => []
  | id, frame :: rest => frame.locks.map (·, id) ++ takings (frame.starter?.getD id) rest

def Thread.takings (thread : Thread σ ν) : List (Lock × ThreadId) :=
  thread.control.locks.map (·, thread.id) ++ Relinquish.takings thread.id thread.stack

theorem takings_append (id : ThreadId) {frames : List (Frame σ ν)} (stack : List (Frame σ ν))
    (within : frames.filterMap Frame.starter? = []) :
    takings id (frames ++ stack) =
      (frames.flatMap Frame.locks).map (·, id) ++ takings id stack := by
  induction frames with
  | nil => rfl
  | cons frame rest ih =>
      cases starter : frame.starter? with
      | some other => simp [starter] at within
      | none =>
          rw [List.filterMap_cons, starter] at within
          rw [List.cons_append, takings, starter, Option.getD_none, ih within, List.flatMap_cons,
            List.map_append, List.append_assoc]

theorem Move.takings (id : ThreadId) (stack : List (Frame σ ν)) {move : Move σ ν}
    (stays : move.Stays) :
    Thread.takings ⟨move.thread.getD id, move.control, move.frames ++ stack⟩ =
      move.locks.map (·, id) ++ Relinquish.takings id stack := by
  rw [Thread.takings, stays.1, Option.getD_none, takings_append id stack stays.2, Move.locks,
    List.map_append, List.append_assoc]

theorem Thread.step_takings {world next : World σ ν} {thread after : Thread σ ν}
    (action : thread.step world = some (next, after)) :
    ∃ (before kept : List Lock) (rest : List (Lock × ThreadId)),
      thread.takings = before.map (·, thread.id) ++ rest ∧
      after.takings = kept.map (·, thread.id) ++ rest ∧
      Latches thread.id world next before kept := by
  refine step_rule (fun thread next after =>
    ∃ (before kept : List Lock) (rest : List (Lock × ThreadId)),
      thread.takings = before.map (·, thread.id) ++ rest ∧
      after.takings = kept.map (·, thread.id) ++ rest ∧
      Latches thread.id world next before kept) ?_ ?_ ?_ action
  · intro id code stack move made
    have latches := code.step_latches world id move made
    refine ⟨[], move.locks, Relinquish.takings id stack, rfl, ?_, latches⟩
    cases code <;> simp only [Code.step] at made <;> obtain rfl := Option.some.inj made <;> rfl
  · intro id task stack move made
    exact ⟨task.locks, move.locks, Relinquish.takings id stack, rfl,
      Move.takings id stack (task.step_stays world id move made),
      task.step_latches world id move made⟩
  · intro id exit frame stack move made
    have latches := frame.resume_latches world id exit move made
    cases starter : frame.starter? with
    | none =>
        refine ⟨frame.locks, move.locks, Relinquish.takings id stack, ?_,
          Move.takings id stack (frame.resume_stays world exit move made starter), latches⟩
        rw [takings, Relinquish.takings, starter]
        rfl
    | some other =>
        cases frame <;> simp only [Frame.starter?, reduceCtorEq, Option.some.injEq] at starter
        subst starter
        obtain rfl := Option.some.inj made
        exact ⟨[], [], Relinquish.takings _ stack, rfl, rfl, .keeps rfl⟩

theorem mem_ids_of_takings {lock : Lock} {owner : ThreadId} (id : ThreadId)
    {stack : List (Frame σ ν)} (holds : (lock, owner) ∈ takings id stack) :
    owner ∈ id :: stack.filterMap Frame.starter? := by
  induction stack generalizing id with
  | nil => contradiction
  | cons frame rest ih =>
      rcases List.mem_append.mp holds with here | below
      · obtain ⟨_, _, same⟩ := List.mem_map.mp here
        obtain ⟨_, rfl⟩ := Prod.mk.inj same
        exact .head _
      · exact Frame.mem_ids (ih _ below)

theorem Thread.mem_ids_of_takings {thread : Thread σ ν} {lock : Lock} {owner : ThreadId}
    (holds : (lock, owner) ∈ thread.takings) : owner ∈ thread.ids := by
  rcases List.mem_append.mp holds with here | below
  · obtain ⟨_, _, same⟩ := List.mem_map.mp here
    obtain ⟨_, rfl⟩ := Prod.mk.inj same
    exact .head _
  · exact Relinquish.mem_ids_of_takings thread.id below

end Relinquish
