import Relinquish.Proofs.Policies

/-!
Actions that wait. What waits in a scope stays there in the order in which it was registered, and
whatever is registered later waits behind it, until the scope is reset or its actions are taken.
-/

namespace Relinquish

variable {σ ν : Type}

/-! ## What changes do to the actions that wait -/

namespace World

variable (world : World σ ν) (sc : ScopeId)

theorem scope_emitAll (events : List Event) (t : ScopeId) :
    (world.emitAll events).scope t = world.scope t := by
  rw [scope, scopes_emitAll, scope]

theorem scope_actAll (acts : List Act) (t : ScopeId) :
    (world.actAll acts).scope t = world.scope t :=
  world.foldl_same (·.scope t) act (fun _ _ => rfl) acts

theorem pending_updateScope {change : Scope σ ν → Scope σ ν} (t : ScopeId)
    (same : ∀ scope, (change scope).pending = scope.pending) :
    ((world.updateScope t change).scope sc).pending = (world.scope sc).pending := by
  rw [scope_updateScope]
  split
  · exact same _
  · rfl

theorem pending_retain (handle : Handle) :
    ((world.retain handle).scope sc).pending = (world.scope sc).pending := by
  cases handle with
  | slot s => rfl
  | scope t => exact world.pending_updateScope sc t fun _ => rfl

theorem pending_retainAll (handles : List Handle) :
    ((world.retainAll handles).scope sc).pending = (world.scope sc).pending :=
  world.foldl_same (fun next => (next.scope sc).pending) retain
    (fun next handle => next.pending_retain sc handle) handles

theorem pending_surrender (handle : Handle) :
    ((world.surrender handle).scope sc).pending = (world.scope sc).pending := by
  cases handle with
  | slot s => rfl
  | scope t => exact world.pending_updateScope sc t fun _ => rfl

theorem pending_relinquish (handle : Handle) :
    ((world.relinquish handle).scope sc).pending = (world.scope sc).pending := by
  cases handle with
  | slot s => rfl
  | scope t => exact world.pending_updateScope sc t fun _ => rfl

theorem pending_addScope {scope : Scope σ ν} (fresh : scope.pending = []) :
    ((world.addScope scope).1.scope sc).pending = (world.scope sc).pending := by
  rw [scope_addScope]
  split
  · next new =>
      rw [fresh, new, World.scope, Table.get_size]
      rfl
  · rfl

theorem scope_discardSlot (s : SlotId) : (world.discardSlot s).scope sc = world.scope sc := by
  unfold discardSlot
  split <;> rfl

theorem pending_copySlot (s : SlotId) :
    ((world.copySlot s).1.scope sc).pending = (world.scope sc).pending := by
  unfold copySlot
  simp only [scope_actAll, scope_act]
  exact pending_retainAll _ sc _

theorem pending_enterSlot {entered : World σ ν} {s : SlotId} {id : ThreadId}
    (action : world.enterSlot s id = some entered) :
    (entered.scope sc).pending = (world.scope sc).pending := by
  obtain ⟨depth, _, rfl⟩ := world.enterSlot_eq action
  rfl

theorem queues_addAction (t : ScopeId) (job : Job σ ν) :
    (world.scope sc).pending <+: ((world.addAction t job).scope sc).pending := by
  by_cases same : t = sc
  · subst same
    rw [pending_addAction]
    exact List.prefix_append _ _
  · rw [addAction, scope_act, scope_updateScope, if_neg same]
    exact List.prefix_rfl

theorem queues_adopt (t : ScopeId) (s : SlotId) :
    (world.scope sc).pending <+: ((world.adopt t s).scope sc).pending :=
  (world.retain (.slot s)).queues_addAction sc t _

theorem pending_discardPending {t : ScopeId} (apart : t ≠ sc) :
    ((world.discardPending t).scope sc).pending = (world.scope sc).pending := by
  simp only [discardPending_eq, scope_emitAll, scope_actAll, scope_updateScope, if_neg apart]

theorem pending_takePending {t : ScopeId} (apart : t ≠ sc) :
    ((world.takePending t).1.scope sc).pending = (world.scope sc).pending := by
  simp only [takePending, scope_updateScope, if_neg apart]

end World

/-! ## Steps -/

/-- The thread neither resets the scope nor takes its actions. -/
structure Control.Spares (control : Control σ ν) (sc : ScopeId) : Prop where
  unreset : control ≠ .task (.start (.resetScope sc))
  undrained : ∀ ran failures, control ≠ .task (.drain sc ran failures)

/-- What waited in the scope still does, in the same order, and ahead of what has come since. -/
def Move.Queues (sc : ScopeId) (world : World σ ν) (move : Move σ ν) : Prop :=
  (world.scope sc).pending <+: (move.world.scope sc).pending

theorem Move.Queues.of_eq {sc : ScopeId} {world : World σ ν} {move : Move σ ν}
    (same : (move.world.scope sc).pending = (world.scope sc).pending) : move.Queues sc world := by
  unfold Queues
  exact ⟨[], by rw [List.append_nil, same]⟩

theorem Call.start_queues (world : World σ ν) {sc : ScopeId} {call : Call σ ν}
    (unreset : call ≠ .resetScope sc) : Ensures (call.start world) (Move.Queues sc world) := by
  have stays {move : Move σ ν} (same : (move.world.scope sc).pending = (world.scope sc).pending) :
      move.Queues sc world :=
    .of_eq same
  have idle {move : Move σ ν} (same : move.world.scope sc = world.scope sc) : move.Queues sc world :=
    .of_eq (congrArg Scope.pending same)
  cases call
  case defer t action =>
    simp only [start, Ensures.whenUsable_iff, Ensures.answer_iff]
    exact ⟨fun _ => world.queues_addAction sc t _, fun _ => idle rfl⟩
  case adopt t s =>
    simp only [start, Ensures.whenUsable_iff, Ensures.answer_iff]
    exact ⟨fun _ => world.queues_adopt sc t s, fun _ => idle rfl⟩
  case registerSlot t release initializer =>
    simp only [start, Ensures.whenUsable_iff, Ensures.answer_iff]
    exact ⟨fun _ => (world.makeSlot release initializer).1.queues_adopt sc t _,
      fun _ => idle rfl⟩
  case resetScope t =>
    have apart : t ≠ sc := fun same => unreset (same ▸ rfl)
    simp only [start, Ensures.whenUsable_iff, Ensures.go_iff]
    exact ⟨fun _ => stays (world.pending_discardPending sc apart), fun _ => idle rfl⟩
  all_goals simp only [start]
  case newScope | deferring =>
    simp only [Ensures.answer_iff, Ensures.run_iff]
    exact stays (world.pending_addScope sc rfl)
  case access =>
    split
    · simp only [Ensures.borrow_iff]
      exact idle rfl
    · simp only [Ensures.answer_iff]
      exact idle rfl
  case dropAccessed | forgetAccessor | forgetParcel | matchKind =>
    split <;> simp only [Ensures.borrow_iff, Ensures.go_iff, Ensures.answer_iff, Ensures.run_iff] <;>
      exact idle rfl
  case dispose =>
    split
    · simp only [Ensures.push_iff]
      exact stays (world.pending_retainAll sc _)
    · simp only [Ensures.answer_iff]
      exact idle rfl
  case dropThrough | releaseGuard | disarmGuard | forgetGuard =>
    simp only [Ensures.whenConsumable_iff, Ensures.ite_iff, Guard.close]
    split <;> simp only [Ensures.push_iff, Ensures.go_iff, Ensures.answer_iff] <;>
      exact ⟨fun _ => idle rfl, fun _ => idle rfl⟩
  all_goals
    simp only [Ensures.whenUsable_iff, Ensures.whenFree_iff, Ensures.operate_iff, Ensures.ite_iff,
      Ensures.answer_iff, Ensures.go_iff, Ensures.run_iff]
  case newSlot | newRegistry | loadConfig => exact idle rfl
  case forgetScope t =>
    exact ⟨fun _ => stays (world.pending_surrender sc (.scope t)), fun _ => idle rfl⟩
  case runAll | newGuard | keep =>
    exact ⟨fun _ => stays (world.pending_retainAll sc _), fun _ => idle rfl⟩
  case dropOnError => exact ⟨fun _ _ => stays (world.pending_retainAll sc _), fun _ => idle rfl⟩
  case peek | inspectSlot | callOnError | inspectGuard | register | snapshotRegistry
      | inspectRegistry =>
    exact ⟨fun _ _ => idle rfl, fun _ => idle rfl⟩
  all_goals exact ⟨fun _ => idle rfl, fun _ => idle rfl⟩

theorem Task.step_queues (world : World σ ν) {sc : ScopeId} (id : ThreadId) {task : Task σ ν}
    (spares : (.task task : Control σ ν).Spares sc) :
    Ensures (task.step world id) (Move.Queues sc world) := by
  have stays {move : Move σ ν} (same : (move.world.scope sc).pending = (world.scope sc).pending) :
      move.Queues sc world :=
    .of_eq same
  have idle {move : Move σ ν} (same : move.world.scope sc = world.scope sc) : move.Queues sc world :=
    .of_eq (congrArg Scope.pending same)
  cases task with
  | start call =>
      exact call.start_queues world fun same => spares.unreset (same ▸ rfl)
  | drain t ran failures =>
      have apart : t ≠ sc := fun same => spares.undrained ran failures (same ▸ rfl)
      have taken := world.pending_takePending sc apart
      simp only [step]
      split <;> rw [Ensures.go_iff] <;> exact stays taken
  | letGo handles exit =>
      have gone := world.pending_relinquish sc
      exact .letGo (fun _ => idle rfl) (fun handle _ _ _ => stays (gone handle))
        (fun s _ _ _ => idle (World.scope_discardSlot _ sc s)) fun t _ _ => stays (gone (.scope t))
  | enter s =>
      simp only [step, Ensures.bind_iff, Ensures.ite_iff, Ensures.go_iff]
      intro entered action
      have kept := world.pending_enterSlot sc action
      exact ⟨fun _ => stays kept, fun _ => stays kept⟩
  | copy s cloner =>
      simp only [step, Ensures.whenFree_iff]
      intro _
      split <;> simp only [Ensures.go_iff] <;> exact stays (world.pending_copySlot sc s)
  | look s | lookAgain s | take s | copyValue s made cloner =>
      simp only [step, Ensures.whenFree_iff]
      intro _
      split <;> simp only [Ensures.go_iff, Ensures.run_iff, Ensures.answer_iff, Ensures.endDrop_iff] <;>
        exact idle rfl
  | sift selection error rest places =>
      cases rest <;> simp only [step, Ensures.proceed_iff, Ensures.ask_iff]
      · exact ⟨fun _ _ => idle rfl, fun _ _ _ => idle rfl, fun _ _ => idle rfl⟩
      · exact ⟨fun _ => idle rfl, fun _ => idle rfl, fun _ _ => idle rfl⟩
  | batch t rest ran failures =>
      cases rest with
      | nil =>
          simp only [step, Ensures.go_iff]
          exact idle rfl
      | cons action rest =>
          simp only [step]
          split <;> simp only [Ensures.run_iff, Ensures.push_iff] <;> exact idle rfl
  | links s error rest | handlers s error rest =>
      cases rest <;>
        simp only [step, Ensures.go_iff, Ensures.push_iff, Ensures.run_iff, Ensures.answer_iff] <;>
        exact idle rfl
  | disposeAll rest failures =>
      cases rest <;> simp only [step, Ensures.push_iff, Ensures.answer_iff]
      · refine idle ?_
        split <;> rfl
      · exact idle rfl
  | dispose droppable =>
      cases droppable <;> simp only [step, Ensures.go_iff, Ensures.run_iff, Ensures.answer_iff] <;>
        exact idle rfl
  | report t ran failures =>
      simp only [step, Ensures.answer_iff]
      exact idle (World.scope_emitAll _ _ sc)
  | finish exit => simp [step]
  | produce s | swap s | confirm s value =>
      simp only [step, Ensures.ite_iff, Ensures.go_iff, Ensures.run_iff, Ensures.endDrop_iff]
      exact ⟨fun _ => idle rfl, fun _ => idle rfl⟩
  | consult selection error | lockValue s value =>
      simp only [step, Ensures.whenFree_iff, Ensures.go_iff]
      exact fun _ => idle rfl
  | _ =>
      simp only [step, Ensures.go_iff, Ensures.run_iff, Ensures.answer_iff]
      exact idle rfl

theorem Frame.resume_queues (world : World σ ν) (sc : ScopeId) (exit : Exit) (frame : Frame σ ν) :
    Ensures (frame.resume world exit) (Move.Queues sc world) := by
  have idle {move : Move σ ν} (same : move.world.scope sc = world.scope sc) : move.Queues sc world :=
    .of_eq (congrArg Scope.pending same)
  cases frame with
  | initializing s =>
      simp only [resume, Ensures.initializerEnded_iff]
      exact ⟨fun _ _ => idle rfl, fun _ _ => ⟨fun _ _ => idle rfl, fun _ => idle rfl⟩⟩
  | linking | handling =>
      cases exit <;> simp only [resume]
      · split <;> rw [Ensures.go_iff] <;> exact idle rfl
      · rw [Ensures.go_iff]
        exact idle rfl
  | getting | orNone | orElse | expiring =>
      simp only [resume, Guard.close]
      split <;> simp only [Ensures.go_iff, Ensures.run_iff, Ensures.push_iff, Ensures.answer_iff] <;> exact idle rfl
  | reading announced =>
      cases exit <;> simp only [resume]
      · exact .configRead fun _ events _ => idle (world.scope_emitAll events sc)
      · rw [Ensures.go_iff]
        exact idle rfl
  | closing t outcome =>
      cases exit <;> simp only [resume, Ensures.go_iff]
      · refine .of_eq (Eq.trans (World.pending_updateScope _ sc t fun _ => ?_) ?_)
        · rfl
        · exact congrArg Scope.pending (world.scope_emitAll _ sc)
      · exact idle rfl
  | releasingLate | vanishing | guarding =>
      cases exit with
      | panicked payload =>
          simp only [resume, Ensures.go_iff]
          exact idle rfl
      | returned reply =>
          simp only [resume, Ensures.go_iff, Ensures.answer_iff]
          exact idle (World.scope_emitAll _ _ sc)
  | _ =>
      cases exit <;>
        simp only [resume, Ensures.go_iff, Ensures.run_iff, Ensures.push_iff, Ensures.answer_iff,
          Ensures.some_iff, Ensures.endDrop_iff] <;>
        exact idle rfl

theorem Thread.step_queues {world next : World σ ν} {sc : ScopeId} {thread after : Thread σ ν}
    (action : thread.step world = some (next, after)) (spares : thread.control.Spares sc) :
    (world.scope sc).pending <+: (next.scope sc).pending := by
  refine step_rule (fun thread next _ =>
    thread.control.Spares sc → (world.scope sc).pending <+: (next.scope sc).pending) ?_ ?_ ?_
    action spares
  · intro id code stack move made _
    cases code <;> simp only [Code.step] at made <;> obtain rfl := Option.some.inj made <;>
      exact List.prefix_rfl
  · intro id task stack move made spares
    exact task.step_queues world id spares move made
  · intro id exit frame stack move made _
    exact frame.resume_queues world sc exit move made

/-! ## Slots that are registered -/

/-- The call registers the slot with the scope, which gets a handle of its own. -/
inductive World.Registers (world : World σ ν) : Call σ ν → ScopeId → SlotId → Prop
  | adopts {sc : ScopeId} {s : SlotId} (scope : world.usable (.scope sc) = true)
      (slot : world.usable (.slot s) = true) : Registers world (.adopt sc s) sc s
  | makes {sc : ScopeId} {release : Value → Code σ ν} {initializer : Code σ ν}
      (scope : world.usable (.scope sc) = true) :
      Registers world (.registerSlot sc release initializer) sc world.slots.size

theorem World.Registers.step {world : World σ ν} {sc : ScopeId} {s : SlotId} {thread : Thread σ ν}
    {call : Call σ ν} (registers : world.Registers call sc s)
    (starting : thread.control = .task (.start call)) :
    ∃ next after, thread.step world = some (next, after) ∧
      (next.scope sc).pending = (world.scope sc).pending ++ [⟨world.actions, .release s⟩] := by
  obtain ⟨id, control, stack⟩ := thread
  obtain rfl : control = .task (.start call) := starting
  cases registers with
  | adopts scope slot =>
      refine ⟨world.adopt sc s, ⟨id, .task (.finish (.returned (.object s))), stack⟩, ?_, ?_⟩
      · simp [Thread.step, Task.step, Call.start, World.whenUsable, scope, slot, World.answer, World.go,
          Thread.after]
      · exact (world.retain (.slot s)).pending_addAction sc (.release s)
  | @makes _ release initializer scope =>
      let made := (world.makeSlot release initializer).1
      refine ⟨made.adopt sc world.slots.size,
        ⟨id, .task (.finish (.returned (.object world.slots.size))), stack⟩, ?_, ?_⟩
      · simp [Thread.step, Task.step, Call.start, World.whenUsable, scope, World.answer, World.go,
          Thread.after, World.makeSlot, World.addSlot, made]
      · exact (made.retain (.slot world.slots.size)).pending_addAction sc (.release world.slots.size)

end Relinquish
