import Relinquish.Proofs.Policies
import Relinquish.Proofs.Rounds

/-!
What heeds the policy of a scope. Nothing does but a look at the scope and the report of a teardown
with several failures; all else is the same where the scope has another policy.
-/

namespace Relinquish

variable {σ ν : Type}

theorem Table.updateAt_comm {α : Type} [Inhabited α] {first second : α → α} (i j : Nat)
    (objects : List α) (commute : i = j → ∀ object, first (second object) = second (first object)) :
    updateAt first i (updateAt second j objects) = updateAt second j (updateAt first i objects) := by
  induction i generalizing j objects with
  | zero =>
      cases j with
      | zero => cases objects <;> simp [updateAt, commute rfl]
      | succ j => cases objects <;> rfl
  | succ i ih =>
      cases j with
      | zero => cases objects <;> rfl
      | succ j =>
          have inner (objects : List α) := ih j objects fun same => commute (congrArg _ same)
          cases objects with
          | nil => exact congrArg _ (inner [])
          | cons object rest => exact congrArg _ (inner rest)

theorem Table.updateAt_append {α : Type} [Inhabited α] {change : α → α} {i : Nat} {objects : List α}
    (known : i < objects.length) (more : List α) :
    updateAt change i (objects ++ more) = updateAt change i objects ++ more := by
  induction i generalizing objects with
  | zero =>
      cases objects with
      | nil => contradiction
      | cons object rest => rfl
  | succ i ih =>
      cases objects with
      | nil => contradiction
      | cons object rest => exact congrArg _ (ih (Nat.lt_of_succ_lt_succ known))

/-! ## Worlds -/

/-- The same world, but that the scope has the policy. -/
def World.setPolicy (world : World σ ν) (sc : ScopeId) (policy : TeardownPolicy) : World σ ν :=
  world.updateScope sc fun scope => { scope with policy }

namespace World

variable (world : World σ ν) (sc : ScopeId) (policy : TeardownPolicy)

@[simp] theorem slot_setPolicy (s : SlotId) : (world.setPolicy sc policy).slot s = world.slot s := rfl

@[simp] theorem accessor_setPolicy (a : AccessorId) :
    (world.setPolicy sc policy).accessor a = world.accessor a := rfl

@[simp] theorem parcel_setPolicy (p : ParcelId) :
    (world.setPolicy sc policy).parcel p = world.parcel p := rfl

@[simp] theorem scope_setPolicy (t : ScopeId) :
    (world.setPolicy sc policy).scope t =
      if sc = t then { world.scope t with policy } else world.scope t :=
  world.scope_updateScope sc t _

theorem pending_setPolicy (t : ScopeId) :
    ((world.setPolicy sc policy).scope t).pending = (world.scope t).pending := by
  rw [scope_setPolicy]
  split <;> rfl

theorem usable_setPolicy (handle : Handle) :
    (world.setPolicy sc policy).usable handle = world.usable handle := by
  cases handle with
  | slot s => rfl
  | scope t =>
      simp only [usable, scope_setPolicy]
      split <;> rfl

theorem unheld_setPolicy (handle : Handle) :
    (world.setPolicy sc policy).unheld handle = world.unheld handle := by
  cases handle with
  | slot s => rfl
  | scope t =>
      simp only [unheld, scope_setPolicy]
      split <;> rfl

theorem updateScope_setPolicy (t : ScopeId) {change : Scope σ ν → Scope σ ν}
    (passes : ∀ scope, change { scope with policy } = { change scope with policy }) :
    (world.setPolicy sc policy).updateScope t change =
      (world.updateScope t change).setPolicy sc policy := by
  simp only [setPolicy, updateScope, Table.update]
  rw [Table.updateAt_comm t sc _ fun _ => passes]

theorem retain_setPolicy (handle : Handle) :
    (world.setPolicy sc policy).retain handle = (world.retain handle).setPolicy sc policy := by
  cases handle with
  | slot s => rfl
  | scope t => exact world.updateScope_setPolicy sc policy t fun _ => rfl

theorem surrender_setPolicy (handle : Handle) :
    (world.setPolicy sc policy).surrender handle = (world.surrender handle).setPolicy sc policy := by
  cases handle with
  | slot s => rfl
  | scope t => exact world.updateScope_setPolicy sc policy t fun _ => rfl

theorem relinquish_setPolicy (handle : Handle) :
    (world.setPolicy sc policy).relinquish handle =
      (world.relinquish handle).setPolicy sc policy := by
  cases handle with
  | slot s => rfl
  | scope t => exact world.updateScope_setPolicy sc policy t fun _ => rfl

theorem retainAll_setPolicy (handles : List Handle) :
    (world.setPolicy sc policy).retainAll handles =
      (world.retainAll handles).setPolicy sc policy := by
  induction handles generalizing world with
  | nil => rfl
  | cons handle rest ih =>
      rw [retainAll, List.foldl_cons, retain_setPolicy]
      exact ih (world.retain handle)

theorem actAll_setPolicy (acts : List Act) :
    (world.setPolicy sc policy).actAll acts = (world.actAll acts).setPolicy sc policy := by
  induction acts generalizing world with
  | nil => rfl
  | cons act rest ih => exact ih (world.act act)

theorem emitAll_setPolicy (events : List Event) :
    (world.setPolicy sc policy).emitAll events = (world.emitAll events).setPolicy sc policy := by
  induction events generalizing world with
  | nil => rfl
  | cons event rest ih => exact ih (world.emit event)

theorem addAction_setPolicy (t : ScopeId) (job : Job σ ν) :
    (world.setPolicy sc policy).addAction t job = (world.addAction t job).setPolicy sc policy := by
  unfold addAction
  let counted : World σ ν := { world with actions := world.actions + 1 }
  change World.act ((counted.setPolicy sc policy).updateScope t _) _ = _
  rw [counted.updateScope_setPolicy sc policy t fun _ => rfl]
  rfl

theorem adopt_setPolicy (t : ScopeId) (s : SlotId) :
    (world.setPolicy sc policy).adopt t s = (world.adopt t s).setPolicy sc policy := by
  rw [adopt, retain_setPolicy, addAction_setPolicy]
  rfl

theorem takePending_setPolicy (t : ScopeId) :
    (world.setPolicy sc policy).takePending t =
      ((world.takePending t).1.setPolicy sc policy, (world.takePending t).2) := by
  rw [takePending, pending_setPolicy, updateScope_setPolicy _ _ _ _ fun _ => rfl]
  rfl

theorem discardPending_setPolicy (t : ScopeId) :
    (world.setPolicy sc policy).discardPending t =
      (world.discardPending t).setPolicy sc policy := by
  have emptied : (world.setPolicy sc policy).updateScope t (fun scope => { scope with pending := [] }) =
      (world.updateScope t fun scope => { scope with pending := [] }).setPolicy sc policy :=
    world.updateScope_setPolicy sc policy t fun _ => rfl
  simp only [discardPending, pending_setPolicy, emptied, actAll_setPolicy]
  split <;> rfl

theorem enterSlot_setPolicy (s : SlotId) (id : ThreadId) :
    (world.setPolicy sc policy).enterSlot s id =
      (world.enterSlot s id).map (·.setPolicy sc policy) := by
  simp only [enterSlot, slot_setPolicy]
  split
  · rfl
  · split <;> rfl

theorem discardSlot_setPolicy (s : SlotId) :
    (world.setPolicy sc policy).discardSlot s = (world.discardSlot s).setPolicy sc policy := by
  simp only [discardSlot, slot_setPolicy]
  split <;> rfl

theorem copySlot_setPolicy (s : SlotId) :
    (world.setPolicy sc policy).copySlot s =
      ((world.copySlot s).1.setPolicy sc policy, (world.copySlot s).2) := by
  have added (slot : Slot σ ν) : (world.setPolicy sc policy).addSlot slot =
      ((world.addSlot slot).1.setPolicy sc policy, (world.addSlot slot).2) := rfl
  have acted (world : World σ ν) (act : Act) :
      (world.setPolicy sc policy).act act = (world.act act).setPolicy sc policy := rfl
  simp only [copySlot, slot_setPolicy, added, retainAll_setPolicy, acted, actAll_setPolicy]

theorem addScope_setPolicy (made : sc < world.scopes.size) (scope : Scope σ ν) :
    (world.setPolicy sc policy).addScope scope =
      ((world.addScope scope).1.setPolicy sc policy, (world.addScope scope).2) := by
  have size : (world.setPolicy sc policy).scopes.size = world.scopes.size :=
    Table.size_update made _
  have pushed : (world.setPolicy sc policy).scopes.push scope =
      (world.scopes.push scope).update sc fun scope => { scope with policy } :=
    congrArg Table.mk (Table.updateAt_append made [scope]).symm
  rw [addScope, size, pushed]
  rfl

end World

/-! ## Moves -/

def Move.setPolicy (sc : ScopeId) (policy : TeardownPolicy) (move : Move σ ν) : Move σ ν :=
  { move with world := move.world.setPolicy sc policy }

section Moves

variable (world : World σ ν) (sc : ScopeId) (policy : TeardownPolicy)

theorem World.whenFree_setPolicy (locks : List Lock) {move other : Option (Move σ ν)}
    (same : other = move.map (Move.setPolicy sc policy)) :
    (world.setPolicy sc policy).whenFree locks other =
      (world.whenFree locks move).map (Move.setPolicy sc policy) := by
  have free : (world.setPolicy sc policy).free = world.free := rfl
  rw [World.whenFree, World.whenFree, free, same]
  split <;> rfl

theorem World.whenUsable_setPolicy (handles : List Handle) {move other : Option (Move σ ν)}
    (same : other = move.map (Move.setPolicy sc policy)) :
    (world.setPolicy sc policy).whenUsable handles other =
      (world.whenUsable handles move).map (Move.setPolicy sc policy) := by
  have usable : (world.setPolicy sc policy).usable = world.usable :=
    funext (world.usable_setPolicy sc policy)
  rw [World.whenUsable, World.whenUsable, usable, same]
  split <;> rfl

theorem World.operate_setPolicy (handles : List Handle) (frames : List (Frame σ ν))
    (task : Task σ ν) :
    (world.setPolicy sc policy).operate handles frames task =
      (world.operate handles frames task).map (Move.setPolicy sc policy) := by
  apply world.whenUsable_setPolicy
  rw [retainAll_setPolicy]
  rfl

theorem World.whenConsumable_setPolicy (g : GuardId)
    {consume : World σ ν → Option (Droppable σ ν) → Option (Move σ ν)}
    (passes : ∀ world droppable, consume (world.setPolicy sc policy) droppable =
      (consume world droppable).map (Move.setPolicy sc policy)) :
    (world.setPolicy sc policy).whenConsumable g consume =
      (world.whenConsumable g consume).map (Move.setPolicy sc policy) := by
  have same : (world.setPolicy sc policy).guard = world.guard := rfl
  rw [World.whenConsumable, World.whenConsumable, same]
  split
  · exact passes (world.updateGuard g _) _
  · rfl

theorem Call.start_setPolicy (made : sc < world.scopes.size) (call : Call σ ν)
    (heedless : call ≠ .inspectScope sc) :
    call.start (world.setPolicy sc policy) =
      (call.start world).map (Move.setPolicy sc policy) := by
  cases call <;> simp only [start]
  case copySlot | getValue | withValue | dropSlot | runAll =>
    exact world.operate_setPolicy sc policy _ _ _
  case cloneHandle | forgetHandle | newAccessor =>
    exact world.whenUsable_setPolicy sc policy _ rfl
  case peek | inspectSlot | callOnError =>
    exact world.whenUsable_setPolicy sc policy _ (world.whenFree_setPolicy sc policy _ rfl)
  case dropOnError s kind droppable =>
    apply world.whenUsable_setPolicy
    apply world.whenFree_setPolicy
    rw [World.retainAll_setPolicy]
    rfl
  case newGuard droppable | keep droppable =>
    apply world.whenUsable_setPolicy
    rw [World.retainAll_setPolicy]
    rfl
  case access | dropAccessed | forgetAccessor =>
    simp only [World.accessor_setPolicy]
    split <;> rfl
  case newScope | deferring =>
    rw [World.addScope_setPolicy _ _ _ made]
    rfl
  case forgetScope t =>
    have handles : ((world.setPolicy sc policy).scope t).handles = (world.scope t).handles := by
      rw [World.scope_setPolicy]
      split <;> rfl
    rw [World.surrender_setPolicy, handles]
    split <;> rfl
  case defer t action =>
    apply world.whenUsable_setPolicy
    rw [World.addAction_setPolicy]
    rfl
  case adopt t s =>
    apply world.whenUsable_setPolicy
    rw [World.adopt_setPolicy]
    rfl
  case registerSlot t release initializer =>
    apply world.whenUsable_setPolicy
    have made : (world.setPolicy sc policy).makeSlot release initializer =
        ((world.makeSlot release initializer).1.setPolicy sc policy,
          (world.makeSlot release initializer).2) := rfl
    rw [made, World.adopt_setPolicy]
    rfl
  case resetScope t =>
    apply world.whenUsable_setPolicy
    rw [World.pending_setPolicy, World.discardPending_setPolicy]
    rfl
  case inspectScope t =>
    apply world.whenUsable_setPolicy
    have other : sc ≠ t := fun same => heedless (same ▸ rfl)
    rw [World.scope_setPolicy, if_neg other]
    rfl
  case dropThrough g =>
    have same : (world.setPolicy sc policy).guard = world.guard := rfl
    rw [same]
    split
    · split <;> rfl
    · rfl
  case inspectGuard g =>
    have same : (world.setPolicy sc policy).guard = world.guard := rfl
    rw [same]
    split
    · exact world.whenFree_setPolicy sc policy _ rfl
    · rfl
  case releaseGuard g | disarmGuard g | forgetGuard g =>
    apply world.whenConsumable_setPolicy
    rintro world (_ | droppable) <;> rfl
  case dispose p =>
    rw [World.parcel_setPolicy]
    split
    · rw [World.retainAll_setPolicy]
      rfl
    · rfl
  case forgetParcel p =>
    rw [World.parcel_setPolicy]
    split <;> rfl
  case matchKind kind error =>
    split <;> rfl
  case select r error =>
    have same : (world.setPolicy sc policy).registries = world.registries := rfl
    rw [same]
    split <;> rfl
  case register r | snapshotRegistry r | inspectRegistry r =>
    have same : (world.setPolicy sc policy).registries = world.registries := rfl
    rw [same]
    split
    · exact world.whenFree_setPolicy sc policy _ rfl
    · rfl
  all_goals rfl

/-- What the task does next depends on the policy of the scope. -/
def Task.heeds (sc : ScopeId) : Task σ ν → Bool
  | start (.inspectScope t) => t == sc
  | report t _ failures => t == sc && 2 ≤ failures.length
  | _ => false

theorem TeardownPolicy.alike_of_few {failures : List Error} (few : failures.length < 2)
    (first second : TeardownPolicy) :
    first.unreturned failures = second.unreturned failures ∧
      first.result failures = second.result failures := by
  match failures with
  | [] | [_] => cases first <;> cases second <;> exact ⟨rfl, rfl⟩

theorem Task.step_setPolicy (made : sc < world.scopes.size) (id : ThreadId) (task : Task σ ν)
    (heedless : task.heeds sc = false) :
    task.step (world.setPolicy sc policy) id =
      (task.step world id).map (Move.setPolicy sc policy) := by
  cases task with
  | start call =>
      refine call.start_setPolicy world sc policy made ?_
      rintro rfl
      simp [heeds] at heedless
  | letGo handles exit =>
      cases handles with
      | nil => rfl
      | cons handle rest =>
          simp only [step, World.relinquish_setPolicy, World.unheld_setPolicy]
          split
          · cases handle with
            | slot s =>
                simp only [World.discardSlot_setPolicy]
                rfl
            | scope t =>
                simp only [World.pending_setPolicy]
                split <;> rfl
          · rfl
  | look s | lookAgain s | take s | copyValue s =>
      apply world.whenFree_setPolicy
      simp only [World.slot_setPolicy]
      split <;> rfl
  | enter s =>
      simp only [step, World.enterSlot_setPolicy]
      cases world.enterSlot s id with
      | none => rfl
      | some entered =>
          have same : (entered.setPolicy sc policy).slot = entered.slot := rfl
          simp only [Option.map_some, Option.bind_some]
          rw [same]
          split <;> rfl
  | produce s | confirm s | swap s =>
      have same : (world.setPolicy sc policy).slot = world.slot := rfl
      simp only [step]
      rw [same]
      split <;> rfl
  | lockValue s | consult selection =>
      exact world.whenFree_setPolicy sc policy _ rfl
  | sift selection error rest places =>
      cases rest with
      | nil => cases selection <;> rfl
      | cons entry rest =>
          simp only [step, World.ask]
          split <;> rfl
  | links s error rest | handlers s error rest => cases rest <;> rfl
  | dispose droppable => cases droppable <;> rfl
  | disposeAll rest failures =>
      cases rest with
      | nil =>
          simp only [step]
          split <;> rfl
      | cons droppable rest => rfl
  | copy s cloner =>
      apply world.whenFree_setPolicy
      rw [World.copySlot_setPolicy]
      cases cloner <;> rfl
  | drain t ran failures =>
      simp only [step, World.takePending_setPolicy]
      split <;> rfl
  | batch t rest ran failures =>
      cases rest with
      | nil => rfl
      | cons action rest =>
          simp only [step]
          split <;> rfl
  | report t ran failures =>
      have alike : ((world.setPolicy sc policy).scope t).policy.unreturned failures =
            (world.scope t).policy.unreturned failures ∧
          ((world.setPolicy sc policy).scope t).policy.result failures =
            (world.scope t).policy.result failures := by
        by_cases same : sc = t
        · have few : failures.length < 2 := by simpa [heeds, same] using heedless
          exact TeardownPolicy.alike_of_few few _ _
        · rw [World.scope_setPolicy, if_neg same]
          exact ⟨rfl, rfl⟩
      have told : (world.setPolicy sc policy).emit (.tornDown t ran failures.length) =
          (world.emit (.tornDown t ran failures.length)).setPolicy sc policy := rfl
      simp only [step]
      rw [alike.1, alike.2, told, World.emitAll_setPolicy]
      rfl
  | finish | store | unlockValue | leave | releaseLate | deliver => rfl

theorem Frame.resume_setPolicy (exit : Exit) (frame : Frame σ ν) :
    frame.resume (world.setPolicy sc policy) exit =
      (frame.resume world exit).map (Move.setPolicy sc policy) := by
  cases frame with
  | initializing s =>
      cases exit with
      | returned reply =>
          simp only [resume, World.initializerEnded]
          split <;> rfl
      | panicked payload => rfl
  | releasingLate s value | vanishing sc rest outcome | guarding g =>
      cases exit with
      | returned reply =>
          simp only [resume, World.emitAll_setPolicy]
          rfl
      | panicked payload => rfl
  | linking | handling =>
      cases exit with
      | returned reply =>
          simp only [resume]
          split <;> rfl
      | panicked payload => rfl
  | closing t outcome =>
      cases exit with
      | returned reply =>
          simp only [resume, World.emitAll_setPolicy]
          rw [World.updateScope_setPolicy _ _ _ _ fun _ => rfl]
          rfl
      | panicked payload => rfl
  | getting | orNone | orElse =>
      simp only [resume]
      split <;> rfl
  | expiring g =>
      have same : (world.setPolicy sc policy).guard = world.guard := rfl
      simp only [resume, Guard.close, same]
      split <;> rfl
  | reading announced =>
      cases exit with
      | returned reply =>
          simp only [resume, World.configRead]
          cases ScopeConfig.read _ <;> cases announced <;> rfl
      | panicked payload => rfl
  | _ => cases exit <;> rfl

theorem Code.step_setPolicy (id : ThreadId) (code : Code σ ν) :
    code.step (world.setPolicy sc policy) id =
      (code.step world id).map (Move.setPolicy sc policy) := by
  cases code <;> rfl

def Thread.heeds (sc : ScopeId) (thread : Thread σ ν) : Bool :=
  match thread.control with
  | .code _ => false
  | .task task => task.heeds sc

theorem Thread.step_setPolicy (made : sc < world.scopes.size) (thread : Thread σ ν)
    (heedless : thread.heeds sc = false) :
    thread.step (world.setPolicy sc policy) =
      (thread.step world).map fun (next, after) => (next.setPolicy sc policy, after) := by
  obtain ⟨id, control, stack⟩ := thread
  cases control with
  | code code =>
      simp only [step, code.step_setPolicy world sc policy, Option.map_map]
      rfl
  | task task =>
      have moves := task.step_setPolicy world sc policy made id heedless
      cases task with
      | finish exit =>
          cases stack with
          | nil => rfl
          | cons frame stack =>
              simp only [step, frame.resume_setPolicy world sc policy, Option.map_map]
              rfl
      | _ =>
          simp only [step, moves, Option.map_map]
          rfl

end Moves

theorem Thread.Reaches.setPolicy {world next : World σ ν} {thread after : Thread σ ν} {sc : ScopeId}
    (run : Reaches world thread next after) (made : sc < world.scopes.size)
    (heedless : ∀ reached between, Reaches world thread reached between → between.heeds sc = false)
    (policy : TeardownPolicy) :
    Reaches (world.setPolicy sc policy) thread (next.setPolicy sc policy) after := by
  obtain ⟨steps, run⟩ := run
  induction steps generalizing world thread with
  | zero =>
      obtain ⟨rfl, rfl⟩ := Prod.mk.inj run
      exact .refl _ _
  | succ steps ih =>
      have same := step_setPolicy world sc policy made thread (heedless _ _ (.refl _ _))
      cases action : thread.step world with
      | none =>
          simp only [advance, action] at run
          obtain ⟨rfl, rfl⟩ := Prod.mk.inj run
          exact .refl _ _
      | some reached =>
          obtain ⟨middle, between⟩ := reached
          rw [advance_succ action] at run
          rw [action] at same
          exact .step same (ih (Nat.lt_of_lt_of_le made (step_governs action).made)
            (fun reached between later => heedless _ _ (.step action later)) run)

end Relinquish
