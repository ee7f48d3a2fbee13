import Relinquish.Proofs.Holds
import Relinquish.Proofs.Twins
import Mathlib.Data.List.Forall2

/-!
Threads in lockstep. Two threads that go about the same in twin worlds, one in each, take the same
steps, and their worlds stay twins, as long as nobody calls for the scope that only one of the worlds
has for its own, and no slot dies that has further holds in the other world.
-/

namespace Relinquish

variable {σ ν : Type}

/-! ## Threads that go about the same -/

def Call.scope? : Call σ ν → Option ScopeId
  | forgetScope sc | defer sc _ | adopt sc _ | registerSlot sc _ _ | resetScope sc
  | inspectScope sc | runAll sc => some sc
  | _ => none

def Task.Apart (sc : ScopeId) : Task σ ν → Prop
  | letGo handles _ => Handle.scope sc ∉ handles
  | drain t _ _ | batch t _ _ _ | report t _ _ => t ≠ sc
  | unlockValue _ next | leave _ next => next.Apart sc
  | _ => True

def Frame.Apart (sc : ScopeId) : Frame σ ν → Prop
  | holding handles => Handle.scope sc ∉ handles
  | vanishing t handles _ => t ≠ sc ∧ Handle.scope sc ∉ handles
  | tearing t _ _ _ | body t | closing t _ => t ≠ sc
  | _ => True

variable {sc : ScopeId} {own : Scope σ ν} {extra : SlotId → Nat} {world other : World σ ν}

inductive Task.Twin (sc : ScopeId) : Task σ ν → Task σ ν → Prop
  | same {task : Task σ ν} (apart : task.Apart sc) : Twin sc task task
  | batch {t : ScopeId} {rest others : List (Action σ ν)} (ran : Nat) (failures : List Error)
      (apart : t ≠ sc) (jobs : others.map Action.job = rest.map Action.job) :
      Twin sc (.batch t rest ran failures) (.batch t others ran failures)

inductive Control.Twin (sc : ScopeId) : Control σ ν → Control σ ν → Prop
  | code (code : Code σ ν) : Twin sc (.code code) (.code code)
  | task {task other : Task σ ν} (twin : task.Twin sc other) : Twin sc (.task task) (.task other)

inductive Frame.Twin (sc : ScopeId) : Frame σ ν → Frame σ ν → Prop
  | same {frame : Frame σ ν} (apart : frame.Apart sc) : Twin sc frame frame
  | tearing {t : ScopeId} {rest others : List (Action σ ν)} (ran : Nat) (failures : List Error)
      (apart : t ≠ sc) (jobs : others.map Action.job = rest.map Action.job) :
      Twin sc (.tearing t rest ran failures) (.tearing t others ran failures)

structure Thread.Twin (sc : ScopeId) (thread other : Thread σ ν) : Prop where
  id : other.id = thread.id
  control : thread.control.Twin sc other.control
  stack : List.Forall₂ (Frame.Twin sc) thread.stack other.stack

structure Move.Twin (sc : ScopeId) (own : Scope σ ν) (extra : SlotId → Nat)
    (move other : Move σ ν) : Prop where
  world : move.world.Twin sc own extra other.world
  control : move.control.Twin sc other.control
  frames : List.Forall₂ (Frame.Twin sc) move.frames other.frames
  thread : other.thread = move.thread

abbrev Move.Agree (sc : ScopeId) (own : Scope σ ν) (extra : SlotId → Nat) :
    Option (Move σ ν) → Option (Move σ ν) → Prop :=
  Option.Rel (Move.Twin sc own extra)

theorem Frame.Twin.all {frames : List (Frame σ ν)} (apart : ∀ frame ∈ frames, frame.Apart sc) :
    List.Forall₂ (Frame.Twin sc) frames frames :=
  List.forall₂_same.mpr fun frame member => .same (apart frame member)

theorem Handle.scope_notMem_handles (sc : ScopeId) (droppable : Droppable σ ν) :
    Handle.scope sc ∉ droppable.handles := by
  simp [Droppable.handles]

theorem Action.scope_notMem_handles (sc : ScopeId) (actions : List (Action σ ν)) :
    Handle.scope sc ∉ actions.flatMap Action.handles := by
  intro member
  obtain ⟨⟨a, job⟩, -, listed⟩ := List.mem_flatMap.mp member
  cases job <;> simp [Action.handles] at listed

/-! ## Moves that agree -/

namespace World.Twin

variable (twin : world.Twin sc own extra other) {move change : Option (Move σ ν)}

include twin

theorem moves {control alike : Control σ ν} {frames others : List (Frame σ ν)}
    (same : control.Twin sc alike) (pushed : List.Forall₂ (Frame.Twin sc) frames others) :
    Move.Twin sc own extra { world, control, frames }
      { world := other, control := alike, frames := others } :=
  ⟨twin, same, pushed, rfl⟩

theorem go {task : Task σ ν} (apart : task.Apart sc) :
    Move.Agree sc own extra (world.go task) (other.go task) :=
  .some (twin.moves (.task (.same apart)) .nil)

theorem push {frames : List (Frame σ ν)} {task : Task σ ν}
    (framed : ∀ frame ∈ frames, frame.Apart sc) (apart : task.Apart sc) :
    Move.Agree sc own extra (world.push frames task) (other.push frames task) :=
  .some (twin.moves (.task (.same apart)) (Frame.Twin.all framed))

theorem run {frames : List (Frame σ ν)} (code : Code σ ν)
    (apart : ∀ frame ∈ frames, frame.Apart sc) :
    Move.Agree sc own extra (world.run frames code) (other.run frames code) :=
  .some (twin.moves (.code code) (Frame.Twin.all apart))

theorem answer (reply : Reply) : Move.Agree sc own extra (world.answer reply) (other.answer reply) :=
  twin.go trivial

theorem endDrop (s : SlotId) (exit : Exit) :
    Move.Agree sc own extra (world.endDrop s exit) (other.endDrop s exit) :=
  (twin.act _).go trivial

theorem whenFree (locks : List Lock) (agree : Move.Agree sc own extra move change) :
    Move.Agree sc own extra (world.whenFree locks move) (other.whenFree locks change) := by
  have free : locks.all other.free = locks.all world.free :=
    congrArg locks.all (funext twin.free)
  rw [World.whenFree, World.whenFree, free]
  split
  · exact agree
  · exact .none

theorem whenUsable {handles : List Handle} (apart : Handle.scope sc ∉ handles)
    (agree : Move.Agree sc own extra move change) :
    Move.Agree sc own extra (world.whenUsable handles move) (other.whenUsable handles change) := by
  have usable : handles.all other.usable = handles.all world.usable := by
    rw [Bool.eq_iff_iff, List.all_eq_true, List.all_eq_true]
    refine forall₂_congr fun handle member => ?_
    rw [twin.usable handle fun same => apart (same ▸ member)]
  rw [World.whenUsable, World.whenUsable, usable]
  split
  · exact agree
  · exact twin.answer .missing

theorem operate {handles : List Handle} {frames : List (Frame σ ν)} {task : Task σ ν}
    (held : Handle.scope sc ∉ handles) (framed : ∀ frame ∈ frames, frame.Apart sc)
    (apart : task.Apart sc) :
    Move.Agree sc own extra (world.operate handles frames task)
      (other.operate handles frames task) := by
  refine twin.whenUsable held ((twin.retainAll held).push (fun frame member => ?_) apart)
  rcases List.mem_append.mp member with member | member
  · exact framed frame member
  · obtain rfl := List.mem_singleton.mp member
    exact held

theorem borrow (s : SlotId) {frames : List (Frame σ ν)} {task : Task σ ν}
    (framed : ∀ frame ∈ frames, frame.Apart sc) (apart : task.Apart sc) :
    Move.Agree sc own extra (world.borrow s frames task) (other.borrow s frames task) := by
  refine (twin.retain (.slot s) nofun).push (fun frame member => ?_) apart
  rcases List.mem_append.mp member with member | member
  · exact framed frame member
  · obtain rfl := List.mem_singleton.mp member
    simp [Frame.Apart]

theorem whenConsumable (g : GuardId)
    {consume : World σ ν → Option (Droppable σ ν) → Option (Move σ ν)}
    (agree : ∀ world other, Twin sc own extra world other → ∀ droppable,
      Move.Agree sc own extra (consume world droppable) (consume other droppable)) :
    Move.Agree sc own extra (world.whenConsumable g consume) (other.whenConsumable g consume) := by
  simp only [World.whenConsumable, twin.guard]
  split
  · exact agree _ _ (twin.updateGuard g _) _
  · exact twin.answer .missing

theorem close (g : GuardId) (outcome : Exit) (droppable : Option (Droppable σ ν)) :
    Move.Agree sc own extra (Guard.close g outcome world droppable)
      (Guard.close g outcome other droppable) := by
  cases droppable with
  | none => exact twin.go trivial
  | some droppable =>
      exact twin.push (by simpa [Frame.Apart] using Handle.scope_notMem_handles sc droppable) trivial

end World.Twin

/-! ## Calls -/

theorem Call.start_twin (twin : world.Twin sc own extra other) (call : Call σ ν)
    (apart : call.scope? ≠ some sc) :
    Move.Agree sc own extra (call.start world) (call.start other) := by
  cases call <;> simp only [start]
  -- What a call makes gets the same number in both worlds, and what it reads of the worlds is the
  -- same, since it is not about the scope.
  case newSlot release initializer =>
    obtain ⟨made, same⟩ := twin.makeSlot release initializer
    rw [same]
    exact made.answer _
  case cloneHandle s =>
    exact twin.whenUsable (by simp) ((twin.updateSlot rfl).answer _)
  case forgetHandle s =>
    exact twin.whenUsable (by simp) ((twin.surrender (.slot s) (by simp)).go (by simp [Task.Apart]))
  case copySlot s cloner =>
    exact twin.operate (by simp) (by simp) trivial
  case getValue s | withValue s use =>
    exact twin.operate (by simp) (by simp [Frame.Apart]) trivial
  case dropSlot s =>
    exact twin.operate (by simp) (by simp) trivial
  case peek s =>
    rw [twin.slot, Slot.lend_value]
    exact twin.whenUsable (by simp) (twin.whenFree _ (twin.answer _))
  case inspectSlot s =>
    rw [twin.slot, Slot.lend_view]
    exact twin.whenUsable (by simp) (twin.whenFree _ (twin.answer _))
  case dropOnError s kind droppable =>
    have apart := Handle.scope_notMem_handles sc droppable
    rw [twin.slot, Slot.lend_links]
    refine twin.whenUsable (by simpa using apart) (twin.whenFree _ ?_)
    exact (((twin.retainAll apart).updateSlot rfl).act _).answer _
  case callOnError s kind handler =>
    rw [twin.slot, Slot.lend_handlers]
    exact twin.whenUsable (by simp) (twin.whenFree _ (((twin.updateSlot rfl).act _).answer _))
  case newAccessor s fallback =>
    obtain ⟨made, same⟩ := (twin.retain (.slot s) (by simp)).addAccessor { slot := s, fallback }
    rw [same]
    exact twin.whenUsable (by simp) (made.answer _)
  case access a =>
    rw [twin.accessor]
    cases world.accessor a with
    | none => exact twin.answer _
    | some accessor =>
        refine twin.borrow _ ?_ trivial
        obtain ⟨s, fallback⟩ := accessor
        cases fallback <;> simp [Accessor.frame, Frame.Apart]
  case dropAccessed a =>
    rw [twin.accessor]
    cases world.accessor a with
    | none => exact twin.answer _
    | some accessor => exact twin.borrow _ (by simp) trivial
  case forgetAccessor a =>
    rw [twin.accessor]
    cases world.accessor a with
    | none => exact twin.answer _
    | some accessor => exact (twin.setAccessor a none).go (by simp [Task.Apart])
  case newScope policy =>
    obtain ⟨made, same, -⟩ := twin.addScope { policy, handles := 1 }
    rw [same]
    exact made.answer _
  case forgetScope t =>
    have distinct : t ≠ sc := fun same => apart (congrArg some same)
    rw [(twin.scope t distinct).handles]
    split
    · exact (twin.surrender (.scope t) (by simpa)).go (by simpa [Task.Apart] using distinct.symm)
    · exact twin.answer _
  case defer t action =>
    have distinct : t ≠ sc := fun same => apart (congrArg some same)
    exact twin.whenUsable (by simpa using distinct.symm) ((twin.addAction distinct _).answer _)
  case adopt t s =>
    have distinct : t ≠ sc := fun same => apart (congrArg some same)
    exact twin.whenUsable (by simpa using distinct.symm) ((twin.adopt distinct s).answer _)
  case registerSlot t release initializer =>
    have distinct : t ≠ sc := fun same => apart (congrArg some same)
    obtain ⟨made, same⟩ := twin.makeSlot release initializer
    rw [same]
    exact twin.whenUsable (by simpa using distinct.symm) ((made.adopt distinct _).answer _)
  case resetScope t =>
    have distinct : t ≠ sc := fun same => apart (congrArg some same)
    rw [Action.handles_of_jobs (twin.scope t distinct).jobs]
    refine twin.whenUsable (by simpa using distinct.symm) ((twin.discardPending distinct).go ?_)
    exact Action.scope_notMem_handles sc _
  case inspectScope t =>
    have distinct : t ≠ sc := fun same => apart (congrArg some same)
    rw [(twin.scope t distinct).view]
    exact twin.whenUsable (by simpa using distinct.symm) (twin.answer _)
  case runAll t =>
    have distinct : t ≠ sc := fun same => apart (congrArg some same)
    exact twin.operate (by simpa using distinct.symm) (by simp) distinct
  case deferring config body =>
    obtain ⟨made, same, distinct⟩ :=
      twin.addScope { policy := config.policy, shared := 1, lent := true }
    rw [same]
    exact made.run _ (by simpa [Frame.Apart] using distinct)
  case newGuard droppable =>
    have apart := Handle.scope_notMem_handles sc droppable
    obtain ⟨made, same⟩ := (twin.retainAll apart).addGuard
      { droppable := some droppable, held := true }
    rw [same]
    exact twin.whenUsable apart (made.answer _)
  case dropThrough g =>
    rw [twin.guard]
    split
    · split
      · exact (twin.updateGuard g _).push (by simp [Frame.Apart]) trivial
      · exact twin.go trivial
    · exact twin.answer _
  case inspectGuard g =>
    rw [twin.guard, funext twin.view]
    split
    · exact twin.whenFree _ (twin.answer _)
    · exact twin.answer _
  case releaseGuard g =>
    refine twin.whenConsumable g fun world other twin droppable => ?_
    cases droppable with
    | none => exact twin.push (by simp [Frame.Apart]) trivial
    | some droppable =>
        exact twin.push (by simpa [Frame.Apart] using Handle.scope_notMem_handles sc droppable) trivial
  case disarmGuard g =>
    refine twin.whenConsumable g fun world other twin droppable => ?_
    cases droppable with
    | none => exact twin.push (by simp [Frame.Apart]) trivial
    | some droppable =>
        obtain ⟨made, same⟩ := twin.addParcel droppable
        simp only [same]
        exact made.push (by simp [Frame.Apart]) trivial
  case forgetGuard g => exact twin.whenConsumable g fun _ _ twin => twin.close g _
  case keep droppable =>
    have apart := Handle.scope_notMem_handles sc droppable
    obtain ⟨made, same⟩ := (twin.retainAll apart).addParcel droppable
    rw [same]
    exact twin.whenUsable apart (made.answer _)
  case dispose p =>
    rw [twin.parcel]
    split
    · next droppable _ =>
        have apart := Handle.scope_notMem_handles sc droppable
        exact (twin.retainAll apart).push (by simpa [Frame.Apart] using apart) trivial
    · exact twin.answer _
  case forgetParcel p =>
    rw [twin.parcel]
    split
    · next droppable _ =>
        exact (twin.setParcel p none).go (Handle.scope_notMem_handles sc droppable)
    · exact twin.answer _
  case newRegistry =>
    obtain ⟨made, same⟩ := twin.addRegistry {}
    rw [same]
    exact made.answer _
  case register r kind number =>
    rw [congrArg Table.size twin.registries]
    split
    · exact twin.whenFree _ ((twin.updateRegistry r _).answer _)
    · exact twin.answer _
  case select r error =>
    rw [congrArg Table.size twin.registries]
    split
    · exact twin.go trivial
    · exact twin.answer _
  case snapshotRegistry r =>
    obtain ⟨made, same⟩ := twin.addRegistry (world.registry r)
    rw [congrArg Table.size twin.registries, twin.registry, same]
    split
    · exact twin.whenFree _ (made.answer _)
    · exact twin.answer _
  case inspectRegistry r =>
    rw [congrArg Table.size twin.registries, twin.registry]
    split
    · exact twin.whenFree _ (twin.answer _)
    · exact twin.answer _
  case loadConfig lookup announced => exact twin.run _ (by simp [Frame.Apart])
  case matchKind kind error =>
    split
    · exact twin.answer _
    · exact twin.run _ (by simp [Frame.Apart])

/-! ## Tasks -/

theorem World.Twin.proceed (twin : world.Twin sc own extra other) (selection : Selection σ ν)
    (error : Error) (places : List Nat) :
    Move.Agree sc own extra (world.proceed selection error places)
      (other.proceed selection error places) := by
  cases selection with
  | links s =>
      simp only [World.proceed, twin.slot, Slot.lend_links]
      exact twin.go trivial
  | handlers s links =>
      simp only [World.proceed, twin.slot, Slot.lend_handlers]
      exact (twin.emit _).go trivial
  | numbers r =>
      simp only [World.proceed, twin.registry]
      exact twin.answer _

theorem World.Twin.ask (twin : world.Twin sc own extra other) (selection : Selection σ ν)
    (error : Error) (place : Nat) (kind : Kind σ ν) (rest : List (Nat × Kind σ ν))
    (places : List Nat) :
    Move.Agree sc own extra (world.ask selection error place kind rest places)
      (other.ask selection error place kind rest places) := by
  unfold World.ask
  split
  · exact twin.go trivial
  · exact twin.go trivial
  · exact twin.run _ (by simp [Frame.Apart])

def Task.gives? : Task σ ν → Option SlotId
  | letGo (.slot s :: _) _ => some s
  | _ => none

def World.Lasts (world : World σ ν) (extra : SlotId → Nat) (given : Option SlotId) : Prop :=
  ∀ s, given = some s → extra s ≠ 0 → (world.relinquish (.slot s)).unheld (.slot s) = false

theorem Task.letGo_twin (twin : world.Twin sc own extra other) (id : ThreadId)
    {handles : List Handle} {exit : Exit} (apart : Handle.scope sc ∉ handles)
    (covers : world.Covers handles)
    (lasts : world.Lasts extra (letGo handles exit : Task σ ν).gives?) :
    Move.Agree sc own extra ((letGo handles exit : Task σ ν).step world id)
      ((letGo handles exit).step other id) := by
  cases handles with
  | nil => exact twin.go trivial
  | cons handle rest =>
      obtain ⟨distinct, others⟩ := not_or.mp (mt List.mem_cons.mpr apart)
      cases handle with
      | slot s =>
          have shared := covers.shared (.head _)
          have given := twin.relinquish (.slot s) (by simp) fun t same => by cases same; exact shared
          have unheld := given.unheld (.slot s) (by simp) fun t same => by cases same; exact lasts s rfl
          simp only [step, unheld, given.slot, Slot.lend_held]
          split
          · refine (given.discardSlot s).go (mt List.mem_append.mp (not_or.mpr ⟨?_, others⟩))
            simp [Slot.held, Droppable.handles]
          · exact given.go others
      | scope t =>
          have distinct : t ≠ sc := fun same => distinct (congrArg _ same.symm)
          have given := twin.relinquish (.scope t) (by simpa) (by simp)
          have unheld := given.unheld (.scope t) (by simpa) (by simp)
          simp only [step, unheld, (given.scope t distinct).isEmpty]
          split
          · split
            · exact given.go others
            · exact given.push (by simpa [Frame.Apart] using ⟨distinct, others⟩) distinct
          · exact given.go others

theorem Task.batch_twin (twin : world.Twin sc own extra other) (id : ThreadId) {t : ScopeId}
    {rest others : List (Action σ ν)} (ran : Nat) (failures : List Error) (apart : t ≠ sc)
    (jobs : others.map Action.job = rest.map Action.job) :
    Move.Agree sc own extra ((batch t rest ran failures).step world id)
      ((batch t others ran failures).step other id) := by
  cases rest with
  | nil =>
      obtain rfl := List.map_eq_nil_iff.mp jobs
      exact twin.go apart
  | cons action rest =>
      cases others with
      | nil => contradiction
      | cons further others =>
          obtain ⟨a, job⟩ := action
          obtain ⟨b, task⟩ := further
          obtain ⟨same, rests⟩ := List.cons.inj jobs
          obtain rfl : task = job := same
          have started : (world.act (.started t a)).Twin sc own extra (other.act (.started t b)) :=
            (twin.record_own rfl).own_record rfl
          have waits : (Frame.tearing t rest (ran + 1) failures).Twin sc
              (.tearing t others (ran + 1) failures) := .tearing _ _ apart rests
          cases task with
          | run code => exact .some (started.moves (.code code) (.cons waits .nil))
          | release s =>
              have holds : (Frame.holding [.slot s] : Frame σ ν).Twin sc (.holding [.slot s]) :=
                .same (by simp [Frame.Apart])
              exact .some (started.moves (.task (.same trivial)) (.cons holds (.cons waits .nil)))

theorem Task.step_twin (twin : world.Twin sc own extra other) (id : ThreadId) {task : Task σ ν}
    (apart : task.Apart sc) (unused : ∀ call, task = .start call → call.scope? ≠ some sc)
    (covers : world.Covers task.holdings) (lasts : world.Lasts extra task.gives?) :
    Move.Agree sc own extra (task.step world id) (task.step other id) := by
  cases task with
  | finish exit => exact .none
  | start call => exact call.start_twin twin (unused call rfl)
  | letGo handles exit => exact letGo_twin twin id apart covers lasts
  | look s | lookAgain s =>
      simp only [step, twin.slot, Slot.lend_value]
      apply twin.whenFree
      split
      · first | exact twin.answer _ | exact twin.go trivial
      · exact twin.go trivial
  | enter s =>
      simp only [step]
      have entering := twin.enterSlot s id
      generalize world.enterSlot s id = first at entering ⊢
      generalize other.enterSlot s id = second at entering ⊢
      cases entering with
      | none => exact .none
      | some entered =>
          simp only [Option.bind_some, entered.slot, Slot.lend_initializing]
          split
          · exact entered.go trivial
          · exact entered.go trivial
  | produce s =>
      simp only [step, twin.slot, Slot.lend_dropped, Slot.lend_initializer]
      split
      · exact twin.go trivial
      · exact ((twin.updateSlot rfl).act _).run _ (by simp [Frame.Apart])
  | lockValue s value => exact twin.whenFree _ ((twin.lock _ id).go trivial)
  | confirm s value =>
      simp only [step, twin.slot, Slot.lend_dropped]
      split
      · exact twin.go trivial
      · exact twin.go trivial
  | store s value => exact ((twin.updateSlot rfl).emit _).go trivial
  | unlockValue s next => exact (twin.unlock _).go apart
  | leave s next => exact (twin.leaveSlot s).go apart
  | releaseLate s value =>
      simp only [step, twin.slot, Slot.lend_release]
      exact (twin.act _).run _ (by simp [Frame.Apart])
  | consult selection error =>
      simp only [step, twin.kinds]
      exact twin.whenFree _ ((twin.lock _ id).go trivial)
  | sift selection error rest places =>
      cases rest with
      | nil => exact (twin.unlock _).proceed selection error places
      | cons entry rest => exact twin.ask selection error _ _ rest places
  | links s error rest callbacks failures =>
      cases rest with
      | nil => exact twin.go trivial
      | cons entry rest => exact (twin.act _).push (by simp [Frame.Apart]) trivial
  | handlers s error rest failures =>
      cases rest with
      | nil => exact twin.answer _
      | cons entry rest => exact (twin.act _).run _ (by simp [Frame.Apart])
  | swap s =>
      simp only [step, twin.slot, Slot.lend_dropped]
      split
      · exact twin.endDrop s _
      · exact (twin.updateSlot rfl).go trivial
  | take s =>
      simp only [step, World.slot_updateSlot, if_true, twin.slot, Slot.lend_value,
        Slot.lend_release]
      apply twin.whenFree
      split
      · exact (((twin.updateSlot rfl).emit _).act _).run _ (by simp [Frame.Apart])
      · exact twin.endDrop s _
  | dispose droppable =>
      cases droppable with
      | action code => exact twin.run code (by simp)
      | slot s => exact twin.go trivial
      | owner droppables => exact twin.go trivial
      | scopeOwner => exact twin.answer _
  | disposeAll rest failures =>
      cases rest with
      | nil =>
          simp only [step]
          split
          · exact twin.answer _
          · exact (twin.emit _).answer _
      | cons droppable rest => exact twin.push (by simp [Frame.Apart]) trivial
  | copy s cloner =>
      obtain ⟨copied, same⟩ := twin.copySlot s
      simp only [step, same]
      apply twin.whenFree
      cases cloner with
      | none => exact copied.go trivial
      | some cloner => exact copied.go trivial
  | copyValue s made cloner =>
      simp only [step, twin.slot, Slot.lend_value]
      apply twin.whenFree
      split
      · exact twin.run _ (by simp [Frame.Apart])
      · exact twin.go trivial
  | deliver made => exact (twin.handOver (covers.shared (.head _))).answer _
  | drain t ran failures =>
      obtain ⟨taken, jobs⟩ := twin.takePending apart
      have reversed : (other.takePending t).2.reverse.map Action.job =
          (world.takePending t).2.reverse.map Action.job := by
        rw [List.map_reverse, List.map_reverse, jobs]
      simp only [step]
      generalize (world.takePending t).2.reverse = actions at reversed ⊢
      generalize (other.takePending t).2.reverse = others at reversed ⊢
      cases actions with
      | nil =>
          obtain rfl := List.map_eq_nil_iff.mp reversed
          exact taken.go apart
      | cons action rest =>
          cases others with
          | nil => contradiction
          | cons further others =>
              exact .some (taken.moves (.task (.batch ran failures apart reversed)) .nil)
  | batch t rest ran failures => exact batch_twin twin id ran failures apart rfl
  | report t ran failures =>
      simp only [step, (twin.scope t apart).policy]
      exact ((twin.emit _).emitAll _).answer _

/-! ## Frames -/

theorem World.Twin.initializerEnded (twin : world.Twin sc own extra other) (s : SlotId)
    (exit : Exit) :
    Move.Agree sc own extra (world.initializerEnded s exit) (other.initializerEnded s exit) := by
  have ended : ((world.updateSlot s fun slot => { slot with initializing := false }).act
      (.initializerEnded s exit)).Twin sc own extra
      ((other.updateSlot s fun slot => { slot with initializing := false }).act
        (.initializerEnded s exit)) := (twin.updateSlot rfl).act _
  cases exit with
  | panicked payload => exact ended.go trivial
  | returned reply =>
      obtain ⟨made, same⟩ := ended.makeValue reply.content
      simp only [World.initializerEnded, same]
      split
      · exact ended.go trivial
      · exact (made.act _).go trivial

theorem World.Twin.configRead (twin : world.Twin sc own extra other) (announced : Bool)
    (raw : Option String) :
    Move.Agree sc own extra (world.configRead announced raw) (other.configRead announced raw) := by
  simp only [World.configRead]
  split <;> split
  · exact (twin.emit _).answer _
  · exact twin.answer _
  · exact ((twin.emit _).emit _).answer _
  · exact (twin.emit _).answer _

theorem Frame.resume_twin (twin : world.Twin sc own extra other) (exit : Exit) {frame : Frame σ ν}
    (apart : frame.Apart sc) :
    Move.Agree sc own extra (frame.resume world exit) (frame.resume other exit) := by
  cases frame with
  | calling next =>
      cases exit with
      | returned reply => exact twin.run _ (by simp)
      | panicked payload => exact twin.go trivial
  | attempted next => exact twin.run _ (by simp)
  | joined starter next => exact .some ⟨twin, .code _, .nil, rfl⟩
  | holding handles => exact twin.go apart
  | looking s => exact (twin.act _).go trivial
  | initializing s => exact twin.initializerEnded s exit
  | releasing s value => exact twin.endDrop s _
  | tearing t rest ran failures => exact twin.go apart
  | body t => exact twin.push (by simpa [Apart] using apart) apart
  | through g => exact (twin.updateGuard g _).go trivial
  | judging selection error place rest places =>
      cases exit with
      | returned reply => exact twin.go trivial
      | panicked payload => exact (twin.unlock _).go trivial
  | closing t outcome =>
      cases exit with
      | panicked payload => exact twin.go trivial
      | returned reply =>
          have told := twin.emitAll (outcome.unwindingEvents t reply.teardown?)
          refine (told.updateScope apart { told.scope t apart with lent := rfl }).go ?_
          simpa [Task.Apart] using Ne.symm apart
  | cloning copy =>
      cases exit with
      | panicked payload => exact twin.go (by simp [Task.Apart])
      | returned reply =>
          obtain ⟨made, same⟩ := twin.makeValue reply.content
          simp only [resume, same]
          exact ((made.updateSlot rfl).act _).go trivial
  | getting use =>
      simp only [resume]
      split
      · exact twin.run _ (by simp [Apart])
      · exact twin.go trivial
  | orNone s =>
      simp only [resume]
      split
      · exact (twin.emit _).answer _
      · exact twin.go trivial
  | orElse s fallback =>
      simp only [resume]
      split
      · exact (twin.emit _).run _ (by simp [Apart])
      · exact twin.answer _
      · exact twin.go trivial
  | fallingBack s =>
      cases exit with
      | panicked payload => exact twin.go trivial
      | returned reply =>
          obtain ⟨made, same⟩ := twin.makeValue reply.content
          simp only [resume, same]
          exact (made.act _).answer _
  | linking s error rest handlers failures | handling s error rest failures =>
      cases exit with
      | panicked payload => exact twin.go trivial
      | returned reply =>
          simp only [resume]
          split
          · exact twin.go trivial
          · exact (twin.emit _).go trivial
  | reading announced =>
      cases exit with
      | panicked payload => exact twin.go trivial
      | returned reply => exact twin.configRead announced _
  | vanishing t rest outcome =>
      cases exit with
      | panicked payload => exact twin.go trivial
      | returned reply => exact (twin.emitAll _).go apart.2
  | releasingLate s value =>
      cases exit with
      | panicked payload => exact twin.go trivial
      | returned reply => exact (twin.emitAll _).answer _
  | expiring g =>
      simp only [resume, twin.guard]
      exact (twin.updateGuard g _).close g exit _
  | guarding g outcome =>
      cases exit with
      | panicked payload => exact twin.go trivial
      | returned reply => exact (twin.emitAll _).go trivial
  | «using» value | matched =>
      cases exit with
      | panicked payload => exact twin.go trivial
      | returned reply => exact twin.answer _
  | owning rest failures =>
      cases exit with
      | panicked payload => exact twin.go trivial
      | returned reply => exact twin.go trivial

/-! ## Steps -/

theorem Code.step_twin (twin : world.Twin sc own extra other) (id : ThreadId) (code : Code σ ν) :
    Move.Agree sc own extra (code.step world id) (code.step other id) := by
  cases code with
  | ret reply => exact twin.answer reply
  | panic payload => exact twin.go trivial
  | load next =>
      simp only [step, twin.memory]
      exact twin.run _ (by simp)
  | store memory next => exact (twin.store memory).run next (by simp)
  | note entry next => exact (twin.record _).run next (by simp)
  | attempt body next => exact twin.run body (by simp [Frame.Apart])
  | elsewhere body next =>
      have waits : (Frame.joined id next).Twin sc (.joined id next) := .same trivial
      exact .some ⟨twin.addThread, .code body, .cons waits .nil, congrArg some twin.threads⟩
  | call request next => exact twin.push (by simp [Frame.Apart]) trivial

def Thread.gives? (thread : Thread σ ν) : Option SlotId :=
  match thread.control with
  | .code _ => none
  | .task task => task.gives?

theorem World.Covers.mono {handles more : List Handle} (covers : world.Covers more)
    (fewer : handles.Sublist more) : world.Covers handles := fun s =>
  Nat.le_trans (Nat.add_le_add_left (fewer.count_le _) _) (covers s)

abbrev Thread.Agree (sc : ScopeId) (own : Scope σ ν) (extra : SlotId → Nat) :
    Option (World σ ν × Thread σ ν) → Option (World σ ν × Thread σ ν) → Prop :=
  Option.Rel fun (next, after) (later, alike) => next.Twin sc own extra later ∧ after.Twin sc alike

theorem Move.Agree.above {move change : Option (Move σ ν)}
    (agree : Move.Agree sc own extra move change) {thread alike : Thread σ ν}
    {stack others : List (Frame σ ν)} (same : alike.id = thread.id)
    (below : List.Forall₂ (Frame.Twin sc) stack others) :
    Thread.Agree sc own extra (move.map fun move => (move.world, thread.after move stack))
      (change.map fun move => (move.world, alike.after move others)) := by
  cases agree with
  | none => exact .none
  | some twin =>
      refine .some ⟨twin.world, ?_, twin.control, List.rel_append twin.frames below⟩
      rw [Thread.after, Thread.after, same, twin.thread]

theorem Thread.step_twin {thread alike : Thread σ ν} (twin : world.Twin sc own extra other)
    (same : thread.Twin sc alike)
    (unused : ∀ call, thread.control = .task (.start call) → call.scope? ≠ some sc)
    (covers : world.Covers thread.holdings) (lasts : world.Lasts extra thread.gives?) :
    Thread.Agree sc own extra (thread.step world) (alike.step other) := by
  obtain ⟨id, control, stack⟩ := thread
  obtain ⟨id', control', stack'⟩ := alike
  obtain ⟨rfl, tasks, below⟩ := same
  have covers := covers.mono (List.sublist_append_left _ _)
  cases tasks with
  | code code => exact (code.step_twin twin id').above rfl below
  | @task work change tasks =>
      cases tasks with
      | batch ran failures apart jobs =>
          exact (Task.batch_twin twin id' ran failures apart jobs).above rfl below
      | same apart =>
          have agree := Task.step_twin twin id' apart
            (fun call starting => unused call (congrArg Control.task starting)) covers lasts
          cases work with
          | finish exit =>
              cases below with
              | nil => exact .none
              | cons top below =>
                  cases top with
                  | same apart => exact (Frame.resume_twin twin exit apart).above rfl below
                  | tearing ran failures apart jobs =>
                      have goes := Control.Twin.task (.batch ran (failures ++ exit.failure?.toList)
                        apart jobs)
                      exact .some ⟨twin, rfl, goes, below⟩
          | _ => exact agree.above rfl below

/-! ## Runs -/

theorem World.lives_of_discardSlot {s t : SlotId} (lives : (world.discardSlot s).Lives (.slot t)) :
    world.Lives (.slot t) := by
  unfold World.discardSlot at lives
  split at lives
  · simp only [World.Lives, World.slot_emit, World.slot_act, World.slot_updateSlot] at lives ⊢
    split at lives <;> exact lives
  · exact lives

namespace Thread

/-- Wherever the thread gets, it does not call for the scope, and the given slots have not died. -/
structure Heeds (sc : ScopeId) (kept : List SlotId) (world : World σ ν) (thread : Thread σ ν) :
    Prop where
  unused : ∀ next after call, Reaches world thread next after →
    after.control = .task (.start call) → call.scope? ≠ some sc
  alive : ∀ next after, Reaches world thread next after → ∀ s ∈ kept, next.Lives (.slot s)

namespace Heeds

variable {kept : List SlotId} {next : World σ ν} {thread alike after : Thread σ ν}

theorem later (heeds : Heeds sc kept world thread) (run : Reaches world thread next after) :
    Heeds sc kept next after :=
  ⟨fun _ _ call further => heeds.unused _ _ call (run.trans further),
    fun _ _ further => heeds.alive _ _ (run.trans further)⟩

theorem of_above {base : List (Frame σ ν)} (heeds : Heeds sc kept world (thread.above base)) :
    Heeds sc kept world thread :=
  ⟨fun _ after call run => heeds.unused _ (after.above base) call (run.above base),
    fun _ _ run => heeds.alive _ _ (run.above base)⟩

theorem lasts (heeds : Heeds sc kept world thread) (few : ∀ s, extra s ≠ 0 → s ∈ kept) :
    world.Lasts extra thread.gives? := by
  intro s gives more
  obtain ⟨id, control, stack⟩ := thread
  by_contra last
  rw [Bool.not_eq_false] at last
  cases control with
  | code code => contradiction
  | task work =>
      simp only [gives?, Task.gives?] at gives
      split at gives
      · next t rest exit =>
          obtain rfl := Option.some.inj gives
          have dies : step world ⟨id, .task (.letGo (.slot t :: rest) exit), stack⟩ =
              some ((world.relinquish (.slot t)).discardSlot t, ⟨id, .task (.letGo
                (((world.relinquish (.slot t)).slot t).held ++ rest) exit), stack⟩) := by
            simp only [step, Task.step, last]
            rfl
          have alive := heeds.alive _ _ (.step dies (.refl _ _)) t (few t more)
          rw [World.unheld_slot] at last
          exact absurd (World.lives_of_discardSlot alive) (Nat.not_lt_of_le (Nat.le_of_eq last))
      · contradiction

theorem advance (heeds : Heeds sc kept world thread) (few : ∀ s, extra s ≠ 0 → s ∈ kept)
    (held : Held world thread) (twin : world.Twin sc own extra other) (same : thread.Twin sc alike)
    (steps : Nat) :
    (Thread.advance steps world thread).1.Twin sc own extra
        (Thread.advance steps other alike).1 ∧
      (Thread.advance steps world thread).2.Twin sc (Thread.advance steps other alike).2 := by
  induction steps generalizing world other thread alike with
  | zero => exact ⟨twin, same⟩
  | succ steps ih =>
      have agree := step_twin twin same (fun call => heeds.unused _ _ call (.refl _ _)) held.covers
        (heeds.lasts few)
      cases action : thread.step world with
      | none =>
          rw [action] at agree
          generalize matched : alike.step other = step at agree
          cases agree
          simp only [Thread.advance, action, matched]
          exact ⟨twin, same⟩
      | some reached =>
          rw [action] at agree
          generalize matched : alike.step other = step at agree
          cases agree with
          | some agree =>
              simp only [Thread.advance, action, matched]
              exact ih (heeds.later (.step action (.refl _ _))) (held.step action) agree.1 agree.2

end Heeds

end Thread

theorem Thread.Twin.exit? {thread alike : Thread σ ν} (same : thread.Twin sc alike) :
    alike.exit? = thread.exit? := by
  obtain ⟨id, control, stack⟩ := thread
  obtain ⟨id', control', stack'⟩ := alike
  obtain ⟨-, tasks, below⟩ := same
  cases below with
  | cons => cases tasks <;> simp [Thread.exit?]
  | nil =>
      cases tasks with
      | code => rfl
      | task tasks => cases tasks <;> rfl

theorem Thread.Twin.finished {thread alike : Thread σ ν} (same : thread.Twin sc alike)
    (id : ThreadId) (exit : Exit) :
    thread = ⟨id, .task (.finish exit), []⟩ ↔ alike = ⟨id, .task (.finish exit), []⟩ := by
  have ended (thread : Thread σ ν) :
      thread = ⟨id, .task (.finish exit), []⟩ ↔ thread.id = id ∧ thread.exit? = some exit := by
    constructor
    · rintro rfl
      exact ⟨rfl, rfl⟩
    · rintro ⟨rfl, ended⟩
      exact Thread.exit?_eq_some ended
  rw [ended, ended, same.id, same.exit?]

section Ends

variable {kept : List SlotId} {id : ThreadId} {control : Control σ ν} {exit : Exit}
  {next later : World σ ν} (heeds : Thread.Heeds sc kept world ⟨id, control, []⟩)
  (few : ∀ s, extra s ≠ 0 → s ∈ kept) (held : Held world ⟨id, control, []⟩)
  (twin : world.Twin sc own extra other) (same : control.Twin sc control)

include heeds few held twin same

theorem Ends.twins (run : Ends id world control exit next) :
    ∃ later, Ends id other control exit later ∧ next.Twin sc own extra later := by
  obtain ⟨steps, run⟩ := run
  obtain ⟨worlds, threads⟩ := heeds.advance few held twin ⟨rfl, same, .nil⟩ steps
  rw [run] at worlds threads
  exact ⟨_, ⟨steps, Prod.ext rfl ((threads.finished id exit).mp rfl)⟩, worlds⟩

theorem Ends.of_twins (run : Ends id other control exit later) :
    ∃ next, Ends id world control exit next ∧ next.Twin sc own extra later := by
  obtain ⟨steps, run⟩ := run
  obtain ⟨worlds, threads⟩ := heeds.advance few held twin ⟨rfl, same, .nil⟩ steps
  rw [run] at worlds threads
  exact ⟨_, ⟨steps, Prod.ext rfl ((threads.finished id exit).mpr rfl)⟩, worlds⟩

end Ends

end Relinquish
