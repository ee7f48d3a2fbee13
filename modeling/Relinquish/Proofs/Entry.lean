import Relinquish.Proofs.Recall
import Relinquish.Proofs.Runs
import Mathlib.Data.List.Count

/-!
The entries of slots. Whoever looks for a slot's value a second time, produces it or brings it in
keeps the right to initialize the slot, as often as it has entered; and runs of the initializer begin
and end only there.
-/

namespace Relinquish

variable {σ ν : Type}

/-! ## Trials -/

/-- What the history says of the runs of a slot's initializer. -/
inductive Trial where
  | begun
  | ended (exit : Exit)

def Mark.trial? (s : SlotId) : Mark ν → Option Trial
  | .act (.initializerStarted t) => if t = s then some .begun else none
  | .act (.initializerEnded t exit) => if t = s then some (.ended exit) else none
  | _ => none

/-- The trials of a slot, newest first. -/
def World.trials (world : World σ ν) (s : SlotId) : List Trial :=
  world.history.filterMap (Mark.trial? s)

structure Entry where
  entered : Option (ThreadId × Nat)
  initializing : Bool
  trials : List Trial

def World.entry (world : World σ ν) (s : SlotId) : Entry where
  entered := (world.slot s).entered
  initializing := (world.slot s).initializing
  trials := world.trials s

namespace World

variable (world : World σ ν)

@[simp] theorem trials_record (mark : Mark ν) (t : SlotId) :
    (world.record mark).trials t = (mark.trial? t).toList ++ world.trials t :=
  world.recollect_record (Mark.trial? t) mark

@[simp] theorem entry_record (mark : Mark ν) (t : SlotId) :
    (world.record mark).entry t =
      { world.entry t with trials := (mark.trial? t).toList ++ world.trials t } := by
  rw [entry, trials_record]
  rfl

@[simp] theorem entry_act (act : Act) (t : SlotId) :
    (world.act act).entry t =
      { world.entry t with
        trials := (Mark.trial? t (.act act : Mark ν)).toList ++ world.trials t } :=
  world.entry_record (.act act) t

@[simp] theorem entry_emit (event : Event) (t : SlotId) :
    (world.emit event).entry t = world.entry t :=
  world.entry_record (.event event) t

@[simp] theorem entry_emitAll (events : List Event) (t : SlotId) :
    (world.emitAll events).entry t = world.entry t :=
  world.foldl_same (·.entry t) emit (fun world event => world.entry_emit event t) events

theorem entry_actAll {acts : List Act}
    (silent : ∀ act ∈ acts, ∀ t, Mark.trial? t (.act act : Mark ν) = none) (t : SlotId) :
    (world.actAll acts).entry t = world.entry t := by
  refine world.foldl_same_of_mem (·.entry t) World.act fun world act member => ?_
  rw [entry_act, silent act member]
  rfl

@[simp] theorem entry_mk (memory : σ) (scopes : Table (Scope σ ν))
    (accessors : Table (Option (Accessor σ ν))) (guards : Table (Guard σ ν))
    (parcels : Table (Option (Droppable σ ν))) (registries : Table (Registry σ ν Int))
    (locks : List (Lock × ThreadId)) (values actions threads : Nat) (t : SlotId) :
    entry
      ⟨memory, world.slots, scopes, accessors, guards, parcels, registries, locks, values, actions,
        threads, world.history⟩ t = world.entry t := rfl

theorem entry_updateSlot (s t : SlotId) (change : Slot σ ν → Slot σ ν) :
    (world.updateSlot s change).entry t =
      if s = t then
        ⟨(change (world.slot s)).entered, (change (world.slot s)).initializing, world.trials s⟩
      else world.entry t := by
  rw [entry, slot_updateSlot]
  split
  · next equal =>
      subst equal
      rfl
  · rfl

theorem entry_reslot (s t : SlotId) {change : Slot σ ν → Slot σ ν}
    (entered : ∀ slot, (change slot).entered = slot.entered)
    (initializing : ∀ slot, (change slot).initializing = slot.initializing) :
    (world.updateSlot s change).entry t = world.entry t := by
  rw [entry_updateSlot, entered, initializing]
  split
  · next equal => rw [equal]; rfl
  · rfl

theorem entry_try (s t : SlotId) (change : Slot σ ν → Slot σ ν) {act : Act} {trial : Trial}
    (tries : ∀ t, Mark.trial? t (.act act : Mark ν) = if s = t then some trial else none) :
    ((world.updateSlot s change).act act).entry t =
      if s = t then
        ⟨(change (world.slot s)).entered, (change (world.slot s)).initializing,
          trial :: world.trials s⟩
      else world.entry t := by
  rw [entry_act, entry_updateSlot, tries]
  by_cases equal : s = t
  · subst equal
    simp only [if_true]
    rfl
  · simp only [if_neg equal]
    rfl

@[simp] theorem entry_updateScope (sc : ScopeId) (change : Scope σ ν → Scope σ ν) (t : SlotId) :
    (world.updateScope sc change).entry t = world.entry t := rfl

@[simp] theorem entry_updateGuard (g : GuardId) (change : Guard σ ν → Guard σ ν) (t : SlotId) :
    (world.updateGuard g change).entry t = world.entry t := rfl

@[simp] theorem entry_addScope (scope : Scope σ ν) (t : SlotId) :
    (world.addScope scope).1.entry t = world.entry t := rfl

@[simp] theorem entry_addAccessor (accessor : Accessor σ ν) (t : SlotId) :
    (world.addAccessor accessor).1.entry t = world.entry t := rfl

@[simp] theorem entry_addGuard (guard : Guard σ ν) (t : SlotId) :
    (world.addGuard guard).1.entry t = world.entry t := rfl

@[simp] theorem entry_addParcel (droppable : Droppable σ ν) (t : SlotId) :
    (world.addParcel droppable).1.entry t = world.entry t := rfl

@[simp] theorem entry_addRegistry (registry : Registry σ ν Int) (t : SlotId) :
    (world.addRegistry registry).1.entry t = world.entry t := rfl

theorem entry_addSlot (t : SlotId) {slot : Slot σ ν} (entered : slot.entered = none)
    (initializing : slot.initializing = false) :
    (world.addSlot slot).1.entry t = world.entry t := by
  rw [entry, slot_addSlot]
  split
  · next fresh =>
      rw [entered, initializing, fresh, entry, World.slot, Table.get_size]
      rfl
  · rfl

@[simp] theorem entry_makeSlot (release : Value → Code σ ν) (initializer : Code σ ν) (t : SlotId) :
    (world.makeSlot release initializer).1.entry t = world.entry t :=
  world.entry_addSlot t rfl rfl

@[simp] theorem entry_retain (handle : Handle) (t : SlotId) :
    (world.retain handle).entry t = world.entry t := by
  cases handle with
  | slot s => exact world.entry_reslot s t (fun _ => rfl) fun _ => rfl
  | scope sc => rfl

@[simp] theorem entry_retainAll (handles : List Handle) (t : SlotId) :
    (world.retainAll handles).entry t = world.entry t :=
  world.foldl_same (·.entry t) retain (fun world handle => world.entry_retain handle t) handles

@[simp] theorem entry_surrender (handle : Handle) (t : SlotId) :
    (world.surrender handle).entry t = world.entry t := by
  cases handle with
  | slot s => exact world.entry_reslot s t (fun _ => rfl) fun _ => rfl
  | scope sc => rfl

@[simp] theorem entry_relinquish (handle : Handle) (t : SlotId) :
    (world.relinquish handle).entry t = world.entry t := by
  cases handle with
  | slot s => exact world.entry_reslot s t (fun _ => rfl) fun _ => rfl
  | scope sc => rfl

@[simp] theorem entry_handOver (s t : SlotId) : (world.handOver s).entry t = world.entry t :=
  world.entry_reslot s t (fun _ => rfl) fun _ => rfl

@[simp] theorem entry_addAction (sc : ScopeId) (job : Job σ ν) (t : SlotId) :
    (world.addAction sc job).entry t = world.entry t := by
  rw [addAction, entry_act]
  rfl

@[simp] theorem entry_adopt (sc : ScopeId) (s t : SlotId) :
    (world.adopt sc s).entry t = world.entry t := by
  rw [adopt, entry_addAction, entry_retain]

@[simp] theorem entry_discardPending (sc : ScopeId) (t : SlotId) :
    (world.discardPending sc).entry t = world.entry t := by
  have silent : ∀ act ∈ (world.scope sc).pending.map fun action => Act.discarded sc action.id,
      ∀ t, Mark.trial? t (.act act : Mark ν) = none := by
    intro act member t
    obtain ⟨action, _, rfl⟩ := List.mem_map.mp member
    rfl
  simp [discardPending_eq, entry_actAll _ silent]

@[simp] theorem entry_discardSlot (s t : SlotId) :
    (world.discardSlot s).entry t = world.entry t := by
  unfold discardSlot
  split
  · have emptied : (world.updateSlot s fun slot => { slot with value := none }).entry t =
        world.entry t := world.entry_reslot s t (fun _ => rfl) fun _ => rfl
    rw [entry_emit, entry_act]
    exact emptied
  · rfl

@[simp] theorem entry_copySlot (s t : SlotId) :
    (world.copySlot s).1.entry t = world.entry t := by
  have silent (places : List Nat) (act : Nat → Act)
      (quiet : ∀ place t, Mark.trial? t (.act (act place) : Mark ν) = none) :
      ∀ a ∈ places.map act, ∀ t, Mark.trial? t (.act a : Mark ν) = none := by
    intro a member t
    obtain ⟨place, _, rfl⟩ := List.mem_map.mp member
    exact quiet place t
  unfold copySlot
  simp only
  rw [entry_actAll _ (silent _ _ fun _ _ => rfl), entry_actAll _ (silent _ _ fun _ _ => rfl)]
  refine (World.entry_retainAll _ _ t).trans ?_
  apply entry_addSlot <;> rfl

end World

/-! ## Who keeps the right to initialize -/

def Task.kept : Task σ ν → List SlotId
  | lookAgain s | produce s | lockValue s _ | confirm s _ | store s _ => [s]
  | unlockValue _ next => next.kept
  | leave s next => s :: next.kept
  | _ => []

def Control.kept : Control σ ν → List SlotId
  | .code _ => []
  | .task work => work.kept

def Frame.kept : Frame σ ν → List SlotId
  | initializing s => [s]
  | _ => []

def Move.kept (move : Move σ ν) : List SlotId :=
  move.control.kept ++ move.frames.flatMap Frame.kept

/-- What a step from some control and top frame to another control does to entries, between the slots
of which the right to initialize is kept before and after. -/
inductive Passes (id : ThreadId) (world next : World σ ν) (control : Control σ ν)
    (top : Option (Frame σ ν)) (after : Control σ ν) : List SlotId → List SlotId → Prop
  | quiet {kept : List SlotId} (same : ∀ t, next.entry t = world.entry t) :
      Passes id world next control top after kept kept
  | enters {s : SlotId} {depth : Nat}
      (admits : (world.slot s).entered = none ∧ depth = 0 ∨ (world.slot s).entered = some (id, depth))
      (entry : ∀ t, next.entry t =
        if s = t then { world.entry s with entered := some (id, depth + 1) } else world.entry t) :
      Passes id world next control top after [] [s]
  | leaves {s : SlotId} {kept : List SlotId}
      (entry : ∀ t, next.entry t =
        if s = t then
          { world.entry s with
            entered := (world.entry s).entered.bind fun (owner, depth) =>
              if depth ≤ 1 then none else some (owner, depth - 1) }
        else world.entry t) :
      Passes id world next control top after (s :: kept) kept
  | begins {s : SlotId} (work : control = .task (.produce s))
      (undropped : (world.slot s).dropped = false)
      (entry : ∀ t, next.entry t =
        if s = t then
          { world.entry s with initializing := true, trials := .begun :: world.trials s }
        else world.entry t) :
      Passes id world next control top after [s] [s]
  | ends {s : SlotId} {exit : Exit} (ended : top = some (.initializing s))
      (entry : ∀ t, next.entry t =
        if s = t then
          { world.entry s with initializing := false, trials := .ended exit :: world.trials s }
        else world.entry t)
      (carries : exit.failure? = none → ∃ value, after = .task (.lockValue s value)) :
      Passes id world next control top after [s] [s]

theorem Passes.tries {id : ThreadId} {world next : World σ ν} {control after : Control σ ν}
    {top : Option (Frame σ ν)} {before kept : List SlotId}
    (passes : Passes id world next control top after before kept) (t : SlotId) :
    ((next.slot t).initializing = (world.slot t).initializing ∧ next.trials t = world.trials t) ∨
    (control = .task (.produce t) ∧ (world.slot t).dropped = false ∧
      (next.slot t).initializing = true ∧ next.trials t = .begun :: world.trials t) ∨
    (∃ exit, top = some (.initializing t) ∧ (next.slot t).initializing = false ∧
      next.trials t = .ended exit :: world.trials t ∧
      (exit.failure? = none → ∃ value, after = .task (.lockValue t value))) := by
  have read {entry : Entry} (is : next.entry t = entry) :
      (next.slot t).initializing = entry.initializing ∧ next.trials t = entry.trials :=
    ⟨congrArg Entry.initializing is, congrArg Entry.trials is⟩
  cases passes with
  | quiet same => exact .inl (read (same t))
  | @enters s depth admits entry =>
      have entry := entry t
      split at entry
      · next equal => exact .inl (equal ▸ read entry)
      · exact .inl (read entry)
  | @leaves s _ entry =>
      have entry := entry t
      split at entry
      · next equal => exact .inl (equal ▸ read entry)
      · exact .inl (read entry)
  | @begins s work undropped entry =>
      by_cases equal : s = t
      · subst equal
        have entry := entry s
        rw [if_pos rfl] at entry
        exact .inr (.inl ⟨work, undropped, read entry⟩)
      · have entry := entry t
        rw [if_neg equal] at entry
        exact .inl (read entry)
  | @ends s exit ended entry carries =>
      by_cases equal : s = t
      · subst equal
        have entry := entry s
        rw [if_pos rfl] at entry
        have ⟨initializing, trials⟩ := read entry
        exact .inr (.inr ⟨exit, ended, initializing, trials, carries⟩)
      · have entry := entry t
        rw [if_neg equal] at entry
        exact .inl (read entry)

def Move.Passes (id : ThreadId) (world : World σ ν) (control : Control σ ν) (top : Option (Frame σ ν))
    (kept : List SlotId) (move : Move σ ν) : Prop :=
  Relinquish.Passes id world move.world control top move.control kept move.kept

def Move.Stands (world : World σ ν) (kept : List SlotId) (move : Move σ ν) : Prop :=
  (∀ t, move.world.entry t = world.entry t) ∧ move.kept = kept

theorem Call.start_stands (world : World σ ν) (call : Call σ ν) :
    Ensures (call.start world) (Move.Stands world []) := by
  cases call <;> simp only [start]
  case access =>
    split
    · unfold Accessor.frame
      split <;> simp [Move.Stands, Move.kept, Control.kept, Task.kept, Frame.kept]
    · simp [Move.Stands, Move.kept, Control.kept, Task.kept]
  case dropAccessed | forgetAccessor | dispose | forgetParcel | matchKind =>
    split <;> simp [Move.Stands, Move.kept, Control.kept, Task.kept, Frame.kept]
  case dropThrough | releaseGuard | disarmGuard | forgetGuard =>
    simp only [Ensures.whenConsumable_iff, Ensures.ite_iff, Guard.close]
    split <;> simp [Move.Stands, Move.kept, Control.kept, Task.kept, Frame.kept]
  case cloneHandle s =>
    simp [Move.Stands, Move.kept, Control.kept, Task.kept, World.entry_reslot]
  case dropOnError s kind droppable =>
    have linked (t : SlotId) : ((world.retainAll droppable.handles).updateSlot s fun slot =>
        { slot with links := slot.links.register kind droppable }).entry t = world.entry t := by
      refine (World.entry_reslot _ s t ?_ ?_).trans (world.entry_retainAll _ t) <;> exact fun _ => rfl
    simp only [Ensures.whenUsable_iff, Ensures.whenFree_iff, Ensures.answer_iff]
    exact ⟨fun _ _ => ⟨linked, rfl⟩, fun _ => ⟨fun _ => rfl, rfl⟩⟩
  case callOnError s kind handler =>
    have registered (t : SlotId) : (world.updateSlot s fun slot =>
        { slot with handlers := slot.handlers.register kind handler }).entry t = world.entry t :=
      world.entry_reslot s t (fun _ => rfl) fun _ => rfl
    simp only [Ensures.whenUsable_iff, Ensures.whenFree_iff, Ensures.answer_iff]
    exact ⟨fun _ _ => ⟨registered, rfl⟩, fun _ => ⟨fun _ => rfl, rfl⟩⟩
  all_goals
    simp [Move.Stands, Move.kept, Control.kept, Task.kept, Frame.kept]

theorem Move.Stands.passes {world : World σ ν} {kept : List SlotId} {move : Move σ ν}
    (stands : move.Stands world kept) (id : ThreadId) (control : Control σ ν)
    (top : Option (Frame σ ν)) : move.Passes id world control top kept := by
  rw [Move.Passes, stands.2]
  exact .quiet stands.1

theorem Task.step_passes (world : World σ ν) (id : ThreadId) (task : Task σ ν) :
    Ensures (task.step world id) (Move.Passes id world (.task task) none task.kept) := by
  have rests {kept : List SlotId} {move : Move σ ν} (same : ∀ t, move.world.entry t = world.entry t)
      (keeps : move.kept = kept) : move.Passes id world (.task task) none kept :=
    Move.Stands.passes ⟨same, keeps⟩ id _ _
  have alone (next : World σ ν) (work : Task σ ν) :
      ({ world := next, control := .task work } : Move σ ν).kept = work.kept :=
    List.append_nil _
  cases task with
  | start call => exact (call.start_stands world).imp fun _ stands => stands.passes id _ _
  | letGo handles exit =>
      have gone := world.entry_relinquish
      refine .letGo (fun _ => rests (fun _ => rfl) rfl) (fun handle _ _ _ => rests (gone handle) rfl)
        (fun s _ _ _ => rests (fun t => ?_) rfl) fun sc _ _ => rests (gone (.scope sc)) rfl
      exact (World.entry_discardSlot _ s t).trans (gone (.slot s) t)
  | enter s =>
      simp only [step, Ensures.bind_iff, Ensures.ite_iff, Ensures.go_iff]
      intro entered action
      obtain ⟨depth, admits, rfl⟩ := world.enterSlot_eq action
      have enters (after : Control σ ν) :
          Passes id world (world.updateSlot s fun slot => { slot with entered := some (id, depth + 1) })
            (.task (.enter s)) none after [] [s] :=
        .enters admits fun t => by
          rw [World.entry_updateSlot]
          rfl
      exact ⟨fun _ => enters _, fun _ => enters _⟩
  | leave s following =>
      simp only [step, Ensures.go_iff]
      rw [Move.Passes, alone]
      exact .leaves fun t => by
        rw [World.leaveSlot, World.entry_updateSlot]
        rfl
  | unlockValue s following =>
      simp only [step, Ensures.go_iff]
      exact rests (fun _ => rfl) (alone _ _)
  | produce s =>
      simp only [step, Ensures.ite_iff, Ensures.go_iff, Ensures.run_iff, Bool.not_eq_true]
      exact ⟨fun _ => rests (fun _ => rfl) rfl,
        fun undropped => .begins rfl undropped fun t => world.entry_try s t _ fun _ => rfl⟩
  | store s value =>
      have stored (t : SlotId) : (world.updateSlot s fun slot =>
          { slot with value := some value }).entry t = world.entry t :=
        world.entry_reslot s t (fun _ => rfl) fun _ => rfl
      simp only [step, Ensures.go_iff]
      exact rests (fun t => (World.entry_emit _ _ t).trans (stored t)) rfl
  | swap s =>
      have marked (t : SlotId) : (world.updateSlot s fun slot =>
          { slot with dropped := true }).entry t = world.entry t :=
        world.entry_reslot s t (fun _ => rfl) fun _ => rfl
      simp only [step, Ensures.ite_iff, Ensures.go_iff, Ensures.endDrop_iff]
      exact ⟨fun _ => rests (fun _ => rfl) rfl, fun _ => rests marked rfl⟩
  | take s =>
      have emptied (t : SlotId) : (world.updateSlot s fun slot =>
          { slot with value := none }).entry t = world.entry t :=
        world.entry_reslot s t (fun _ => rfl) fun _ => rfl
      simp only [step, Ensures.whenFree_iff]
      intro _
      split
      · rw [Ensures.run_iff]
        exact rests emptied rfl
      · rw [Ensures.endDrop_iff]
        exact rests (fun _ => rfl) rfl
  | deliver made =>
      simp only [step, Ensures.answer_iff]
      exact rests (fun t => world.entry_handOver made t) rfl
  | look s | lookAgain s | copyValue s made cloner =>
      simp only [step, Ensures.whenFree_iff]
      intro _
      split <;> simp only [Ensures.answer_iff, Ensures.go_iff, Ensures.run_iff] <;>
        exact rests (fun _ => rfl) rfl
  | copy s cloner =>
      simp only [step, Ensures.whenFree_iff]
      intro _
      split <;> rw [Ensures.go_iff] <;> exact rests (fun t => world.entry_copySlot s t) rfl
  | sift selection error rest places =>
      cases rest <;> simp only [step, Ensures.proceed_iff, Ensures.ask_iff]
      · exact ⟨fun _ _ => rests (fun _ => rfl) rfl, fun _ _ _ => rests (fun _ => rfl) rfl,
          fun _ _ => rests (fun _ => rfl) rfl⟩
      · exact ⟨fun _ => rests (fun _ => rfl) rfl, fun _ => rests (fun _ => rfl) rfl,
          fun _ _ => rests (fun _ => rfl) rfl⟩
  | links s error rest | handlers s error rest =>
      cases rest <;> simp only [step, Ensures.go_iff, Ensures.push_iff, Ensures.answer_iff,
        Ensures.run_iff] <;> exact rests (fun _ => rfl) rfl
  | dispose droppable =>
      cases droppable <;> simp only [step, Ensures.go_iff, Ensures.answer_iff, Ensures.run_iff] <;>
        exact rests (fun _ => rfl) rfl
  | disposeAll rest failures =>
      cases rest <;> simp only [step, Ensures.answer_iff, Ensures.push_iff]
      · split <;> exact rests (fun _ => rfl) rfl
      · exact rests (fun _ => rfl) rfl
  | drain sc ran failures =>
      simp only [step]
      split <;> rw [Ensures.go_iff] <;> exact rests (fun _ => rfl) rfl
  | batch sc rest ran failures =>
      cases rest with
      | nil =>
          simp only [step, Ensures.go_iff]
          exact rests (fun _ => rfl) rfl
      | cons action rest =>
          simp only [step]
          split <;> simp only [Ensures.run_iff, Ensures.push_iff] <;> exact rests (fun _ => rfl) rfl
  | report sc ran failures =>
      simp only [step, Ensures.answer_iff]
      exact rests (fun t => by simp) rfl
  | finish exit => simp [step]
  | consult selection error | lockValue s value =>
      simp only [step, Ensures.whenFree_iff, Ensures.go_iff]
      exact fun _ => rests (fun _ => rfl) rfl
  | confirm s value =>
      simp only [step, Ensures.ite_iff, Ensures.go_iff]
      exact ⟨fun _ => rests (fun _ => rfl) rfl, fun _ => rests (fun _ => rfl) rfl⟩
  | releaseLate s value =>
      simp only [step, Ensures.run_iff]
      exact rests (fun _ => rfl) rfl

theorem Frame.resume_passes (world : World σ ν) (id : ThreadId) (exit : Exit) (frame : Frame σ ν) :
    Ensures (frame.resume world exit)
      (Move.Passes id world (.task (.finish exit)) (some frame) frame.kept) := by
  have rests {kept : List SlotId} {move : Move σ ν} {top : Option (Frame σ ν)}
      (same : ∀ t, move.world.entry t = world.entry t) (keeps : move.kept = kept) :
      move.Passes id world (.task (.finish exit)) top kept :=
    Move.Stands.passes ⟨same, keeps⟩ id _ _
  cases frame with
  | initializing s =>
      have tried (t : SlotId) : ((world.updateSlot s fun slot =>
          { slot with initializing := false }).act (.initializerEnded s exit)).entry t =
            if s = t then ⟨(world.slot s).entered, false, .ended exit :: world.trials s⟩
            else world.entry t :=
        world.entry_try s t _ fun _ => rfl
      simp only [resume, Ensures.initializerEnded_iff]
      refine ⟨?_, ?_⟩
      · rintro payload rfl
        refine .ends rfl tried fun succeeds => ?_
        contradiction
      · rintro reply rfl
        refine ⟨fun error failed => ?_, fun _ => .ends rfl tried fun _ => ⟨_, rfl⟩⟩
        refine .ends rfl tried fun succeeds => ?_
        rw [Exit.failure?, failed] at succeeds
        contradiction
  | cloning copy =>
      have given (value : Value) (t : SlotId) : (world.updateSlot copy fun slot =>
          { slot with value := some value }).entry t = world.entry t :=
        world.entry_reslot copy t (fun _ => rfl) fun _ => rfl
      cases exit <;> simp only [resume, Ensures.go_iff]
      · exact rests (given _) rfl
      · exact rests (fun _ => rfl) rfl
  | vanishing | releasingLate | guarding | closing =>
      cases exit <;> simp only [resume, Ensures.go_iff, Ensures.answer_iff]
      · exact rests (fun t => by simp) rfl
      · exact rests (fun _ => rfl) rfl
  | linking | handling =>
      cases exit <;> simp only [resume]
      · split <;> rw [Ensures.go_iff] <;> exact rests (fun _ => rfl) rfl
      · rw [Ensures.go_iff]
        exact rests (fun _ => rfl) rfl
  | getting | orNone | orElse | expiring =>
      simp only [resume, Guard.close]
      split <;> simp only [Ensures.run_iff, Ensures.push_iff, Ensures.go_iff, Ensures.answer_iff] <;>
        exact rests (fun _ => rfl) rfl
  | reading announced =>
      cases exit <;> simp only [resume]
      · exact .configRead fun _ events _ => rests (world.entry_emitAll events) rfl
      · rw [Ensures.go_iff]
        exact rests (fun _ => rfl) rfl
  | _ =>
      cases exit <;> simp only [resume, Ensures.run_iff, Ensures.go_iff, Ensures.answer_iff,
        Ensures.some_iff, Ensures.push_iff, Ensures.endDrop_iff] <;> exact rests (fun _ => rfl) rfl

/-- As which threads a stack keeps the right to initialize the slot, under a thread. -/
def keepers (s : SlotId) : ThreadId → List (Frame σ ν) → List ThreadId
  | _, [] => []
  | id, frame :: rest =>
      List.replicate (frame.kept.count s) id ++ keepers s (frame.starter?.getD id) rest

def Thread.keepers (thread : Thread σ ν) (s : SlotId) : List ThreadId :=
  List.replicate (thread.control.kept.count s) thread.id ++
    Relinquish.keepers s thread.id thread.stack

theorem keepers_append (s : SlotId) (id : ThreadId) {frames : List (Frame σ ν)}
    (stack : List (Frame σ ν)) (within : frames.filterMap Frame.starter? = []) :
    keepers s id (frames ++ stack) =
      List.replicate ((frames.flatMap Frame.kept).count s) id ++ keepers s id stack := by
  induction frames with
  | nil => rfl
  | cons frame rest ih =>
      cases starter : frame.starter? with
      | some other => simp [starter] at within
      | none =>
          rw [List.filterMap_cons, starter] at within
          rw [List.cons_append, keepers, starter, Option.getD_none, ih within, List.flatMap_cons,
            List.count_append, ← List.replicate_append_replicate, List.append_assoc]

def Thread.top? (thread : Thread σ ν) : Option (Frame σ ν) :=
  match thread.control with
  | .task (.finish _) => thread.stack.head?
  | _ => none

theorem Move.keepers (s : SlotId) (id : ThreadId) (stack : List (Frame σ ν)) {move : Move σ ν}
    (stays : move.Stays) :
    Thread.keepers ⟨move.thread.getD id, move.control, move.frames ++ stack⟩ s =
      List.replicate (move.kept.count s) id ++ Relinquish.keepers s id stack := by
  rw [Thread.keepers, stays.1, Option.getD_none, keepers_append s id stack stays.2, Move.kept,
    List.count_append, ← List.replicate_append_replicate, List.append_assoc]

theorem Thread.step_passes {world next : World σ ν} {thread after : Thread σ ν}
    (action : thread.step world = some (next, after)) :
    ∃ (before kept : List SlotId) (rest : SlotId → List ThreadId),
      (∀ s, thread.keepers s = List.replicate (before.count s) thread.id ++ rest s) ∧
      (∀ s, after.keepers s = List.replicate (kept.count s) thread.id ++ rest s) ∧
      Passes thread.id world next thread.control thread.top? after.control before kept := by
  refine step_rule (fun thread next after =>
    ∃ (before kept : List SlotId) (rest : SlotId → List ThreadId),
      (∀ s, thread.keepers s = List.replicate (before.count s) thread.id ++ rest s) ∧
      (∀ s, after.keepers s = List.replicate (kept.count s) thread.id ++ rest s) ∧
      Passes thread.id world next thread.control thread.top? after.control before kept)
    ?_ ?_ ?_ action
  · intro id code stack move made
    have same : ∀ t, move.world.entry t = world.entry t := by
      cases code <;> simp only [Code.step] at made <;> obtain rfl := Option.some.inj made <;>
        exact fun _ => rfl
    refine ⟨[], [], fun s => Relinquish.keepers s id stack, fun _ => rfl, fun s => ?_, .quiet same⟩
    cases code <;> simp only [Code.step] at made <;> obtain rfl := Option.some.inj made <;> rfl
  · intro id task stack move made
    refine ⟨task.kept, move.kept, fun s => Relinquish.keepers s id stack, fun _ => rfl, fun s => ?_, ?_⟩
    · exact Move.keepers s id stack (task.step_stays world id move made)
    · have top : Thread.top? ⟨id, .task task, stack⟩ = none := by
        cases task <;> first | rfl | contradiction
      rw [top]
      exact task.step_passes world id move made
  · intro id exit frame stack move made
    have passes := frame.resume_passes world id exit move made
    cases starter : frame.starter? with
    | none =>
        refine ⟨frame.kept, move.kept, fun s => Relinquish.keepers s id stack, fun s => ?_,
          fun s => ?_, passes⟩
        · rw [keepers, Relinquish.keepers, starter]
          rfl
        · exact Move.keepers s id stack (frame.resume_stays world exit move made starter)
    | some other =>
        cases frame <;> simp only [Frame.starter?, reduceCtorEq, Option.some.injEq] at starter
        subst starter
        obtain rfl := Option.some.inj made
        exact ⟨[], [], fun s => Relinquish.keepers s _ stack, fun _ => rfl, fun _ => rfl,
          .quiet fun _ => rfl⟩

/-! ## Runs -/

/-- A slot has been entered as often as somebody keeps the right to initialize it, always by the same
thread. -/
def Owned (entered : Option (ThreadId × Nat)) (keepers : List ThreadId) : Prop :=
  match entered with
  | none => keepers = []
  | some (owner, depth) => 0 < depth ∧ keepers = List.replicate depth owner

theorem Owned.enter {entered : Option (ThreadId × Nat)} {keepers : List ThreadId} {id : ThreadId}
    {depth : Nat} (owned : Owned entered keepers)
    (admits : entered = none ∧ depth = 0 ∨ entered = some (id, depth)) :
    Owned (some (id, depth + 1)) (id :: keepers) := by
  refine ⟨Nat.succ_pos depth, ?_⟩
  rcases admits with ⟨rfl, rfl⟩ | rfl
  · have none : keepers = [] := owned
    rw [none]
    rfl
  · rw [owned.2]
    rfl

theorem Owned.leave {entered : Option (ThreadId × Nat)} {keepers : List ThreadId} {id : ThreadId}
    (owned : Owned entered (id :: keepers)) :
    Owned (entered.bind fun (owner, depth) => if depth ≤ 1 then none else some (owner, depth - 1))
      keepers := by
  cases entered with
  | none => contradiction
  | some entry =>
      obtain ⟨owner, depth⟩ := entry
      obtain ⟨entered, same⟩ := owned
      obtain ⟨depth, rfl⟩ : ∃ left, depth = left + 1 := ⟨depth - 1, by omega⟩
      rw [List.replicate_succ] at same
      obtain ⟨rfl, rfl⟩ := List.cons.inj same
      cases depth with
      | zero => rfl
      | succ left => exact ⟨Nat.succ_pos left, rfl⟩

theorem Owned.perm {entered : Option (ThreadId × Nat)} {keepers others : List ThreadId}
    (owned : Owned entered keepers) (same : keepers.Perm others) : Owned entered others := by
  cases entered with
  | none =>
      obtain rfl : keepers = [] := owned
      exact same.symm.eq_nil
  | some entry =>
      obtain ⟨positive, rfl⟩ := owned
      exact ⟨positive, List.perm_replicate.mp same.symm⟩

theorem Passes.owned {id : ThreadId} {world next : World σ ν} {control after : Control σ ν}
    {top : Option (Frame σ ν)} {before kept : List SlotId} {t : SlotId} {rest : List ThreadId}
    (passes : Passes id world next control top after before kept)
    (owned : Owned (world.entry t).entered (List.replicate (before.count t) id ++ rest)) :
    Owned (next.entry t).entered (List.replicate (kept.count t) id ++ rest) := by
  cases passes with
  | quiet same => rwa [same]
  | @enters s depth admits entry =>
      rw [entry]
      by_cases equal : s = t
      · subst equal
        rw [if_pos rfl]
        simpa using owned.enter admits
      · rw [if_neg equal]
        simpa [equal] using owned
  | @leaves s _ entry =>
      rw [entry]
      by_cases equal : s = t
      · subst equal
        rw [if_pos rfl]
        rw [List.count_cons_self, List.replicate_succ, List.cons_append] at owned
        exact owned.leave
      · rw [if_neg equal]
        rwa [List.count_cons_of_ne equal] at owned
  | begins _ _ entry | ends _ entry _ =>
      rw [entry]
      split
      · next equal => exact equal ▸ owned
      · exact owned

def Kept (world : World σ ν) (thread : Thread σ ν) : Prop :=
  ∀ s, Owned (world.entry s).entered (thread.keepers s)

theorem Kept.step {world next : World σ ν} {thread after : Thread σ ν} (kept : Kept world thread)
    (action : thread.step world = some (next, after)) : Kept next after := by
  intro t
  have owned := kept t
  obtain ⟨before, keeps, rest, earlier, later, passes⟩ := Thread.step_passes action
  rw [earlier] at owned
  rw [later]
  exact passes.owned owned

theorem Kept.ofCode (memory : σ) (id : ThreadId) (code : Code σ ν) :
    Kept { memory } (.ofCode id code) :=
  fun _ => rfl

theorem Kept.advance (memory : σ) (id : ThreadId) (code : Code σ ν) (steps : Nat) :
    Kept (Thread.advance steps { memory } (.ofCode id code)).1
      (Thread.advance steps { memory } (.ofCode id code)).2 :=
  Thread.advance_rule Kept (fun _ _ _ _ kept action => kept.step action) (.ofCode memory id code) steps

end Relinquish
