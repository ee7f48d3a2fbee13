import Relinquish.Proofs.Entry
import Relinquish.Proofs.Locks

/-!
What slots show, and the steps that change it. A step changes what one slot shows at most, and it is
then a step of an operation on that very slot.
-/

namespace Relinquish

variable {σ ν : Type}

structure Showing (σ ν : Type) where
  dropped : Bool := false
  value : Option Value := none
  links : Registry σ ν (Droppable σ ν) := {}
  handlers : Registry σ ν (Error → Code σ ν) := {}

def Slot.showing (slot : Slot σ ν) : Showing σ ν where
  dropped := slot.dropped
  value := slot.value
  links := slot.links
  handlers := slot.handlers

def World.shows (world : World σ ν) (s : SlotId) : Showing σ ν :=
  (world.slot s).showing

/-! ## What changes do to it -/

namespace World

variable (world : World σ ν)

@[simp] theorem shows_mk (memory : σ) (scopes : Table (Scope σ ν))
    (accessors : Table (Option (Accessor σ ν))) (guards : Table (Guard σ ν))
    (parcels : Table (Option (Droppable σ ν))) (registries : Table (Registry σ ν Int))
    (locks : List (Lock × ThreadId)) (values actions threads : Nat) (history : List (Mark ν))
    (t : SlotId) :
    shows
      ⟨memory, world.slots, scopes, accessors, guards, parcels, registries, locks, values, actions,
        threads, history⟩ t = world.shows t := rfl

@[simp] theorem shows_act (act : Act) (t : SlotId) : (world.act act).shows t = world.shows t := rfl

@[simp] theorem shows_emit (event : Event) (t : SlotId) :
    (world.emit event).shows t = world.shows t := rfl

@[simp] theorem shows_actAll (acts : List Act) (t : SlotId) :
    (world.actAll acts).shows t = world.shows t := by
  rw [shows, slot_actAll, shows]

@[simp] theorem shows_emitAll (events : List Event) (t : SlotId) :
    (world.emitAll events).shows t = world.shows t := by
  rw [shows, slot_emitAll, shows]

@[simp] theorem shows_updateScope (sc : ScopeId) (change : Scope σ ν → Scope σ ν) (t : SlotId) :
    (world.updateScope sc change).shows t = world.shows t := rfl

@[simp] theorem shows_fields (t : SlotId) :
    (⟨(world.slot t).dropped, (world.slot t).value, (world.slot t).links, (world.slot t).handlers⟩ :
      Showing σ ν) = world.shows t := rfl

@[simp] theorem shows_updateSlot (s t : SlotId) (change : Slot σ ν → Slot σ ν) :
    (world.updateSlot s change).shows t =
      if s = t then (change (world.slot t)).showing else world.shows t := by
  unfold shows
  rw [slot_updateSlot]
  split <;> rfl

theorem shows_change (s t : SlotId) (change : Slot σ ν → Slot σ ν) :
    (world.updateSlot s change).shows t =
      if s = t then (change (world.slot s)).showing else world.shows t := by
  rw [shows_updateSlot]
  split
  · next equal => rw [equal]
  · rfl

theorem shows_addSlot (slot : Slot σ ν) (t : SlotId) :
    (world.addSlot slot).1.shows t =
      if world.slots.size = t then slot.showing else world.shows t := by
  rw [shows, slot_addSlot]
  split
  · next equal => rw [if_pos equal.symm]
  · next other => rw [if_neg (Ne.symm other), shows]

@[simp] theorem shows_makeSlot (release : Value → Code σ ν) (initializer : Code σ ν)
    (t : SlotId) : (world.makeSlot release initializer).1.shows t = world.shows t := by
  rw [makeSlot, shows_addSlot]
  split
  · next equal =>
      rw [← equal, shows, World.slot, Table.get_size]
      rfl
  · rfl

@[simp] theorem shows_retain (handle : Handle) (t : SlotId) :
    (world.retain handle).shows t = world.shows t := by
  cases handle <;> simp [retain, Slot.showing]

@[simp] theorem shows_retainAll (handles : List Handle) (t : SlotId) :
    (world.retainAll handles).shows t = world.shows t :=
  world.foldl_same (·.shows t) retain (fun world handle => world.shows_retain handle t) handles

@[simp] theorem shows_surrender (handle : Handle) (t : SlotId) :
    (world.surrender handle).shows t = world.shows t := by
  cases handle <;> simp [surrender, Slot.showing]

@[simp] theorem shows_relinquish (handle : Handle) (t : SlotId) :
    (world.relinquish handle).shows t = world.shows t := by
  cases handle <;> simp [relinquish, Slot.showing]

@[simp] theorem shows_leaveSlot (s t : SlotId) : (world.leaveSlot s).shows t = world.shows t := by
  simp [leaveSlot, Slot.showing]

@[simp] theorem shows_handOver (s t : SlotId) : (world.handOver s).shows t = world.shows t := by
  simp [handOver, Slot.showing]

@[simp] theorem shows_addAction (sc : ScopeId) (job : Job σ ν) (t : SlotId) :
    (world.addAction sc job).shows t = world.shows t := rfl

@[simp] theorem shows_adopt (sc : ScopeId) (s t : SlotId) :
    (world.adopt sc s).shows t = world.shows t :=
  world.shows_retain (.slot s) t

@[simp] theorem shows_discardPending (sc : ScopeId) (t : SlotId) :
    (world.discardPending sc).shows t = world.shows t := by
  simp [discardPending_eq]

theorem shows_enterSlot {entered : World σ ν} {s : SlotId} {id : ThreadId}
    (action : world.enterSlot s id = some entered) (t : SlotId) :
    entered.shows t = world.shows t := by
  obtain ⟨depth, _, rfl⟩ := world.enterSlot_eq action
  simp [Slot.showing]

theorem shows_copySlot (s t : SlotId) :
    (world.copySlot s).1.shows t =
      if world.slots.size = t then
        { links := (world.slot s).links, handlers := (world.slot s).handlers }
      else world.shows t := by
  unfold copySlot
  simp only [shows_actAll, shows_act, shows_retainAll]
  exact world.shows_addSlot _ t

end World

/-! ## Edits -/

/-- What a step under some control, with a frame that gets an end perhaps, makes a slot show. -/
inductive Edit (world : World σ ν) :
    Control σ ν → Option (Frame σ ν) → SlotId → Showing σ ν → Prop
  | dropped {s : SlotId} (undropped : (world.slot s).dropped = false) :
      Edit world (.task (.swap s)) none s { world.shows s with dropped := true }
  | emptied {s : SlotId} {value : Value} (held : (world.slot s).value = some value) :
      Edit world (.task (.take s)) none s { world.shows s with value := none }
  | stored {s : SlotId} {value : Value} :
      Edit world (.task (.store s value)) none s { world.shows s with value := some value }
  | lost {s : SlotId} {rest : List Handle} {exit : Exit}
      (gone : (world.relinquish (.slot s)).unheld (.slot s) = true) :
      Edit world (.task (.letGo (.slot s :: rest) exit)) none s { world.shows s with value := none }
  | linked {s : SlotId} {kind : Kind σ ν} {droppable : Droppable σ ν}
      (usable : ∀ handle ∈ .slot s :: droppable.handles, world.usable handle = true) :
      Edit world (.task (.start (.dropOnError s kind droppable))) none s
        { world.shows s with links := (world.shows s).links.register kind droppable }
  | handled {s : SlotId} {kind : Kind σ ν} {handler : Error → Code σ ν}
      (usable : world.usable (.slot s) = true) :
      Edit world (.task (.start (.callOnError s kind handler))) none s
        { world.shows s with handlers := (world.shows s).handlers.register kind handler }
  | copied {s : SlotId} {cloner : Option (Value → Code σ ν)} :
      Edit world (.task (.copy s cloner)) none world.slots.size
        { links := (world.slot s).links, handlers := (world.slot s).handlers }
  | cloned {copy : SlotId} {reply : Reply} :
      Edit world (.task (.finish (.returned reply))) (some (.cloning copy)) copy
        { world.shows copy with value := some ⟨world.values, reply.content⟩ }

def World.Edits (world next : World σ ν) (control : Control σ ν) (top : Option (Frame σ ν)) : Prop :=
  (∀ t, next.shows t = world.shows t) ∨
    ∃ s showing, Edit world control top s showing ∧
      ∀ t, next.shows t = if s = t then showing else world.shows t

theorem Call.start_edits (world : World σ ν) (call : Call σ ν) :
    Ensures (call.start world) fun move =>
      world.Edits move.world (.task (.start call)) none := by
  cases call <;> simp only [start]
  case dropOnError s kind droppable =>
    simp only [Ensures.whenUsable_iff, Ensures.whenFree_iff, Ensures.answer_iff]
    refine ⟨fun usable _ => .inr ⟨s, _, .linked usable, fun t => ?_⟩, fun _ => .inl fun _ => rfl⟩
    have same := world.shows_retainAll droppable.handles s
    rw [World.shows_act, World.shows_change, World.shows_retainAll, ← same]
    rfl
  case callOnError s kind handler =>
    simp only [Ensures.whenUsable_iff, Ensures.whenFree_iff, Ensures.answer_iff]
    refine ⟨fun usable _ => .inr ⟨s, _, .handled (usable _ (.head _)), fun t => ?_⟩,
      fun _ => .inl fun _ => rfl⟩
    exact world.shows_change s t _
  all_goals refine Ensures.imp ?_ fun move (same : ∀ t, move.world.shows t = world.shows t) => .inl same
  case access =>
    split
    · unfold Accessor.frame
      split <;> simp
    · simp
  case dropAccessed | forgetAccessor | dispose | forgetParcel | matchKind =>
    split <;> simp
  case dropThrough | releaseGuard | disarmGuard | forgetGuard =>
    simp only [Ensures.whenConsumable_iff, Ensures.ite_iff, Guard.close]
    split <;> simp [World.updateGuard, World.addParcel]
  all_goals
    simp [Slot.showing, World.addScope, World.addAccessor, World.addGuard, World.addParcel,
      World.addRegistry]

theorem Task.step_edits (world : World σ ν) (id : ThreadId) (task : Task σ ν) :
    Ensures (task.step world id) fun move => world.Edits move.world (.task task) none := by
  have quiet {next : World σ ν} (same : ∀ t, next.shows t = world.shows t) :
      world.Edits next (.task task) none := .inl same
  cases task with
  | start call => exact call.start_edits world
  | letGo handles exit =>
      have same := world.shows_relinquish
      refine .letGo (fun _ => quiet fun _ => rfl) (fun handle _ _ _ => quiet (same handle)) ?_
        fun sc _ _ => quiet (same (.scope sc))
      rintro s rest rfl gone
      unfold World.discardSlot
      split
      · refine .inr ⟨s, _, .lost gone, fun t => ?_⟩
        rw [World.shows_emit, World.shows_act, World.shows_change, same, ← same (.slot s) s]
        rfl
      · exact quiet (same (.slot s))
  | enter s =>
      simp only [step]
      cases action : world.enterSlot s id with
      | none => simp
      | some entered =>
          simp only [Option.bind_some, Ensures.ite_iff, Ensures.go_iff]
          have same := quiet (world.shows_enterSlot action)
          exact ⟨fun _ => same, fun _ => same⟩
  | store s value =>
      simp only [step, Ensures.go_iff]
      exact .inr ⟨s, _, .stored, fun t => world.shows_change s t _⟩
  | swap s =>
      simp only [step, Ensures.ite_iff, Ensures.go_iff, Ensures.endDrop_iff, Bool.not_eq_true]
      refine ⟨fun _ => quiet fun _ => rfl, fun undropped => ?_⟩
      exact .inr ⟨s, _, .dropped undropped, fun t => world.shows_change s t _⟩
  | take s =>
      simp only [step, Ensures.whenFree_iff]
      intro _
      split
      · next value held =>
          rw [Ensures.run_iff]
          exact .inr ⟨s, _, .emptied held, fun t => world.shows_change s t _⟩
      · rw [Ensures.endDrop_iff]
        exact quiet fun _ => rfl
  | copy s cloner =>
      simp only [step, Ensures.whenFree_iff]
      intro _
      cases cloner <;> rw [Ensures.go_iff] <;>
        exact .inr ⟨_, _, .copied, fun t => world.shows_copySlot s t⟩
  | look s | lookAgain s | copyValue s made cloner =>
      simp only [step, Ensures.whenFree_iff]
      intro _
      split <;> simp only [Ensures.go_iff, Ensures.run_iff, Ensures.answer_iff] <;>
        exact quiet fun _ => rfl
  | produce s =>
      simp only [step, Ensures.ite_iff, Ensures.go_iff, Ensures.run_iff]
      refine ⟨fun _ => quiet fun _ => rfl, fun _ => quiet fun t => ?_⟩
      simp [Slot.showing]
  | confirm s value =>
      simp only [step, Ensures.ite_iff, Ensures.go_iff]
      exact ⟨fun _ => quiet fun _ => rfl, fun _ => quiet fun _ => rfl⟩
  | sift selection error rest places =>
      cases rest with
      | nil =>
          simp only [step, Ensures.proceed_iff]
          exact ⟨fun _ _ => quiet fun _ => rfl, fun _ _ _ => quiet fun _ => rfl,
            fun _ _ => quiet fun _ => rfl⟩
      | cons entry rest =>
          simp only [step, Ensures.ask_iff]
          exact ⟨fun _ => quiet fun _ => rfl, fun _ => quiet fun _ => rfl,
            fun _ _ => quiet fun _ => rfl⟩
  | links s error rest callbacks failures =>
      cases rest <;> simp only [step, Ensures.go_iff, Ensures.push_iff] <;> exact quiet fun _ => rfl
  | handlers s error rest failures =>
      cases rest <;> simp only [step, Ensures.answer_iff, Ensures.run_iff] <;>
        exact quiet fun _ => rfl
  | dispose droppable =>
      cases droppable <;> simp only [step, Ensures.answer_iff, Ensures.run_iff, Ensures.go_iff] <;>
        exact quiet fun _ => rfl
  | disposeAll rest failures =>
      cases rest <;> simp only [step, Ensures.answer_iff, Ensures.push_iff]
      · split <;> exact quiet fun _ => rfl
      · exact quiet fun _ => rfl
  | drain sc ran failures =>
      simp only [step]
      split <;> rw [Ensures.go_iff] <;> exact quiet fun _ => rfl
  | batch sc rest ran failures =>
      rcases rest with - | ⟨⟨action, job⟩, rest⟩
      · simp only [step, Ensures.go_iff]
        exact quiet fun _ => rfl
      · cases job <;> simp only [step, Ensures.run_iff, Ensures.push_iff] <;>
          exact quiet fun _ => rfl
  | finish exit => simp [step]
  | lockValue s value | consult selection error =>
      simp only [step, Ensures.whenFree_iff, Ensures.go_iff]
      exact fun _ => quiet fun _ => rfl
  | leave s following =>
      simp only [step, Ensures.go_iff]
      exact quiet (world.shows_leaveSlot s)
  | deliver made =>
      simp only [step, Ensures.answer_iff]
      exact quiet (world.shows_handOver made)
  | unlockValue | releaseLate =>
      simp only [step, Ensures.go_iff, Ensures.run_iff]
      exact quiet fun _ => rfl
  | report sc ran failures =>
      simp only [step, Ensures.answer_iff]
      exact quiet fun t => World.shows_emitAll _ _ t

theorem Frame.resume_edits (world : World σ ν) (exit : Exit) (frame : Frame σ ν) :
    Ensures (frame.resume world exit) fun move =>
      world.Edits move.world (.task (.finish exit)) (some frame) := by
  have quiet {next : World σ ν} {exit : Exit} {top : Option (Frame σ ν)}
      (same : ∀ t, next.shows t = world.shows t) :
      world.Edits next (.task (.finish exit)) top := .inl same
  cases frame with
  | cloning copy =>
      cases exit <;> simp only [resume, Ensures.go_iff]
      · exact .inr ⟨copy, _, .cloned, fun t => world.shows_change copy t _⟩
      · exact quiet fun _ => rfl
  | initializing s =>
      have same : ∀ t, (world.updateSlot s fun slot =>
          { slot with initializing := false }).shows t = world.shows t := by
        simp [Slot.showing]
      simp only [resume, Ensures.initializerEnded_iff]
      exact ⟨fun _ _ => quiet same, fun _ _ => ⟨fun _ _ => quiet same, fun _ => quiet same⟩⟩
  | linking | handling =>
      cases exit <;> simp only [resume]
      · split <;> rw [Ensures.go_iff] <;> exact quiet fun _ => rfl
      · rw [Ensures.go_iff]
        exact quiet fun _ => rfl
  | getting | orNone | orElse | expiring =>
      simp only [resume, Guard.close]
      split <;> simp only [Ensures.go_iff, Ensures.run_iff, Ensures.push_iff, Ensures.answer_iff] <;>
        exact quiet fun _ => rfl
  | reading announced =>
      cases exit <;> simp only [resume]
      · exact .configRead fun _ events _ => quiet (World.shows_emitAll _ events)
      · rw [Ensures.go_iff]
        exact quiet fun _ => rfl
  | releasingLate | vanishing | guarding | closing =>
      cases exit <;> simp only [resume, Ensures.go_iff, Ensures.answer_iff]
      · exact quiet fun t => World.shows_emitAll _ _ t
      · exact quiet fun _ => rfl
  | _ =>
      cases exit <;> simp only [resume, Ensures.go_iff, Ensures.run_iff, Ensures.push_iff,
        Ensures.answer_iff, Ensures.some_iff, Ensures.endDrop_iff] <;> exact quiet fun _ => rfl

theorem Thread.step_edits {world next : World σ ν} {thread after : Thread σ ν}
    (action : thread.step world = some (next, after)) :
    world.Edits next thread.control thread.top? := by
  apply step_rule (fun thread next _ => world.Edits next thread.control thread.top?) _ _ _ action
  · intro id code stack move made
    apply Or.inl
    intro t
    cases code <;> obtain rfl := Option.some.inj made <;> rfl
  · intro id task stack move made
    have top : Thread.top? ⟨id, .task task, stack⟩ = none := by
      cases task <;> first | rfl | contradiction
    rw [top]
    exact task.step_edits world id move made
  · intro id exit frame stack move made
    exact frame.resume_edits world exit move made

end Relinquish
