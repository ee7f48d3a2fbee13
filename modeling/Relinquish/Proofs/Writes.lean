import Relinquish.Proofs.Changes
import Relinquish.Proofs.Moves

/-!
What steps of the library write. Every step changes the world by a chain of writes of a few kinds,
and all that these have in common holds of every step: slots, scopes and policies stay, registries
are only written under their locks, and no thread comes into being.
-/

namespace Relinquish

variable {σ ν : Type}

/-- The second world comes from the first by writes. A registry is written only if its lock is free
in the first. -/
inductive World.Writes (world : World σ ν) : World σ ν → Prop
  | refl : Writes world world
  | slot {next : World σ ν} (earlier : Writes world next) (s : SlotId)
      (change : Slot σ ν → Slot σ ν) (links : ∀ slot, (change slot).links = slot.links)
      (handlers : ∀ slot, (change slot).handlers = slot.handlers) :
      Writes world (next.updateSlot s change)
  | link {next : World σ ν} (earlier : Writes world next) (s : SlotId) (kind : Kind σ ν)
      (droppable : Droppable σ ν) (free : world.free (.links s) = true) :
      Writes world (next.updateSlot s fun slot =>
        { slot with links := slot.links.register kind droppable })
  | handler {next : World σ ν} (earlier : Writes world next) (s : SlotId) (kind : Kind σ ν)
      (handler : Error → Code σ ν) (free : world.free (.handlers s) = true) :
      Writes world (next.updateSlot s fun slot =>
        { slot with handlers := slot.handlers.register kind handler })
  | addSlot {next : World σ ν} (earlier : Writes world next) (slot : Slot σ ν) :
      Writes world (next.addSlot slot).1
  | scope {next : World σ ν} (earlier : Writes world next) (sc : ScopeId)
      (change : Scope σ ν → Scope σ ν) (policy : ∀ scope, (change scope).policy = scope.policy) :
      Writes world (next.updateScope sc change)
  | addScope {next : World σ ν} (earlier : Writes world next) (scope : Scope σ ν) :
      Writes world (next.addScope scope).1
  | rest {next last : World σ ν} (earlier : Writes world next) (slots : last.slots = next.slots)
      (scopes : last.scopes = next.scopes) (threads : last.threads = next.threads) :
      Writes world last

namespace World.Writes

variable {world next last : World σ ν}

theorem changed {change : Slot σ ν → Slot σ ν} (writes : world.Writes next) (s : SlotId)
    (slots : last.slots = (next.updateSlot s change).slots)
    (links : ∀ slot, (change slot).links = slot.links)
    (handlers : ∀ slot, (change slot).handlers = slot.handlers)
    (scopes : last.scopes = next.scopes) (threads : last.threads = next.threads) :
    world.Writes last :=
  (writes.slot s change links handlers).rest slots scopes threads

theorem record (writes : world.Writes next) (mark : Mark ν) : world.Writes (next.record mark) :=
  writes.rest rfl rfl rfl

theorem actAll (writes : world.Writes next) (acts : List Act) : world.Writes (next.actAll acts) :=
  List.foldlRecOn acts World.act writes fun _ earlier act _ => earlier.record (.act act)

theorem emitAll (writes : world.Writes next) (events : List Event) :
    world.Writes (next.emitAll events) :=
  List.foldlRecOn events emit writes fun _ earlier event _ => earlier.record (.event event)

theorem retain (writes : world.Writes next) (handle : Handle) :
    world.Writes (next.retain handle) := by
  cases handle with
  | slot s => exact writes.slot s _ (fun _ => rfl) fun _ => rfl
  | scope sc => exact writes.scope sc _ fun _ => rfl

theorem retainAll (writes : world.Writes next) (handles : List Handle) :
    world.Writes (next.retainAll handles) :=
  List.foldlRecOn handles World.retain writes fun _ earlier handle _ => earlier.retain handle

theorem surrender (writes : world.Writes next) (handle : Handle) :
    world.Writes (next.surrender handle) := by
  cases handle with
  | slot s => exact writes.slot s _ (fun _ => rfl) fun _ => rfl
  | scope sc => exact writes.scope sc _ fun _ => rfl

theorem relinquish (writes : world.Writes next) (handle : Handle) :
    world.Writes (next.relinquish handle) := by
  cases handle with
  | slot s => exact writes.slot s _ (fun _ => rfl) fun _ => rfl
  | scope sc => exact writes.scope sc _ fun _ => rfl

theorem addAction (writes : world.Writes next) (sc : ScopeId) (job : Job σ ν) :
    world.Writes (next.addAction sc job) := by
  have counted : world.Writes { next with actions := next.actions + 1 } := writes.rest rfl rfl rfl
  have queued := counted.scope sc
    (fun scope => { scope with pending := scope.pending ++ [⟨next.actions, job⟩] }) fun _ => rfl
  exact queued.record (.act (.deferred sc next.actions))

theorem adopt (writes : world.Writes next) (sc : ScopeId) (s : SlotId) :
    world.Writes (next.adopt sc s) :=
  (writes.retain (.slot s)).addAction sc (.release s)

theorem discardPending (writes : world.Writes next) (sc : ScopeId) :
    world.Writes (next.discardPending sc) := by
  rw [World.discardPending_eq]
  refine .emitAll (.actAll ?_ _) _
  exact writes.scope sc _ fun _ => rfl

theorem discardSlot (writes : world.Writes next) (s : SlotId) :
    world.Writes (next.discardSlot s) := by
  unfold World.discardSlot
  split
  · refine .record (.record ?_ _) _
    exact writes.slot s _ (fun _ => rfl) fun _ => rfl
  · exact writes

theorem copySlot (writes : world.Writes next) (s : SlotId) :
    world.Writes (next.copySlot s).1 :=
  ((((writes.addSlot _).retainAll _).record _).actAll _).actAll _

theorem enterSlot {entered : World σ ν} {s : SlotId} {id : ThreadId}
    (action : world.enterSlot s id = some entered) : world.Writes entered := by
  obtain ⟨depth, _, rfl⟩ := world.enterSlot_eq action
  exact Writes.refl.slot s _ (fun _ => rfl) fun _ => rfl

theorem threads_eq (writes : world.Writes next) : next.threads = world.threads := by
  induction writes with
  | refl => rfl
  | rest _ _ _ threads ih => exact threads.trans ih
  | slot _ _ _ _ _ ih | link _ _ _ _ _ ih | handler _ _ _ _ _ ih | addSlot _ _ ih
  | scope _ _ _ _ ih | addScope _ _ ih => exact ih

end World.Writes

theorem Call.start_writes (world : World σ ν) (call : Call σ ν) :
    Ensures (call.start world) fun move => world.Writes move.world := by
  have stays : world.Writes world := .refl
  have same {next : World σ ν} (slots : next.slots = world.slots)
      (scopes : next.scopes = world.scopes) (threads : next.threads = world.threads) :
      world.Writes next := stays.rest slots scopes threads
  cases call with
  | newSlot release initializer =>
      simp only [start, Ensures.answer_iff]
      exact stays.addSlot _
  | cloneHandle s =>
      simp only [start, Ensures.whenUsable_iff, Ensures.answer_iff]
      exact ⟨fun _ => stays.slot s _ (fun _ => rfl) fun _ => rfl, fun _ => stays⟩
  | forgetHandle s =>
      simp only [start, Ensures.whenUsable_iff, Ensures.go_iff]
      exact ⟨fun _ => stays.surrender _, fun _ => stays⟩
  | copySlot | getValue | withValue | dropSlot | runAll =>
      simp only [start, Ensures.operate_iff]
      exact ⟨fun _ => stays.retainAll _, fun _ => stays⟩
  | dropOnError s kind droppable =>
      simp only [start, Ensures.whenUsable_iff, Ensures.whenFree_iff, Ensures.answer_iff]
      exact ⟨fun _ free => ((stays.retainAll _).link s kind droppable (free _ (.head _))).record _,
        fun _ => stays⟩
  | callOnError s kind handler =>
      simp only [start, Ensures.whenUsable_iff, Ensures.whenFree_iff, Ensures.answer_iff]
      exact ⟨fun _ free => (stays.handler s kind handler (free _ (.head _))).record _,
        fun _ => stays⟩
  | newAccessor s fallback =>
      simp only [start, Ensures.whenUsable_iff, Ensures.answer_iff]
      exact ⟨fun _ => (stays.retain (.slot s)).rest rfl rfl rfl, fun _ => stays⟩
  | access a | dropAccessed a =>
      simp only [start]
      split <;> simp only [Ensures.borrow_iff, Ensures.answer_iff]
      · exact stays.retain _
      · exact stays
  | newScope | deferring =>
      simp only [start, Ensures.answer_iff, Ensures.run_iff]
      exact stays.addScope _
  | forgetScope sc =>
      simp only [start, Ensures.ite_iff, Ensures.go_iff, Ensures.answer_iff]
      exact ⟨fun _ => stays.surrender _, fun _ => stays⟩
  | defer sc action =>
      simp only [start, Ensures.whenUsable_iff, Ensures.answer_iff]
      exact ⟨fun _ => stays.addAction sc _, fun _ => stays⟩
  | adopt sc s =>
      simp only [start, Ensures.whenUsable_iff, Ensures.answer_iff]
      exact ⟨fun _ => stays.adopt sc s, fun _ => stays⟩
  | registerSlot sc release initializer =>
      simp only [start, Ensures.whenUsable_iff, Ensures.answer_iff]
      exact ⟨fun _ => (stays.addSlot _).adopt sc _, fun _ => stays⟩
  | resetScope sc =>
      simp only [start, Ensures.whenUsable_iff, Ensures.go_iff]
      exact ⟨fun _ => stays.discardPending sc, fun _ => stays⟩
  | newGuard droppable | keep droppable =>
      simp only [start, Ensures.whenUsable_iff, Ensures.answer_iff]
      exact ⟨fun _ => (stays.retainAll droppable.handles).rest rfl rfl rfl, fun _ => stays⟩
  | dispose p =>
      simp only [start]
      split <;> simp only [Ensures.push_iff, Ensures.answer_iff]
      · exact stays.retainAll _
      · exact stays
  | forgetAccessor | forgetParcel | matchKind =>
      simp only [start]
      split <;> simp only [Ensures.go_iff, Ensures.run_iff, Ensures.answer_iff] <;>
        exact same rfl rfl rfl
  | dropThrough g =>
      simp only [start, Ensures.ite_iff, Ensures.answer_iff]
      refine ⟨fun _ => ?_, fun _ => stays⟩
      split <;> simp only [Ensures.push_iff, Ensures.go_iff] <;> exact same rfl rfl rfl
  | releaseGuard | disarmGuard | forgetGuard =>
      simp only [start, Ensures.whenConsumable_iff, Guard.close]
      refine ⟨fun _ => ?_, fun _ => stays⟩
      split <;> simp only [Ensures.push_iff, Ensures.go_iff] <;> exact same rfl rfl rfl
  | peek | inspectSlot =>
      simp only [start, Ensures.whenUsable_iff, Ensures.whenFree_iff, Ensures.answer_iff]
      exact ⟨fun _ _ => stays, fun _ => stays⟩
  | inspectScope =>
      simp only [start, Ensures.whenUsable_iff, Ensures.answer_iff]
      exact ⟨fun _ => stays, fun _ => stays⟩
  | inspectGuard | register | snapshotRegistry | inspectRegistry =>
      simp only [start, Ensures.ite_iff, Ensures.whenFree_iff, Ensures.answer_iff]
      exact ⟨fun _ _ => same rfl rfl rfl, fun _ => stays⟩
  | select =>
      simp only [start, Ensures.ite_iff, Ensures.go_iff, Ensures.answer_iff]
      exact ⟨fun _ => stays, fun _ => stays⟩
  | newRegistry | loadConfig =>
      simp only [start, Ensures.run_iff, Ensures.answer_iff]
      exact same rfl rfl rfl

theorem Task.step_writes (world : World σ ν) (id : ThreadId) (task : Task σ ν) :
    Ensures (task.step world id) fun move => world.Writes move.world := by
  have stays : world.Writes world := .refl
  have same {next : World σ ν} (slots : next.slots = world.slots)
      (scopes : next.scopes = world.scopes) (threads : next.threads = world.threads) :
      world.Writes next := stays.rest slots scopes threads
  cases task with
  | finish exit => simp [step]
  | start call => exact call.start_writes world
  | letGo handles exit =>
      exact .letGo (fun _ => stays) (fun handle _ _ _ => stays.relinquish handle)
        (fun s _ _ _ => (stays.relinquish (.slot s)).discardSlot s)
        fun sc _ _ => stays.relinquish (.scope sc)
  | look s | lookAgain s | copyValue s made cloner =>
      simp only [step, Ensures.whenFree_iff]
      intro _
      split <;> simp only [Ensures.go_iff, Ensures.run_iff, Ensures.answer_iff] <;> exact stays
  | enter s =>
      simp only [step, Ensures.bind_iff, Ensures.ite_iff, Ensures.go_iff]
      exact fun entered action => ⟨fun _ => .enterSlot action, fun _ => .enterSlot action⟩
  | produce s | swap s =>
      simp only [step, Ensures.ite_iff, Ensures.go_iff, Ensures.run_iff, Ensures.endDrop_iff]
      exact ⟨fun _ => same rfl rfl rfl,
        fun _ => stays.changed s rfl (fun _ => rfl) (fun _ => rfl) rfl rfl⟩
  | store s value | leave s following =>
      simp only [step, Ensures.go_iff]
      exact stays.changed s rfl (fun _ => rfl) (fun _ => rfl) rfl rfl
  | deliver made =>
      simp only [step, Ensures.answer_iff]
      exact stays.slot made _ (fun _ => rfl) fun _ => rfl
  | take s =>
      simp only [step, Ensures.whenFree_iff]
      intro _
      split
      · rw [Ensures.run_iff]
        exact stays.changed s rfl (fun _ => rfl) (fun _ => rfl) rfl rfl
      · rw [Ensures.endDrop_iff]
        exact same rfl rfl rfl
  | copy s cloner =>
      simp only [step, Ensures.whenFree_iff]
      intro _
      split <;> rw [Ensures.go_iff] <;> exact stays.copySlot s
  | sift selection error rest places =>
      cases rest <;> simp only [step, Ensures.proceed_iff, Ensures.ask_iff]
      · exact ⟨fun _ _ => same rfl rfl rfl, fun _ _ _ => same rfl rfl rfl,
          fun _ _ => same rfl rfl rfl⟩
      · exact ⟨fun _ => stays, fun _ => stays, fun _ _ => stays⟩
  | consult | lockValue =>
      simp only [step, Ensures.whenFree_iff, Ensures.go_iff]
      exact fun _ => same rfl rfl rfl
  | confirm =>
      simp only [step, Ensures.ite_iff, Ensures.go_iff]
      exact ⟨fun _ => stays, fun _ => stays⟩
  | unlockValue | releaseLate =>
      simp only [step, Ensures.go_iff, Ensures.run_iff]
      exact same rfl rfl rfl
  | links s error rest | handlers s error rest =>
      cases rest <;> simp only [step, Ensures.go_iff, Ensures.push_iff, Ensures.run_iff,
        Ensures.answer_iff] <;> exact same rfl rfl rfl
  | dispose droppable =>
      cases droppable <;> simp only [step, Ensures.go_iff, Ensures.run_iff, Ensures.answer_iff] <;>
        exact stays
  | disposeAll rest failures =>
      cases rest <;> simp only [step, Ensures.push_iff, Ensures.answer_iff]
      · split <;> exact same rfl rfl rfl
      · exact stays
  | drain sc ran failures =>
      have emptied : world.Writes (world.takePending sc).1 := stays.scope sc _ fun _ => rfl
      simp only [step]
      split <;> rw [Ensures.go_iff] <;> exact emptied
  | batch sc rest ran failures =>
      cases rest with
      | nil =>
          simp only [step, Ensures.go_iff]
          exact stays
      | cons action rest =>
          simp only [step]
          split <;> simp only [Ensures.run_iff, Ensures.push_iff] <;> exact same rfl rfl rfl
  | report sc ran failures =>
      simp only [step, Ensures.answer_iff]
      exact (stays.record _).emitAll _

theorem Frame.resume_writes (world : World σ ν) (exit : Exit) (frame : Frame σ ν) :
    Ensures (frame.resume world exit) fun move => world.Writes move.world := by
  have stays : world.Writes world := .refl
  have same {next : World σ ν} (slots : next.slots = world.slots)
      (scopes : next.scopes = world.scopes) (threads : next.threads = world.threads) :
      world.Writes next := stays.rest slots scopes threads
  cases frame with
  | initializing s =>
      have ended : world.Writes
          (world.updateSlot s fun slot => { slot with initializing := false }) :=
        stays.slot s _ (fun _ => rfl) fun _ => rfl
      simp only [resume, Ensures.initializerEnded_iff]
      exact ⟨fun _ _ => ended.record _, fun _ _ => ⟨fun _ _ => ended.record _,
        fun _ => ended.rest rfl rfl rfl⟩⟩
  | cloning made =>
      cases exit <;> simp only [resume, Ensures.go_iff]
      · exact stays.changed made rfl (fun _ => rfl) (fun _ => rfl) rfl rfl
      · exact stays
  | releasingLate s value | vanishing sc rest outcome | guarding g =>
      cases exit <;> simp only [resume, Ensures.go_iff, Ensures.answer_iff]
      · exact stays.emitAll _
      · exact stays
  | reading announced =>
      cases exit <;> simp only [resume]
      · exact .configRead fun _ events _ => stays.emitAll events
      · rw [Ensures.go_iff]
        exact stays
  | closing sc outcome =>
      cases exit <;> simp only [resume, Ensures.go_iff]
      · exact (stays.emitAll _).scope sc _ fun _ => rfl
      · exact stays
  | linking | handling =>
      cases exit <;> simp only [resume]
      · split <;> rw [Ensures.go_iff] <;> exact same rfl rfl rfl
      · rw [Ensures.go_iff]
        exact stays
  | getting | orNone | orElse | expiring =>
      simp only [resume, Guard.close]
      split <;> simp only [Ensures.go_iff, Ensures.run_iff, Ensures.push_iff, Ensures.answer_iff] <;>
        exact same rfl rfl rfl
  | _ =>
      cases exit <;> simp only [resume, Ensures.go_iff, Ensures.run_iff, Ensures.push_iff,
        Ensures.answer_iff, Ensures.some_iff, Ensures.endDrop_iff] <;> exact same rfl rfl rfl

end Relinquish
