import Relinquish.Proofs.Discipline
import Relinquish.Proofs.Recall

/-!
The drops of a slot. However many drop calls are made on a slot, and from wherever, at most one of
them runs the drop handler. That call returns what the handler failed with; the others return at
once, and only the first of all changes anything, which is that the slot is dropped then.
-/

namespace Relinquish

variable {σ ν : Type}

/-! ## What the history says -/

/-- What the history says of a slot's drop calls and of its drop handler. -/
inductive Drop where
  | began
  | handed (value : Value)
  | ended (exit : Exit)

def Mark.drop? (s : SlotId) : Mark ν → Option Drop
  | .event (.releasing t) => if t = s then some .began else none
  | .act (.handed t value) => if t = s then some (.handed value) else none
  | .act (.dropEnded t exit) => if t = s then some (.ended exit) else none
  | _ => none

def World.drops (world : World σ ν) (s : SlotId) : List Drop :=
  world.recollect (Mark.drop? s)

/-- What has become of a slot's drop handler: it has not been run, or it was given a value that was
produced after the drop, or it runs on behalf of a drop call, or has ended there. -/
inductive Release where
  | never
  | late (value : Value)
  | running (value : Value)
  | finished (value : Value) (exit : Exit)

def Release.running? : Release → Option Value
  | running value => some value
  | _ => none

/-- Sequences of drops, newest first: all drop calls but one end without a result of their own. -/
inductive Dropped : Release → List Drop → Prop
  | nobody : Dropped .never []
  | silent {release : Release} {drops : List Drop} (earlier : Dropped release drops) :
      Dropped release (.ended (.returned .done) :: drops)
  | late {value : Value} {drops : List Drop} (earlier : Dropped .never drops) :
      Dropped (.late value) (.handed value :: drops)
  | runs {value : Value} {drops : List Drop} (earlier : Dropped .never drops) :
      Dropped (.running value) (.handed value :: .began :: drops)
  | ends {value : Value} {drops : List Drop} (earlier : Dropped (.running value) drops)
      (exit : Exit) : Dropped (.finished value exit) (.ended exit.ofRelease :: drops)

def Drop.begins : Drop → Bool
  | began => true
  | _ => false

def Drop.error? : Drop → Option Error
  | ended (.returned reply) => reply.error?
  | _ => none

def Release.begun? : Release → Option Value
  | running value | finished value _ => some value
  | _ => none

def Release.error? : Release → Option Error
  | finished _ (.returned reply) => reply.error?.map fun error => .drop (.drop error)
  | _ => none

namespace Dropped

variable {release : Release} {drops : List Drop} (dropped : Dropped release drops)

include dropped

theorem begins_once : drops.countP Drop.begins = release.begun?.toList.length := by
  induction dropped with
  | nobody => rfl
  | silent earlier ih | late earlier ih | ends earlier exit ih => exact ih
  | runs earlier ih =>
      rw [List.countP_cons_of_neg Bool.false_ne_true, List.countP_cons_of_pos rfl, ih]
      rfl

theorem errors : drops.filterMap Drop.error? = release.error?.toList := by
  induction dropped with
  | nobody => rfl
  | silent earlier ih | late earlier ih | runs earlier ih => exact ih
  | ends earlier exit ih =>
      cases exit with
      | panicked => exact ih
      | returned reply =>
          have error : (Drop.ended (Exit.returned reply).ofRelease).error? =
              reply.error?.map fun error => .drop (.drop error) := by
            cases reply <;> rfl
          rw [List.filterMap_cons, error, ih, Release.error?]
          cases reply.error? <;> rfl

theorem done_or_over {exit : Exit} (ended : .ended exit ∈ drops) :
    exit = .returned .done ∨
      ∃ value inner, release = .finished value inner ∧ exit = inner.ofRelease := by
  induction dropped with
  | nobody => contradiction
  | silent earlier ih =>
      rcases List.mem_cons.mp ended with last | older
      · exact .inl (Drop.ended.inj last)
      · exact ih older
  | late earlier ih =>
      rcases ih ((List.mem_cons.mp ended).resolve_left nofun) with done | ⟨_, _, finished, _⟩
      · exact .inl done
      · contradiction
  | runs earlier ih =>
      have older := (List.mem_cons.mp ended).resolve_left nofun
      rcases ih ((List.mem_cons.mp older).resolve_left nofun) with done | ⟨_, _, finished, _⟩
      · exact .inl done
      · contradiction
  | @ends value drops earlier inner ih =>
      rcases List.mem_cons.mp ended with last | older
      · exact .inr ⟨value, inner, rfl, Drop.ended.inj last⟩
      · rcases ih older with done | ⟨_, _, finished, _⟩
        · exact .inl done
        · contradiction

end Dropped

def Frame.releasing? (s : SlotId) : Frame σ ν → Option Value
  | releasing t value => if t = s then some value else none
  | _ => none

def Thread.releasing (thread : Thread σ ν) (s : SlotId) : List Value :=
  thread.stack.filterMap (Frame.releasing? s)

/-! ## What a step does -/

/-- What a step from some control and top frame to another control does to the drops of a slot, when
it takes frames of the slot's drop handler from the stack and puts others there. -/
inductive Drops (s : SlotId) (world next : World σ ν) :
    Control σ ν → Option (Frame σ ν) → Control σ ν → List Value → List Value → Prop
  | quiet {control after : Control σ ν} {top : Option (Frame σ ν)}
      (same : next.drops s = world.drops s) : Drops s world next control top after [] []
  | again (dropped : (world.slot s).dropped = true)
      (ended : next.drops s = .ended (.returned .done) :: world.drops s) :
      Drops s world next (.task (.swap s)) none (.task (.finish (.returned .done))) [] []
  | empty (empty : (world.slot s).value = none)
      (ended : next.drops s = .ended (.returned .done) :: world.drops s) :
      Drops s world next (.task (.take s)) none (.task (.finish (.returned .done))) [] []
  | runs {value : Value} {code : Code σ ν} (held : (world.slot s).value = some value)
      (began : next.drops s = .handed value :: .began :: world.drops s)
      (condition : next.condition s = { world.condition s with value := none }) :
      Drops s world next (.task (.take s)) none (.code code) [] [value]
  | ends {value : Value} {exit : Exit} (same : next.condition s = world.condition s)
      (ended : next.drops s = .ended exit.ofRelease :: world.drops s) :
      Drops s world next (.task (.finish exit)) (some (.releasing s value))
        (.task (.finish exit.ofRelease)) [value] []
  | late {value : Value} {code : Code σ ν} (same : next.condition s = world.condition s)
      (handed : next.drops s = .handed value :: world.drops s) :
      Drops s world next (.task (.releaseLate s value)) none (.code code) [] []

def Move.Drops (s : SlotId) (world : World σ ν) (control : Control σ ν) (top : Option (Frame σ ν))
    (move : Move σ ν) : Prop :=
  Relinquish.Drops s world move.world control top move.control
    (top.toList.filterMap (Frame.releasing? s)) (move.frames.filterMap (Frame.releasing? s))

structure Move.Silent (s : SlotId) (world : World σ ν) (move : Move σ ν) : Prop where
  same : move.world.drops s = world.drops s
  frames : move.frames.filterMap (Frame.releasing? s) = []

theorem Move.Silent.drops {s : SlotId} {world : World σ ν} {move : Move σ ν}
    (silent : move.Silent s world) (control : Control σ ν) {top : Option (Frame σ ν)}
    (other : top.toList.filterMap (Frame.releasing? s) = []) : move.Drops s world control top := by
  rw [Move.Drops, other, silent.frames]
  exact .quiet silent.same

theorem Call.start_silent (world : World σ ν) (s : SlotId) (call : Call σ ν) :
    Ensures (call.start world) (Move.Silent s world) := by
  have retained (handle : Handle) : (world.retain handle).drops s = world.drops s :=
    world.recollect_retain _ handle
  have retainedAll (handles : List Handle) : (world.retainAll handles).drops s = world.drops s :=
    world.recollect_retainAll _ handles
  cases call <;> simp only [start]
  case copySlot | getValue | withValue | dropSlot | runAll =>
    simp only [Ensures.operate_iff]
    exact ⟨fun _ => ⟨retainedAll _, rfl⟩, fun _ => ⟨rfl, rfl⟩⟩
  case access =>
    split
    · unfold Accessor.frame
      split <;> simp only [Ensures.borrow_iff] <;> exact ⟨retained _, rfl⟩
    · rw [Ensures.answer_iff]
      exact ⟨rfl, rfl⟩
  case dropAccessed =>
    split <;> simp only [Ensures.borrow_iff, Ensures.answer_iff]
    · exact ⟨retained _, rfl⟩
    · exact ⟨rfl, rfl⟩
  case forgetHandle t =>
    simp only [Ensures.whenUsable_iff, Ensures.go_iff]
    exact ⟨fun _ => ⟨world.recollect_surrender _ _, rfl⟩, fun _ => ⟨rfl, rfl⟩⟩
  case forgetScope sc =>
    simp only [Ensures.ite_iff, Ensures.go_iff, Ensures.answer_iff]
    exact ⟨fun _ => ⟨world.recollect_surrender _ _, rfl⟩, fun _ => ⟨rfl, rfl⟩⟩
  case dropOnError t kind droppable =>
    simp only [Ensures.whenUsable_iff, Ensures.whenFree_iff, Ensures.answer_iff]
    exact ⟨fun _ _ => ⟨retainedAll _, rfl⟩, fun _ => ⟨rfl, rfl⟩⟩
  case newAccessor | newGuard | keep =>
    simp only [Ensures.whenUsable_iff, Ensures.answer_iff]
    first
    | exact ⟨fun _ => ⟨retained _, rfl⟩, fun _ => ⟨rfl, rfl⟩⟩
    | exact ⟨fun _ => ⟨retainedAll _, rfl⟩, fun _ => ⟨rfl, rfl⟩⟩
  case adopt | registerSlot =>
    simp only [Ensures.whenUsable_iff, Ensures.answer_iff]
    exact ⟨fun _ => ⟨World.recollect_adopt _ _ _ _ fun _ _ => rfl, rfl⟩, fun _ => ⟨rfl, rfl⟩⟩
  case resetScope sc =>
    simp only [Ensures.whenUsable_iff, Ensures.go_iff]
    refine ⟨fun _ => ⟨?_, rfl⟩, fun _ => ⟨rfl, rfl⟩⟩
    exact world.recollect_discardPending _ sc (fun _ _ => rfl) fun _ _ => rfl
  case dispose =>
    split <;> simp only [Ensures.push_iff, Ensures.answer_iff]
    · exact ⟨retainedAll _, rfl⟩
    · exact ⟨rfl, rfl⟩
  case dropThrough | releaseGuard | disarmGuard | forgetGuard =>
    simp only [Ensures.whenConsumable_iff, Ensures.ite_iff, Guard.close]
    split <;> simp only [Ensures.push_iff, Ensures.answer_iff, Ensures.go_iff] <;>
      exact ⟨fun _ => ⟨rfl, rfl⟩, fun _ => ⟨rfl, rfl⟩⟩
  case forgetAccessor | forgetParcel | matchKind =>
    split <;> simp only [Ensures.go_iff, Ensures.answer_iff, Ensures.run_iff] <;> exact ⟨rfl, rfl⟩
  all_goals
    simp only [Ensures.whenUsable_iff, Ensures.whenFree_iff, Ensures.ite_iff, Ensures.answer_iff,
      Ensures.run_iff, Ensures.go_iff]
    first
    | exact ⟨rfl, rfl⟩
    | exact ⟨fun _ => ⟨rfl, rfl⟩, fun _ => ⟨rfl, rfl⟩⟩
    | exact ⟨fun _ _ => ⟨rfl, rfl⟩, fun _ => ⟨rfl, rfl⟩⟩

theorem Task.step_drops (world : World σ ν) (s : SlotId) (id : ThreadId) (task : Task σ ν) :
    Ensures (task.step world id) (Move.Drops s world (.task task) none) := by
  have rests {move : Move σ ν} (same : move.world.drops s = world.drops s)
      (frames : move.frames.filterMap (Frame.releasing? s) = []) :
      move.Drops s world (.task task) none :=
    Move.Silent.drops ⟨same, frames⟩ _ rfl
  cases task with
  | start call => exact (call.start_silent world s).imp fun _ silent => silent.drops _ rfl
  | letGo handles exit =>
      have gone (handle : Handle) : (world.relinquish handle).drops s = world.drops s :=
        world.recollect_relinquish _ handle
      refine .letGo (fun _ => rests rfl rfl) (fun handle _ _ _ => rests (gone handle) rfl)
        (fun t _ _ _ => rests (Eq.trans ?_ (gone (.slot t))) rfl) fun sc _ _ => rests (gone (.scope sc)) rfl
      exact World.recollect_discardSlot _ _ t (fun _ _ => rfl) fun _ => rfl
  | enter t =>
      simp only [step, Ensures.bind_iff, Ensures.ite_iff, Ensures.go_iff]
      intro entered action
      have same : entered.drops s = world.drops s := world.recollect_enterSlot _ action
      exact ⟨fun _ => rests same rfl, fun _ => rests same rfl⟩
  | swap t =>
      simp only [step, Ensures.ite_iff, Ensures.go_iff, Ensures.endDrop_iff]
      refine ⟨fun dropped => ?_, fun _ => rests rfl rfl⟩
      by_cases equal : t = s
      · subst equal
        refine .again dropped ?_
        exact (world.recollect_act _ _).trans (by simp [Mark.drop?, World.drops])
      · refine rests ((world.recollect_act _ _).trans ?_) rfl
        simp [Mark.drop?, equal, World.drops]
  | take t =>
      simp only [step, Ensures.whenFree_iff]
      intro _
      split
      · next value held =>
          rw [Ensures.run_iff]
          by_cases equal : t = s
          · subst equal
            have pushed : [(.releasing t value : Frame σ ν)].filterMap (Frame.releasing? t) =
                [value] := by simp [Frame.releasing?]
            rw [Move.Drops, pushed]
            refine .runs held ?_ ?_
            · simp [World.drops, World.recollect, Mark.drop?]
            · exact (world.condition_change t t _).trans (if_pos rfl)
          · refine rests ?_ ?_
            · simp [World.drops, World.recollect, Mark.drop?, equal]
            · simp [Frame.releasing?, equal]
      · next empty =>
          rw [Ensures.endDrop_iff]
          by_cases equal : t = s
          · subst equal
            refine .empty empty ?_
            exact (world.recollect_act _ _).trans (by simp [Mark.drop?, World.drops])
          · refine rests ((world.recollect_act _ _).trans ?_) rfl
            simp [Mark.drop?, equal, World.drops]
  | releaseLate t value =>
      simp only [step, Ensures.run_iff]
      by_cases equal : t = s
      · subst equal
        refine .late rfl ?_
        exact (world.recollect_act _ _).trans (by simp [Mark.drop?, World.drops])
      · refine rests ((world.recollect_act _ _).trans ?_) rfl
        simp [Mark.drop?, equal, World.drops]
  | look t | lookAgain t | copyValue t made cloner =>
      simp only [step, Ensures.whenFree_iff]
      intro _
      split <;> simp only [Ensures.answer_iff, Ensures.go_iff, Ensures.run_iff] <;>
        exact rests rfl rfl
  | copy t cloner =>
      have same : (world.copySlot t).1.drops s = world.drops s :=
        world.recollect_copySlot _ t (fun _ _ => rfl) (fun _ _ => rfl) fun _ _ => rfl
      simp only [step, Ensures.whenFree_iff]
      intro _
      split <;> rw [Ensures.go_iff] <;> exact rests same rfl
  | sift selection error rest places =>
      cases rest <;> simp only [step, Ensures.proceed_iff, Ensures.ask_iff]
      · exact ⟨fun _ _ => rests rfl rfl, fun _ _ _ => rests rfl rfl, fun _ _ => rests rfl rfl⟩
      · exact ⟨fun _ => rests rfl rfl, fun _ => rests rfl rfl, fun _ _ => rests rfl rfl⟩
  | links t error rest | handlers t error rest =>
      cases rest <;> simp only [step, Ensures.go_iff, Ensures.push_iff, Ensures.answer_iff,
        Ensures.run_iff] <;> exact rests rfl rfl
  | dispose droppable =>
      cases droppable <;> simp only [step, Ensures.go_iff, Ensures.answer_iff, Ensures.run_iff] <;>
        exact rests rfl rfl
  | disposeAll rest failures =>
      cases rest <;> simp only [step, Ensures.answer_iff, Ensures.push_iff]
      · split <;> exact rests rfl rfl
      · exact rests rfl rfl
  | drain sc ran failures =>
      simp only [step]
      split <;> rw [Ensures.go_iff] <;> exact rests rfl rfl
  | batch sc rest ran failures =>
      cases rest with
      | nil =>
          simp only [step, Ensures.go_iff]
          exact rests rfl rfl
      | cons action rest =>
          simp only [step]
          split <;> simp only [Ensures.run_iff, Ensures.push_iff] <;> exact rests rfl rfl
  | report sc ran failures =>
      simp only [step, Ensures.answer_iff]
      exact rests (World.recollect_emitAll _ _ (List.forall_mem_map.mpr fun _ _ => rfl)) rfl
  | finish exit => simp [step]
  | produce t =>
      simp only [step, Ensures.ite_iff, Ensures.go_iff, Ensures.run_iff]
      exact ⟨fun _ => rests rfl rfl, fun _ => rests rfl rfl⟩
  | consult | lockValue | confirm | store | unlockValue | leave | deliver =>
      simp only [step, Ensures.whenFree_iff, Ensures.ite_iff, Ensures.go_iff, Ensures.answer_iff]
      first
      | exact rests rfl rfl
      | exact fun _ => rests rfl rfl
      | exact ⟨fun _ => rests rfl rfl, fun _ => rests rfl rfl⟩

theorem Frame.resume_drops (world : World σ ν) (s : SlotId) (exit : Exit) (frame : Frame σ ν) :
    Ensures (frame.resume world exit) (Move.Drops s world (.task (.finish exit)) (some frame)) := by
  have rests {move : Move σ ν} (other : frame.releasing? s = none)
      (same : move.world.drops s = world.drops s)
      (frames : move.frames.filterMap (Frame.releasing? s) = []) :
      move.Drops s world (.task (.finish exit)) (some frame) := by
    refine Move.Silent.drops ⟨same, frames⟩ _ ?_
    rw [Option.toList_some, List.filterMap_cons, other]
    rfl
  cases frame with
  | releasing t value =>
      simp only [resume, Ensures.endDrop_iff]
      by_cases equal : t = s
      · subst equal
        have popped : (some (.releasing t value : Frame σ ν)).toList.filterMap
            (Frame.releasing? t) = [value] := by simp [Frame.releasing?]
        rw [Move.Drops, popped]
        refine .ends rfl ?_
        exact (world.recollect_act _ _).trans (by simp [Mark.drop?, World.drops])
      · refine rests (if_neg equal) ((world.recollect_act _ _).trans ?_) rfl
        simp [Mark.drop?, equal, World.drops]
  | initializing t =>
      simp only [resume, Ensures.initializerEnded_iff]
      exact ⟨fun _ _ => rests rfl rfl rfl,
        fun _ _ => ⟨fun _ _ => rests rfl rfl rfl, fun _ => rests rfl rfl rfl⟩⟩
  | releasingLate | vanishing | guarding =>
      cases exit with
      | panicked =>
          simp only [resume, Ensures.go_iff]
          exact rests rfl rfl rfl
      | returned reply =>
          cases failed : reply.error? <;>
            simp only [resume, failed, Ensures.go_iff, Ensures.answer_iff] <;>
            exact rests rfl rfl rfl
  | closing sc outcome =>
      cases exit <;> simp only [resume, Ensures.go_iff]
      · refine rests rfl (World.recollect_emitAll _ _ ?_) rfl
        exact outcome.unwindingEvents_silent (fun _ _ => rfl) sc _
      · exact rests rfl rfl rfl
  | linking | handling =>
      cases exit <;> simp only [resume]
      · split <;> rw [Ensures.go_iff] <;> exact rests rfl rfl rfl
      · rw [Ensures.go_iff]
        exact rests rfl rfl rfl
  | getting | orNone | orElse | expiring =>
      simp only [resume, Guard.close]
      split <;> simp only [Ensures.run_iff, Ensures.push_iff, Ensures.go_iff, Ensures.answer_iff] <;>
        exact rests rfl rfl rfl
  | reading announced =>
      cases exit <;> simp only [resume]
      · refine .configRead fun _ events told =>
          rests rfl (World.recollect_emitAll _ _ fun event member => ?_) rfl
        obtain ⟨policy, rfl⟩ | ⟨error, rfl⟩ := told event member <;> rfl
      · rw [Ensures.go_iff]
        exact rests rfl rfl rfl
  | _ =>
      cases exit <;> simp only [resume, Ensures.run_iff, Ensures.go_iff, Ensures.answer_iff,
        Ensures.some_iff, Ensures.push_iff] <;> exact rests rfl rfl rfl

theorem Thread.step_drops {world next : World σ ν} {thread after : Thread σ ν} (s : SlotId)
    (action : thread.step world = some (next, after)) :
    ∃ popped pushed rest, thread.releasing s = popped ++ rest ∧ after.releasing s = pushed ++ rest ∧
      Drops s world next thread.control thread.top? after.control popped pushed := by
  refine step_rule (fun thread next after => ∃ popped pushed rest,
    thread.releasing s = popped ++ rest ∧ after.releasing s = pushed ++ rest ∧
      Drops s world next thread.control thread.top? after.control popped pushed) ?_ ?_ ?_ action
  · intro id code stack move made
    have frames : move.frames.filterMap (Frame.releasing? s) = [] ∧
        move.world.drops s = world.drops s := by
      cases code <;> simp only [Code.step] at made <;> obtain rfl := Option.some.inj made <;>
        exact ⟨rfl, rfl⟩
    refine ⟨[], [], stack.filterMap (Frame.releasing? s), rfl, ?_, .quiet frames.2⟩
    rw [releasing, List.filterMap_append, frames.1]
  · intro id task stack move made
    have top : Thread.top? ⟨id, .task task, stack⟩ = none := by
      cases task <;> first | rfl | contradiction
    rw [top]
    exact ⟨[], _, stack.filterMap (Frame.releasing? s), rfl, List.filterMap_append,
      task.step_drops world s id move made⟩
  · intro id exit frame stack move made
    refine ⟨_, _, stack.filterMap (Frame.releasing? s), ?_, List.filterMap_append,
      frame.resume_drops world s exit move made⟩
    simp only [releasing, List.filterMap_cons, Option.toList_some, List.filterMap_nil]
    cases frame.releasing? s <;> rfl

/-! ## What is left of a slot whose value has been handed over -/

structure Condition.Spent (condition : Condition) : Prop where
  dropped : condition.dropped = true
  empty : condition.value = none
  unset : condition.initializing = false

def Stage.Bare (stage : Stage) (s : SlotId) : Prop :=
  ∀ value, stage ≠ .carrying s value ∧ stage ≠ .late s value

section
variable {world next : World σ ν} {makes : Prop} {runs : Code σ ν → Prop} {stage stage' : Stage}
  {ended : Option Pause} {pushed rest : List Pause} {s : SlotId}

theorem Stage.bare_idle (s : SlotId) : Stage.idle.Bare s :=
  fun _ => ⟨nofun, nofun⟩

theorem Effect.spent (effect : Effect world next makes runs stage ended stage' pushed)
    (guarded : Guarded world.condition stage (ended.toList ++ rest))
    (awaited : ∀ c, ended = some (.cloning c) → world.condition c = {}) 
    (spent : (world.condition s).Spent) (bare : stage.Bare s) :
    (next.condition s).Spent ∧ stage'.Bare s := by
  have changed {t : SlotId} {condition : Condition} {deeds : List Deed} {made : Nat}
      (change : world.Alters next t condition deeds made)
      (keeps : t = s → condition.Spent) : (next.condition s).Spent := by
    rw [change.condition s]
    split
    · next equal => exact keeps equal
    · exact spent
  have kept (same : world.Alike next) : (next.condition s).Spent := by
    rw [same.condition]
    exact spent
  obtain ⟨dropped, empty, unset⟩ := spent
  cases effect
  case quiet same => exact ⟨kept same, bare⟩
  case overtaken t value same late =>
    refine ⟨kept same, fun value => ⟨nofun, ?_⟩⟩
    rintro ⟨⟩
    exact absurd rfl (bare _).1
  case copied same made =>
    refine ⟨kept same, fun value => ?_⟩
    rcases made with rfl | rfl <;> exact ⟨nofun, nofun⟩
  case began t code undropped change =>
    refine ⟨changed change ?_, Stage.bare_idle s⟩
    rintro rfl
    exact absurd (undropped.symm.trans dropped) nofun
  case swapped t undropped change =>
    refine ⟨changed change ?_, fun value => ⟨nofun, nofun⟩⟩
    rintro rfl
    exact absurd (undropped.symm.trans dropped) nofun
  case produced t value fresh change =>
    -- An initializer that ends has been running, which it does not in a spent slot.
    have other : t ≠ s := by
      rintro rfl
      have running := guarded.set_of_paused (.head _)
      exact absurd (unset.symm.trans running) nofun
    refine ⟨changed change fun equal => absurd equal other, fun value => ⟨?_, nofun⟩⟩
    rintro ⟨⟩
    exact other rfl
  case stored t value change =>
    refine ⟨changed change ?_, Stage.bare_idle s⟩
    rintro rfl
    exact absurd ((guarded.undropped t value rfl).symm.trans dropped) nofun
  case cloned t value fresh change =>
    refine ⟨changed change ?_, fun value => ⟨nofun, nofun⟩⟩
    rintro rfl
    rw [awaited t rfl] at dropped
    contradiction
  case failed t change =>
    refine ⟨changed change ?_, Stage.bare_idle s⟩
    rintro rfl
    exact ⟨dropped, empty, rfl⟩
  case released t value code change =>
    refine ⟨changed change ?_, Stage.bare_idle s⟩
    rintro rfl
    exact ⟨dropped, empty, unset⟩
  case took t value code held change =>
    refine ⟨changed change ?_, Stage.bare_idle s⟩
    rintro rfl
    exact ⟨dropped, rfl, unset⟩
  case discarded t value gone held change =>
    refine ⟨changed change ?_, Stage.bare_idle s⟩
    rintro rfl
    exact ⟨dropped, rfl, unset⟩
  all_goals
    have same : world.Alike next := by assumption
    exact ⟨kept same, fun value => ⟨nofun, nofun⟩⟩

theorem Effect.late (effect : Effect world next makes runs stage ended stage' pushed)
    (guarded : Guarded world.condition stage (ended.toList ++ rest))
    (late : ∀ value, stage = .late s value → (world.condition s).Spent) {value : Value}
    (comes : stage' = .late s value) : (next.condition s).Spent := by
  cases effect with
  | quiet same =>
      rw [same.condition]
      exact late value comes
  | overtaken same dropped =>
      cases comes
      rw [same.condition]
      exact ⟨dropped, guarded.vacant s rfl, guarded.clear s rfl⟩
  | copied source same made => rcases made with rfl | rfl <;> contradiction
  | _ => contradiction

end

/-! ## Runs -/

/-- What may become of a slot's drop handler later on. -/
def Release.Leads (release later : Release) : Prop :=
  release = .never ∨ later = release ∨
    ∃ value exit, release = .running value ∧ later = .finished value exit

theorem Release.Leads.refl (release : Release) : release.Leads release :=
  .inr (.inl rfl)

theorem Release.Leads.trans {release between later : Release} (first : release.Leads between)
    (second : between.Leads later) : release.Leads later := by
  rcases first with never | rfl | ⟨value, exit, runs, rfl⟩
  · exact .inl never
  · exact second
  · rcases second with never | rfl | ⟨value, exit, again, -⟩
    · contradiction
    · exact .inr (.inr ⟨value, exit, runs, rfl⟩)
    · contradiction

structure Releases (world : World σ ν) (thread : Thread σ ν) (s : SlotId) (release : Release) :
    Prop where
  drops : Dropped release (world.drops s)
  running : thread.releasing s = release.running?.toList
  spent : release ≠ .never → (world.condition s).Spent ∧ thread.control.stage.Bare s
  late : ∀ value, thread.control.stage = .late s value → (world.condition s).Spent

namespace Releases

variable {world next : World σ ν} {thread after : Thread σ ν} {s : SlotId} {release : Release}

theorem never (releases : Releases world thread s release) {value : Value}
    (held : (world.slot s).value = some value) : release = .never := by
  by_contra used
  exact absurd (held.symm.trans (releases.spent used).1.empty) nofun

theorem never_of_late (releases : Releases world thread s release) {value : Value}
    (late : thread.control.stage = .late s value) : release = .never := by
  by_contra used
  exact ((releases.spent used).2 value).2 late

theorem spent_of_taking (tracked : Tracked world thread) (taking : thread.control.stage = .taking s)
    {value : Value} (held : (world.slot s).value = some value)
    (taken : next.condition s = { world.condition s with value := none }) :
    (next.condition s).Spent := by
  rw [taken]
  refine ⟨tracked.taking s taking, rfl, ?_⟩
  -- While an initializer runs its slot is empty.
  cases set : (world.condition s).initializing with
  | false => rfl
  | true => exact absurd (held.symm.trans (tracked.sound.guarded.blank s set)) nofun

theorem step (releases : Releases world thread s release) (tracked : Tracked world thread)
    (action : thread.step world = some (next, after)) :
    ∃ later, release.Leads later ∧ Releases next after s later := by
  obtain ⟨pauses, others, before, afterwards, effect⟩ := Thread.step_affects action
  obtain ⟨popped, pushed, rest, frames, frames', drops⟩ := Thread.step_drops s action
  have guarded := tracked.sound.guarded
  rw [before] at guarded
  have awaited : ∀ c, thread.ended? = some (.cloning c) → world.condition c = {} := by
    intro c ended
    refine tracked.sound.discreet.blank c (List.mem_append_right _ ?_)
    simp [before, ended, Pause.copy?]
  have late : ∀ value, after.control.stage = .late s value → (next.condition s).Spent :=
    fun value comes => effect.late guarded releases.late comes
  have spent : release ≠ .never → (next.condition s).Spent ∧ after.control.stage.Bare s :=
    fun used => effect.spent guarded awaited (releases.spent used).1 (releases.spent used).2
  have running := releases.running
  rw [frames] at running
  have taking (work : thread.control = .task (.take s)) : thread.control.stage = .taking s := by
    rw [work]
    rfl
  have bare {code : Code σ ν} (runs : after.control = .code code) : after.control.stage.Bare s := by
    rw [runs]
    exact Stage.bare_idle s
  generalize work : thread.control = control at drops
  generalize work' : after.control = control' at drops
  generalize thread.top? = top at drops
  cases drops with
  | quiet same =>
      refine ⟨release, .refl release, ?_, frames'.trans running, spent, late⟩
      rw [same]
      exact releases.drops
  | again _ ended | empty _ ended =>
      refine ⟨release, .refl release, ?_, frames'.trans running, spent, late⟩
      rw [ended]
      exact .silent releases.drops
  | @runs value code held began taken =>
      obtain rfl := releases.never held
      refine ⟨.running value, .inl rfl, ?_, ?_, fun _ => ⟨?_, bare work'⟩, late⟩
      · rw [began]
        exact .runs releases.drops
      · rw [frames']
        exact congrArg (value :: ·) running
      · exact spent_of_taking tracked (taking work) held taken
  | @ends value exit same ended =>
      -- The frame that is used up is the only one, and belongs to the drop call that runs the handler.
      have runs : release = .running value ∧ rest = [] := by
        cases release <;> simp only [Release.running?, Option.toList_none, Option.toList_some,
          List.singleton_append, reduceCtorEq, List.cons.injEq] at running
        exact ⟨by rw [running.1], running.2⟩
      obtain ⟨rfl, rfl⟩ := runs
      refine ⟨.finished value exit, .inr (.inr ⟨value, exit, rfl, rfl⟩), ?_, frames', ?_, late⟩
      · rw [ended]
        exact .ends releases.drops exit
      · exact fun _ => spent (by rintro ⟨⟩)
  | @late value code same handed =>
      have comes : thread.control.stage = .late s value := by
        rw [work]
        rfl
      obtain rfl := releases.never_of_late comes
      refine ⟨.late value, .inl rfl, ?_, frames'.trans running, fun _ => ⟨?_, bare work'⟩, late⟩
      · rw [handed]
        exact .late releases.drops
      · rw [same]
        exact releases.late value comes

theorem ofCode (memory : σ) (id : ThreadId) (code : Code σ ν) (s : SlotId) :
    Releases { memory } (.ofCode id code) s .never :=
  ⟨.nobody, rfl, fun used => absurd rfl used, nofun⟩

theorem advance (releases : Releases world thread s release) (tracked : Tracked world thread)
    (steps : Nat) :
    ∃ later, release.Leads later ∧
      Releases (Thread.advance steps world thread).1 (Thread.advance steps world thread).2 s
        later := by
  refine (Thread.advance_rule
    (fun next after => Tracked next after ∧ ∃ later, release.Leads later ∧ Releases next after s later)
    (fun middle between next after earlier action => ?_)
    ⟨tracked, release, .refl release, releases⟩ steps).2
  obtain ⟨tracked, now, leads, releases⟩ := earlier
  obtain ⟨later, further, releases⟩ := releases.step tracked action
  exact ⟨tracked.step action, later, leads.trans further, releases⟩

end Releases

/-! ## How often a drop handler is called -/

def Drop.handed? : Drop → Option Value
  | handed value => some value
  | _ => none

def Release.value? : Release → Option Value
  | never => none
  | late value | running value | finished value _ => some value

theorem Dropped.handed_once {release : Release} {drops : List Drop} (dropped : Dropped release drops) :
    drops.filterMap Drop.handed? = release.value?.toList := by
  induction dropped with
  | nobody => rfl
  | silent _ ih | ends _ _ ih => exact ih
  | late _ ih | runs _ ih => exact congrArg (_ :: ·) ih

theorem World.handed_eq_drops (world : World σ ν) (s : SlotId) :
    (world.handed.filter fun entry => entry.1 = s).map Prod.snd =
      (world.drops s).filterMap Drop.handed? := by
  unfold handed ledger drops recollect
  induction world.history with
  | nil => rfl
  | cons mark earlier ih =>
      cases mark with
      | act act =>
          cases act with
          | handed t value | dropEnded t exit =>
              by_cases same : t = s <;>
                simpa [List.filterMap_cons, Mark.deed?, Mark.drop?, Deed.handed?, Drop.handed?, same]
                  using ih
          | _ => exact ih
      | event event =>
          cases event with
          | releasing t =>
              by_cases same : t = s <;>
                simpa [List.filterMap_cons, Mark.deed?, Mark.drop?, Drop.handed?, same] using ih
          | _ => exact ih
      | note note => exact ih

theorem Releases.handed_once {world : World σ ν} {thread : Thread σ ν} {s : SlotId} {release : Release}
    (releases : Releases world thread s release) :
    (world.handed.filter fun entry => entry.1 = s).length ≤ 1 := by
  have told := congrArg List.length (world.handed_eq_drops s)
  rw [List.length_map, releases.drops.handed_once] at told
  rw [told]
  cases release.value? <;> simp

end Relinquish
