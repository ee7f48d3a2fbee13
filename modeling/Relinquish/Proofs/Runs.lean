import Relinquish.Proofs.Moves

/-!
Runs above a stack. What a thread does above a stack does not depend on it, so a piece of code or a
task can be run alone, above nothing, and the run can be put on any stack; and a run that empties
its stack can be cut where a frame gets the end of what was above it.
-/

namespace Relinquish

variable {σ ν : Type}

/-! ## The thread that a stack goes back to -/

def Frame.starter? : Frame σ ν → Option ThreadId
  | joined starter _ => some starter
  | _ => none

def Thread.home (thread : Thread σ ν) : ThreadId :=
  (thread.stack.filterMap Frame.starter?).getLast?.getD thread.id

def Move.Stays (move : Move σ ν) : Prop :=
  move.thread = none ∧ move.frames.filterMap Frame.starter? = []

theorem Call.start_stays (world : World σ ν) (call : Call σ ν) :
    Ensures (call.start world) Move.Stays := by
  cases call <;> simp only [start]
  case access =>
    split
    · unfold Accessor.frame
      split <;> simp [Move.Stays, Frame.starter?]
    · simp [Move.Stays]
  case dropAccessed | forgetAccessor | dispose | forgetParcel | matchKind =>
    split <;> simp [Move.Stays, Frame.starter?]
  case dropThrough | releaseGuard | disarmGuard | forgetGuard =>
    simp only [Ensures.whenConsumable_iff, Ensures.ite_iff, Guard.close]
    split <;> simp [Move.Stays, Frame.starter?]
  all_goals simp [Move.Stays, Frame.starter?]

theorem Task.step_stays (world : World σ ν) (id : ThreadId) (task : Task σ ν) :
    Ensures (task.step world id) Move.Stays := by
  cases task with
  | start call => exact call.start_stays world
  | letGo handles exit =>
      rcases handles with - | ⟨s | sc, rest⟩ <;> simp [step, Move.Stays, Frame.starter?]
  | look | lookAgain | take | copyValue =>
      simp only [step, Ensures.whenFree_iff]
      split <;> simp [Move.Stays, Frame.starter?]
  | copy s cloner => cases cloner <;> simp [step, Move.Stays]
  | sift selection error rest | links s error rest | handlers s error rest | disposeAll rest =>
      cases rest <;> simp [step, Move.Stays, Frame.starter?]
  | dispose droppable => cases droppable <;> simp [step, Move.Stays]
  | drain sc ran failures =>
      simp only [step]
      split <;> simp [Move.Stays]
  | batch sc rest ran failures =>
      rcases rest with - | ⟨⟨action, code | s⟩, rest⟩ <;> simp [step, Move.Stays, Frame.starter?]
  | _ => simp [step, Move.Stays, Frame.starter?]

theorem Frame.resume_stays (world : World σ ν) (exit : Exit) (frame : Frame σ ν) :
    Ensures (frame.resume world exit) fun move => frame.starter? = none → move.Stays := by
  cases frame with
  | initializing s => simp [resume, Move.Stays]
  | linking | handling =>
      cases exit <;> simp only [resume]
      · split <;> simp [Move.Stays]
      · simp [Move.Stays]
  | getting | orNone | orElse | expiring =>
      simp only [resume, Guard.close]
      split <;> simp [Move.Stays, Frame.starter?]
  | reading announced =>
      cases exit <;> simp only [resume]
      · exact .configRead fun _ _ _ _ => ⟨rfl, rfl⟩
      · simp [Move.Stays]
  | _ => cases exit <;> simp [resume, Move.Stays, Frame.starter?]

theorem Thread.home_of_stays (id : ThreadId) (control : Control σ ν) (stack : List (Frame σ ν))
    {move : Move σ ν} (stays : move.Stays) :
    Thread.home ⟨move.thread.getD id, move.control, move.frames ++ stack⟩ =
      Thread.home ⟨id, control, stack⟩ := by
  simp [home, List.filterMap_append, stays.1, stays.2]

theorem Thread.home_step {world next : World σ ν} {thread after : Thread σ ν}
    (action : thread.step world = some (next, after)) : after.home = thread.home := by
  refine step_rule (fun thread _ after => after.home = thread.home) ?_ ?_ ?_ action
  · intro id code stack
    cases code with
    | elsewhere body continuation =>
        simp [Code.step, home, Frame.starter?]
    | _ =>
        simp [Code.step, home, Frame.starter?]
  · intro id task stack move made
    exact home_of_stays id (.task task) stack (task.step_stays world id move made)
  · intro id exit frame stack move made
    cases starter : frame.starter? with
    | none =>
        rw [home_of_stays id move.control stack (frame.resume_stays world exit move made starter)]
        simp only [home, List.filterMap_cons, starter]
    | some other =>
        cases frame <;> simp only [Frame.starter?, reduceCtorEq, Option.some.injEq] at starter
        subst starter
        obtain rfl := Option.some.inj made
        simp [home, List.getLast?_cons, Frame.starter?]

/-! ## Runs above a stack -/

namespace Thread

def above (thread : Thread σ ν) (base : List (Frame σ ν)) : Thread σ ν :=
  { thread with stack := thread.stack ++ base }

theorem step_above (world : World σ ν) (thread : Thread σ ν) (base : List (Frame σ ν))
    (running : thread.exit? = none) :
    (thread.above base).step world =
      (thread.step world).map fun (next, after) => (next, after.above base) := by
  obtain ⟨id, control, stack⟩ := thread
  cases control with
  | code code =>
      simp [step, above, after, Function.comp_def]
  | task task =>
      cases task with
      | finish exit =>
          cases stack with
          | nil => simp [exit?] at running
          | cons frame stack =>
              simp [step, above, after, Function.comp_def]
      | _ =>
          simp [step, above, after, Function.comp_def]

def Reaches (world : World σ ν) (thread : Thread σ ν) (next : World σ ν) (after : Thread σ ν) :
    Prop :=
  ∃ steps, advance steps world thread = (next, after)

theorem Reaches.refl (world : World σ ν) (thread : Thread σ ν) :
    Reaches world thread world thread :=
  ⟨0, rfl⟩

theorem Reaches.trans {world middle next : World σ ν} {thread between after : Thread σ ν}
    (first : Reaches world thread middle between) (second : Reaches middle between next after) :
    Reaches world thread next after := by
  obtain ⟨m, first⟩ := first
  obtain ⟨n, second⟩ := second
  refine ⟨m + n, ?_⟩
  rw [advance_add, first]
  exact second

theorem Reaches.step {world middle next : World σ ν} {thread between after : Thread σ ν}
    (action : thread.step world = some (middle, between))
    (rest : Reaches middle between next after) : Reaches world thread next after := by
  obtain ⟨n, rest⟩ := rest
  refine ⟨n + 1, ?_⟩
  simpa only [advance, action] using rest

theorem Reaches.onward {m n : Nat} (world : World σ ν) (thread : Thread σ ν) (earlier : m ≤ n) :
    Reaches (advance m world thread).1 (advance m world thread).2
      (advance n world thread).1 (advance n world thread).2 := by
  obtain ⟨more, rfl⟩ := Nat.exists_eq_add_of_le earlier
  exact ⟨more, (advance_add m more world thread).symm⟩

theorem exit?_eq_some {thread : Thread σ ν} {exit : Exit} (ended : thread.exit? = some exit) :
    thread = ⟨thread.id, .task (.finish exit), []⟩ := by
  obtain ⟨id, control, stack⟩ := thread
  cases control with
  | code => simp [exit?] at ended
  | task task =>
      cases stack <;> cases task <;> simp [exit?] at ended
      rw [ended]

theorem running_of_step {world next : World σ ν} {thread after : Thread σ ν}
    (action : thread.step world = some (next, after)) : thread.exit? = none := by
  cases ended : thread.exit? with
  | none => rfl
  | some exit =>
      rw [exit?_eq_some ended] at action
      contradiction

theorem advance_finish (steps : Nat) (world : World σ ν) (id : ThreadId) (exit : Exit) :
    advance steps world ⟨id, .task (.finish exit), []⟩ = (world, ⟨id, .task (.finish exit), []⟩) := by
  cases steps <;> simp [advance, step]

theorem Reaches.rest {world middle next : World σ ν} {thread between : Thread σ ν} {id : ThreadId}
    {exit : Exit} (first : Reaches world thread middle between)
    (run : Reaches world thread next ⟨id, .task (.finish exit), []⟩) :
    Reaches middle between next ⟨id, .task (.finish exit), []⟩ := by
  obtain ⟨m, first⟩ := first
  obtain ⟨n, run⟩ := run
  rcases Nat.le_total m n with less | more
  · obtain ⟨further, rfl⟩ := Nat.exists_eq_add_of_le less
    rw [advance_add, first] at run
    exact ⟨further, run⟩
  · obtain ⟨further, rfl⟩ := Nat.exists_eq_add_of_le more
    rw [advance_add, run, advance_finish] at first
    obtain ⟨rfl, rfl⟩ := Prod.mk.inj first
    exact .refl next _

theorem Reaches.within {world next : World σ ν} {thread after : Thread σ ν} {steps : Nat}
    {exit : Exit} (run : Reaches world thread next after)
    (ended : (advance steps world thread).2.exit? = some exit) :
    ∃ n ≤ steps, advance n world thread = (next, after) := by
  obtain ⟨n, run⟩ := run
  rcases Nat.le_total n steps with less | more
  · exact ⟨n, less, run⟩
  · obtain ⟨further, rfl⟩ := Nat.exists_eq_add_of_le more
    rw [advance_add, exit?_eq_some ended, advance_finish, ← exit?_eq_some ended] at run
    exact ⟨steps, Nat.le_refl _, run⟩

theorem Reaches.above {world next : World σ ν} {thread after : Thread σ ν}
    (run : Reaches world thread next after) (base : List (Frame σ ν)) :
    Reaches world (thread.above base) next (after.above base) := by
  obtain ⟨steps, run⟩ := run
  induction steps generalizing world thread with
  | zero =>
      obtain ⟨rfl, rfl⟩ := Prod.mk.inj run
      exact .refl world (thread.above base)
  | succ steps ih =>
      cases ended : thread.exit? with
      | some exit =>
          rw [exit?_eq_some ended, advance_finish, ← exit?_eq_some ended] at run
          obtain ⟨rfl, rfl⟩ := Prod.mk.inj run
          exact .refl world (thread.above base)
      | none =>
          cases action : thread.step world with
          | none =>
              simp only [advance, action] at run
              obtain ⟨rfl, rfl⟩ := Prod.mk.inj run
              exact .refl world (thread.above base)
          | some reached =>
              simp only [advance, action] at run
              refine .step ?_ (ih run)
              rw [step_above world thread base ended, action]
              rfl

end Thread

/-- Code or a task, run alone by a thread, comes to its end. -/
def Ends (id : ThreadId) (world : World σ ν) (control : Control σ ν) (exit : Exit)
    (next : World σ ν) : Prop :=
  Thread.Reaches world ⟨id, control, []⟩ next ⟨id, .task (.finish exit), []⟩

namespace Ends

variable {id : ThreadId} {world next : World σ ν} {control : Control σ ν} {exit : Exit}

theorem finish (id : ThreadId) (world : World σ ν) (exit : Exit) :
    Ends id world (.task (.finish exit)) exit world :=
  .refl world _

theorem above (run : Ends id world control exit next) (base : List (Frame σ ν)) :
    Thread.Reaches world ⟨id, control, base⟩ next ⟨id, .task (.finish exit), base⟩ := by
  simpa only [Thread.above, List.nil_append] using Thread.Reaches.above run base

theorem unique {other : Exit} {elsewhere : World σ ν} (run : Ends id world control exit next)
    (again : Ends id world control other elsewhere) : other = exit ∧ elsewhere = next := by
  obtain ⟨steps, ended⟩ := Thread.Reaches.rest run again
  rw [Thread.advance_finish] at ended
  simp only [Prod.mk.injEq, Thread.mk.injEq, Control.task.injEq, Task.finish.injEq] at ended
  exact ⟨ended.2.2.1.symm, ended.1.symm⟩

theorem unstuck (run : Ends id world control exit next)
    (stuck : Thread.step world ⟨id, control, []⟩ = none) : control = .task (.finish exit) := by
  obtain ⟨steps, run⟩ := run
  cases steps <;> simp_all [Thread.advance]

end Ends

/-- A run that uses up a frame can be cut where the frame gets the end of what was above it. -/
theorem Thread.advance_cut {world next : World σ ν} {thread after : Thread σ ν} {frame : Frame σ ν}
    {base : List (Frame σ ν)} (steps : Nat)
    (run : advance steps world (thread.above (frame :: base)) = (next, after))
    (used : after.stack.length ≤ base.length) :
    ∃ middle inner left, left ≤ steps ∧
      Reaches world thread middle ⟨thread.home, .task (.finish inner), []⟩ ∧
      advance left middle ⟨thread.home, .task (.finish inner), frame :: base⟩ = (next, after) := by
  have waits : base.length < (thread.above (frame :: base)).stack.length := by
    simp only [Thread.above, List.length_append, List.length_cons]
    omega
  induction steps generalizing world thread with
  | zero =>
      obtain ⟨rfl, rfl⟩ := Prod.mk.inj run
      exact absurd used (Nat.not_le_of_lt waits)
  | succ steps ih =>
      cases ended : thread.exit? with
      | some inner =>
          -- What is above the frame has ended here.
          rw [exit?_eq_some ended] at run ⊢
          exact ⟨world, inner, steps + 1, Nat.le_refl _, .refl world _, run⟩
      | none =>
          cases action : thread.step world with
          | none =>
              simp only [advance, step_above world thread (frame :: base) ended, action,
                Option.map_none] at run
              obtain ⟨rfl, rfl⟩ := Prod.mk.inj run
              exact absurd used (Nat.not_le_of_lt waits)
          | some reached =>
              simp only [advance, step_above world thread (frame :: base) ended, action,
                Option.map_some] at run
              have waits : base.length < (reached.2.above (frame :: base)).stack.length := by
                simp only [Thread.above, List.length_append, List.length_cons]
                omega
              obtain ⟨middle, inner, left, fewer, first, second⟩ := ih run waits
              rw [home_step action] at first second
              exact ⟨middle, inner, left, Nat.le_succ_of_le fewer, .step action first, second⟩

theorem Thread.Reaches.cut {world next : World σ ν} {thread after : Thread σ ν} {frame : Frame σ ν}
    {base : List (Frame σ ν)} (run : Reaches world (thread.above (frame :: base)) next after)
    (used : after.stack.length ≤ base.length) :
    ∃ middle inner,
      Reaches world thread middle ⟨thread.home, .task (.finish inner), []⟩ ∧
      Reaches middle ⟨thread.home, .task (.finish inner), frame :: base⟩ next after := by
  obtain ⟨steps, run⟩ := run
  obtain ⟨middle, inner, left, _, first, second⟩ := advance_cut steps run used
  exact ⟨middle, inner, first, left, second⟩

theorem Thread.Reaches.rule {world next : World σ ν} {thread after : Thread σ ν}
    (run : Reaches world thread next after) (invariant : World σ ν → Thread σ ν → Prop)
    (preserved : ∀ world thread next after, invariant world thread →
      thread.step world = some (next, after) → invariant next after)
    (start : invariant world thread) : invariant next after := by
  obtain ⟨steps, run⟩ := run
  have holds := advance_rule invariant preserved start steps
  rwa [run] at holds

theorem Thread.Reaches.home {world next : World σ ν} {thread after : Thread σ ν}
    (run : Reaches world thread next after) : after.home = thread.home :=
  run.rule (fun _ after => after.home = thread.home)
    (fun _ _ _ _ same action => (home_step action).trans same) rfl

theorem Thread.Reaches.snoc {world middle next : World σ ν} {thread between after : Thread σ ν}
    (run : Reaches world thread middle between) (action : between.step middle = some (next, after)) :
    Reaches world thread next after :=
  run.trans (.step action (.refl next after))

theorem Thread.Reaches.step_above {first world next : World σ ν} {start inner after : Thread σ ν}
    {frame : Frame σ ν} {base : List (Frame σ ν)} (run : Reaches first start world inner)
    (action : (inner.above (frame :: base)).step world = some (next, after)) :
    (∃ further, Reaches first start next further ∧ after = further.above (frame :: base)) ∨
    ∃ exit, Reaches first start world ⟨start.home, .task (.finish exit), []⟩ ∧
      Thread.step world ⟨start.home, .task (.finish exit), frame :: base⟩ = some (next, after) := by
  cases ended : inner.exit? with
  | some exit =>
      rw [exit?_eq_some ended] at run action
      have home : inner.id = start.home := run.home
      rw [home] at run action
      exact .inr ⟨exit, run, action⟩
  | none =>
      rw [Thread.step_above world inner (frame :: base) ended] at action
      obtain ⟨⟨reached, further⟩, made, equal⟩ := Option.map_eq_some_iff.mp action
      obtain ⟨rfl, rfl⟩ := Prod.mk.inj equal
      exact .inl ⟨further, run.snoc made, rfl⟩

/-- After one step at least, the stack of the thread is as short again as it was. -/
def Thread.Leaves (world : World σ ν) (thread : Thread σ ν) (next : World σ ν) (after : Thread σ ν) :
    Prop :=
  ∃ steps, advance (steps + 1) world thread = (next, after) ∧
    after.stack.length ≤ thread.stack.length

theorem Thread.Leaves.ends {world begun next : World σ ν} {thread after : Thread σ ν}
    {control : Control σ ν} {frame : Frame σ ν} (leaves : thread.Leaves world next after)
    (begins : thread.step world = some (begun, ⟨thread.id, control, frame :: thread.stack⟩)) :
    ∃ exit middle, Ends thread.id begun control exit middle := by
  obtain ⟨steps, run, shorter⟩ := leaves
  simp only [advance, begins] at run
  have run : Reaches begun (above ⟨thread.id, control, []⟩ (frame :: thread.stack)) next after :=
    ⟨steps, run⟩
  obtain ⟨middle, exit, ended, _⟩ := run.cut shorter
  exact ⟨exit, middle, ended⟩

end Relinquish
