import Relinquish.Proofs.Locks
import Relinquish.Proofs.Trials

/-!
Refusals. Whoever asks for the value of a slot while its initializer runs is refused, and so is
whoever asks for the value of a slot that is dropped and empty; nothing is run for them, and nothing
changes.
-/

namespace Relinquish

variable {σ ν : Type}

def Call.Gets (s : SlotId) : Call σ ν → Prop
  | getValue t | withValue t _ => t = s
  | _ => False

def Exit.refused (error : DropError) : Exit :=
  .returned (.failed (.drop error))

namespace Thread

/-- The thread gets from one moment to another without running code. -/
inductive Works : World σ ν → Thread σ ν → World σ ν → Thread σ ν → Prop
  | done (world : World σ ν) (thread : Thread σ ν) : Works world thread world thread
  | step {world middle next : World σ ν} {thread between after : Thread σ ν} {work : Task σ ν}
      (working : thread.control = .task work) (action : thread.step world = some (middle, between))
      (rest : Works middle between next after) : Works world thread next after

theorem Works.trans {world middle next : World σ ν} {thread between after : Thread σ ν}
    (first : Works world thread middle between) (second : Works middle between next after) :
    Works world thread next after := by
  induction first with
  | done => exact second
  | step working action _ ih => exact .step working action (ih second)

theorem Works.reaches {world next : World σ ν} {thread after : Thread σ ν}
    (works : Works world thread next after) : Reaches world thread next after := by
  induction works with
  | done world thread => exact .refl world thread
  | step working action rest ih => exact .step action ih

end Thread

/-! ## Looking for a value in vain -/

/-- The thread may enter the slot, which it has entered so many times. -/
inductive World.Admits (world : World σ ν) (s : SlotId) (id : ThreadId) : Nat → Prop
  | free (entered : (world.slot s).entered = none) : Admits world s id 0
  | again {depth : Nat} (entered : (world.slot s).entered = some (id, depth + 1)) :
      Admits world s id (depth + 1)

section
variable {world : World σ ν} {s : SlotId} {id : ThreadId} {depth : Nat}

def World.entering (world : World σ ν) (s : SlotId) (id : ThreadId) (depth : Nat) : World σ ν :=
  world.updateSlot s fun slot => { slot with entered := some (id, depth + 1) }

theorem World.Admits.enterSlot (admits : world.Admits s id depth) :
    world.enterSlot s id = some (world.entering s id depth) := by
  cases admits with
  | free entered => simp only [World.enterSlot, entered, entering]
  | again entered => simp only [World.enterSlot, entered, entering, if_true]

theorem World.Admits.leaveSlot (admits : world.Admits s id depth) (made : s < world.slots.size) :
    (world.entering s id depth).leaveSlot s = world := by
  rw [World.leaveSlot, entering, updateSlot_updateSlot]
  apply updateSlot_self _ made
  have left : (if depth + 1 ≤ 1 then none else some (id, depth)) = (world.slot s).entered := by
    cases admits with
    | free entered => exact entered.symm
    | again entered => exact entered.symm
  simp only [Option.bind_some, Nat.add_sub_cancel, left]

@[simp] theorem World.slot_entering (world : World σ ν) (s : SlotId) (id : ThreadId) (depth : Nat) :
    (world.entering s id depth).slot s = { world.slot s with entered := some (id, depth + 1) } := by
  rw [entering, slot_updateSlot, if_pos rfl]

/-- The slot has no value, and the thread can enter it to get one. -/
structure World.Vacant (world : World σ ν) (s : SlotId) (id : ThreadId) (depth : Nat) : Prop where
  made : s < world.slots.size
  free : world.free (.value s) = true
  empty : (world.slot s).value = none
  admits : world.Admits s id depth

namespace World.Vacant

variable (vacant : world.Vacant s id depth) (stack : List (Frame σ ν))
include vacant

theorem look : Thread.step world ⟨id, .task (.look s), stack⟩ =
    some (world, ⟨id, .task (.enter s), stack⟩) := by
  simp only [Thread.step, Task.step, whenFree, List.all_cons, List.all_nil, vacant.free, vacant.empty,
    Bool.and_true, if_true]
  rfl

theorem enter : Thread.step world ⟨id, .task (.enter s), stack⟩ =
    some (world.entering s id depth, ⟨id,
      .task (if (world.slot s).initializing then .leave s (.finish (.refused .reentrant))
        else .lookAgain s), stack⟩) := by
  simp only [Thread.step, Task.step, vacant.admits.enterSlot, Option.bind_some, slot_entering]
  split <;> rfl

theorem leave (next : Task σ ν) :
    Thread.step (world.entering s id depth) ⟨id, .task (.leave s next), stack⟩ =
      some (world, ⟨id, .task next, stack⟩) := by
  have steps : Thread.step (world.entering s id depth) ⟨id, .task (.leave s next), stack⟩ =
      some ((world.entering s id depth).leaveSlot s, ⟨id, .task next, stack⟩) := rfl
  rw [steps, vacant.admits.leaveSlot vacant.made]

theorem lookAgain : Thread.step (world.entering s id depth) ⟨id, .task (.lookAgain s), stack⟩ =
    some (world.entering s id depth, ⟨id, .task (.produce s), stack⟩) := by
  have free : (world.entering s id depth).free (.value s) = true := vacant.free
  simp only [Thread.step, Task.step, whenFree, List.all_cons, List.all_nil, free, slot_entering,
    vacant.empty, Bool.and_true, if_true]
  rfl

open Thread

theorem refuses (initializing : (world.slot s).initializing = true) :
    Works world ⟨id, .task (.look s), stack⟩ world
      ⟨id, .task (.finish (.refused .reentrant)), stack⟩ := by
  have enters := vacant.enter stack
  rw [if_pos initializing] at enters
  exact .step rfl (vacant.look stack) (.step rfl enters (.step rfl (vacant.leave stack _) (.done _ _)))

theorem withholds (unset : (world.slot s).initializing = false)
    (dropped : (world.slot s).dropped = true) :
    Works world ⟨id, .task (.look s), stack⟩ world
      ⟨id, .task (.finish (.refused .dropped)), stack⟩ := by
  have enters := vacant.enter stack
  rw [if_neg (by simp [unset])] at enters
  have produces : Thread.step (world.entering s id depth) ⟨id, .task (.produce s), stack⟩ =
      some (world.entering s id depth,
        ⟨id, .task (.leave s (.finish (.refused .dropped))), stack⟩) := by
    simp only [Thread.step, Task.step, slot_entering, dropped, if_true]
    rfl
  exact .step rfl (vacant.look stack) (.step rfl enters (.step rfl (vacant.lookAgain stack)
    (.step rfl produces (.step rfl (vacant.leave stack _) (.done _ _)))))

end World.Vacant

theorem World.relinquish_retain (made : s < world.slots.size) :
    (world.retain (.slot s)).relinquish (.slot s) = world := by
  rw [retain, relinquish, updateSlot_updateSlot]
  exact updateSlot_self _ made rfl

open Thread

theorem Thread.step_operate {call : Call σ ν} {frames : List (Frame σ ν)} {work : Task σ ν}
    (handles : 0 < (world.slot s).handles)
    (starts : call.start world = world.operate [.slot s] frames work) (id : ThreadId)
    (stack : List (Frame σ ν)) :
    Thread.step world ⟨id, .task (.start call), stack⟩ =
      some (world.retain (.slot s), ⟨id, .task work, frames ++ .holding [.slot s] :: stack⟩) := by
  have usable : [Handle.slot s].all world.usable = true := by simp [World.usable, handles]
  simp only [Thread.step, Task.step, starts, World.operate, World.whenUsable, usable, if_true]
  rw [List.append_cons frames _ stack]
  rfl

/-- The hold was taken over and above the handles, so giving it up never releases the slot. -/
theorem Thread.Works.giveBack (handles : 0 < (world.slot s).handles) (id : ThreadId) (exit : Exit)
    (stack : List (Frame σ ν)) :
    Works world ⟨id, .task (.finish exit), .holding [.slot s] :: stack⟩ (world.relinquish (.slot s))
      ⟨id, .task (.finish exit), stack⟩ := by
  have held : (world.relinquish (.slot s)).unheld (.slot s) = false := by
    apply decide_eq_false
    rw [World.relinquish, World.slot_updateSlot, if_pos rfl]
    exact Nat.ne_of_gt (Nat.add_pos_left handles _)
  have lets : Thread.step world ⟨id, .task (.letGo [.slot s] exit), stack⟩ =
      some (world.relinquish (.slot s), ⟨id, .task (.letGo [] exit), stack⟩) := by
    simp only [Thread.step, Task.step, held, Bool.false_eq_true, if_false]
    rfl
  exact .step rfl rfl (.step rfl lets (.step rfl rfl (.done _ _)))

theorem Thread.Works.call {call : Call σ ν} (gets : call.Gets s) (handles : 0 < (world.slot s).handles)
    {error : DropError}
    (looks : ∀ stack, Works (world.retain (.slot s)) ⟨id, .task (.look s), stack⟩
      (world.retain (.slot s)) ⟨id, .task (.finish (.refused error)), stack⟩)
    (stack : List (Frame σ ν)) :
    Works world ⟨id, .task (.start call), stack⟩ (world.act (.lookedUp s (.refused error)))
      ⟨id, .task (.finish (.refused error)), stack⟩ := by
  let exit := Exit.refused error
  let looked := (world.retain (.slot s)).act (.lookedUp s exit)
  have gives : Works looked ⟨id, .task (.finish exit), .holding [.slot s] :: stack⟩
      (world.act (.lookedUp s exit)) ⟨id, .task (.finish exit), stack⟩ := by
    have left : 0 < (looked.slot s).handles := by simpa [looked, World.retain] using handles
    have back : looked.relinquish (.slot s) = world.act (.lookedUp s exit) :=
      congrArg (World.act · (.lookedUp s exit))
        (World.relinquish_retain (World.made_of_held (Nat.add_pos_left handles _)))
    exact back ▸ .giveBack left id exit stack
  cases call with
  | getValue t =>
      obtain rfl : t = s := gets
      exact .step rfl (step_operate handles rfl id stack) ((looks _).trans (.step rfl rfl gives))
  | withValue t use =>
      obtain rfl : t = s := gets
      exact .step rfl (step_operate handles rfl id stack)
        ((looks _).trans (.step rfl rfl (.step rfl rfl gives)))
  | _ => exact False.elim gets

end

/-! ## Nobody else is refused -/

def Task.Innocent : Task σ ν → Prop
  | finish exit | letGo _ exit => exit ≠ .refused .reentrant
  | lookAgain _ | produce _ | lockValue _ _ | confirm _ _ | store _ _ | releaseLate _ _ | consult _ _
  | sift _ _ _ _ | links _ _ _ _ _ | handlers _ _ _ _ => True
  | unlockValue _ next | leave _ next => next.Innocent
  | _ => False

/-- Whatever the end of what is above it, the frame does not go on to refuse. -/
def Frame.Innocent : Frame σ ν → Prop
  | .initializing _ | .releasingLate _ _ | .judging _ _ _ _ _ | .linking _ _ _ _ _
  | .handling _ _ _ _ | .using _ => True
  | .vanishing _ _ exit => exit ≠ .refused .reentrant
  | _ => False

/-- The frame hands a refusal on, but does not refuse by itself. -/
def Frame.Passes : Frame σ ν → Prop
  | looking _ | getting _ | holding _ => True
  | _ => False

inductive Thread.Innocent : Thread σ ν → Prop
  | working {id : ThreadId} {work : Task σ ν} {stack : List (Frame σ ν)} (innocent : work.Innocent)
      (passes : ∀ frame ∈ stack, frame.Passes) : Innocent ⟨id, .task work, stack⟩
  | running (inner : Thread σ ν) {frame : Frame σ ν} {base : List (Frame σ ν)}
      (innocent : frame.Innocent) (passes : ∀ frame ∈ base, frame.Passes) :
      Innocent (inner.above (frame :: base))

def Move.Innocent (move : Move σ ν) : Prop :=
  (∃ work, move.control = .task work ∧ work.Innocent ∧ move.frames = []) ∨
    ∃ frame, move.frames = [frame] ∧ frame.Innocent

theorem Move.Innocent.above {move : Move σ ν} (innocent : move.Innocent) (id : ThreadId)
    {base : List (Frame σ ν)} (passes : ∀ frame ∈ base, frame.Passes) :
    Thread.Innocent ⟨id, move.control, move.frames ++ base⟩ := by
  rcases innocent with ⟨work, control, innocent, frames⟩ | ⟨frame, frames, innocent⟩
  · rw [control, frames]
    exact .working innocent passes
  · rw [frames]
    exact .running ⟨id, move.control, []⟩ innocent passes

theorem Task.step_innocent (world : World σ ν) (id : ThreadId) {task : Task σ ν}
    (innocent : task.Innocent) : Ensures (task.step world id) Move.Innocent := by
  have goes {next : World σ ν} {work : Task σ ν} (innocent : work.Innocent) :
      Move.Innocent { world := next, control := .task work } := .inl ⟨work, rfl, innocent, rfl⟩
  have enters {next : World σ ν} {control : Control σ ν} {frame : Frame σ ν}
      (innocent : frame.Innocent) :
      Move.Innocent { world := next, control, frames := [frame] } := .inr ⟨frame, rfl, innocent⟩
  cases task with
  | finish exit => simp [step]
  | letGo handles exit =>
      exact .letGo (fun _ => goes innocent) (fun _ _ _ _ => goes innocent)
        (fun _ _ _ _ => goes innocent) fun _ _ _ => enters innocent
  | lookAgain s =>
      simp only [step, Ensures.whenFree_iff]
      intro _
      split <;> rw [Ensures.go_iff]
      · exact goes (by simp [Innocent, Exit.refused])
      · exact goes trivial
  | produce s =>
      simp only [step, Ensures.ite_iff, Ensures.go_iff, Ensures.run_iff]
      exact ⟨fun _ => goes (by simp [Innocent, Exit.refused]), fun _ => enters trivial⟩
  | lockValue s value =>
      simp only [step, Ensures.whenFree_iff, Ensures.go_iff]
      exact fun _ => goes trivial
  | confirm s value =>
      simp only [step, Ensures.ite_iff, Ensures.go_iff]
      exact ⟨fun _ => goes trivial, fun _ => goes trivial⟩
  | store s value =>
      simp only [step, Ensures.go_iff]
      exact goes (by simp [Innocent, Exit.refused])
  | unlockValue s next | leave s next =>
      simp only [step, Ensures.go_iff]
      exact goes innocent
  | releaseLate s value =>
      simp only [step, Ensures.run_iff]
      exact enters trivial
  | consult selection error =>
      simp only [step, Ensures.whenFree_iff, Ensures.go_iff]
      exact fun _ => goes trivial
  | sift selection error rest places =>
      cases rest <;> simp only [step, Ensures.proceed_iff, Ensures.ask_iff]
      · exact ⟨fun _ _ => goes trivial, fun _ _ _ => goes trivial,
          fun _ _ => goes (by simp [Innocent, Exit.refused])⟩
      · exact ⟨fun _ => goes trivial, fun _ => goes trivial, fun _ _ => enters trivial⟩
  | links s error rest callbacks failures =>
      cases rest <;> simp only [step, Ensures.go_iff, Ensures.push_iff]
      · exact goes trivial
      · exact enters trivial
  | handlers s error rest failures =>
      cases rest <;> simp only [step, Ensures.answer_iff, Ensures.run_iff]
      · exact goes (by simp [Innocent, Exit.refused])
      · exact enters trivial
  | _ => exact False.elim innocent

theorem Frame.resume_innocent (world : World σ ν) (exit : Exit) {frame : Frame σ ν}
    (innocent : frame.Innocent) : Ensures (frame.resume world exit) Move.Innocent := by
  have goes {next : World σ ν} {work : Task σ ν} (innocent : work.Innocent) :
      Move.Innocent { world := next, control := .task work } := .inl ⟨work, rfl, innocent, rfl⟩
  have panics (next : World σ ν) (payload : Payload) :
      Move.Innocent { world := next, control := .task (.finish (.panicked payload)) } :=
    goes (by simp [Task.Innocent, Exit.refused])
  cases frame with
  | initializing s =>
      simp only [resume, Ensures.initializerEnded_iff]
      refine ⟨?_, fun _ _ => ⟨fun _ _ => goes trivial, fun _ => goes trivial⟩⟩
      rintro payload rfl
      exact goes (by simp [Task.Innocent, Exit.refused])
  | releasingLate s value =>
      cases exit <;> simp only [resume, Ensures.answer_iff, Ensures.go_iff]
      · exact goes (by simp [Task.Innocent, Exit.refused])
      · exact panics _ _
  | judging selection error place rest places =>
      cases exit <;> simp only [resume, Ensures.go_iff]
      · exact goes trivial
      · exact panics _ _
  | linking s error rest callbacks failures | handling s error rest failures =>
      cases exit <;> simp only [resume]
      · split <;> rw [Ensures.go_iff]
        · exact goes trivial
        · exact goes trivial
      · rw [Ensures.go_iff]
        exact panics _ _
  | «using» value =>
      cases exit <;> simp only [resume, Ensures.answer_iff, Ensures.go_iff]
      · exact goes (by simp [Task.Innocent, Exit.refused])
      · exact panics _ _
  | vanishing sc rest outcome =>
      cases exit <;> simp only [resume, Ensures.go_iff]
      · exact goes innocent
      · exact panics _ _
  | _ => exact False.elim innocent

theorem Frame.resume_passing (world : World σ ν) {exit : Exit} (other : exit ≠ .refused .reentrant)
    {frame : Frame σ ν} (passes : frame.Passes) : Ensures (frame.resume world exit) Move.Innocent := by
  cases frame with
  | looking s =>
      simp only [resume, Ensures.go_iff]
      exact .inl ⟨_, rfl, other, rfl⟩
  | getting use =>
      simp only [resume]
      split
      · rw [Ensures.run_iff]
        exact .inr ⟨_, rfl, trivial⟩
      · rw [Ensures.go_iff]
        exact .inl ⟨_, rfl, other, rfl⟩
  | holding handles =>
      simp only [resume, Ensures.go_iff]
      exact .inl ⟨_, rfl, other, rfl⟩
  | _ => exact False.elim passes

theorem Thread.Innocent.step {world next : World σ ν} {thread after : Thread σ ν}
    (innocent : thread.Innocent) (action : thread.step world = some (next, after)) :
    after.Innocent := by
  cases innocent with
  | @working id work stack innocent passes =>
      -- Only an end reaches the frames below, and an innocent one is not a refusal.
      by_cases finished : ∃ exit, work = .finish exit
      · obtain ⟨exit, rfl⟩ := finished
        cases stack with
        | nil => contradiction
        | cons frame base =>
            obtain ⟨move, made, rfl, rfl⟩ := step_frame action
            exact (frame.resume_passing world innocent (passes frame (.head _)) move made).above _
              fun other member => passes other (.tail _ member)
      · obtain ⟨move, made, rfl, rfl⟩ := step_task action fun exit same => finished ⟨exit, same⟩
        exact (work.step_innocent world id innocent move made).above _ passes
  | running inner innocent passes =>
      cases ended : inner.exit? with
      | some exit =>
          rw [exit?_eq_some ended] at action
          obtain ⟨move, made, rfl, rfl⟩ := step_frame action
          exact (Frame.resume_innocent world exit innocent move made).above _ passes
      | none =>
          rw [step_above world inner _ ended] at action
          obtain ⟨⟨reached, further⟩, _, equal⟩ := Option.map_eq_some_iff.mp action
          obtain ⟨rfl, rfl⟩ := Prod.mk.inj equal
          exact .running further innocent passes

theorem Thread.Reaches.innocent {world next : World σ ν} {thread after : Thread σ ν}
    (run : Reaches world thread next after) (innocent : thread.Innocent) : after.Innocent := by
  obtain ⟨steps, run⟩ := run
  have stays : (Thread.advance steps world thread).2.Innocent :=
    advance_rule (fun _ thread => thread.Innocent)
      (fun _ _ _ _ innocent action => innocent.step action) innocent steps
  rwa [run] at stays

theorem Thread.Innocent.unrefused {id : ThreadId} :
    ¬ Thread.Innocent (⟨id, .task (.finish (.refused .reentrant)), []⟩ : Thread σ ν) := by
  generalize thread : (⟨id, .task (.finish (.refused .reentrant)), []⟩ : Thread σ ν) = thread
  intro innocent
  cases innocent with
  | working innocent passes =>
      obtain ⟨-, work, -⟩ := Thread.mk.inj thread
      obtain rfl := Control.task.inj work
      exact innocent rfl
  | running inner innocent passes =>
      have emptied := congrArg Thread.stack thread
      exact List.append_ne_nil_of_right_ne_nil _ (List.cons_ne_nil _ _) emptied.symm

theorem Thread.Reaches.next {world next : World σ ν} {thread after : Thread σ ν}
    (run : Reaches world thread next after) (moves : thread ≠ after) :
    ∃ middle between, thread.step world = some (middle, between) ∧
      Reaches middle between next after := by
  obtain ⟨steps, run⟩ := run
  cases steps with
  | zero => exact absurd (Prod.mk.inj run).2 moves
  | succ steps =>
      cases action : thread.step world with
      | none =>
          simp only [advance, action] at run
          exact absurd (Prod.mk.inj run).2 moves
      | some reached =>
          simp only [advance, action] at run
          exact ⟨reached.1, reached.2, rfl, steps, run⟩

section
variable {world next : World σ ν} {s : SlotId} {id last : ThreadId}

theorem Task.look_innocent :
    Ensures ((look s).step world id) fun move =>
      move.Innocent ∨ move = { world, control := .task (.enter s) } := by
  simp only [step, Ensures.whenFree_iff]
  intro _
  split
  · rw [Ensures.answer_iff]
    exact .inl (.inl ⟨_, rfl, by simp [Innocent, Exit.refused], rfl⟩)
  · rw [Ensures.go_iff]
    exact .inr rfl

theorem Task.enter_innocent (unset : (world.slot s).initializing = false) :
    Ensures ((enter s).step world id) Move.Innocent := by
  simp only [step, Ensures.bind_iff]
  intro entered action
  have same : (entered.slot s).initializing = false :=
    (congrArg Condition.initializing (world.condition_enterSlot action s)).trans unset
  simp only [same, Bool.false_eq_true, if_false, Ensures.go_iff]
  exact .inl ⟨_, rfl, trivial, rfl⟩

theorem Thread.Reaches.running_of_refused {base : List (Frame σ ν)}
    (passes : ∀ frame ∈ base, frame.Passes)
    (run : Reaches world ⟨id, .task (.look s), base⟩ next
      ⟨last, .task (.finish (.refused .reentrant)), []⟩) :
    (world.slot s).initializing = true := by
  by_contra unset
  obtain ⟨middle, between, looks, run⟩ := run.next nofun
  obtain ⟨move, made, rfl, rfl⟩ := step_task looks nofun
  rcases Task.look_innocent move made with innocent | rfl
  · exact Innocent.unrefused (run.innocent (innocent.above _ passes))
  · obtain ⟨entered, inside, enters, run⟩ := run.next nofun
    obtain ⟨move, made, rfl, rfl⟩ := step_task enters nofun
    have innocent := Task.enter_innocent (Bool.eq_false_iff.mpr unset) move made
    exact Innocent.unrefused (run.innocent (innocent.above _ passes))

theorem Call.Gets.starts {call : Call σ ν} (gets : call.Gets s) :
    Ensures (call.start world) fun move =>
      move.Innocent ∨ move.world = world.retain (.slot s) ∧ move.control = .task (.look s) ∧
        ∀ frame ∈ move.frames, frame.Passes := by
  have missing : Move.Innocent
      ({ world, control := .task (.finish (.returned .missing)) } : Move σ ν) :=
    .inl ⟨_, rfl, by simp [Task.Innocent, Exit.refused], rfl⟩
  cases call with
  | getValue t | withValue t use =>
      obtain rfl : t = s := gets
      simp only [start, Ensures.operate_iff]
      refine ⟨fun _ => .inr ⟨rfl, trivial, ?_⟩, fun _ => .inl missing⟩
      simp [Frame.Passes]
  | _ => exact False.elim gets

theorem Call.Gets.running {call : Call σ ν} (gets : call.Gets s)
    (refused : Ends id world (.task (.start call)) (.refused .reentrant) next) :
    (world.slot s).initializing = true := by
  obtain ⟨middle, between, starts, run⟩ := refused.next nofun
  obtain ⟨move, made, rfl, rfl⟩ := Thread.step_task starts nofun
  rcases gets.starts move made with innocent | ⟨retained, looks, passes⟩
  · exact absurd (run.innocent (innocent.above _ nofun)) Thread.Innocent.unrefused
  · rw [retained, looks, List.append_nil] at run
    have same := congrArg Condition.initializing (world.condition_retain (.slot s) s)
    exact same.symm.trans (run.running_of_refused passes)

end

end Relinquish
