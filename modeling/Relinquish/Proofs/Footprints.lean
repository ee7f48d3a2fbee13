import Relinquish.Proofs.Mentions
import Relinquish.Proofs.Showings

/-!
Footprints: the slots of which a thread changes what they show, other than by the calls of code that
it runs. Code by itself changes none, and what drops a droppable changes those that it is or owns.
-/

namespace Relinquish

variable {σ ν : Type}

def World.ChangesOnly (world next : World σ ν) (slots : SlotId → Prop) : Prop :=
  ∀ t, ¬ slots t → next.shows t = world.shows t

theorem World.ChangesOnly.imp {world next : World σ ν} {slots others : SlotId → Prop}
    (changes : world.ChangesOnly next slots) (grows : ∀ t, slots t → others t) :
    world.ChangesOnly next others :=
  fun t other => changes t (mt (grows t) other)

def Frame.isCalling : Frame σ ν → Bool
  | .calling _ => true
  | _ => false

def Thread.InCall (thread : Thread σ ν) : Prop :=
  ∃ frame ∈ thread.stack, frame.isCalling = true

instance (thread : Thread σ ν) : Decidable thread.InCall :=
  inferInstanceAs (Decidable (∃ frame ∈ thread.stack, frame.isCalling = true))

def Thread.Unlinks (thread : Thread σ ν) (s : SlotId) : Prop :=
  ∃ error rest handlers failures, .linking s error rest handlers failures ∈ thread.stack

def Thread.Linked (world : World σ ν) (thread : Thread σ ν) (s : SlotId) (link : Droppable σ ν) : Prop :=
  ∃ n, link ∈ ((advance n world thread).1.slot s).links.entries.map Prod.snd

theorem Thread.InCall.above {thread : Thread σ ν} (calls : thread.InCall) (base : List (Frame σ ν)) :
    (thread.above base).InCall :=
  calls.imp fun _ calling => calling.imp_left (List.mem_append_left _)

section
variable {world next : World σ ν} {thread after : Thread σ ν}

theorem Thread.step_footprint {slots : SlotId → Prop} (action : thread.step world = some (next, after))
    (edits : ∀ s showing, Edit world thread.control thread.top? s showing → slots s) :
    world.ChangesOnly next slots := by
  intro t other
  rcases step_edits action with same | ⟨s, showing, edit, changes⟩
  · exact same t
  · rw [changes, if_neg]
    rintro rfl
    exact other (edits s showing edit)

theorem Thread.step_start {id : ThreadId} {call : Call σ ν} {stack : List (Frame σ ν)}
    (action : Thread.step world ⟨id, .task (.start call), stack⟩ = some (next, after)) :
    ∃ move, call.start world = some move ∧ next = move.world ∧
      after = ⟨move.thread.getD id, move.control, move.frames ++ stack⟩ :=
  step_task action nofun

theorem Thread.step_alone {id : ThreadId} {work : Task σ ν}
    (action : Thread.step world ⟨id, .task work, []⟩ = some (next, after)) :
    ∃ move, work.step world id = some move ∧ next = move.world ∧
      after = ⟨move.thread.getD id, move.control, move.frames ++ []⟩ := by
  apply step_task action
  rintro exit rfl
  contradiction

theorem Thread.step_top {inner : Thread σ ν} {frame : Frame σ ν} {base : List (Frame σ ν)}
    (action : (inner.above (frame :: base)).step world = some (next, after)) :
    (∃ further, inner.step world = some (next, further) ∧ after = further.above (frame :: base)) ∨
      ∃ exit move, inner.exit? = some exit ∧ frame.resume world exit = some move ∧
        next = move.world ∧ after = ⟨move.thread.getD inner.id, move.control, move.frames ++ base⟩ := by
  cases ended : inner.exit? with
  | some exit =>
      rw [exit?_eq_some ended] at action
      obtain ⟨move, made, rfl, rfl⟩ := step_frame action
      exact .inr ⟨exit, move, rfl, made, rfl, rfl⟩
  | none =>
      rw [step_above world inner _ ended] at action
      obtain ⟨⟨reached, further⟩, made, equal⟩ := Option.map_eq_some_iff.mp action
      obtain ⟨rfl, rfl⟩ := Prod.mk.inj equal
      exact .inl ⟨further, made, rfl⟩

theorem Thread.footprint_above {inner : Thread σ ν} {frame : Frame σ ν} {base : List (Frame σ ν)}
    {slots : SlotId → Prop} (clones : ∀ copy, frame = .cloning copy → slots copy)
    (keeps : ∀ further, inner.step world = some (next, further) →
      inner.InCall ∨ world.ChangesOnly next slots)
    (action : (inner.above (frame :: base)).step world = some (next, after)) :
    (inner.above (frame :: base)).InCall ∨ world.ChangesOnly next slots := by
  rcases step_top action with ⟨further, moves, rfl⟩ | ⟨exit, _, ended, _⟩
  · exact (keeps further moves).imp_left (·.above (frame :: base))
  · rw [exit?_eq_some ended] at action
    apply Or.inr
    apply step_footprint action
    rintro t showing edit
    cases edit
    exact clones t rfl

theorem Thread.above_ne {inner : Thread σ ν} {frame other : Frame σ ν}
    (stack : (inner.above [frame]).stack = [other]) : frame = other := by
  have last := congrArg List.getLast? stack
  rw [above, List.getLast?_append] at last
  exact Option.some.inj last

end

/-! ## Code -/

def Frame.Bare : Frame σ ν → Prop
  | .attempted _ | .joined _ _ => True
  | _ => False

/-- A thread that has begun with code runs code still, or it is in a call of it. -/
inductive Thread.Coded : Thread σ ν → Prop
  | runs {id : ThreadId} {code : Code σ ν} {stack : List (Frame σ ν)}
      (bare : ∀ frame ∈ stack, frame.Bare) : Coded ⟨id, .code code, stack⟩
  | ends {id : ThreadId} {exit : Exit} {stack : List (Frame σ ν)}
      (bare : ∀ frame ∈ stack, frame.Bare) : Coded ⟨id, .task (.finish exit), stack⟩
  | calls (inner : Thread σ ν) {next : Reply → Code σ ν} {stack : List (Frame σ ν)}
      (bare : ∀ frame ∈ stack, frame.Bare) : Coded (inner.above (.calling next :: stack))

namespace Thread.Coded

theorem begins (id : ThreadId) (code : Code σ ν) : Thread.Coded ⟨id, .code code, []⟩ :=
  .runs (List.forall_mem_nil _)

variable {world next : World σ ν} {thread after : Thread σ ν} (coded : thread.Coded)
include coded

theorem step (action : thread.step world = some (next, after)) : after.Coded := by
  cases coded with
  | @runs id code stack bare =>
      cases code <;> obtain ⟨rfl, rfl⟩ := Prod.mk.inj (Option.some.inj action)
      case ret | panic => exact .ends bare
      case load | store | note => exact .runs bare
      case attempt | elsewhere => exact .runs (List.forall_mem_cons.mpr ⟨trivial, bare⟩)
      case call request next => exact .calls ⟨id, _, []⟩ bare
  | @ends id exit stack bare =>
      cases stack with
      | nil => contradiction
      | cons frame rest =>
          obtain ⟨top, below⟩ := List.forall_mem_cons.mp bare
          cases frame
          case attempted | joined =>
            obtain ⟨rfl, rfl⟩ := Prod.mk.inj (Option.some.inj action)
            exact .runs below
          all_goals exact False.elim top
  | @calls inner reply stack bare =>
      cases ended : inner.exit? with
      | some exit =>
          rw [exit?_eq_some ended] at action
          cases exit <;> obtain ⟨rfl, rfl⟩ := Prod.mk.inj (Option.some.inj action)
          · exact .runs bare
          · exact .ends bare
      | none =>
          rw [step_above world inner _ ended] at action
          obtain ⟨⟨reached, further⟩, _, equal⟩ := Option.map_eq_some_iff.mp action
          obtain ⟨rfl, rfl⟩ := Prod.mk.inj equal
          exact .calls further bare

theorem footprint (slots : SlotId → Prop) (action : thread.step world = some (next, after)) :
    thread.InCall ∨ world.ChangesOnly next slots := by
  cases coded with
  | runs bare => exact .inr (step_footprint action nofun)
  | @ends id exit stack bare =>
      cases stack with
      | nil => contradiction
      | cons frame rest =>
          apply Or.inr
          apply step_footprint action
          rintro s showing edit
          cases edit
          exact False.elim (List.forall_mem_cons.mp bare).1
  | calls inner bare => exact .inl ⟨_, List.mem_append_right _ (.head _), rfl⟩

end Thread.Coded

/-! ## Drops -/

def Task.Disposes (slots : List SlotId) : Task σ ν → Prop
  | finish _ => True
  | swap s | take s => s ∈ slots
  | dispose droppable => droppable.slots ⊆ slots
  | disposeAll rest _ => slotsOfAll rest ⊆ slots
  | _ => False

inductive Thread.Disposes (slots : List SlotId) : Thread σ ν → Prop
  | works {id : ThreadId} {work : Task σ ν} (works : work.Disposes slots) :
      Disposes slots ⟨id, .task work, []⟩
  | acts {thread : Thread σ ν} (coded : thread.Coded) : Disposes slots thread
  | releases (inner : Thread σ ν) {s : SlotId} {value : Value} (coded : inner.Coded) :
      Disposes slots (inner.above [.releasing s value])
  | owns (inner : Thread σ ν) {rest : List (Droppable σ ν)} {failures : List Error}
      (disposes : Disposes slots inner) (within : slotsOfAll rest ⊆ slots) :
      Disposes slots (inner.above [.owning rest failures])

section
variable {world next : World σ ν} {thread after : Thread σ ν} {slots : List SlotId}

theorem Task.Disposes.step {work : Task σ ν} (works : work.Disposes slots) (id : ThreadId) :
    Ensures (work.step world id) fun move =>
      ∀ id, Thread.Disposes slots ⟨id, move.control, move.frames ++ []⟩ := by
  cases work with
  | finish exit => simp [Task.step]
  | swap s =>
      simp only [Task.step, Ensures.ite_iff, Ensures.go_iff, Ensures.endDrop_iff]
      exact ⟨fun _ _ => .works trivial, fun _ _ => .works works⟩
  | take s =>
      simp only [Task.step, Ensures.whenFree_iff]
      intro _
      split
      · rw [Ensures.run_iff]
        exact fun id => .releases ⟨id, _, []⟩ (.begins id _)
      · rw [Ensures.endDrop_iff]
        exact fun _ => .works trivial
  | dispose droppable =>
      cases droppable <;> simp only [Task.step, Ensures.run_iff, Ensures.go_iff, Ensures.answer_iff]
      case action => exact fun id => .acts (.begins id _)
      case slot s => exact fun _ => .works (works (.head _))
      case owner droppables =>
        intro _
        apply Thread.Disposes.works
        intro t member
        obtain ⟨droppable, listed, owned⟩ := mem_slotsOfAll.mp member
        exact works (mem_slotsOfAll.mpr ⟨droppable, List.mem_reverse.mp listed, owned⟩)
      case scopeOwner => exact fun _ => .works trivial
  | disposeAll rest failures =>
      cases rest <;> simp only [Task.step, Ensures.answer_iff, Ensures.push_iff]
      · exact fun _ => .works trivial
      · obtain ⟨first, others⟩ := List.append_subset.mp works
        exact fun id => .owns ⟨id, _, []⟩ (.works first) others
  | _ => exact False.elim works

namespace Thread.Disposes

theorem step (disposes : thread.Disposes slots) (action : thread.step world = some (next, after)) :
    after.Disposes slots := by
  induction disposes generalizing after with
  | @works id work works =>
      obtain ⟨move, made, rfl, rfl⟩ := step_alone action
      exact works.step id move made _
  | acts coded => exact .acts (coded.step action)
  | releases inner coded =>
      rcases step_top action with ⟨further, moves, rfl⟩ | ⟨exit, move, _, made, rfl, rfl⟩
      · exact .releases further (coded.step moves)
      · obtain rfl := Option.some.inj made
        exact .works trivial
  | owns inner disposes within ih =>
      rcases step_top action with ⟨further, moves, rfl⟩ | ⟨exit, move, _, made, rfl, rfl⟩
      · exact .owns further (ih moves) within
      · cases exit <;> obtain rfl := Option.some.inj made
        · exact .works within
        · exact .works trivial

theorem footprint (disposes : thread.Disposes slots) (action : thread.step world = some (next, after)) :
    thread.InCall ∨ world.ChangesOnly next (· ∈ slots) := by
  induction disposes generalizing after with
  | @works id work works =>
      apply Or.inr
      apply step_footprint action
      intro t showing edit
      cases work with
      | finish => contradiction
      | swap | take =>
          cases edit
          exact works
      | _ => cases edit <;> exact False.elim works
  | acts coded => exact coded.footprint _ action
  | releases inner coded => exact footprint_above nofun (fun _ => coded.footprint _) action
  | owns inner _ _ ih => exact footprint_above nofun (fun _ => ih) action

end Thread.Disposes

end

end Relinquish
