import Relinquish.Proofs.Attempts

/-!
Operations on a slot. What is called on a slot changes by itself nothing that another slot shows,
unless it drops a link that is or owns the other, or gives up the last hold on it.
-/

namespace Relinquish

variable {σ ν : Type}

def World.Concerns (world : World σ ν) (s : SlotId) : Call σ ν → Prop
  | .cloneHandle t | .forgetHandle t | .copySlot t _ | .getValue t | .withValue t _ | .peek t
  | .dropSlot t | .inspectSlot t | .dropOnError t _ _ | .callOnError t _ _ | .newAccessor t _ => t = s
  | .access a | .dropAccessed a | .forgetAccessor a =>
      ∃ accessor, world.accessor a = some accessor ∧ accessor.slot = s
  | _ => False

def Frame.Hands : Frame σ ν → Prop
  | .holding handles => ∀ handle ∈ handles, ∃ t, handle = .slot t
  | .getting _ | .orNone _ | .orElse _ _ => True
  | _ => False

/-- Code runs above the frame, which gets a fallback, what is made of a value, or the value of a copy
that has been made. -/
def Frame.Employs (first : SlotId) : Frame σ ν → Prop
  | .using _ | .fallingBack _ => True
  | .cloning copy => first ≤ copy
  | _ => False

def Task.Copies (first : SlotId) : Task σ ν → Prop
  | copy _ _ | deliver _ => True
  | copyValue _ made _ => first ≤ made
  | _ => False

/-- A thread that works alone on what is called on a slot, where the slots from the first on have been
made meanwhile. -/
inductive Thread.Operates (s : SlotId) (linked : Droppable σ ν → Prop) (first : SlotId) :
    Thread σ ν → Prop
  | ends {id : ThreadId} {exit : Exit} {frames : List (Frame σ ν)}
      (hands : ∀ frame ∈ frames, frame.Hands) : Operates s linked first ⟨id, .task (.finish exit), frames⟩
  | lets {id : ThreadId} {handles : List Handle} {exit : Exit} {frames : List (Frame σ ν)}
      (slots : ∀ handle ∈ handles, ∃ t, handle = .slot t) (hands : ∀ frame ∈ frames, frame.Hands) :
      Operates s linked first ⟨id, .task (.letGo handles exit), frames⟩
  | looks {phase : Phase} (inner : Thread σ ν) {frames : List (Frame σ ν)}
      (attempt : Attempt s linked phase inner) (hands : ∀ frame ∈ frames, frame.Hands) :
      Operates s linked first (inner.above (.looking s :: frames))
  | drops (inner : Thread σ ν) {frame : Frame σ ν} {frames : List (Frame σ ν)}
      (disposes : inner.Disposes [s]) (top : frame.Hands) (hands : ∀ frame ∈ frames, frame.Hands) :
      Operates s linked first (inner.above (frame :: frames))
  | copies {id : ThreadId} {work : Task σ ν} {frames : List (Frame σ ν)} (copies : work.Copies first)
      (hands : ∀ frame ∈ frames, frame.Hands) : Operates s linked first ⟨id, .task work, frames⟩
  | employs (inner : Thread σ ν) {frame : Frame σ ν} {frames : List (Frame σ ν)} (coded : inner.Coded)
      (employs : frame.Employs first) (hands : ∀ frame ∈ frames, frame.Hands) :
      Operates s linked first (inner.above (frame :: frames))

section
variable {world next : World σ ν} {thread after : Thread σ ν} {s first : SlotId}
  {linked : Droppable σ ν → Prop} {frame : Frame σ ν} {frames : List (Frame σ ν)} {exit : Exit}
  {work : Task σ ν}

theorem World.Concerns.start {call : Call σ ν} (concerns : world.Concerns s call) :
    Ensures (call.start world) fun move =>
      ∀ id, Thread.Operates s linked first ⟨id, move.control, move.frames ++ []⟩ := by
  have slot (t : SlotId) : ∀ handle ∈ [Handle.slot t], ∃ t, handle = .slot t :=
    List.forall_mem_singleton.mpr ⟨t, rfl⟩
  have none : ∀ frame ∈ ([] : List (Frame σ ν)), frame.Hands := nofun
  have hold (t : SlotId) : ∀ frame ∈ ([.holding [.slot t]] : List (Frame σ ν)), frame.Hands :=
    List.forall_mem_singleton.mpr (slot t)
  cases call <;> simp only [Call.start]
  case copySlot t cloner =>
    simp only [Ensures.operate_iff]
    exact ⟨fun _ _ => .copies trivial (hold t), fun _ _ => .ends none⟩
  case getValue t =>
    obtain rfl : t = s := concerns
    simp only [Ensures.operate_iff]
    exact ⟨fun _ id => .looks ⟨id, _, []⟩ (.opens rfl) (hold t), fun _ _ => .ends none⟩
  case withValue t use =>
    obtain rfl : t = s := concerns
    simp only [Ensures.operate_iff]
    exact ⟨fun _ id => .looks ⟨id, _, []⟩ (.opens rfl) (List.forall_mem_cons.mpr ⟨trivial, hold t⟩),
      fun _ _ => .ends none⟩
  case dropSlot t =>
    obtain rfl : t = s := concerns
    simp only [Ensures.operate_iff]
    exact ⟨fun _ id => .drops ⟨id, _, []⟩ (.works (List.mem_singleton_self t)) (slot t) none,
      fun _ _ => .ends none⟩
  case access a =>
    obtain ⟨accessor, found, rfl⟩ := concerns
    have hands : accessor.frame.Hands := by
      unfold Accessor.frame
      split <;> trivial
    simp only [found, Ensures.borrow_iff]
    exact fun id => .looks ⟨id, _, []⟩ (.opens rfl) (List.forall_mem_cons.mpr ⟨hands, hold _⟩)
  case dropAccessed a =>
    obtain ⟨accessor, found, rfl⟩ := concerns
    simp only [found, Ensures.borrow_iff]
    exact fun id => .drops ⟨id, _, []⟩ (.works (List.mem_singleton_self _)) (slot _) none
  case forgetAccessor a =>
    obtain ⟨accessor, found, rfl⟩ := concerns
    simp only [found, Ensures.go_iff]
    exact fun _ => .lets (slot _) none
  case forgetHandle t =>
    simp only [Ensures.whenUsable_iff, Ensures.go_iff]
    exact ⟨fun _ _ => .lets (slot t) none, fun _ _ => .ends none⟩
  case cloneHandle | newAccessor =>
    simp only [Ensures.whenUsable_iff, Ensures.answer_iff]
    exact ⟨fun _ _ => .ends none, fun _ _ => .ends none⟩
  case peek | inspectSlot | dropOnError | callOnError =>
    simp only [Ensures.whenUsable_iff, Ensures.whenFree_iff, Ensures.answer_iff]
    exact ⟨fun _ _ _ => .ends none, fun _ _ => .ends none⟩
  all_goals exact False.elim concerns

theorem Frame.Hands.resume (top : frame.Hands) (hands : ∀ frame ∈ frames, frame.Hands) :
    Ensures (frame.resume world exit) fun move =>
      ∀ id, Thread.Operates s linked first ⟨id, move.control, move.frames ++ frames⟩ := by
  cases frame with
  | holding handles =>
      rw [Frame.resume, Ensures.go_iff]
      exact fun _ => .lets top hands
  | getting use =>
      simp only [Frame.resume]
      split <;> simp only [Ensures.run_iff, Ensures.go_iff]
      · exact fun id => .employs ⟨id, _, []⟩ (.begins id _) trivial hands
      · exact fun _ => .ends hands
  | orNone t =>
      simp only [Frame.resume]
      split <;> simp only [Ensures.answer_iff, Ensures.go_iff] <;> exact fun _ => .ends hands
  | orElse t fallback =>
      simp only [Frame.resume]
      split <;> simp only [Ensures.run_iff, Ensures.answer_iff, Ensures.go_iff]
      · exact fun id => .employs ⟨id, _, []⟩ (.begins id _) trivial hands
      · exact fun _ => .ends hands
      · exact fun _ => .ends hands
  | _ => exact False.elim top

theorem Frame.Employs.resume (employs : frame.Employs first) (hands : ∀ frame ∈ frames, frame.Hands) :
    Ensures (frame.resume world exit) fun move =>
      ∀ id, Thread.Operates s linked first ⟨id, move.control, move.frames ++ frames⟩ := by
  cases frame with
  | «using» value | fallingBack t =>
      cases exit <;> simp only [Frame.resume, Ensures.answer_iff, Ensures.go_iff] <;>
        exact fun _ => .ends hands
  | cloning copy =>
      cases exit <;> simp only [Frame.resume, Ensures.go_iff]
      · exact fun _ => .copies trivial hands
      · exact fun _ => .lets (List.forall_mem_singleton.mpr ⟨copy, rfl⟩) hands
  | _ => exact False.elim employs

theorem Task.Copies.step (copies : work.Copies first) (id : ThreadId) (later : first ≤ world.slots.size)
    (hands : ∀ frame ∈ frames, frame.Hands) :
    Ensures (work.step world id) fun move =>
      ∀ id, Thread.Operates s linked first ⟨id, move.control, move.frames ++ frames⟩ := by
  cases work with
  | copy t cloner =>
      simp only [Task.step, Ensures.whenFree_iff]
      intro _
      cases cloner <;> rw [Ensures.go_iff]
      · exact fun _ => .copies trivial hands
      · exact fun _ => .copies later hands
  | copyValue t made cloner =>
      simp only [Task.step, Ensures.whenFree_iff]
      intro _
      split
      · rw [Ensures.run_iff]
        exact fun id => .employs ⟨id, _, []⟩ (.begins id _) copies hands
      · rw [Ensures.go_iff]
        exact fun _ => .copies trivial hands
  | deliver made =>
      rw [Task.step, Ensures.answer_iff]
      exact fun _ => .ends hands
  | _ => exact False.elim copies

theorem World.letGo_operates (world : World σ ν) (id : ThreadId) {handles : List Handle} {exit : Exit}
    (slots : ∀ handle ∈ handles, ∃ t, handle = .slot t) (hands : ∀ frame ∈ frames, frame.Hands) :
    Ensures (Task.step world id (.letGo handles exit)) fun move =>
      ∀ id, Thread.Operates s linked first ⟨id, move.control, move.frames ++ frames⟩ := by
  cases handles with
  | nil =>
      rw [Task.step, Ensures.go_iff]
      exact fun _ => .ends hands
  | cons handle rest =>
      obtain ⟨⟨t, rfl⟩, others⟩ := List.forall_mem_cons.mp slots
      simp only [Task.step, Ensures.ite_iff, Ensures.go_iff]
      refine ⟨fun _ _ => .lets ?_ hands, fun _ _ => .lets others hands⟩
      -- With a slot go the holds of its links, and those are holds on slots again.
      rw [List.forall_mem_append]
      refine ⟨fun handle member => ?_, others⟩
      obtain ⟨entry, _, held⟩ := List.mem_flatMap.mp member
      obtain ⟨u, _, rfl⟩ := List.mem_map.mp held
      exact ⟨u, rfl⟩

theorem Thread.Operates.step (operates : thread.Operates s linked first)
    (known : ∀ entry ∈ (world.slot s).links.entries, linked entry.2)
    (later : first ≤ world.slots.size) (action : thread.step world = some (next, after)) :
    after.Operates s linked first := by
  cases operates with
  | @ends id exit frames hands =>
      cases frames with
      | nil => contradiction
      | cons frame frames =>
          obtain ⟨top, hands⟩ := List.forall_mem_cons.mp hands
          obtain ⟨move, made, rfl, rfl⟩ := step_frame action
          exact top.resume hands move made _
  | lets slots hands =>
      obtain ⟨move, made, rfl, rfl⟩ := step_task action (by rintro _ ⟨⟩)
      exact world.letGo_operates _ slots hands move made _
  | looks inner attempt hands =>
      rcases step_top action with ⟨further, moves, rfl⟩ | ⟨exit, move, _, made, rfl, rfl⟩
      · obtain ⟨_, attempt, _⟩ := attempt.step known moves
        exact .looks further attempt hands
      · obtain rfl := Option.some.inj made
        exact .ends hands
  | drops inner disposes top hands =>
      rcases step_top action with ⟨further, moves, rfl⟩ | ⟨exit, move, _, made, rfl, rfl⟩
      · exact .drops further (disposes.step moves) top hands
      · exact top.resume hands move made _
  | @copies id work frames copies hands =>
      have unfinished (exit : Exit) : work ≠ .finish exit := by
        rintro rfl
        contradiction
      obtain ⟨move, made, rfl, rfl⟩ := step_task action unfinished
      exact copies.step id later hands move made _
  | employs inner coded employs hands =>
      rcases step_top action with ⟨further, moves, rfl⟩ | ⟨exit, move, _, made, rfl, rfl⟩
      · exact .employs further (coded.step moves) employs hands
      · exact employs.resume hands move made _

/-- What can be changed by what is done on a slot: itself, what has been made meanwhile, what nobody
holds any more, and what a link is or owns that is dropped. -/
inductive Thread.Affects (thread : Thread σ ν) (next : World σ ν) (s : SlotId)
    (linked : Droppable σ ν → Prop) (first : SlotId) : SlotId → Prop
  | itself : Affects thread next s linked first s
  | made {t : SlotId} (later : first ≤ t) : Affects thread next s linked first t
  | abandoned {t : SlotId} (unheld : next.unheld (.slot t) = true) : Affects thread next s linked first t
  | unlinked {t : SlotId} {link : Droppable σ ν} (unlinks : thread.Unlinks s) (known : linked link)
      (owned : t ∈ link.slots) : Affects thread next s linked first t

theorem World.unheld_discardSlot (world : World σ ν) (t : SlotId) (handle : Handle) :
    (world.discardSlot t).unheld handle = world.unheld handle := by
  unfold discardSlot
  split
  · cases handle with
    | slot u =>
        simp only [unheld, slot_emit, slot_act, slot_updateSlot]
        split <;> rfl
    | scope sc => rfl
  · rfl

theorem Thread.Operates.footprint (operates : thread.Operates s linked first)
    (later : first ≤ world.slots.size) (action : thread.step world = some (next, after)) :
    thread.InCall ∨ world.ChangesOnly next (thread.Affects next s linked first) := by
  cases operates with
  | @ends id exit frames hands =>
      cases frames with
      | nil => contradiction
      | cons frame frames =>
          apply Or.inr
          apply step_footprint action
          intro t showing edit
          cases edit
          exact False.elim (List.forall_mem_cons.mp hands).1
  | @lets id handles exit frames slots hands =>
      apply Or.inr
      apply step_footprint action
      intro t showing edit
      -- Of the slots on which holds are given up only those change that nobody holds any more.
      cases edit with
      | lost gone =>
          obtain ⟨move, made, rfl, rfl⟩ := step_task action (by rintro _ ⟨⟩)
          simp only [Task.step, gone, if_true] at made
          obtain rfl := Option.some.inj made
          exact .abandoned ((World.unheld_discardSlot _ t _).trans gone)
  | looks inner attempt hands =>
      refine footprint_above (by rintro _ ⟨⟩) (fun further moves => ?_) action
      apply (attempt.footprint moves).imp_right
      intro changes
      apply changes.imp
      rintro t (⟨_, rfl⟩ | ⟨⟨error, rest, handlers, failures, drops⟩, link, known, owned⟩)
      · exact .itself
      · exact .unlinked ⟨error, rest, handlers, failures, List.mem_append_left _ drops⟩ known owned
  | drops inner disposes top hands =>
      refine footprint_above (fun copy cloning => ?_) (fun further moves => ?_) action
      · rw [cloning] at top
        exact False.elim top
      · apply (disposes.footprint moves).imp_right
        intro changes
        apply changes.imp
        intro t owned
        obtain rfl := List.mem_singleton.mp owned
        exact .itself
  | @copies id work frames copies hands =>
      apply Or.inr
      apply step_footprint action
      intro t showing edit
      generalize Thread.top? _ = top at edit
      cases edit with
      | copied => exact .made later
      | _ => exact False.elim copies
  | employs inner coded employs hands =>
      refine footprint_above (fun copy cloning => ?_) (fun further moves => ?_) action
      · rw [cloning] at employs
        exact .made employs
      · exact coded.footprint _ moves

end

/-! ## Operations in a run -/

def World.operation (world : World σ ν) (id : ThreadId) (call : Call σ ν) (steps : Nat) :
    World σ ν × Thread σ ν :=
  Thread.advance steps world ⟨id, .task (.start call), []⟩

section
variable {world next : World σ ν} {after : Thread σ ν} {s : SlotId} {id : ThreadId} {call : Call σ ν}

theorem World.Concerns.operates (concerns : world.Concerns s call) (id : ThreadId) (n : Nat) :
    (world.operation id call n).2.Operates s (Thread.Linked world ⟨id, .task (.start call), []⟩ s)
        world.slots.size ∨
      world.operation id call n = (world, ⟨id, .task (.start call), []⟩) := by
  induction n with
  | zero => exact .inr rfl
  | succ n ih =>
      have runs : world.operation id call (n + 1) =
          Thread.advance 1 (world.operation id call n).1 (world.operation id call n).2 :=
        Thread.advance_add n 1 _ _
      rw [runs]
      simp only [Thread.advance]
      cases action : (world.operation id call n).2.step (world.operation id call n).1 with
      | none => exact ih
      | some moved =>
          apply Or.inl
          rcases ih with operates | begins
          · have grown : world.Grows (world.operation id call n).1 := Thread.Reaches.grows ⟨n, rfl⟩
            exact operates.step (fun entry member => ⟨n, List.mem_map_of_mem member⟩) grown.made action
          · rw [begins] at action
            obtain ⟨move, made, _, moves⟩ := Thread.step_start action
            show moved.2.Operates s _ _
            rw [moves]
            exact concerns.start move made _

theorem World.Concerns.footprint (concerns : world.Concerns s call) (n : Nat)
    (action : (world.operation id call n).2.step (world.operation id call n).1 = some (next, after)) :
    (world.operation id call n).2.InCall ∨ (world.operation id call n).1.ChangesOnly next
      ((world.operation id call n).2.Affects next s
        (Thread.Linked world ⟨id, .task (.start call), []⟩ s) world.slots.size) := by
  rcases concerns.operates id n with operates | begins
  · have grown : world.Grows (world.operation id call n).1 := Thread.Reaches.grows ⟨n, rfl⟩
    exact operates.footprint grown.made action
  · rw [begins] at action ⊢
    apply Or.inr
    apply Thread.step_footprint action
    intro t showing edit
    cases edit with
    | linked | handled =>
        obtain rfl : t = s := concerns
        exact .itself

end

end Relinquish
