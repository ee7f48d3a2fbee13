import Relinquish.Proofs.Effects
import Relinquish.Proofs.Mentions

/-!
Copies in the making. Between the step that makes a copy and the one that hands it to the caller,
the cloner may run any code; the copy is mentioned nowhere meanwhile, so it stays as it was made.
-/

namespace Relinquish

variable {σ ν : Type}

/-! ## Monotonicity -/

section
variable {known others : SlotId → Prop} (weaken : ∀ s, known s → others s)
include weaken

theorem Handle.Within.imp {handle : Handle} (member : handle.Within known) :
    handle.Within others := by
  cases handle with
  | slot s => exact weaken s member
  | scope sc => trivial

theorem Droppable.Within.imp {droppable : Droppable σ ν} (member : droppable.Within known) :
    droppable.Within others :=
  fun s mentioned => weaken s (member s mentioned)

theorem Action.Within.imp {action : Action σ ν} (member : action.Within known) :
    action.Within others := by
  unfold Action.Within at member ⊢
  split
  · trivial
  · next s job =>
      rw [job] at member
      exact weaken s member

theorem Selection.Within.imp {selection : Selection σ ν} (member : selection.Within known) :
    selection.Within others := by
  cases selection with
  | links s => exact weaken s member
  | handlers s chosen => exact ⟨weaken s member.1, fun link listed => (member.2 link listed).imp weaken⟩
  | numbers r => trivial

theorem Task.Within.imp {task : Task σ ν} (member : task.Within known) : task.Within others := by
  induction task with
  | finish | start | deliver | drain | report => trivial
  | letGo handles exit => exact fun handle listed => (member handle listed).imp weaken
  | unlockValue s following ih | leave s following ih => exact ⟨weaken s member.1, ih member.2⟩
  | consult selection error | sift selection error rest places =>
      exact Selection.Within.imp weaken member
  | links s error rest callbacks failures =>
      exact ⟨weaken s member.1, fun link listed => (member.2 link listed).imp weaken⟩
  | dispose droppable => exact Droppable.Within.imp weaken member
  | disposeAll rest failures => exact fun other listed => (member other listed).imp weaken
  | batch sc rest ran failures => exact fun action listed => (member action listed).imp weaken
  | look s | enter s | lookAgain s | produce s | lockValue s | confirm s | store s | releaseLate s
  | swap s | take s | copy s | copyValue s | handlers s => exact weaken s member

theorem Control.Within.imp {control : Control σ ν} (member : control.Within known) :
    control.Within others := by
  cases control with
  | code code => trivial
  | task work => exact Task.Within.imp weaken member

theorem Frame.Within.imp {frame : Frame σ ν} (member : frame.Within known) :
    frame.Within others := by
  cases frame with
  | holding handles | vanishing sc handles exit =>
      exact fun handle listed => (member handle listed).imp weaken
  | looking s | initializing s | releasingLate s | releasing s | handling s | orNone s | orElse s
  | fallingBack s => exact weaken s member
  | judging selection => exact Selection.Within.imp weaken member
  | linking s error rest =>
      exact ⟨weaken s member.1, fun link listed => (member.2 link listed).imp weaken⟩
  | owning rest => exact fun other listed => (member other listed).imp weaken
  | tearing sc rest => exact fun action listed => (member action listed).imp weaken
  | _ => trivial

theorem World.Within.imp {world : World σ ν} (inside : world.Within known) :
    world.Within others where
  usable s usable := weaken s (inside.usable s usable)
  linked s entry listed := (inside.linked s entry listed).imp weaken
  pending sc action listed := (inside.pending sc action listed).imp weaken
  accessors a accessor listed := weaken _ (inside.accessors a accessor listed)
  guards g droppable listed := (inside.guards g droppable listed).imp weaken
  parcels p droppable listed := (inside.parcels p droppable listed).imp weaken

end

/-! ## Copies that are not delivered -/

def Stage.copies : Stage → List SlotId
  | copying copy | delivering copy => [copy]
  | _ => []

def Stage.awaited : Stage → List SlotId
  | copying copy => [copy]
  | _ => []

def Pause.copy? : Pause → Option SlotId
  | cloning copy => some copy
  | _ => none

namespace Thread

def copies (thread : Thread σ ν) : List SlotId :=
  thread.control.stage.copies ++ thread.pauses.filterMap Pause.copy?

def awaited (thread : Thread σ ν) : List SlotId :=
  thread.control.stage.awaited ++ thread.pauses.filterMap Pause.copy?

structure Within (known : SlotId → Prop) (world : World σ ν) (thread : Thread σ ν) : Prop where
  world : world.Within known
  control : thread.control.Within known
  stack : ∀ frame ∈ thread.stack, frame.Within known

theorem Within.imp {known others : SlotId → Prop} {world : World σ ν} {thread : Thread σ ν}
    (inside : thread.Within known world) (weaken : ∀ s, known s → others s) :
    thread.Within others world where
  world := inside.world.imp weaken
  control := inside.control.imp weaken
  stack frame listed := (inside.stack frame listed).imp weaken

end Thread

/-- Every slot that is mentioned has been made, and a copy that waits for its value is mentioned
nowhere. -/
structure Discreet (world : World σ ν) (thread : Thread σ ν) : Prop where
  made : thread.Within (fun s => s < world.slots.size) world
  bounded : ∀ c ∈ thread.copies, c < world.slots.size
  distinct : thread.copies.Nodup
  hidden : ∀ c ∈ thread.awaited, thread.Within (fun s => s ≠ c) world
  blank : ∀ c ∈ thread.awaited, world.condition c = {}

theorem World.condition_unmade (world : World σ ν) : world.condition world.slots.size = {} := by
  rw [condition, slot, Table.get_size]
  rfl

section
variable {world next : World σ ν} {makes : Prop} {runs : Code σ ν → Prop} {stage stage' : Stage}
  {ended : Option Pause} {pushed : List Pause}

theorem Effect.copies (effect : Effect world next makes runs stage ended stage' pushed) :
    (stage'.copies ++ pushed.filterMap Pause.copy?).Sublist
      (stage.copies ++ ended.toList.filterMap Pause.copy?) ∨
    makes ∧ world.Alike next ∧
      stage'.copies ++ pushed.filterMap Pause.copy? = [world.slots.size] ∧
      stage.copies ++ ended.toList.filterMap Pause.copy? = [] := by
  cases effect with
  | copied source same made =>
      right
      rcases made with rfl | rfl <;> simp [source, same, Stage.copies]
  | _ => simp [Stage.copies, Pause.copy?]

theorem Effect.awaited (effect : Effect world next makes runs stage ended stage' pushed) {c : SlotId}
    (awaits : c ∈ stage'.awaited ++ pushed.filterMap Pause.copy?) :
    c ∈ stage.awaited ∨ makes ∧ world.Alike next ∧ c = world.slots.size := by
  cases effect with
  | copied source same made =>
      right
      rcases made with rfl | rfl <;> simp_all [Stage.awaited]
  | _ => simp_all [Stage.awaited, Pause.copy?]

end

theorem Stage.awaited_sublist (stage : Stage) : stage.awaited.Sublist stage.copies := by
  cases stage <;> simp [awaited, copies]

theorem Thread.mem_awaited_copies {thread : Thread σ ν} {c : SlotId} (awaits : c ∈ thread.awaited) :
    c ∈ thread.copies :=
  (List.Sublist.append thread.control.stage.awaited_sublist (.refl _)).subset awaits

def Thread.Spares (thread : Thread σ ν) (c : SlotId) : Prop :=
  (∀ made, thread.control = .task (.deliver made) → made ≠ c) ∧
    ∀ exit copy rest, thread.control = .task (.finish exit) →
      thread.stack = .cloning copy :: rest → copy ≠ c

theorem Thread.mem_copies (thread : Thread σ ν) :
    (∀ made, thread.control = .task (.deliver made) → made ∈ thread.copies) ∧
      ∀ exit copy rest, thread.control = .task (.finish exit) →
        thread.stack = .cloning copy :: rest → copy ∈ thread.copies := by
  constructor
  · intro made control
    simp [copies, control, Control.stage, Task.stage, Stage.copies]
  · intro exit copy rest control stack
    simp [copies, pauses, stack, Frame.pause?, Pause.copy?]

namespace Discreet

variable {world next : World σ ν} {thread after : Thread σ ν}

theorem spares (discreet : Discreet world thread) {rest : List Pause}
    (pauses : thread.pauses = thread.ended?.toList ++ rest) {c : SlotId}
    (waits : c ∈ rest.filterMap Pause.copy?) : thread.Spares c := by
  have distinct := discreet.distinct
  rw [Thread.copies, pauses, List.filterMap_append] at distinct
  constructor
  · rintro made control rfl
    rw [control] at distinct
    have apart := (List.nodup_append.mp distinct).2.2 made (.head _) made
      (List.mem_append_right _ waits)
    exact apart rfl
  · rintro exit copy others control stack rfl
    have ended : thread.ended? = some (.cloning copy) := by
      simp [Thread.ended?, control, stack, Frame.pause?]
    rw [ended] at distinct
    have apart := (List.nodup_append.mp (List.nodup_append.mp distinct).2.1).2.2 copy (.head _) copy
      waits
    exact apart rfl

theorem waits (discreet : Discreet world thread)
    (action : thread.step world = some (next, after)) {c : SlotId} (awaits : c ∈ after.awaited) :
    c ∈ thread.awaited ∧ thread.Spares c ∨
      thread.MakesCopy ∧ world.Alike next ∧ c = world.slots.size := by
  obtain ⟨pushed, rest, before, afterwards, effect⟩ := Thread.step_affects action
  rw [Thread.awaited, afterwards, List.filterMap_append, ← List.append_assoc] at awaits
  rcases List.mem_append.mp awaits with top | below
  · rcases effect.awaited top with old | new
    · refine .inl ⟨List.mem_append_left _ old, ?_, ?_⟩
      · intro made control
        rw [control] at old
        exact absurd old List.not_mem_nil
      · intro exit copy others control
        rw [control] at old
        exact absurd old List.not_mem_nil
    · exact .inr new
  · refine .inl ⟨?_, discreet.spares before below⟩
    rw [Thread.awaited, before, List.filterMap_append]
    exact List.mem_append_right _ (List.mem_append_right _ below)

theorem keeps (discreet : Discreet world thread)
    (action : thread.step world = some (next, after)) {c : SlotId} (awaits : c ∈ thread.awaited)
    (spares : thread.Spares c) :
    after.Within (fun s => s ≠ c) next ∧ next.slot c = world.slot c := by
  have old := discreet.bounded c (Thread.mem_awaited_copies awaits)
  have hidden := discreet.hidden c awaits
  have keeps := Thread.step_keeps action hidden.world hidden.control hidden.stack spares.1 spares.2
  have fresh : world.Fresh (fun s => s ≠ c) next := by
    intro s unmade _ equal
    exact absurd old (Nat.not_lt.mpr (equal ▸ unmade))
  exact ⟨⟨keeps.1.within fresh hidden.world, keeps.2.1, keeps.2.2⟩,
    keeps.1.untouched fresh c (fun other => other rfl) old⟩

theorem copies (action : thread.step world = some (next, after)) :
    after.copies.Sublist thread.copies ∨
      thread.MakesCopy ∧ after.copies = world.slots.size :: thread.copies := by
  obtain ⟨pushed, rest, before, afterwards, effect⟩ := Thread.step_affects action
  rw [Thread.copies, Thread.copies, before, afterwards, List.filterMap_append,
    List.filterMap_append, ← List.append_assoc, ← List.append_assoc]
  rcases effect.copies with fewer | ⟨makes, _, new, old⟩
  · exact .inl (fewer.append_right _)
  · rw [new, old]
    exact .inr ⟨makes, rfl⟩

theorem hides (discreet : Discreet world thread) (makes : thread.MakesCopy)
    (action : thread.step world = some (next, after)) :
    world.slots.size < next.slots.size ∧ after.Within (fun s => s ≠ world.slots.size) next := by
  have inside : thread.Within (fun s => s ≠ world.slots.size) world :=
    discreet.made.imp fun _ => Nat.ne_of_lt
  obtain ⟨id, control, stack⟩ := thread
  cases control with
  | code code => exact False.elim makes
  | task work =>
      obtain ⟨s, cloner, rfl⟩ := makes
      obtain ⟨grows, within, control, same⟩ := Thread.step_copy action inside.world inside.control
        fun t => Nat.ne_of_gt
      exact ⟨grows, within, control, same ▸ inside.stack⟩

theorem step (discreet : Discreet world thread)
    (action : thread.step world = some (next, after)) : Discreet next after := by
  have grows : world.slots.size ≤ next.slots.size := by
    have anywhere : thread.Within (fun _ => True) world := discreet.made.imp fun _ _ => trivial
    exact (Thread.step_keeps action anywhere.world anywhere.control anywhere.stack
      (fun _ _ => trivial) (fun _ _ _ _ _ => trivial)).1.grows
  have bounded : ∀ c ∈ thread.copies, c < next.slots.size :=
    fun c member => Nat.lt_of_lt_of_le (discreet.bounded c member) grows
  have made := discreet.made.imp fun s old => Nat.lt_of_lt_of_le old grows
  have dealt := thread.mem_copies
  have keeps := Thread.step_keeps action made.world made.control made.stack
    (fun made control => bounded made (dealt.1 made control))
    (fun exit copy rest control stack => bounded copy (dealt.2 exit copy rest control stack))
  constructor
  · exact ⟨keeps.1.within (fun _ _ new => new) made.world, keeps.2.1, keeps.2.2⟩
  · intro c member
    rcases copies action with fewer | ⟨makes, more⟩
    · exact bounded c (fewer.subset member)
    · rw [more] at member
      rcases List.mem_cons.mp member with rfl | old
      · exact (discreet.hides makes action).1
      · exact bounded c old
  · rcases copies action with fewer | ⟨makes, more⟩
    · exact discreet.distinct.sublist fewer
    · rw [more]
      refine List.nodup_cons.mpr ⟨fun old => ?_, discreet.distinct⟩
      exact absurd (discreet.bounded _ old) (Nat.lt_irrefl _)
  · intro c awaits
    rcases discreet.waits action awaits with ⟨old, spares⟩ | ⟨makes, _, rfl⟩
    · exact (discreet.keeps action old spares).1
    · exact (discreet.hides makes action).2
  · intro c awaits
    rcases discreet.waits action awaits with ⟨old, spares⟩ | ⟨_, same, rfl⟩
    · rw [World.condition, (discreet.keeps action old spares).2]
      exact discreet.blank c old
    · rw [same.condition]
      exact world.condition_unmade

theorem ofCode (memory : σ) (id : ThreadId) (code : Code σ ν) :
    Discreet { memory } (.ofCode id code) := by
  refine ⟨⟨?_, trivial, fun _ listed => absurd listed List.not_mem_nil⟩, nofun, List.nodup_nil,
    nofun, nofun⟩
  constructor
  · intro s usable
    exact absurd usable (Nat.lt_irrefl 0)
  · intro s entry listed
    exact absurd listed List.not_mem_nil
  · intro sc action listed
    exact absurd listed List.not_mem_nil
  · intro a accessor listed
    exact absurd listed nofun
  · intro g droppable listed
    exact absurd listed nofun
  · intro p droppable listed
    exact absurd listed nofun

end Discreet

end Relinquish
