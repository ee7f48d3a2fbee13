import Relinquish.Proofs.Drops
import Relinquish.Proofs.Operations

/-!
Copies and their sources go their own ways. A copy begins with what is registered with its source, and
with a clone of its value at most; from then on each slot has the links and the handlers that are
registered with it, and its own value is released, once at most.
-/

namespace Relinquish

variable {σ ν : Type}

/-! ## What is registered -/

def World.links? (world : World σ ν) (s : SlotId) : Call σ ν → Option (Kind σ ν × Droppable σ ν)
  | .dropOnError t kind droppable =>
      if t = s ∧ ∀ handle ∈ Handle.slot t :: droppable.handles, world.usable handle = true then
        some (kind, droppable)
      else
        none
  | _ => none

def World.handlers? (world : World σ ν) (s : SlotId) :
    Call σ ν → Option (Kind σ ν × (Error → Code σ ν))
  | .callOnError t kind handler =>
      if t = s ∧ world.usable (.slot t) = true then some (kind, handler) else none
  | _ => none

def Control.call? : Control σ ν → Option (Call σ ν)
  | .task (.start call) => some call
  | _ => none

/-- What is told by the calls that a thread begins, one after the other. -/
def Thread.calls {α : Type} (view : World σ ν → Call σ ν → Option α) : Nat → World σ ν → Thread σ ν → List α
  | 0, _, _ => []
  | steps + 1, world, thread =>
      match thread.step world with
      | some (next, after) =>
          (thread.control.call?.bind (view world)).toList ++ calls view steps next after
      | none => []

/-- What is shown after is what was shown before with these links and handlers at the ends. -/
def Showing.Gains (before after : Showing σ ν) (links : List (Kind σ ν × Droppable σ ν))
    (handlers : List (Kind σ ν × (Error → Code σ ν))) : Prop :=
  after.links.entries = before.links.entries ++ links ∧
    after.handlers.entries = before.handlers.entries ++ handlers

theorem Showing.Gains.refl (showing : Showing σ ν) : showing.Gains showing [] [] :=
  ⟨(List.append_nil _).symm, (List.append_nil _).symm⟩

theorem Showing.Gains.trans {before middle after : Showing σ ν}
    {links more : List (Kind σ ν × Droppable σ ν)} {handlers others : List (Kind σ ν × (Error → Code σ ν))}
    (first : before.Gains middle links handlers) (second : middle.Gains after more others) :
    before.Gains after (links ++ more) (handlers ++ others) := by
  constructor
  · rw [second.1, first.1, List.append_assoc]
  · rw [second.2, first.2, List.append_assoc]

section
variable {world next : World σ ν} {thread after : Thread σ ν} {s : SlotId}

theorem Call.start_registers (world : World σ ν) (s : SlotId) (call : Call σ ν) :
    Ensures (call.start world) fun move =>
      (world.shows s).Gains (move.world.shows s) (world.links? s call).toList
        (world.handlers? s call).toList := by
  cases call with
  | dropOnError t kind droppable =>
      simp only [start, Ensures.whenUsable_iff, Ensures.whenFree_iff, Ensures.answer_iff]
      refine ⟨fun usable _ => ?_, fun unusable => ?_⟩
      · rw [World.shows_act, World.shows_updateSlot]
        by_cases same : t = s
        · subst same
          have kept := World.shows_retainAll world droppable.handles t
          rw [if_pos rfl, World.links?, if_pos ⟨rfl, usable⟩, ← kept]
          exact ⟨rfl, (List.append_nil _).symm⟩
        · rw [if_neg same, World.shows_retainAll, World.links?, if_neg (same ·.1)]
          exact .refl _
      · rw [World.links?, if_neg (unusable ·.2)]
        exact .refl _
  | callOnError t kind handler =>
      simp only [start, Ensures.whenUsable_iff, Ensures.whenFree_iff, Ensures.answer_iff,
        List.forall_mem_singleton]
      refine ⟨fun usable _ => ?_, fun unusable => ?_⟩
      · rw [World.shows_act, World.shows_updateSlot]
        by_cases same : t = s
        · subst same
          rw [if_pos rfl, World.handlers?, if_pos ⟨rfl, usable⟩]
          exact ⟨(List.append_nil _).symm, rfl⟩
        · rw [if_neg same, World.handlers?, if_neg (same ·.1)]
          exact .refl _
      · rw [World.handlers?, if_neg (unusable ·.2)]
        exact .refl _
  | _ =>
      refine (start_edits world _).imp fun move edits => ?_
      rcases edits with same | ⟨_, _, edit, _⟩
      · rw [same]
        exact .refl _
      · contradiction

theorem Thread.step_registers (made : s < world.slots.size)
    (action : thread.step world = some (next, after)) :
    (world.shows s).Gains (next.shows s) (thread.control.call?.bind (world.links? s)).toList
      (thread.control.call?.bind (world.handlers? s)).toList := by
  cases begins : thread.control.call? with
  | some call =>
      obtain ⟨id, control, stack⟩ := thread
      obtain rfl : control = .task (.start call) := by
        cases control with
        | code => contradiction
        | task work =>
            cases work <;> cases begins
            rfl
      obtain ⟨move, made, rfl, rfl⟩ := step_start action
      exact call.start_registers world s move made
  | none =>
      rcases step_edits action with same | ⟨t, showing, edit, changes⟩
      · rw [same]
        exact .refl _
      · rw [changes]
        split
        · next equal =>
            subst equal
            generalize thread.control = control at begins edit
            generalize thread.top? = top at edit
            cases edit with
            | linked | handled => contradiction
            | copied => exact absurd made (Nat.lt_irrefl _)
            | _ => exact .refl _
        · exact .refl _

theorem Thread.advance_registers (made : s < world.slots.size) (steps : Nat) (thread : Thread σ ν) :
    (world.shows s).Gains ((advance steps world thread).1.shows s)
      (calls (World.links? · s) steps world thread) (calls (World.handlers? · s) steps world thread) := by
  induction steps generalizing world thread with
  | zero => exact .refl _
  | succ steps ih =>
      cases action : thread.step world with
      | none =>
          simp only [advance, calls, action]
          exact .refl _
      | some moved =>
          obtain ⟨next, after⟩ := moved
          have registers := step_registers made action
          have later := ih (Nat.lt_of_lt_of_le made (step_preserves action).made) after
          simp only [advance, calls, action]
          exact registers.trans later

end

/-! ## Copies -/

/-- A copy is not dropped, and has the links and the handlers of its source. -/
def Showing.copy (source : Showing σ ν) (value : Option Value) : Showing σ ν :=
  { source with dropped := false, value }

def World.Puts (world next : World σ ν) (copy : SlotId) (showing : Showing σ ν) : Prop :=
  ∀ t, next.shows t = if copy = t then showing else world.shows t

section
variable {world next : World σ ν} {thread after : Thread σ ν} {s : SlotId} {id : ThreadId}
  {stack base : List (Frame σ ν)} {cloner : Option (Value → Code σ ν)}

def World.copying (world : World σ ν) (s : SlotId) : World σ ν :=
  ((world.retain (.slot s)).copySlot s).1

theorem World.size_retain (made : s < world.slots.size) :
    (world.retain (.slot s)).slots.size = world.slots.size :=
  Table.size_update made _

theorem World.copying_puts (made : s < world.slots.size) :
    world.Puts (world.copying s) world.slots.size ((world.shows s).copy none) := by
  intro t
  have kept := world.shows_retain (.slot s)
  have links : ((world.retain (.slot s)).slot s).links = (world.shows s).links :=
    congrArg Showing.links (kept s)
  have handlers : ((world.retain (.slot s)).slot s).handlers = (world.shows s).handlers :=
    congrArg Showing.handlers (kept s)
  rw [copying, shows_copySlot, size_retain made, kept, links, handlers]
  rfl

theorem Thread.Works.copy (handles : 0 < (world.slot s).handles)
    (links : world.free (.links s) = true) (handlers : world.free (.handlers s) = true) :
    Works world ⟨id, .task (.start (.copySlot s cloner)), stack⟩ (world.copying s)
      ⟨id, .task (cloner.elim (.deliver world.slots.size) (.copyValue s world.slots.size)),
        .holding [.slot s] :: stack⟩ := by
  have made : s < world.slots.size := World.made_of_held (Nat.add_pos_left handles _)
  have free (lock : Lock) : (world.retain (.slot s)).free lock = world.free lock :=
    World.free_congr (world.locks_retain _) lock
  have copies : Thread.step (world.retain (.slot s)) ⟨id, .task (.copy s cloner), .holding [.slot s] :: stack⟩ =
      some (world.copying s,
        ⟨id, .task (cloner.elim (.deliver world.slots.size) (.copyValue s world.slots.size)),
          .holding [.slot s] :: stack⟩) := by
    have copy : ((world.retain (.slot s)).copySlot s).2 = world.slots.size := World.size_retain made
    simp only [Thread.step, Task.step, World.whenFree, List.all_cons, List.all_nil, free, links, handlers,
      Bool.and_true, if_true, copy]
    cases cloner <;> rfl
  exact .step rfl (step_operate handles rfl id stack) (.step rfl copies (.done _ _))

theorem Thread.Works.deliver (world : World σ ν) (id : ThreadId) (made : SlotId)
    (stack : List (Frame σ ν)) :
    Works world ⟨id, .task (.deliver made), stack⟩ (world.handOver made)
      ⟨id, .task (.finish (.returned (.object made))), stack⟩ :=
  .step rfl rfl (.done _ _)

theorem Sound.untouched {inner last : Thread σ ν} {c : SlotId}
    (sound : Sound world (inner.above (.cloning c :: base))) (run : Thread.Reaches world inner next last) :
    next.slot c = world.slot c := by
  refine (run.rule (fun middle between => Sound middle (between.above (.cloning c :: base)) ∧
    middle.slot c = world.slot c) ?_ ⟨sound, rfl⟩).2
  rintro middle between later after ⟨sound, same⟩ action
  have moves : (between.above (.cloning c :: base)).step middle =
      some (later, after.above (.cloning c :: base)) := by
    rw [Thread.step_above middle between _ (Thread.running_of_step action), action]
    rfl
  have awaits (thread : Thread σ ν) : c ∈ (thread.above (.cloning c :: base)).awaited := by
    apply List.mem_append_right
    apply List.mem_filterMap.mpr
    exact ⟨.cloning c, List.mem_filterMap.mpr ⟨.cloning c, List.mem_append_right _ (.head _), rfl⟩, rfl⟩
  have discreet := sound.discreet
  -- A copy is spared as long as it is awaited, and one that has just been made is another one.
  rcases discreet.waits moves (awaits after) with ⟨old, spares⟩ | ⟨_, _, fresh⟩
  · exact ⟨sound.step moves, (discreet.keeps moves old spares).2.trans same⟩
  · have made := discreet.bounded c (Thread.mem_awaited_copies (awaits between))
    exact absurd (fresh ▸ made) (Nat.lt_irrefl _)

structure World.Copies (world : World σ ν) (id : ThreadId) (stack : List (Frame σ ν)) (s : SlotId)
    (cloner : Option (Value → Code σ ν)) : Prop where
  bare : cloner = none ∨ (world.slot s).value = none → ∃ next,
    Thread.Works world ⟨id, .task (.start (.copySlot s cloner)), stack⟩ next
      ⟨id, .task (.finish (.returned (.object world.slots.size))), .holding [.slot s] :: stack⟩ ∧
    world.Puts next world.slots.size ((world.shows s).copy none)
  /-- Nobody gets the copy before the clone is there. -/
  cloned : ∀ clone value, cloner = some clone → (world.slot s).value = some value → ∃ next,
    Thread.Works world ⟨id, .task (.start (.copySlot s cloner)), stack⟩ next
      ⟨id, .code (clone value), .cloning world.slots.size :: .holding [.slot s] :: stack⟩ ∧
    world.Puts next world.slots.size ((world.shows s).copy none) ∧
    ∀ reply middle, Ends id next (.code (clone value)) (.returned reply) middle → ∃ final,
      Thread.Works middle
        ⟨id, .task (.finish (.returned reply)), .cloning world.slots.size :: .holding [.slot s] :: stack⟩
        final
        ⟨id, .task (.finish (.returned (.object world.slots.size))), .holding [.slot s] :: stack⟩ ∧
      middle.Puts final world.slots.size ((world.shows s).copy (some ⟨middle.values, reply.content⟩))

theorem Regular.copies (regular : Regular world ⟨id, .task (.start (.copySlot s cloner)), stack⟩)
    (handles : 0 < (world.slot s).handles) (links : world.free (.links s) = true)
    (handlers : world.free (.handlers s) = true) : world.Copies id stack s cloner := by
  have made : s < world.slots.size := World.made_of_held (Nat.add_pos_left handles _)
  have puts := world.copying_puts made
  have works : Thread.Works world ⟨id, .task (.start (.copySlot s cloner)), stack⟩ _ _ :=
    .copy handles links handlers
  have kept : (world.copying s).shows s = world.shows s := (puts s).trans (if_neg (Nat.ne_of_gt made))
  have held : ((world.copying s).slot s).value = (world.slot s).value := congrArg Showing.value kept
  have free : (world.copying s).free (.value s) = true :=
    (World.free_congr ((World.locks_copySlot _ s).trans (world.locks_retain _)) _).trans
      (regular.value_free rfl)
  constructor
  case bare =>
    intro unneeded
    have delivers : Thread.Works world ⟨id, .task (.start (.copySlot s cloner)), stack⟩ (world.copying s)
        ⟨id, .task (.deliver world.slots.size), .holding [.slot s] :: stack⟩ := by
      cases cloner with
      | none => exact works
      | some clone =>
          have empty := unneeded.resolve_left nofun
          refine works.trans (.step rfl ?_ (.done _ _))
          simp only [Thread.step, Option.elim_some, Task.step, World.whenFree, List.all_cons, List.all_nil,
            free, held, empty, Bool.and_true, if_true]
          rfl
    exact ⟨_, delivers.trans (.deliver _ _ _ _), fun t => (World.shows_handOver _ _ t).trans (puts t)⟩
  case cloned =>
    rintro clone value rfl full
    have begins : Thread.Works world ⟨id, .task (.start (.copySlot s (some clone))), stack⟩ (world.copying s)
        ⟨id, .code (clone value), .cloning world.slots.size :: .holding [.slot s] :: stack⟩ := by
      refine works.trans (.step rfl ?_ (.done _ _))
      simp only [Thread.step, Option.elim_some, Task.step, World.whenFree, List.all_cons, List.all_nil,
        free, held, full, Bool.and_true, if_true]
      rfl
    -- What the copy shows when the cloner returns is what it showed when the cloner began.
    refine ⟨_, begins, puts, fun reply middle clones => ?_⟩
    refine ⟨_, .step rfl rfl (.deliver _ _ _ _), fun t => ?_⟩
    have cloning := begins.reaches.sound regular.tracked.sound
    have sound : Sound (world.copying s) (Thread.above ⟨id, .code (clone value), []⟩
        (.cloning world.slots.size :: .holding [.slot s] :: stack)) := cloning
    have same : middle.shows world.slots.size = (world.shows s).copy none := by
      rw [World.shows, sound.untouched clones]
      exact (puts _).trans (if_pos rfl)
    rw [World.shows_handOver, World.shows_act, World.shows_change]
    split
    · exact congrArg (fun showing : Showing σ ν => { showing with
        value := some ⟨middle.values, reply.content⟩ }) same
    · rfl

end

/-! ## Slots in a run -/

/-- How the slots of a world go their own ways, at a moment at which a thread is there. -/
structure World.Independent (world : World σ ν) (thread : Thread σ ν) : Prop where
  /-- A clone of a handle is a handle of the same slot. -/
  clones : ∀ s, thread.control = .task (.start (.cloneHandle s)) → 0 < (world.slot s).handles →
    ∃ next, thread.step world = some (next,
        ⟨thread.id, .task (.finish (.returned (.object s))), thread.stack⟩) ∧
      ∀ t, next.shows t = world.shows t
  copies : ∀ s cloner, thread.control = .task (.start (.copySlot s cloner)) →
    0 < (world.slot s).handles → world.free (.links s) = true → world.free (.handlers s) = true →
      world.Copies thread.id thread.stack s cloner
  /-- What is called on a slot works by itself on that slot, but for links that are dropped, slots that
  are made and slots that nobody holds any more. -/
  apart : ∀ call s, world.Concerns s call → thread.control = .task (.start call) → ∀ n,
    Thread.Reaches world thread (world.operation thread.id call n).1
      ((world.operation thread.id call n).2.above thread.stack) ∧
    ∀ next after,
      (world.operation thread.id call n).2.step (world.operation thread.id call n).1 = some (next, after) →
        (world.operation thread.id call n).2.InCall ∨ (world.operation thread.id call n).1.ChangesOnly next
          ((world.operation thread.id call n).2.Affects next s
            (Thread.Linked world ⟨thread.id, .task (.start call), []⟩ s) world.slots.size)
  registers : ∀ s < world.slots.size, ∀ steps,
    ((Thread.advance steps world thread).1.shows s).links.entries =
      (world.shows s).links.entries ++ Thread.calls (World.links? · s) steps world thread ∧
    ((Thread.advance steps world thread).1.shows s).handlers.entries =
      (world.shows s).handlers.entries ++ Thread.calls (World.handlers? · s) steps world thread
  released : ∀ s, (world.handed.filter fun entry => entry.1 = s).length ≤ 1 ∧
    ∀ value, (s, value) ∈ world.handed → (s, value) ∈ world.entered
  distinct : (world.entered.map fun entry => entry.2.id).Nodup

/-- Whatever code runs, at every moment slots go their own ways. -/
theorem Thread.slots_independent (memory : σ) (id : ThreadId) (code : Code σ ν) {begun : Nat}
    {world : World σ ν} {thread : Thread σ ν}
    (run : advance begun { memory } (.ofCode id code) = (world, thread)) : world.Independent thread := by
  have regular : Regular world thread := by
    have now := Regular.advance memory id code begun
    rwa [run] at now
  obtain ⟨i, control, stack⟩ := thread
  constructor
  case clones =>
    rintro s rfl handles
    have usable : [Handle.slot s].all world.usable = true := by simp [World.usable, handles]
    refine ⟨world.updateSlot s fun slot => { slot with handles := slot.handles + 1 }, ?_, fun t => ?_⟩
    · simp only [Thread.step, Task.step, Call.start, World.whenUsable, usable, if_true]
      rfl
    · simp [Slot.showing]
  case copies =>
    rintro s cloner rfl handles links handlers
    exact regular.copies handles links handlers
  case apart =>
    rintro call s concerns rfl n
    have reaches : Reaches world ⟨i, .task (.start call), []⟩ (world.operation i call n).1
      (world.operation i call n).2 := ⟨n, rfl⟩
    exact ⟨reaches.above stack, fun next after => concerns.footprint n⟩
  case registers => exact fun s made steps => advance_registers made steps _
  case released =>
    intro s
    obtain ⟨release, _, releases⟩ := (Releases.ofCode memory id code s).advance (.ofCode memory id code) begun
    rw [run] at releases
    refine ⟨releases.handed_once, fun value released => ?_⟩
    have handed := List.count_pos_iff.mpr released
    have balance := regular.tracked.sound.balanced.balance s value
    apply List.count_pos_iff.mp
    omega
  case distinct => exact regular.tracked.sound.balanced.distinct

/-- A copy with a clone of the value, after which its source is dropped. -/
def Code.copyAndDrop : Code Unit Unit :=
  .call (.newSlot (fun _ => .ret .done) (.ret (.text "value"))) fun _ =>
    .call (.getValue 0) fun _ =>
      .call (.dropOnError 0 .any .scopeOwner) fun _ =>
        .call (.copySlot 0 (some fun value => .ret (.text value.text))) fun _ =>
          .call (.dropOnError 1 .any .scopeOwner) fun _ => .call (.dropSlot 0) .ret

theorem Thread.slots_independent_copyAndDrop :
    let copying := advance 25 { memory := () } (.ofCode 0 Code.copyAndDrop)
    let dropping := advance 39 { memory := () } (.ofCode 0 Code.copyAndDrop)
    copying.1.Copies 0 copying.2.stack 0 (some fun value => .ret (.text value.text)) ∧
    ∀ n next after, (dropping.1.operation 0 (.dropSlot 0) n).2.step (dropping.1.operation 0 (.dropSlot 0) n).1 =
        some (next, after) →
      (dropping.1.operation 0 (.dropSlot 0) n).2.InCall ∨
        (dropping.1.operation 0 (.dropSlot 0) n).1.ChangesOnly next
          ((dropping.1.operation 0 (.dropSlot 0) n).2.Affects next 0
            (Linked dropping.1 ⟨0, .task (.start (.dropSlot 0)), []⟩ 0) 2) := by
  intro copying dropping
  have copies := (slots_independent () 0 Code.copyAndDrop (rfl : _ = copying)).copies
  have apart := (slots_independent () 0 Code.copyAndDrop (rfl : _ = dropping)).apart
  exact ⟨copies 0 _ rfl Nat.one_pos rfl rfl, fun n => (apart (.dropSlot 0) 0 rfl rfl n).2⟩

/-- The copy of a slot is a link of it. -/
def Code.linkCopy : Code Unit Unit :=
  .call (.newSlot (fun _ => .ret .done) (.ret (.failed (.text "refused")))) fun _ =>
    .call (.copySlot 0 none) fun _ =>
      .call (.dropOnError 0 .any (.slot 1)) fun _ => .call (.getValue 0) .ret

/-- To get the value of the source drops the copy, without a call of any code. -/
theorem World.get_drops_copy :
    let asking := Thread.advance 15 { memory := () } (.ofCode 0 Code.linkCopy)
    asking.2.control = .task (.start (.getValue 0)) ∧ (asking.1.slot 1).dropped = false ∧
    (asking.1.operation 0 (.getValue 0) 24).2 =
      ⟨0, .task (.finish (.returned (.failed (.drop (.initialization (.text "refused") []))))), []⟩ ∧
    ((asking.1.operation 0 (.getValue 0) 24).1.slot 1).dropped = true ∧
    ∀ n < 25, ¬ (asking.1.operation 0 (.getValue 0) n).2.InCall :=
  ⟨rfl, rfl, rfl, rfl, by decide⟩

end Relinquish
