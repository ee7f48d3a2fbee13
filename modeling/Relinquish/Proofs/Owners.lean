import Relinquish.Proofs.Runs

/-!
What the release of an owner attempts. Its slots have their turns in the reverse order of their
declaration, those of an owner among them at its own turn; a panic of one of them is not caught, and
the slots that would come after it have no turn.
-/

namespace Relinquish

variable {σ ν : Type}

/-! ## The order of the slots -/

mutual

/-- The slots of an owner, and those of the owners among them, in the order of their turns. -/
def Droppable.order : Droppable σ ν → List (Droppable σ ν)
  | .action _ | .slot _ | .scopeOwner => []
  | .owner slots => orderOfAll slots
termination_by structural droppable => droppable

/-- Of slots in the order of their declaration, the last one has the first turn. -/
def orderOfAll : List (Droppable σ ν) → List (Droppable σ ν)
  | [] => []
  | droppable :: rest => orderOfAll rest ++ droppable :: droppable.order
termination_by structural droppables => droppables

end

theorem orderOfAll_eq_flatMap (slots : List (Droppable σ ν)) :
    orderOfAll slots = slots.reverse.flatMap fun slot => slot :: slot.order := by
  induction slots with
  | nil => rfl
  | cons slot rest ih => simp [orderOfAll, ih]

theorem orderOfAll_reverse_cons (slot : Droppable σ ν) (rest : List (Droppable σ ν)) :
    orderOfAll (slot :: rest).reverse = slot :: slot.order ++ orderOfAll rest.reverse := by
  simp [orderOfAll_eq_flatMap]

def Droppable.isOwner : Droppable σ ν → Bool
  | owner _ => true
  | _ => false

/-! ## Attempts -/

def Task.attempts? : Task σ ν → Option (Droppable σ ν)
  | disposeAll (slot :: _) _ => some slot
  | _ => none

def Control.attempts? : Control σ ν → Option (Droppable σ ν)
  | code _ => none
  | task work => work.attempts?

def Frame.isOwning : Frame σ ν → Bool
  | owning _ _ => true
  | _ => false

/-- The slot whose turn begins with the next step, of the owner that is released at the bottom of the
stack or of one within it. -/
def Thread.attempts? (thread : Thread σ ν) : Option (Droppable σ ν) :=
  if thread.stack.all Frame.isOwning then thread.control.attempts? else none

def Thread.attempts : Nat → World σ ν → Thread σ ν → List (Droppable σ ν)
  | 0, _, _ => []
  | steps + 1, world, thread =>
      match thread.step world with
      | some (next, after) => thread.attempts?.toList ++ attempts steps next after
      | none => []

/-! ## Releases that attempt no slot -/

def Control.isPlain : Control σ ν → Bool
  | code _ | task (.finish _) | task (.swap _) | task (.take _) => true
  | task (.dispose droppable) => !droppable.isOwner
  | task _ => false

def Frame.isPlain : Frame σ ν → Bool
  | calling _ | attempted _ | joined _ _ | releasing _ _ => true
  | _ => false

/-- A thread that releases something else than an owner. What its code calls works above a frame of
that code. -/
def Thread.Plain (thread : Thread σ ν) : Prop :=
  match thread.stack.getLast? with
  | none => thread.control.isPlain = true
  | some frame => frame.isPlain = true

namespace Thread.Plain

variable {world next : World σ ν} {thread after : Thread σ ν} {id : ThreadId} {frame : Frame σ ν}

theorem of_code (code : Code σ ν) :
    Ensures (code.step world id) fun move =>
      Plain ⟨move.thread.getD id, move.control, move.frames ++ []⟩ := by
  cases code <;> simp [Code.step, Plain, Control.isPlain, Frame.isPlain]

theorem of_task (work : Task σ ν) (plain : (Control.task work).isPlain = true) :
    Ensures (work.step world id) fun move =>
      Plain ⟨move.thread.getD id, move.control, move.frames ++ []⟩ := by
  cases work with
  | finish exit => simp [Task.step]
  | swap s => simp [Task.step, Plain, Control.isPlain]
  | take s =>
      simp only [Task.step, Ensures.whenFree_iff]
      split <;> simp [Plain, Control.isPlain, Frame.isPlain]
  | dispose droppable =>
      cases droppable with
      | owner slots => simp [Control.isPlain, Droppable.isOwner] at plain
      | _ => simp [Task.step, Plain, Control.isPlain]
  | _ => simp [Control.isPlain] at plain

theorem of_frame {exit : Exit} (plain : frame.isPlain = true) :
    Ensures (frame.resume world exit) fun move =>
      Plain ⟨move.thread.getD id, move.control, move.frames ++ []⟩ := by
  cases frame with
  | calling continuation =>
      cases exit <;> simp [Frame.resume, Plain, Control.isPlain]
  | attempted continuation => simp [Frame.resume, Plain, Control.isPlain]
  | joined starter continuation => simp [Frame.resume, Plain, Control.isPlain]
  | releasing s value => simp [Frame.resume, Plain, Control.isPlain]
  | _ => simp [Frame.isPlain] at plain

theorem keep {control : Control σ ν} {stack : List (Frame σ ν)}
    (plain : Plain ⟨id, control, frame :: stack⟩) (other : ThreadId) (further : Control σ ν)
    (frames : List (Frame σ ν)) : Plain ⟨other, further, frames ++ frame :: stack⟩ := by
  simpa [Plain, List.getLast?_cons] using plain

theorem step (plain : thread.Plain) (action : thread.step world = some (next, after)) :
    after.Plain := by
  refine step_rule (fun thread _ after => thread.Plain → after.Plain) ?_ ?_ ?_ action plain
  · intro id code stack move made plain
    cases stack with
    | nil => exact of_code code move made
    | cons frame stack => exact plain.keep _ _ _
  · intro id work stack move made plain
    cases stack with
    | nil => exact of_task work plain move made
    | cons frame stack => exact plain.keep _ _ _
  · intro id exit frame stack move made plain
    cases stack with
    | nil => exact of_frame plain move made
    | cons below stack =>
        have plain : Plain ⟨id, move.control, below :: stack⟩ := plain
        exact plain.keep _ _ _

theorem reaches (plain : thread.Plain) (run : Reaches world thread next after) : after.Plain :=
  run.rule (fun _ after => after.Plain) (fun _ _ _ _ plain action => plain.step action) plain

theorem attempts?_above (plain : thread.Plain) (base : List (Frame σ ν)) :
    (thread.above base).attempts? = none := by
  obtain ⟨id, control, stack⟩ := thread
  rcases List.eq_nil_or_concat stack with rfl | ⟨front, last, rfl⟩
  · cases control with
    | code code => simp [attempts?, above, Control.attempts?]
    | task work =>
        cases work <;>
          simp_all [Plain, Control.isPlain, attempts?, above, Control.attempts?, Task.attempts?]
  · have other : last.isOwning = false := by
      cases last <;> simp_all [Plain, Frame.isPlain, Frame.isOwning]
    simp [attempts?, above, other]

end Thread.Plain

/-! ## The turns of the slots -/

/-- The loops of owners that wait for the end of a turn: the slots that each has still before it, and
what has failed so far. -/
abbrev Loops (σ ν : Type) := List (List (Droppable σ ν) × List Error)

def Loops.frames (loops : Loops σ ν) : List (Frame σ ν) :=
  loops.map fun (rest, failures) => .owning rest failures

def Loops.ahead (loops : Loops σ ν) : List (Droppable σ ν) :=
  loops.flatMap fun (rest, _) => orderOfAll rest.reverse

theorem Thread.attempts?_loops (id : ThreadId) (control : Control σ ν) (loops : Loops σ ν) :
    attempts? ⟨id, control, loops.frames⟩ = control.attempts? := by
  have owning : loops.frames.all Frame.isOwning = true := by
    simp [Loops.frames, Frame.isOwning]
  rw [attempts?, if_pos owning]

structure Attempted (id : ThreadId) (origin : World σ ν) (start : Thread σ ν) (slot : Droppable σ ν)
    (exit : Exit) (world : World σ ν) : Prop where
  plain : slot.isOwner = false
  ended : ∃ middle stack, Thread.Reaches origin start middle ⟨id, .task (.dispose slot), stack⟩ ∧
    Ends id middle (.task (.dispose slot)) exit world

inductive Attempting (id : ThreadId) (origin : World σ ν) (start : Thread σ ν)
    (order : List (Droppable σ ν)) : List (Droppable σ ν) → World σ ν → Thread σ ν → Prop
  | opens {done slots : List (Droppable σ ν)} {loops : Loops σ ν} {world : World σ ν}
      (split : order = done ++ (orderOfAll slots ++ loops.ahead)) :
      Attempting id origin start order done world
        ⟨id, .task (.dispose (.owner slots)), loops.frames⟩
  | loops {done rest : List (Droppable σ ν)} {failures : List Error} {loops : Loops σ ν}
      {world : World σ ν} (split : order = done ++ (orderOfAll rest.reverse ++ loops.ahead)) :
      Attempting id origin start order done world
        ⟨id, .task (.disposeAll rest failures), loops.frames⟩
  | drops {done rest : List (Droppable σ ν)} {slot : Droppable σ ν} {failures : List Error}
      {loops : Loops σ ν} {middle world : World σ ν} {inner : Thread σ ν}
      {stack : List (Frame σ ν)}
      (split : order = done ++ slot :: (orderOfAll rest.reverse ++ loops.ahead))
      (plain : slot.isOwner = false)
      (reach : Thread.Reaches origin start middle ⟨id, .task (.dispose slot), stack⟩)
      (runs : Thread.Reaches middle ⟨id, .task (.dispose slot), []⟩ world inner) :
      Attempting id origin start order (done ++ [slot]) world
        (inner.above (.owning rest failures :: loops.frames))
  | returned {done : List (Droppable σ ν)} {loops : Loops σ ν} {world : World σ ν} {reply : Reply}
      (split : order = done ++ loops.ahead) :
      Attempting id origin start order done world
        ⟨id, .task (.finish (.returned reply)), loops.frames⟩
  | panicked {done left : List (Droppable σ ν)} {slot : Droppable σ ν} {loops : Loops σ ν}
      {world : World σ ν} {payload : Payload} (split : order = done ++ slot :: left)
      (attempted : Attempted id origin start slot (.panicked payload) world) :
      Attempting id origin start order (done ++ [slot]) world
        ⟨id, .task (.finish (.panicked payload)), loops.frames⟩

namespace Attempting

variable {id : ThreadId} {origin world next : World σ ν} {start thread after : Thread σ ν}
  {order done rest : List (Droppable σ ν)} {slot : Droppable σ ν} {loops : Loops σ ν}
  {failures : List Error}

theorem of_turn
    (split : order = done ++ (orderOfAll (slot :: rest).reverse ++ loops.ahead))
    (reach : Thread.Reaches origin start world
      ⟨id, .task (.dispose slot), .owning rest failures :: loops.frames⟩) :
    Attempting id origin start order (done ++ [slot]) world
      ⟨id, .task (.dispose slot), .owning rest failures :: loops.frames⟩ := by
  rw [orderOfAll_reverse_cons] at split
  cases kind : slot.isOwner with
  | false =>
      have none : slot.order = [] := by
        cases slot <;> simp_all [Droppable.isOwner, Droppable.order]
      rw [none] at split
      exact .drops (by simpa using split) kind reach (.refl _ _)
  | true =>
      obtain ⟨slots, rfl⟩ : ∃ slots, slot = .owner slots := by
        cases slot <;> simp_all [Droppable.isOwner]
      have split : order = (done ++ [.owner slots]) ++
          (orderOfAll slots ++ Loops.ahead ((rest, failures) :: loops)) := by
        simpa [Droppable.order, Loops.ahead] using split
      exact .opens split

theorem of_end {exit : Exit}
    (split : order = done ++ slot :: (orderOfAll rest.reverse ++ loops.ahead))
    (attempted : Attempted id origin start slot exit world)
    (action : Thread.step world ⟨id, .task (.finish exit), .owning rest failures :: loops.frames⟩ =
      some (next, after)) :
    Attempting id origin start order (done ++ [slot]) next after := by
  cases exit with
  | panicked payload =>
      obtain ⟨rfl, rfl⟩ := Prod.mk.inj (Option.some.inj action)
      exact .panicked split attempted
  | returned reply =>
      obtain ⟨rfl, rfl⟩ := Prod.mk.inj (Option.some.inj action)
      exact .loops (by simpa using split)

theorem step (attempting : Attempting id origin start order done world thread)
    (reach : Thread.Reaches origin start world thread)
    (action : thread.step world = some (next, after)) :
    Attempting id origin start order (done ++ thread.attempts?.toList) next after := by
  cases attempting with
  | opens split =>
      rw [Thread.attempts?_loops]
      obtain ⟨rfl, rfl⟩ := Prod.mk.inj (Option.some.inj action)
      exact .loops (by simpa [Control.attempts?, Task.attempts?] using split)
  | @loops _ rest failures loops _ split =>
      rw [Thread.attempts?_loops]
      have reach := reach.snoc action
      cases rest with
      | nil =>
          obtain ⟨rfl, rfl⟩ := Prod.mk.inj (Option.some.inj action)
          exact .returned (by simpa [orderOfAll, Control.attempts?, Task.attempts?] using split)
      | cons slot rest =>
          obtain ⟨rfl, rfl⟩ := Prod.mk.inj (Option.some.inj action)
          exact of_turn split reach
  | drops split plain begun runs =>
      have isPlain : Thread.Plain ⟨id, .task (.dispose _), []⟩ := congrArg not plain
      rw [(isPlain.reaches runs).attempts?_above, Option.toList_none, List.append_nil]
      rcases runs.step_above action with ⟨further, runs, rfl⟩ | ⟨exit, run, resumes⟩
      · exact .drops split plain begun runs
      · exact of_end split ⟨plain, _, _, begun, run⟩ resumes
  | @returned _ loops _ reply split =>
      rw [Thread.attempts?_loops]
      cases loops with
      | nil => contradiction
      | cons loop loops =>
          obtain ⟨rfl, rfl⟩ := Prod.mk.inj (Option.some.inj action)
          exact .loops (by simpa [Loops.ahead, Control.attempts?, Task.attempts?] using split)
  | @panicked done _ slot loops _ payload split attempted =>
      rw [Thread.attempts?_loops]
      cases loops with
      | nil => contradiction
      | cons loop loops =>
          obtain ⟨rfl, rfl⟩ := Prod.mk.inj (Option.some.inj action)
          show Attempting id origin start order ((done ++ [slot]) ++ []) _
            ⟨id, .task (.finish (.panicked payload)), Loops.frames loops⟩
          rw [List.append_nil]
          exact .panicked split attempted

theorem advance (attempting : Attempting id origin start order done world thread)
    (reach : Thread.Reaches origin start world thread) (steps : Nat) :
    Attempting id origin start order (done ++ thread.attempts steps world)
      (Thread.advance steps world thread).1 (Thread.advance steps world thread).2 := by
  induction steps generalizing done world thread with
  | zero =>
      rw [Thread.attempts, List.append_nil]
      exact attempting
  | succ steps ih =>
      cases action : thread.step world with
      | none =>
          simp only [Thread.attempts, Thread.advance, action, List.append_nil]
          exact attempting
      | some reached =>
          simp only [Thread.attempts, Thread.advance, action]
          rw [← List.append_assoc]
          exact ih (attempting.step reach action) (reach.snoc action)

end Attempting

/-! ## Every release -/

def Thread.ofOwner (id : ThreadId) (slots : List (Droppable σ ν)) : Thread σ ν :=
  { id, control := .task (.dispose (.owner slots)) }

structure Thread.OwnerAttempts (id : ThreadId) (slots : List (Droppable σ ν)) (world : World σ ν)
    (steps : Nat) : Prop where
  /-- At every moment the slots have had their turns in order, and none had two. -/
  foreseen : (ofOwner id slots).attempts steps world <+: orderOfAll slots
  returned : ∀ reply, (advance steps world (ofOwner id slots)).2.exit? = some (.returned reply) →
    (ofOwner id slots).attempts steps world = orderOfAll slots
  /-- A panic comes from the slot that had the last turn, and skips all that come after it. -/
  panicked : ∀ payload,
    (advance steps world (ofOwner id slots)).2.exit? = some (.panicked payload) →
    ∃ done slot left, orderOfAll slots = done ++ slot :: left ∧
      (ofOwner id slots).attempts steps world = done ++ [slot] ∧
      Attempted id world (ofOwner id slots) slot (.panicked payload)
        (advance steps world (ofOwner id slots)).1

namespace Attempting

variable {id : ThreadId} {origin world : World σ ν} {start thread : Thread σ ν}
  {order done : List (Droppable σ ν)}

theorem foreseen (attempting : Attempting id origin start order done world thread) :
    done <+: order := by
  cases attempting with
  | opens split | loops split | returned split =>
      rw [split]
      exact List.prefix_append ..
  | drops split | panicked split =>
      rw [split]
      exact (List.prefix_append_right_inj _).mpr (List.cons_prefix_cons.mpr ⟨rfl, List.nil_prefix⟩)

theorem of_returned {reply : Reply}
    (attempting : Attempting id origin start order done world thread)
    (ended : thread.exit? = some (.returned reply)) : done = order := by
  have control := congrArg Thread.control (Thread.exit?_eq_some ended)
  have stack := congrArg Thread.stack (Thread.exit?_eq_some ended)
  cases attempting with
  | opens | loops | drops | panicked => simp [Thread.above] at control stack
  | returned split =>
      obtain rfl := List.map_eq_nil_iff.mp stack
      simpa [Loops.ahead] using split.symm

theorem of_panicked {payload : Payload}
    (attempting : Attempting id origin start order done world thread)
    (ended : thread.exit? = some (.panicked payload)) :
    ∃ earlier slot left, order = earlier ++ slot :: left ∧ done = earlier ++ [slot] ∧
      Attempted id origin start slot (.panicked payload) world := by
  have control := congrArg Thread.control (Thread.exit?_eq_some ended)
  have stack := congrArg Thread.stack (Thread.exit?_eq_some ended)
  cases attempting with
  | opens | loops | drops | returned => simp [Thread.above] at control stack
  | panicked split attempted =>
      obtain rfl : payload = _ := by simpa using control.symm
      exact ⟨_, _, _, split, rfl, attempted⟩

end Attempting

theorem Thread.owner_attempts (id : ThreadId) (slots : List (Droppable σ ν)) (world : World σ ν)
    (steps : Nat) : OwnerAttempts id slots world steps := by
  have split : orderOfAll slots = [] ++ (orderOfAll slots ++ Loops.ahead []) := by
    simp [Loops.ahead]
  have start : Attempting id world (.ofOwner id slots) (orderOfAll slots) [] world
      (.ofOwner id slots) := .opens split
  have attempting := start.advance (.refl _ _) steps
  rw [List.nil_append] at attempting
  exact ⟨attempting.foreseen, fun _ => attempting.of_returned, fun _ => attempting.of_panicked⟩

def Droppable.noting (note : String) (reply : Reply) : Droppable Unit String :=
  .action (.note note (.ret reply))

def Droppable.failing : List (Droppable Unit String) :=
  [.noting "first" .done, .owner [.noting "inner" .done, .noting "other" (.failed (.text "other"))],
    .noting "last" (.failed (.text "last"))]

theorem Thread.owner_attempts_failing :
    let ended := advance 40 { memory := () } (ofOwner 0 Droppable.failing)
    ended.1.log.filterMap Sum.getRight? = ["last", "other", "inner", "first"] ∧
      attempts 40 { memory := () } (ofOwner 0 Droppable.failing) = orderOfAll Droppable.failing :=
  ⟨by decide, (owner_attempts 0 Droppable.failing { memory := () } 40).returned _ rfl⟩

def Droppable.panicking : List (Droppable Unit String) :=
  [.noting "older" .done, .action (.panic (.text "boom"))]

def Code.releaseBoth : Code Unit String :=
  .call (.keep (.owner Droppable.panicking)) fun _ => .call (.dispose 0) .ret

theorem Code.releaseBoth_skips :
    let released := World.execute { memory := () } 30 releaseBoth
    released.2 = some (.panicked (.text "boom")) ∧ released.1.log = [] ∧
      ¬ ∀ (slots : List (Droppable Unit String)) (world : World Unit String) (steps : Nat)
        (exit : Exit), (Thread.advance steps world (.ofOwner 0 slots)).2.exit? = some exit →
        (Thread.ofOwner 0 slots).attempts steps world = orderOfAll slots := by
  refine ⟨rfl, rfl, fun all => ?_⟩
  have same := all Droppable.panicking { memory := () } 30 (.panicked (.text "boom")) rfl
  exact absurd (congrArg List.length same) (by decide)

end Relinquish
