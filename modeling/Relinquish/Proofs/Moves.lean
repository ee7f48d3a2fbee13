import Relinquish.Step
import Relinquish.World.Lemmas
import Mathlib.Tactic.Common

/-!
What every move of a kind does is proved through `Ensures`: one rule for each way in which moves are
put together. `Thread.step_rule` carries such facts to the steps of threads, and
`Thread.advance_rule` to runs.
-/

namespace Relinquish

variable {σ ν : Type}

def Ensures (move : Option (Move σ ν)) (post : Move σ ν → Prop) : Prop :=
  ∀ next, move = some next → post next

@[simp] theorem World.endGuard_eq (world : World σ ν) (g : GuardId) :
    world.endGuard g =
      world.updateGuard g fun guard => { guard with held := false, droppable := none } :=
  rfl

namespace Ensures

variable {post : Move σ ν → Prop} (world : World σ ν)

@[simp] theorem none_iff : Ensures none post ↔ True := by
  simp [Ensures]

@[simp] theorem some_iff (next : Move σ ν) : Ensures (some next) post ↔ post next := by
  simp [Ensures]

@[simp] theorem ite_iff (c : Prop) [Decidable c] (yes no : Option (Move σ ν)) :
    Ensures (if c then yes else no) post ↔ (c → Ensures yes post) ∧ (¬ c → Ensures no post) := by
  by_cases h : c <;> simp [h]

@[simp] theorem go_iff (task : Task σ ν) :
    Ensures (world.go task) post ↔ post { world, control := .task task } := by
  simp [World.go]

@[simp] theorem push_iff (frames : List (Frame σ ν)) (task : Task σ ν) :
    Ensures (world.push frames task) post ↔ post { world, control := .task task, frames } := by
  simp [World.push]

@[simp] theorem run_iff (frames : List (Frame σ ν)) (code : Code σ ν) :
    Ensures (world.run frames code) post ↔ post { world, control := .code code, frames } := by
  simp [World.run]

@[simp] theorem answer_iff (reply : Reply) :
    Ensures (world.answer reply) post ↔
      post { world, control := .task (.finish (.returned reply)) } := by
  simp [World.answer]

@[simp] theorem endDrop_iff (s : SlotId) (exit : Exit) :
    Ensures (world.endDrop s exit) post ↔
      post { world := world.act (.dropEnded s exit), control := .task (.finish exit) } := by
  simp [World.endDrop]

@[simp] theorem whenFree_iff (locks : List Lock) (move : Option (Move σ ν)) :
    Ensures (world.whenFree locks move) post ↔
      ((∀ lock ∈ locks, world.free lock = true) → Ensures move post) := by
  simp [World.whenFree]

@[simp] theorem whenUsable_iff (handles : List Handle) (move : Option (Move σ ν)) :
    Ensures (world.whenUsable handles move) post ↔
      ((∀ handle ∈ handles, world.usable handle = true) → Ensures move post) ∧
      (¬ (∀ handle ∈ handles, world.usable handle = true) →
        post { world, control := .task (.finish (.returned .missing)) }) := by
  simp [World.whenUsable]

@[simp] theorem operate_iff (handles : List Handle) (frames : List (Frame σ ν)) (task : Task σ ν) :
    Ensures (world.operate handles frames task) post ↔
      ((∀ handle ∈ handles, world.usable handle = true) →
        post
          { world := world.retainAll handles
            control := .task task
            frames := frames ++ [.holding handles] }) ∧
      (¬ (∀ handle ∈ handles, world.usable handle = true) →
        post { world, control := .task (.finish (.returned .missing)) }) := by
  simp [World.operate]

@[simp] theorem borrow_iff (s : SlotId) (frames : List (Frame σ ν)) (task : Task σ ν) :
    Ensures (world.borrow s frames task) post ↔
      post
        { world := world.retain (.slot s)
          control := .task task
          frames := frames ++ [.holding [.slot s]] } := by
  simp [World.borrow]

@[simp] theorem whenConsumable_iff (g : GuardId)
    (move : World σ ν → Option (Droppable σ ν) → Option (Move σ ν)) :
    Ensures (world.whenConsumable g move) post ↔
      (((world.guard g).held && (world.guard g).uses = 0) = true →
        Ensures
          (move
            (world.updateGuard g fun guard => { guard with held := false, droppable := none })
            (world.guard g).droppable) post) ∧
      (¬ ((world.guard g).held && (world.guard g).uses = 0) = true →
        post { world, control := .task (.finish (.returned .missing)) }) := by
  simp [World.whenConsumable]

@[simp] theorem close_iff (g : GuardId) (outcome : Exit) (droppable : Option (Droppable σ ν)) :
    Ensures (Guard.close g outcome world droppable) post ↔
      (∀ disposed, droppable = some disposed →
        post
          { world
            control := .task (.dispose disposed)
            frames := [.guarding g outcome, .holding disposed.handles] }) ∧
      (droppable = none → post { world, control := .task (.finish outcome) }) := by
  cases droppable <;> simp [Guard.close]

@[simp] theorem bind_iff {α : Type} (made : Option α) (move : α → Option (Move σ ν)) :
    Ensures (made.bind move) post ↔ ∀ a, made = some a → Ensures (move a) post := by
  cases made <;> simp

@[simp] theorem ask_iff (selection : Selection σ ν) (error : Error) (place : Nat)
    (kind : Kind σ ν) (rest : List (Nat × Kind σ ν)) (places : List Nat) :
    Ensures (world.ask selection error place kind rest places) post ↔
      (kind.judge error = .inl true →
        post { world, control := .task (.sift selection error rest (places ++ [place])) }) ∧
      (kind.judge error = .inl false →
        post { world, control := .task (.sift selection error rest places) }) ∧
      ∀ code, kind.judge error = .inr code →
        post
          { world
            control := .code code
            frames := [.judging selection error place rest places] } := by
  unfold World.ask
  split <;> simp [*]

@[simp] theorem proceed_iff (selection : Selection σ ν) (error : Error) (places : List Nat) :
    Ensures (world.proceed selection error places) post ↔
      (∀ s, selection = .links s →
        post
          { world
            control := .task (.consult (.handlers s ((world.slot s).links.pick places)) error) }) ∧
      (∀ s links, selection = .handlers s links →
        post
          { world := world.emit (.initializationFailed s error links.length
              ((world.slot s).handlers.pick places).length)
            control :=
              .task (.links s error links ((world.slot s).handlers.pick places) []) }) ∧
      ∀ r, selection = .numbers r →
        post
          { world
            control := .task (.finish (.returned
              (.numbers (((world.registry r).pick places).map fun (_, number) => number)))) } := by
  cases selection <;> simp [World.proceed]

@[simp] theorem initializerEnded_iff (s : SlotId) (exit : Exit) :
    Ensures (world.initializerEnded s exit) post ↔
      let ended := (world.updateSlot s fun slot => { slot with initializing := false }).act
        (.initializerEnded s exit)
      (∀ payload, exit = .panicked payload →
        post { world := ended, control := .task (.leave s (.finish exit)) }) ∧
      ∀ reply, exit = .returned reply →
        (∀ error, reply.error? = some error →
          post { world := ended, control := .task (.leave s (.consult (.links s) error)) }) ∧
        (reply.error? = none →
          post
            { world := (ended.makeValue reply.content).1.act
                (.produced s (ended.makeValue reply.content).2)
              control := .task (.lockValue s (ended.makeValue reply.content).2) }) := by
  unfold World.initializerEnded
  cases exit with
  | panicked payload => simp
  | returned reply => cases failed : reply.error? <;> simp [failed]

theorem configRead {world : World σ ν} {announced : Bool} {raw : Option String}
    (read : ∀ config events,
      (∀ event ∈ events, (∃ policy, event = .configLoaded policy) ∨
        ∃ error, event = .policyIgnored (.config error)) →
      post
        { world := world.emitAll events
          control := .task (.finish (.returned (.config config))) }) :
    Ensures (world.configRead announced raw) post := by
  unfold World.configRead
  cases ScopeConfig.read raw with
  | ok config =>
      cases announced with
      | false => exact (answer_iff world _).mpr (read config [] (by simp))
      | true =>
          exact (answer_iff _ _).mpr (read config [.configLoaded config.policy] (by simp))
  | error error =>
      cases announced with
      | false =>
          exact (answer_iff _ _).mpr (read {} [.policyIgnored (.config error)] (by simp))
      | true =>
          exact (answer_iff _ _).mpr
            (read {} [.policyIgnored (.config error), .configLoaded default] (by simp))

theorem letGo {world : World σ ν} {id : ThreadId} {handles : List Handle} {exit : Exit}
    (done : handles = [] → post { world, control := .task (.finish exit) })
    (goesOn : ∀ handle rest, handles = handle :: rest →
      (∀ s, handle = .slot s → (world.relinquish handle).unheld handle = false) →
      post { world := world.relinquish handle, control := .task (.letGo rest exit) })
    (slot : ∀ s rest, handles = .slot s :: rest →
      (world.relinquish (.slot s)).unheld (.slot s) = true →
      post
        { world := (world.relinquish (.slot s)).discardSlot s
          control := .task (.letGo (((world.relinquish (.slot s)).slot s).held ++ rest) exit) })
    (scope : ∀ sc rest, handles = .scope sc :: rest →
      post
        { world := world.relinquish (.scope sc)
          control := .task (.drain sc 0 [])
          frames := [.vanishing sc rest exit] }) :
    Ensures (Task.step world id (.letGo handles exit)) post := by
  cases handles with
  | nil => exact (go_iff world _).mpr (done rfl)
  | cons handle rest =>
      cases handle with
      | slot s =>
          simp only [Task.step, ite_iff, go_iff, Bool.not_eq_true]
          refine ⟨slot s rest rfl, fun lives => goesOn _ rest rfl ?_⟩
          rintro t ⟨⟩
          exact lives
      | scope sc =>
          have goesOn := goesOn (.scope sc) rest rfl nofun
          simp only [Task.step, ite_iff, go_iff, push_iff]
          exact ⟨fun _ => ⟨fun _ => goesOn, fun _ => scope sc rest rfl⟩, fun _ => goesOn⟩

theorem imp {move : Option (Move σ ν)} {weaker : Move σ ν → Prop} (all : Ensures move post)
    (weaken : ∀ next, post next → weaker next) : Ensures move weaker := by
  intro next action
  exact weaken next (all next action)

end Ensures

theorem Frame.resumes (world : World σ ν) (exit : Exit) (frame : Frame σ ν) :
    ∃ move, frame.resume world exit = some move := by
  cases frame with
  | initializing s =>
      cases exit with
      | panicked payload => exact ⟨_, rfl⟩
      | returned reply =>
          simp only [resume, World.initializerEnded]
          cases reply.error? <;> exact ⟨_, rfl⟩
  | linking | handling =>
      cases exit with
      | panicked payload => exact ⟨_, rfl⟩
      | returned reply =>
          simp only [resume]
          cases reply.error? <;> exact ⟨_, rfl⟩
  | getting | orNone | orElse | expiring =>
      simp only [resume, Guard.close]
      split <;> exact ⟨_, rfl⟩
  | reading announced =>
      cases exit with
      | panicked payload => exact ⟨_, rfl⟩
      | returned reply =>
          simp only [resume, World.configRead]
          cases ScopeConfig.read reply.text? <;> exact ⟨_, rfl⟩
  | _ => cases exit <;> exact ⟨_, rfl⟩

namespace Thread

theorem step_task {world next : World σ ν} {id : ThreadId} {work : Task σ ν}
    {stack : List (Frame σ ν)} {after : Thread σ ν}
    (action : step world ⟨id, .task work, stack⟩ = some (next, after))
    (unfinished : ∀ exit, work ≠ .finish exit) :
    ∃ move, work.step world id = some move ∧ next = move.world ∧
      after = ⟨move.thread.getD id, move.control, move.frames ++ stack⟩ := by
  have steps : step world ⟨id, .task work, stack⟩ = (work.step world id).map fun move =>
      (move.world, ⟨move.thread.getD id, move.control, move.frames ++ stack⟩) := by
    cases work with
    | finish exit => exact absurd rfl (unfinished exit)
    | _ => rfl
  rw [steps] at action
  obtain ⟨move, made, equal⟩ := Option.map_eq_some_iff.mp action
  obtain ⟨rfl, rfl⟩ := Prod.mk.inj equal
  exact ⟨move, made, rfl, rfl⟩

theorem step_frame {world next : World σ ν} {id : ThreadId} {exit : Exit} {frame : Frame σ ν}
    {stack : List (Frame σ ν)} {after : Thread σ ν}
    (action : step world ⟨id, .task (.finish exit), frame :: stack⟩ = some (next, after)) :
    ∃ move, frame.resume world exit = some move ∧ next = move.world ∧
      after = ⟨move.thread.getD id, move.control, move.frames ++ stack⟩ := by
  obtain ⟨move, made, equal⟩ := Option.map_eq_some_iff.mp action
  obtain ⟨rfl, rfl⟩ := Prod.mk.inj equal
  exact ⟨move, made, rfl, rfl⟩

theorem step_rule {world : World σ ν} (post : Thread σ ν → World σ ν → Thread σ ν → Prop)
    (onCode : ∀ id code stack, Ensures (code.step world id) fun move =>
      post ⟨id, .code code, stack⟩ move.world
        ⟨move.thread.getD id, move.control, move.frames ++ stack⟩)
    (onTask : ∀ id task stack, Ensures (task.step world id) fun move =>
      post ⟨id, .task task, stack⟩ move.world
        ⟨move.thread.getD id, move.control, move.frames ++ stack⟩)
    (onFrame : ∀ id exit frame stack, Ensures (frame.resume world exit) fun move =>
      post ⟨id, .task (.finish exit), frame :: stack⟩ move.world
        ⟨move.thread.getD id, move.control, move.frames ++ stack⟩)
    {thread after : Thread σ ν} {next : World σ ν}
    (action : thread.step world = some (next, after)) : post thread next after := by
  obtain ⟨id, control, stack⟩ := thread
  cases control with
  | code code =>
      obtain ⟨move, made, equal⟩ := Option.map_eq_some_iff.mp action
      obtain ⟨rfl, rfl⟩ := Prod.mk.inj equal
      exact onCode id code stack move made
  | task task =>
      by_cases finished : ∃ exit, task = .finish exit
      · obtain ⟨exit, rfl⟩ := finished
        cases stack with
        | nil => contradiction
        | cons frame stack =>
            obtain ⟨move, made, rfl, rfl⟩ := step_frame action
            exact onFrame id exit frame stack move made
      · obtain ⟨move, made, rfl, rfl⟩ := step_task action fun exit same => finished ⟨exit, same⟩
        exact onTask id task stack move made

theorem advance_rule (invariant : World σ ν → Thread σ ν → Prop)
    (preserved : ∀ world thread next after, invariant world thread →
      thread.step world = some (next, after) → invariant next after)
    {world : World σ ν} {thread : Thread σ ν} (start : invariant world thread) (steps : Nat) :
    invariant (advance steps world thread).1 (advance steps world thread).2 := by
  induction steps generalizing world thread with
  | zero => exact start
  | succ steps ih =>
      cases action : thread.step world with
      | none => simpa only [advance, action] using start
      | some reached =>
          simp only [advance, action]
          exact ih (preserved world thread reached.1 reached.2 start action)

end Thread

end Relinquish
