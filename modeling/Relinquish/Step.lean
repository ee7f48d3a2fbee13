import Relinquish.Step.Resume

/-!
The steps of a thread. `Thread.step` is one atomic step; a thread that has ended, or that waits for
a lock, has none. `World.execute` runs one thread alone until it has ended.
-/

namespace Relinquish

variable {σ ν : Type}

def Code.step (world : World σ ν) (thread : ThreadId) : Code σ ν → Option (Move σ ν)
  | ret reply => world.answer reply
  | panic payload => world.go (.finish (.panicked payload))
  | load next => world.run [] (next world.memory)
  | store memory next => { world with memory }.run [] next
  | note entry next => (world.record (.note entry)).run [] next
  | attempt body next => world.run [.attempted next] body
  | elsewhere body next =>
      some
        { world := { world with threads := world.threads + 1 }
          control := .code body
          frames := [.joined thread next]
          thread := some world.threads }
  | call request next => world.push [.calling next] (.start request)

namespace Thread

def after (thread : Thread σ ν) (move : Move σ ν) (stack : List (Frame σ ν)) : Thread σ ν :=
  { id := move.thread.getD thread.id
    control := move.control
    stack := move.frames ++ stack }

def step (world : World σ ν) (thread : Thread σ ν) : Option (World σ ν × Thread σ ν) :=
  match thread.control, thread.stack with
  | .code code, stack =>
      (code.step world thread.id).map fun move => (move.world, thread.after move stack)
  | .task (.finish _), [] => none
  | .task (.finish exit), frame :: stack =>
      (frame.resume world exit).map fun move => (move.world, thread.after move stack)
  | .task task, stack =>
      (task.step world thread.id).map fun move => (move.world, thread.after move stack)

def advance : Nat → World σ ν → Thread σ ν → World σ ν × Thread σ ν
  | 0, world, thread => (world, thread)
  | steps + 1, world, thread =>
      match thread.step world with
      | some (world, thread) => advance steps world thread
      | none => (world, thread)

theorem advance_add (first second : Nat) (world : World σ ν) (thread : Thread σ ν) :
    advance (first + second) world thread =
      advance second (advance first world thread).1 (advance first world thread).2 := by
  induction first generalizing world thread with
  | zero => simp [advance]
  | succ first ih =>
      cases action : thread.step world with
      | some next => simp [Nat.succ_add, advance, action, ih]
      | none =>
          have stays (n : Nat) : advance n world thread = (world, thread) := by
            cases n <;> simp [advance, action]
          simp [stays]

end Thread

/-- Runs code on the first thread, alone, for at most so many steps, and gives its end if it came
to one. -/
def World.execute (world : World σ ν) (steps : Nat) (code : Code σ ν) :
    World σ ν × Option Exit :=
  let (world, thread) := Thread.advance steps world (.ofCode 0 code)
  (world, thread.exit?)

end Relinquish
