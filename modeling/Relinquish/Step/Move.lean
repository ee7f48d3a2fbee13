import Relinquish.Thread

/-!
Moves. A move is what one atomic step of a thread does: it leaves a world and something to go on
with, perhaps above new frames. There is no move where a thread has to wait for a lock.
-/

namespace Relinquish

variable {σ ν : Type}

structure Move (σ ν : Type) where
  world : World σ ν
  control : Control σ ν
  frames : List (Frame σ ν) := []
  thread : Option ThreadId := none

namespace World

def go (world : World σ ν) (task : Task σ ν) : Option (Move σ ν) :=
  some { world, control := .task task }

def push (world : World σ ν) (frames : List (Frame σ ν)) (task : Task σ ν) : Option (Move σ ν) :=
  some { world, control := .task task, frames }

def run (world : World σ ν) (frames : List (Frame σ ν)) (code : Code σ ν) : Option (Move σ ν) :=
  some { world, control := .code code, frames }

def answer (world : World σ ν) (reply : Reply) : Option (Move σ ν) :=
  world.go (.finish (.returned reply))

def whenFree (world : World σ ν) (locks : List Lock) (move : Option (Move σ ν)) :
    Option (Move σ ν) :=
  if locks.all world.free then move else none

def whenUsable (world : World σ ν) (handles : List Handle) (move : Option (Move σ ν)) :
    Option (Move σ ν) :=
  if handles.all world.usable then move else world.answer .missing

/-- Starts an operation that holds its objects until its result is known. -/
def operate (world : World σ ν) (handles : List Handle) (frames : List (Frame σ ν))
    (task : Task σ ν) : Option (Move σ ν) :=
  world.whenUsable handles
    ((world.retainAll handles).push (frames ++ [.holding handles]) task)

def borrow (world : World σ ν) (s : SlotId) (frames : List (Frame σ ν)) (task : Task σ ν) :
    Option (Move σ ν) :=
  (world.retain (.slot s)).push (frames ++ [.holding [.slot s]]) task

end World

end Relinquish
