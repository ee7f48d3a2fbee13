import Relinquish.Script.Exec
import Relinquish.Step

/-!
Playing operations one after the other from an empty session: each answers with its report and with
the log of what happened meanwhile. A panic ends only the operation that it leaves.
-/

namespace Relinquish.Script

structure Answer where
  report : Report
  log : List Report

/-- Puts entries in order as brackets ask; the first of the open groups is the innermost, each
latest entry first. -/
def arrange : List (Event ⊕ Note) → List (List Report) → List Report
  | [], groups => (groups.reverse.map List.reverse).flatten
  | .inl event :: rest, group :: outer => arrange rest ((reportEvent event :: group) :: outer)
  | .inr (.entry report) :: rest, group :: outer => arrange rest ((report :: group) :: outer)
  | .inr .gather :: rest, groups => arrange rest ([] :: groups)
  | .inr .gathered :: rest, group :: next :: outer =>
      arrange rest (((Report.sort group).reverse ++ next) :: outer)
  | .inr .gathered :: rest, groups => arrange rest groups
  | entry :: rest, [] => arrange (entry :: rest) [[]]
termination_by entries groups => (entries.length, if groups.isEmpty then 1 else 0)

def stepLimit : Nat :=
  50000000

def playOne (world : World Session Note) (op : Op) : World Session Note × Answer :=
  let code := Program.code do
    let outcome ← Program.fueled (exec op)
    Program.update fun session => { session with result := outcome.report }
    pure .done
  let (world, exit) := { world with history := [] }.execute stepLimit code
  let report := match exit with
    | some (.returned _) => world.memory.result
    | some (.panicked payload) => Outcome.panicReport payload
    | none => .null
  (world, { report, log := arrange world.log [[]] })

def playAll (world : World Session Note) : List Op → List Answer
  | [] => []
  | op :: rest =>
      let (world, answer) := playOne world op
      answer :: playAll world rest

def play (ops : List Op) : List Answer :=
  playAll { memory := {} } ops

end Relinquish.Script
