import Relinquish.Proofs.Discipline
import Relinquish.Proofs.Exhaustion
import Relinquish.Proofs.Queues
import Relinquish.Proofs.Rounds

/-!
Turns of slots. A teardown comes to the slots that are registered with its scope newest first, whatever
the order in which their values were produced. A slot's first turn gives the value that the slot has
then, if it has one, to the drop handler. Its further turns run nothing, and from its first turn on
whoever asks for its value is refused.
-/

namespace Relinquish

variable {σ ν : Type} {id : ThreadId} {sc : ScopeId} {s : SlotId} {world next : World σ ν} {exit : Exit}

/-! ## Slots whose turn has been -/

/-- Whoever asks for the slot's value, by a call or otherwise, is refused it as one of a dropped slot,
and nothing is run. -/
structure Thread.Withholds (world : World σ ν) (thread : Thread σ ν) (s : SlotId) : Prop where
  call : ∀ call : Call σ ν, call.Gets s → thread.control = .task (.start call) →
    0 < (world.slot s).handles →
      thread.Works world (world.act (.lookedUp s (.refused .dropped)))
        ⟨thread.id, .task (.finish (.refused .dropped)), thread.stack⟩
  look : thread.control = .task (.look s) →
    thread.Works world world ⟨thread.id, .task (.finish (.refused .dropped)), thread.stack⟩

namespace Regular

variable {thread : Thread σ ν}

theorem empty (regular : Regular world thread) (dropped : (world.slot s).dropped = true)
    (untaken : thread.control.stage ≠ .taking s) : (world.slot s).value = none :=
  (regular.tracked.sound.guarded.emptied s dropped).resolve_right untaken

theorem unset (regular : Regular world thread) (outside : .initializing s ∉ thread.stack) :
    (world.slot s).initializing = false :=
  Bool.eq_false_iff.mpr fun set => outside (regular.runs_of_set set)

theorem withheld (regular : Regular world thread) (dropped : (world.slot s).dropped = true)
    (outside : .initializing s ∉ thread.stack) : thread.Withholds world s := by
  have unset := regular.unset outside
  constructor
  · intro call gets starts handles
    have empty := regular.empty dropped (by rw [starts]; exact nofun)
    exact regular.withholds gets starts handles dropped empty unset
  · intro looks
    obtain ⟨id, control, stack⟩ := thread
    obtain rfl : control = .task (.look s) := looks
    have made := World.made_of_held (Nat.add_pos_right _ (regular.tracked.held.shared (s := s) rfl))
    have vacant := regular.vacant_of_unset made rfl rfl unset (regular.empty dropped nofun)
    exact vacant.withholds stack unset dropped

end Regular

/-! ## Holds of slots are given up -/

theorem Slot.held_eq (slot : Slot σ ν) :
    slot.held = (slot.links.entries.flatMap fun (_, link) => link.slots).map .slot := by
  rw [List.map_flatMap]
  rfl

/-- A hold of a slot is given up, and with the last one the slot, which gives up the slots that its links
hold. -/
inductive World.GivesUp (world : World σ ν) (s : SlotId) : World σ ν → List SlotId → Prop
  | keeps (held : ¬ (world.relinquish (.slot s)).unheld (.slot s) = true) :
      GivesUp world s (world.relinquish (.slot s)) []
  | goes (unheld : (world.relinquish (.slot s)).unheld (.slot s) = true) :
      GivesUp world s ((world.relinquish (.slot s)).discardSlot s)
        (((world.relinquish (.slot s)).slot s).links.entries.flatMap fun (_, link) => link.slots)

theorem Thread.step_letGoSlot (world : World σ ν) (id : ThreadId) (s : SlotId) (rest : List SlotId)
    (exit : Exit) : ∃ next more, world.GivesUp s next more ∧ ∀ base : List (Frame σ ν),
      step world ⟨id, .task (.letGo ((s :: rest).map .slot) exit), base⟩ =
        some (next, ⟨id, .task (.letGo ((more ++ rest).map .slot) exit), base⟩) := by
  by_cases unheld : (world.relinquish (.slot s)).unheld (.slot s) = true
  · refine ⟨_, _, .goes unheld, fun base => ?_⟩
    rw [List.map_append, ← Slot.held_eq]
    simp only [step, Task.step, List.map_cons, unheld, if_true]
    rfl
  · refine ⟨_, _, .keeps unheld, fun base => ?_⟩
    simp only [step, Task.step, List.map_cons, unheld]
    rfl

theorem Thread.Works.letGoSlots (slots : List SlotId) {last : Exit}
    (run : Ends id world (.task (.letGo (slots.map .slot) exit)) last next) :
    last = exit ∧ ∀ base : List (Frame σ ν),
      Works world ⟨id, .task (.letGo (slots.map .slot) exit), base⟩ next
        ⟨id, .task (.finish exit), base⟩ := by
  obtain ⟨steps, run⟩ := run
  induction steps generalizing world slots with
  | zero => simp [advance] at run
  | succ steps ih =>
      cases slots with
      | nil =>
          rw [advance_succ rfl] at run
          obtain ⟨same, rfl⟩ := (Ends.finish id world exit).unique ⟨steps, run⟩
          exact ⟨same, fun base => .step rfl rfl (.done _ _)⟩
      | cons s rest =>
          obtain ⟨middle, more, _, action⟩ := step_letGoSlot world id s rest exit
          rw [advance_succ (action [])] at run
          obtain ⟨same, works⟩ := ih (more ++ rest) run
          exact ⟨same, fun base => .step rfl (action base) (works base)⟩

theorem Thread.Works.holding {last : Exit}
    (run : Reaches world ⟨id, .task (.finish exit), [.holding [.slot s]]⟩ next
      ⟨id, .task (.finish last), []⟩) :
    last = exit ∧ ∀ base : List (Frame σ ν),
      Works world ⟨id, .task (.finish exit), .holding [.slot s] :: base⟩ next
        ⟨id, .task (.finish exit), base⟩ := by
  have begun : Reaches world ⟨id, .task (.finish exit), [.holding [.slot s]]⟩ world
      ⟨id, .task (.letGo ([s].map .slot) exit), []⟩ := .step rfl (.refl _ _)
  obtain ⟨same, works⟩ := letGoSlots [s] (begun.rest run)
  exact ⟨same, fun base => .step rfl rfl (works base)⟩

/-! ## Slots of which an action has a hold -/

section Release

variable {exit : Exit}
  (free : world.free (.value s) = true)
  (run : Thread.Reaches world ⟨id, .task (.swap s), [.holding [.slot s]]⟩ next
    ⟨id, .task (.finish exit), []⟩)

include free run

theorem Thread.Works.release_empty (empty : (world.slot s).value = none) :
    exit = .returned .done ∧ ∀ base : List (Frame σ ν),
      Works world ⟨id, .task (.swap s), .holding [.slot s] :: base⟩ next
        ⟨id, .task (.finish (.returned .done)), base⟩ := by
  have drops : ∃ middle, ∀ base : List (Frame σ ν), Works world ⟨id, .task (.swap s), base⟩ middle
      ⟨id, .task (.finish (.returned .done)), base⟩ := by
    cases dropped : (world.slot s).dropped with
    | true => exact ⟨_, fun base => .swap_again dropped⟩
    | false => exact ⟨_, fun base => .swap_empty dropped free empty⟩
  obtain ⟨middle, drops⟩ := drops
  obtain ⟨rfl, gives⟩ := holding ((drops [.holding [.slot s]]).reaches.rest run)
  exact ⟨rfl, fun base => (drops _).trans (gives base)⟩

theorem Ends.of_release {value : Value} (undropped : (world.slot s).dropped = false)
    (held : (world.slot s).value = some value) :
    ∃ inner reached, exit = inner.ofRelease ∧
      Ends id (world.released s value) (.code ((world.slot s).release value)) inner reached ∧
      ∀ base : List (Frame σ ν), Thread.Works reached
        ⟨id, .task (.finish inner), .releasing s value :: .holding [.slot s] :: base⟩ next
        ⟨id, .task (.finish inner.ofRelease), base⟩ := by
  have begins : Thread.Reaches world ⟨id, .task (.swap s), [.holding [.slot s]]⟩
      (world.released s value) (Thread.above ⟨id, .code ((world.slot s).release value), []⟩
        [.releasing s value, .holding [.slot s]]) :=
    (Thread.Works.swap_runs undropped free held).reaches
  obtain ⟨reached, inner, handled, left⟩ := (begins.rest run).cut (Nat.zero_le _)
  have ended : Thread.Reaches reached
      ⟨id, .task (.finish inner), [.releasing s value, .holding [.slot s]]⟩
      (reached.act (.dropEnded s inner.ofRelease))
      ⟨id, .task (.finish inner.ofRelease), [.holding [.slot s]]⟩ := .step rfl (.refl _ _)
  obtain ⟨same, gives⟩ := Thread.Works.holding (ended.rest left)
  exact ⟨inner, reached, same, handled, fun base => .step rfl rfl (gives base)⟩

end Release

/-! ## Turns -/

/-- An action's turn, from the moment at which it begins to the one at which it is over, and the value
that the turn itself gives to a drop handler. -/
structure Serving (σ ν : Type) where
  action : Action σ ν
  begun : Nat
  past : Nat
  exit : Exit
  handed : Option Value

section Run

variable {memory : σ} {code : Code σ ν} {base stack : List (Frame σ ν)} {begun past moment : Nat}

theorem Code.moment_onward {thread after : Thread σ ν}
    (here : code.moment memory moment = (world, thread))
    (run : Thread.Reaches world thread next after) :
    ∃ later, moment ≤ later ∧ code.moment memory later = (next, after) := by
  obtain ⟨steps, run⟩ := run
  refine ⟨moment + steps, Nat.le_add_right .., ?_⟩
  rw [Code.moment] at here ⊢
  rw [Thread.advance_add, here]
  exact run

theorem Code.moment_next (code : Code σ ν) (memory : σ) (moment : Nat) :
    code.moment memory (moment + 1) =
      ((code.moment memory moment).2.step (code.moment memory moment).1).getD
        (code.moment memory moment) := by
  rw [Code.moment, Thread.advance_add]
  cases action : (code.moment memory moment).2.step (code.moment memory moment).1 <;>
    simp only [Thread.advance, action] <;> rfl

theorem Code.moment_queues (later : begun ≤ past)
    (spares : ∀ n, begun ≤ n → n < past → (code.moment memory n).2.control.Spares sc) :
    ((code.moment memory begun).1.scope sc).pending <+:
      ((code.moment memory past).1.scope sc).pending := by
  induction past, later using Nat.le_induction with
  | base => exact List.prefix_rfl
  | succ past later ih =>
      refine (ih fun n since early => spares n since (Nat.lt_succ_of_lt early)).trans ?_
      rw [Code.moment_next]
      cases action : (code.moment memory past).2.step (code.moment memory past).1 with
      | none => exact List.prefix_rfl
      | some reached => exact Thread.step_queues action (spares past later (Nat.lt_succ_self _))

def Code.Unregistered (code : Code σ ν) (memory : σ) (sc : ScopeId) (begun past : Nat) : Prop :=
  ∀ n, begun ≤ n → n ≤ past → ∀ call handles,
    (code.moment memory n).2.control = .task (.start call) → call.registers? ≠ some (sc, handles)

theorem Code.moment_idle (later : begun ≤ past) (unregistered : code.Unregistered memory sc begun past)
    (empty : ((code.moment memory begun).1.scope sc).pending = []) :
    ((code.moment memory past).1.scope sc).pending = [] := by
  induction past, later using Nat.le_induction with
  | base => exact empty
  | succ past later ih =>
      have none := ih fun n since early => unregistered n since (Nat.le_succ_of_le early)
      rw [Code.moment_next]
      cases action : (code.moment memory past).2.step (code.moment memory past).1 with
      | none => exact none
      | some reached =>
          have deals := Thread.step_deals action
          rcases deals.idle_or_registers (List.map_eq_nil_iff.mpr none) with
            idle | ⟨⟨call, handles, starting, registers⟩, -⟩
          · exact List.map_eq_nil_iff.mp idle
          · exact absurd registers (unregistered past later (Nat.le_succ _) call handles starting)

/-- How an action's turn goes. That of a slot with a value runs the slot's drop handler first thing
and nothing else, and that of any other slot runs nothing and succeeds. -/
inductive Serving.Goes (memory : σ) (code : Code σ ν) (id : ThreadId) (base : List (Frame σ ν)) :
    Serving σ ν → Prop
  | runs {action : Action σ ν} {begun past : Nat} {exit : Exit} {work : Code σ ν}
      (job : action.job = .run work)
      (begins : (code.moment memory begun).2 = ⟨id, .code work, base⟩)
      (ends : Ends id (code.moment memory begun).1 (.code work) exit (code.moment memory past).1)
      (back : (code.moment memory past).2 = ⟨id, .task (.finish exit), base⟩) :
      Goes memory code id base ⟨action, begun, past, exit, none⟩
  | releases {action : Action σ ν} {begun past : Nat} {exit : Exit} {s : SlotId} {value : Value}
      {reached : World σ ν} (job : action.job = .release s)
      (begins : (code.moment memory begun).2 = ⟨id, .task (.swap s), .holding [.slot s] :: base⟩)
      (held : ((code.moment memory begun).1.slot s).value = some value)
      (calls : Thread.Works (code.moment memory begun).1 (code.moment memory begun).2
        ((code.moment memory begun).1.released s value)
        ⟨id, .code (((code.moment memory begun).1.slot s).release value),
          .releasing s value :: .holding [.slot s] :: base⟩)
      (handled : Ends id ((code.moment memory begun).1.released s value)
        (.code (((code.moment memory begun).1.slot s).release value)) exit reached)
      (goesOn : Thread.Works reached
        ⟨id, .task (.finish exit), .releasing s value :: .holding [.slot s] :: base⟩
        (code.moment memory past).1 (code.moment memory past).2)
      (back : (code.moment memory past).2 = ⟨id, .task (.finish exit.ofRelease), base⟩) :
      Goes memory code id base ⟨action, begun, past, exit.ofRelease, some value⟩
  | rests {action : Action σ ν} {begun past : Nat} {s : SlotId} (job : action.job = .release s)
      (begins : (code.moment memory begun).2 = ⟨id, .task (.swap s), .holding [.slot s] :: base⟩)
      (empty : ((code.moment memory begun).1.slot s).value = none)
      (works : Thread.Works (code.moment memory begun).1 (code.moment memory begun).2
        (code.moment memory past).1 (code.moment memory past).2)
      (back : (code.moment memory past).2 = ⟨id, .task (.finish (.returned .done)), base⟩) :
      Goes memory code id base ⟨action, begun, past, .returned .done, none⟩

theorem Serving.Goes.of_release {action : Action σ ν} {before : World σ ν}
    (job : action.job = .release s)
    (here : code.moment memory begun = (before, (action.job.thread id).above base))
    (there : code.moment memory past = (next, ⟨id, .task (.finish exit), base⟩))
    (run : Thread.Reaches before (action.job.thread id) next ⟨id, .task (.finish exit), []⟩) :
    ∃ handed, Serving.Goes memory code id base ⟨action, begun, past, exit, handed⟩ := by
  have regular : Regular before ((action.job.thread id).above base) := by
    have regular := Regular.advance memory 0 code begun
    rwa [← Code.moment, here] at regular
  rw [job] at run here regular
  have world : (code.moment memory begun).1 = before := congrArg Prod.fst here
  have thread : (code.moment memory begun).2 = ⟨id, .task (.swap s), .holding [.slot s] :: base⟩ :=
    congrArg Prod.snd here
  have after : (code.moment memory past).1 = next := congrArg Prod.fst there
  have back : (code.moment memory past).2 = ⟨id, .task (.finish exit), base⟩ := congrArg Prod.snd there
  have free : before.free (.value s) = true := regular.value_free rfl
  cases held : (before.slot s).value with
  | none =>
      obtain ⟨rfl, works⟩ := Thread.Works.release_empty free run held
      refine ⟨none, .rests job thread (by rwa [world]) ?_ back⟩
      rw [world, thread, after, back]
      exact works base
  | some value =>
      have undropped : (before.slot s).dropped = false := by
        refine Bool.eq_false_iff.mpr fun dropped => ?_
        have empty := regular.empty dropped (by rintro ⟨⟩)
        rw [held] at empty
        contradiction
      obtain ⟨inner, reached, rfl, handled, gives⟩ := Ends.of_release free run undropped held
      rw [← world] at handled
      refine ⟨some value, .releases job thread (by rwa [world]) ?_ handled ?_ back⟩
      · rw [world, thread]
        exact .swap_runs undropped free held
      · rw [after, back]
        exact gives base

theorem Serving.Goes.of_slot {serving : Serving σ ν} (goes : serving.Goes memory code id base)
    (releases : serving.action.job = .release s) :
    (code.moment memory serving.begun).2.control = .task (.swap s) ∧
      (code.moment memory serving.past).2.control = .task (.finish serving.exit) ∧
      serving.handed = ((code.moment memory serving.begun).1.slot s).value ∧
      (serving.handed = none → serving.exit = .returned .done) := by
  cases goes with
  | runs job =>
      rw [job] at releases
      contradiction
  | releases job begins held calls handled goesOn back =>
      obtain rfl := Job.release.inj (job.symm.trans releases)
      rw [begins, back]
      exact ⟨rfl, rfl, held.symm, nofun⟩
  | rests job begins empty works back =>
      obtain rfl := Job.release.inj (job.symm.trans releases)
      rw [begins, back]
      exact ⟨rfl, rfl, empty.symm, fun _ => rfl⟩

/-- Turns that come one after the other between two moments. -/
inductive Servings (memory : σ) (code : Code σ ν) (id : ThreadId) (sc : ScopeId)
    (stack : List (Frame σ ν)) : Nat → List (Serving σ ν) → Nat → Prop
  | nobody {moment later : Nat} (since : moment ≤ later) :
      Servings memory code id sc stack moment [] later
  | serves {moment last ran : Nat} {serving : Serving σ ν} {servings : List (Serving σ ν)}
      {rest : List (Action σ ν)} {failures : List Error} (since : moment ≤ serving.begun)
      (lasts : serving.begun ≤ serving.past)
      (goes : serving.Goes memory code id (.tearing sc rest ran failures :: stack))
      (further : Servings memory code id sc stack serving.past servings last) :
      Servings memory code id sc stack moment (serving :: servings) last

namespace Servings

variable {moment between last : Nat} {servings first later : List (Serving σ ν)}

theorem le (turns : Servings memory code id sc stack moment servings last) : moment ≤ last := by
  induction turns with
  | nobody since => exact since
  | serves since lasts _ _ ih => exact (since.trans lasts).trans ih

theorem early (earlier : begun ≤ moment)
    (turns : Servings memory code id sc stack moment servings last) :
    Servings memory code id sc stack begun servings last := by
  cases turns with
  | nobody since => exact .nobody (earlier.trans since)
  | serves since lasts goes further => exact .serves (earlier.trans since) lasts goes further

theorem append (turns : Servings memory code id sc stack moment first between)
    (further : Servings memory code id sc stack between later last) :
    Servings memory code id sc stack moment (first ++ later) last := by
  induction turns with
  | nobody since => exact further.early since
  | serves since lasts goes _ ih => exact .serves since lasts goes (ih further)

theorem turn {serving : Serving σ ν} (turns : Servings memory code id sc stack moment servings last)
    (split : servings = first ++ serving :: later) :
    (∃ rest ran failures, serving.Goes memory code id (.tearing sc rest ran failures :: stack)) ∧
      moment ≤ serving.begun ∧ serving.begun ≤ serving.past ∧ serving.past ≤ last ∧
      ∀ newer ∈ first, newer.past ≤ serving.begun := by
  induction turns generalizing first with
  | nobody => simp at split
  | serves since lasts goes further ih =>
      cases first with
      | nil =>
          obtain ⟨rfl, rfl⟩ := List.cons.inj split
          exact ⟨⟨_, _, _, goes⟩, since, lasts, further.le, nofun⟩
      | cons newer first =>
          obtain ⟨rfl, others⟩ := List.cons.inj split
          obtain ⟨goes, begun, longer, past, after⟩ := ih others
          exact ⟨goes, (since.trans lasts).trans begun, longer, past,
            List.forall_mem_cons.mpr ⟨begun, after⟩⟩

theorem of_mem {serving : Serving σ ν} (turns : Servings memory code id sc stack moment servings last)
    (member : serving ∈ servings) :
    (∃ rest ran failures, serving.Goes memory code id (.tearing sc rest ran failures :: stack)) ∧
      serving.begun ≤ serving.past ∧ serving.past ≤ last := by
  obtain ⟨newer, older, split⟩ := List.append_of_mem member
  obtain ⟨goes, -, lasts, ended, -⟩ := turns.turn split
  exact ⟨goes, lasts, ended⟩

theorem dropped {serving : Serving σ ν} (turns : Servings memory code id sc stack moment servings last)
    (member : serving ∈ servings) (releases : serving.action.job = .release s) {after : Nat}
    (since : serving.past ≤ after) : ((code.moment memory after).1.slot s).dropped = true := by
  obtain ⟨⟨rest, ran, failures, goes⟩, lasts, -⟩ := turns.of_mem member
  obtain ⟨swaps, finished, -⟩ := goes.of_slot releases
  refine (Code.moment_reaches since).dropped ((Code.moment_reaches lasts).swap_drops swaps ?_)
  rw [finished]
  exact nofun

end Servings

/-! ## Teardowns -/

theorem Action.Ends.serving {action : Action σ ν} {rest : List (Action σ ν)} {ran : Nat}
    {failures : List Error} (run : action.Ends id sc world exit next)
    (here : code.moment memory moment =
      (world, ⟨id, .task (.batch sc (action :: rest) ran failures), stack⟩)) :
    ∃ serving : Serving σ ν, serving.action = action ∧ serving.exit = exit ∧
      moment ≤ serving.begun ∧ serving.begun ≤ serving.past ∧
      serving.Goes memory code id (.tearing sc rest (ran + 1) failures :: stack) ∧
      ∃ later, serving.past ≤ later ∧ code.moment memory later =
        (next, ⟨id, .task (.batch sc rest (ran + 1) (failures ++ exit.failure?.toList)), stack⟩) := by
  let base := Frame.tearing sc rest (ran + 1) failures :: stack
  obtain ⟨begun, since, begins⟩ := Code.moment_onward here
    (.step (Thread.step_serve world id sc action rest ran failures stack) (.refl _ _))
  obtain ⟨past, lasts, ends⟩ := Code.moment_onward begins (Thread.Reaches.above run base)
  obtain ⟨later, after, resumed⟩ := Code.moment_onward ends (.step rfl (.refl _ _))
  have goes : ∃ handed, Serving.Goes memory code id base ⟨action, begun, past, exit, handed⟩ := by
    cases job : action.job with
    | release s => exact Serving.Goes.of_release job begins ends run
    | run work =>
        unfold Action.Ends at run
        rw [job] at run begins
        refine ⟨none, .runs job ?_ ?_ ?_⟩
        · rw [begins]
          rfl
        · rw [begins, ends]
          exact run
        · rw [ends]
          rfl
  obtain ⟨handed, goes⟩ := goes
  exact ⟨⟨action, begun, past, exit, handed⟩, rfl, rfl, since, lasts, goes, later, after, resumed⟩

def Serving.failures (servings : List (Serving σ ν)) : List Error :=
  servings.filterMap fun serving => serving.exit.failure?

theorem Batch.servings {actions : List (Action σ ν)} {served : List Served} {ran : Nat}
    {failures : List Error} (batch : Batch id sc world actions served next)
    (here : code.moment memory moment = (world, ⟨id, .task (.batch sc actions ran failures), stack⟩)) :
    ∃ servings last, Servings memory code id sc stack moment servings last ∧
      servings.map Serving.action = actions ∧
      code.moment memory last = (next, ⟨id, .task (.batch sc [] (ran + servings.length)
        (failures ++ Serving.failures servings)), stack⟩) := by
  induction batch generalizing moment ran failures with
  | nobody world =>
      refine ⟨[], moment, .nobody (Nat.le_refl _), rfl, ?_⟩
      rw [here]
      simp [Serving.failures]
  | serves run further ih =>
      obtain ⟨serving, rfl, rfl, since, lasts, goes, later, after, there⟩ := run.serving here
      obtain ⟨servings, last, turns, rfl, ended⟩ := ih there
      refine ⟨serving :: servings, last, .serves since lasts goes (turns.early after), rfl, ?_⟩
      have failed : Serving.failures (serving :: servings) =
          serving.exit.failure?.toList ++ Serving.failures servings := by
        unfold Serving.failures
        rw [List.filterMap_cons]
        cases serving.exit.failure? <;> rfl
      rw [ended, failed, List.length_cons, ← List.append_assoc, Nat.add_comm servings.length,
        ← Nat.add_assoc]

theorem Rounds.servings {served : List Served} {ran : Nat} {failures : List Error}
    (rounds : Rounds id sc world served next)
    (here : code.moment memory moment = (world, ⟨id, .task (.drain sc ran failures), stack⟩)) :
    ∃ servings last late, Servings memory code id sc stack moment servings last ∧
      servings.map Serving.action = (world.scope sc).pending.reverse ++ late ∧
      (code.Unregistered memory sc moment last → late = []) ∧
      code.moment memory last = (next, ⟨id, .task (.report sc (ran + servings.length)
        (failures ++ Serving.failures servings)), stack⟩) := by
  induction rounds generalizing moment ran failures with
  | drained empty =>
      obtain ⟨last, since, ended⟩ :=
        Code.moment_onward here (.step (Thread.step_over id ran failures stack empty) (.refl _ _))
      refine ⟨[], last, [], .nobody since, ?_, fun _ => rfl, ?_⟩
      · rw [empty]
        rfl
      · rw [ended]
        simp [Serving.failures]
  | @round world middle next served others waits batch further ih =>
      obtain ⟨begun, since, begins⟩ :=
        Code.moment_onward here (.step (Thread.step_round id ran failures stack waits) (.refl _ _))
      obtain ⟨first, between, turns, actions, there⟩ := batch.servings begins
      obtain ⟨again, after, drains⟩ := Code.moment_onward there (.step rfl (.refl _ _))
      obtain ⟨others, last, late, more, later, none, ended⟩ := ih drains
      refine ⟨first ++ others, last, others.map Serving.action, ?_, ?_, ?_, ?_⟩
      · exact (turns.early since).append (more.early after)
      · rw [List.map_append, actions]
      · intro unregistered
        have taken : ((code.moment memory begun).1.scope sc).pending = [] := by
          rw [begins]
          simp [World.takePending]
        have emptied := Code.moment_idle (turns.le.trans after)
          (fun n early ended => unregistered n (since.trans early) (ended.trans more.le)) taken
        rw [drains] at emptied
        rw [later, emptied, none fun n early ended =>
          unregistered n (((since.trans turns.le).trans after).trans early) ended]
        rfl
      · have failed : Serving.failures (first ++ others) =
            Serving.failures first ++ Serving.failures others := List.filterMap_append
        rw [ended, failed, List.length_append, ← List.append_assoc, ← Nat.add_assoc]

theorem World.Registers.waits {call : Call σ ν}
    (registers : (code.moment memory moment).1.Registers call sc s)
    (starting : (code.moment memory moment).2.control = .task (.start call)) (later : moment < begun)
    (spares : ∀ n, moment < n → n < begun → (code.moment memory n).2.control.Spares sc) :
    ∃ newer, ((code.moment memory begun).1.scope sc).pending =
      ((code.moment memory moment).1.scope sc).pending ++
        ⟨(code.moment memory moment).1.actions, .release s⟩ :: newer := by
  obtain ⟨next, after, action, pending⟩ := registers.step starting
  obtain ⟨newer, queues⟩ := Code.moment_queues (Nat.succ_le_of_lt later) spares
  rw [Code.moment_next, action, Option.getD_some, pending, List.append_assoc] at queues
  exact ⟨newer, queues.symm⟩

/-- A teardown from one moment to another, in which the slots that are registered with the scope have
their turns. -/
structure ReleasedInTurn (memory : σ) (code : Code σ ν) (sc : ScopeId) (begun : Nat)
    (servings : List (Serving σ ν)) (past : Nat) : Prop where
  registered : ∀ moment call s, moment < begun →
    (code.moment memory moment).2.control = .task (.start call) →
    (code.moment memory moment).1.Registers call sc s →
    (∀ n, moment < n → n < begun → (code.moment memory n).2.control.Spares sc) →
      ∃ newer, ((code.moment memory begun).1.scope sc).pending =
        ((code.moment memory moment).1.scope sc).pending ++
          ⟨(code.moment memory moment).1.actions, .release s⟩ :: newer
  /-- What was registered last comes first, and what is registered meanwhile comes last. -/
  newest : ∃ late, servings.map Serving.action =
      ((code.moment memory begun).1.scope sc).pending.reverse ++ late ∧
    (code.Unregistered memory sc begun past → late = [])
  turns : Servings memory code (code.moment memory begun).2.id sc (code.moment memory begun).2.stack
    begun servings past
  /-- The turn of a slot gives the drop handler the value that the slot has then, if any. -/
  handed : ∀ serving ∈ servings, ∀ s, serving.action.job = .release s →
    serving.handed = ((code.moment memory serving.begun).1.slot s).value
  first : ∀ newer serving older, servings = newer ++ serving :: older →
    ∀ s, serving.action.job = .release s → (∃ other ∈ newer, other.action.job = .release s) →
      serving.handed = none
  silent : ∀ serving ∈ servings, ∀ s, serving.action.job = .release s → serving.handed = none →
    serving.exit = .returned .done
  returned : (code.moment memory past).2 = ⟨(code.moment memory begun).2.id,
    .task (.finish (.returned
      (((code.moment memory past).1.scope sc).policy.result (Serving.failures servings)))),
    (code.moment memory begun).2.stack⟩
  leaves : ∀ action ∈ ((code.moment memory begun).1.scope sc).pending, ∀ s, action.job = .release s →
    ((code.moment memory past).1.slot s).dropped = true
  withholds : ∀ serving ∈ servings, ∀ s, serving.action.job = .release s →
    ∀ later, serving.past ≤ later → .initializing s ∉ (code.moment memory later).2.stack →
      (code.moment memory later).2.Withholds (code.moment memory later).1 s

/-- A teardown all of whose actions come to their ends has the slots released in turn. -/
theorem Thread.released_in_turn (memory : σ) (code : Code σ ν) (begun : Nat) (sc : ScopeId)
    (drains : (code.moment memory begun).2.control = .task (.drain sc 0 []))
    (finite : (code.moment memory begun).1.Finite (code.moment memory begun).2.id sc) :
    ∃ servings past, ReleasedInTurn memory code sc begun servings past := by
  obtain ⟨served, torn, rounds⟩ := finite.rounds
  have here : code.moment memory begun = ((code.moment memory begun).1,
      ⟨(code.moment memory begun).2.id, .task (.drain sc 0 []),
        (code.moment memory begun).2.stack⟩) := by
    rw [← drains]
  obtain ⟨servings, last, late, turns, actions, none, reports⟩ := rounds.servings here
  obtain ⟨past, after, returned⟩ := Code.moment_onward reports (.step rfl (.refl _ _))
  have policy : (code.moment memory past).1.scope sc = torn.scope sc := by
    rw [returned]
    exact World.scope_emitAll _ _ sc
  have turns := turns.append (.nobody after)
  rw [List.append_nil] at turns
  refine ⟨servings, past, ?_⟩
  constructor
  case registered =>
    intro moment call s later starting registers
    exact registers.waits starting later
  case newest =>
    exact ⟨late, actions, fun quiet => none fun n since early => quiet n since (early.trans after)⟩
  case turns => exact turns
  case handed =>
    intro serving member s releases
    obtain ⟨⟨rest, ran, failures, goes⟩, -⟩ := turns.of_mem member
    exact (goes.of_slot releases).2.2.1
  case first =>
    rintro newer serving older split s releases ⟨other, member, earlier⟩
    obtain ⟨⟨rest, ran, failures, goes⟩, -, -, -, since⟩ := turns.turn split
    -- The earlier turn dropped the slot, so there is no value left for this one.
    have dropped := turns.dropped (split ▸ List.mem_append_left _ member) earlier (since other member)
    obtain ⟨swaps, -, handed, -⟩ := goes.of_slot releases
    rw [handed]
    refine (Regular.advance memory 0 code serving.begun).empty dropped ?_
    rw [swaps]
    exact nofun
  case silent =>
    intro serving member s releases unhanded
    obtain ⟨⟨rest, ran, failures, goes⟩, -⟩ := turns.of_mem member
    exact (goes.of_slot releases).2.2.2 unhanded
  case returned =>
    rw [policy, returned]
    rfl
  case leaves =>
    intro action waits s releases
    have member : action ∈ servings.map Serving.action := by
      rw [actions]
      exact List.mem_append_left _ (List.mem_reverse.mpr waits)
    obtain ⟨serving, listed, rfl⟩ := List.mem_map.mp member
    obtain ⟨-, -, ended⟩ := turns.of_mem listed
    exact turns.dropped listed releases ended
  case withholds =>
    intro serving member s releases later since outside
    exact (Regular.advance memory 0 code later).withheld (turns.dropped member releases since) outside

end Run

/-- Of three slots the second is registered twice and used first, the third is never used, and an
action that is served before the first slot's turn is the first to use that one. -/
def Code.useLate : Code Unit Unit :=
  .call (.newScope .collectAll) fun _ =>
    .call (.registerSlot 0 (fun _ => .ret .done) (.ret (.text "a"))) fun _ =>
      .call (.registerSlot 0 (fun _ => .ret .done) (.ret (.text "b"))) fun _ =>
        .call (.registerSlot 0 (fun _ => .ret .done) (.ret (.text "c"))) fun _ =>
          .call (.defer 0 (.call (.getValue 0) .ret)) fun _ =>
            .call (.adopt 0 1) fun _ =>
              .call (.getValue 1) fun _ => .call (.runAll 0) fun _ => .call (.getValue 1) .ret

theorem Thread.released_in_turn_useLate :
    (Code.useLate.moment () 38).2.control = .task (.drain 0 0 []) ∧
      (Code.useLate.moment () 38).1.Finite 0 0 ∧
      ∃ servings past, ReleasedInTurn () Code.useLate 0 38 servings past ∧
        ∃ late, servings.map (fun serving => serving.action.id) = [4, 3, 2, 1, 0] ++ late := by
  have run : Ends 0 (Code.useLate.moment () 38).1 (.task (.drain 0 0 [])) (.returned .done)
      (Thread.advance 56 (Code.useLate.moment () 38).1 ⟨0, .task (.drain 0 0 []), []⟩).1 := ⟨56, rfl⟩
  have finite : (Code.useLate.moment () 38).1.Finite 0 0 := .of_ends run
  obtain ⟨servings, past, released⟩ := released_in_turn () Code.useLate 38 0 rfl finite
  obtain ⟨late, newest, -⟩ := released.newest
  have ids := congrArg (List.map Action.id) newest
  rw [List.map_map, List.map_append] at ids
  exact ⟨rfl, finite, servings, past, released, late.map Action.id, ids⟩

end Relinquish
