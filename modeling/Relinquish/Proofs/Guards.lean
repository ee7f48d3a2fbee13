import Relinquish.Proofs.Drops
import Relinquish.Proofs.Tending
import Relinquish.Proofs.Turns

/-!
Guards. A guard has its value until one call ends it: the guard is released, goes out of scope or is
disarmed. The first two drop the value and the third gives it back. Until then the value can be dropped
through the guard any number of times; from then on the guard is empty, so that nothing is left for the
end of its scope to drop, however the call ends.
-/

namespace Relinquish

variable {σ ν : Type}

/-! ## Holds that are given up -/

/-- What a slot leaves in the history that goes with a value. -/
def Mark.Parts : Mark ν → Prop
  | .event (.abandoned _) | .act (.lost _ _) => True
  | _ => False

/-- Nothing has been added to the history but by slots that have gone. -/
def World.Parts (world next : World σ ν) : Prop :=
  ∃ marks, next.history = marks ++ world.history ∧ ∀ mark ∈ marks, mark.Parts

def World.shares (world : World σ ν) : Nat :=
  (world.slots.entries.map Slot.shared).sum

section
variable {world middle next : World σ ν} {s : SlotId} {more : List SlotId} {id : ThreadId} {exit : Exit}
  {base : List (Frame σ ν)}

theorem World.Parts.refl (world : World σ ν) : world.Parts world :=
  ⟨[], rfl, nofun⟩

theorem World.Parts.trans (first : world.Parts middle) (second : middle.Parts next) :
    world.Parts next := by
  obtain ⟨earlier, history, parting⟩ := first
  obtain ⟨later, onward, parting'⟩ := second
  exact ⟨later ++ earlier, by rw [onward, history, List.append_assoc],
    List.forall_mem_append.mpr ⟨parting', parting⟩⟩

theorem World.discardSlot_parts (world : World σ ν) (s : SlotId) : world.Parts (world.discardSlot s) := by
  unfold discardSlot
  split
  · next value _ =>
      refine ⟨[.event (.abandoned s), .act (.lost s value)], rfl, ?_⟩
      exact List.forall_mem_cons.mpr ⟨trivial, List.forall_mem_singleton.mpr trivial⟩
  · exact .refl world

theorem World.shares_updateSlot (world : World σ ν) (s : SlotId) (change : Slot σ ν → Slot σ ν) :
    (world.updateSlot s change).shares + (world.slot s).shared =
      world.shares + (change (world.slot s)).shared :=
  Table.sum_updateAt rfl change s world.slots.entries

theorem World.shares_discardSlot (world : World σ ν) (s : SlotId) :
    (world.discardSlot s).shares = world.shares := by
  unfold discardSlot
  split
  · exact Nat.add_right_cancel (world.shares_updateSlot s fun slot => { slot with value := none })
  · rfl

theorem World.GivesUp.parts (gives : world.GivesUp s next more) : world.Parts next := by
  have given : world.Parts (world.relinquish (.slot s)) := ⟨[], world.history_relinquish _, nofun⟩
  cases gives with
  | keeps => exact given
  | goes => exact given.trans (World.discardSlot_parts _ s)

theorem World.GivesUp.fewer (gives : world.GivesUp s next more) (shared : 0 < (world.slot s).shared) :
    next.shares < world.shares := by
  have given : (world.relinquish (.slot s)).shares < world.shares := by
    have counted := world.shares_updateSlot s fun slot => { slot with shared := slot.shared - 1 }
    simp only [relinquish] at counted ⊢
    omega
  cases gives with
  | keeps => exact given
  | goes => rwa [shares_discardSlot]

theorem Thread.Works.letsGo (slots : List SlotId)
    (held : Held world ⟨id, .task (.letGo (slots.map .slot) exit), base⟩) :
    ∃ next, Works world ⟨id, .task (.letGo (slots.map .slot) exit), base⟩ next
      ⟨id, .task (.finish exit), base⟩ ∧ world.Parts next := by
  -- The list may grow where a slot goes, but with each step one hold less is left to be given up.
  induction size : world.shares using Nat.strong_induction_on generalizing world slots with
  | _ n ih =>
      subst size
      cases slots with
      | nil => exact ⟨world, .step rfl rfl (.done _ _), .refl world⟩
      | cons s rest =>
          obtain ⟨middle, more, gives, action⟩ := step_letGoSlot world id s rest exit
          have shared : 0 < (world.slot s).shared :=
            held.covers.shared (List.mem_append_left _ (.head _))
          have held := held.step (action base)
          obtain ⟨next, works, parts⟩ := ih middle.shares (gives.fewer shared) (more ++ rest) held rfl
          exact ⟨next, .step rfl (action base) works, gives.parts.trans parts⟩

theorem Thread.Works.givesUp {droppable : Droppable σ ν}
    (held : Held world ⟨id, .task (.finish exit), .holding droppable.handles :: base⟩) :
    ∃ next, Works world ⟨id, .task (.finish exit), .holding droppable.handles :: base⟩ next
      ⟨id, .task (.finish exit), base⟩ ∧ world.Parts next := by
  have begins : Thread.step world ⟨id, .task (.finish exit), .holding droppable.handles :: base⟩ =
      some (world, ⟨id, .task (.letGo (droppable.slots.map .slot) exit), base⟩) := rfl
  obtain ⟨next, works, parts⟩ := letsGo droppable.slots (held.step begins)
  exact ⟨next, .step rfl begins works, parts⟩

end

/-! ## The life of a guard -/

/-- The guard has its droppable and has not ended, or it has ended once, has dropped the droppable then if
it was to, and is empty. -/
inductive Guard.Life (g : GuardId) (droppable : Droppable σ ν) (world : World σ ν) :
    List (Guard.Ending × Option (Droppable σ ν)) → Prop
  | armed (held : (world.guard g).held = true) (kept : (world.guard g).droppable = some droppable) :
      Life g droppable world []
  | spent (ending : Guard.Ending) (unheld : (world.guard g).held = false)
      (empty : (world.guard g).droppable = none) :
      Life g droppable world [(ending, ending.disposes droppable)]

section
variable {world next : World σ ν} {thread after : Thread σ ν} {g h : GuardId}

namespace Guard.Life

variable {droppable : Droppable σ ν} {endings : List (Guard.Ending × Option (Droppable σ ν))}

theorem congr (life : Life g droppable world endings) (held : (next.guard g).held = (world.guard g).held)
    (kept : (next.guard g).droppable = (world.guard g).droppable) : Life g droppable next endings := by
  cases life with
  | armed armed full => exact .armed (held.trans armed) (kept.trans full)
  | spent ending unheld empty => exact .spent ending (held.trans unheld) (kept.trans empty)

theorem step (life : Life g droppable world endings) (made : g < world.guards.size)
    (spent : ∀ h ∈ thread.expiring, world.Spent h) (tends : thread.Tends world next after) :
    Life g droppable next (endings ++ (thread.ending? g world).toList) := by
  cases tends with
  | keeps guards _ _ unended =>
      have now := World.guard_of_guards guards g
      rw [unended, Option.toList_none, List.append_nil]
      exact life.congr (congrArg held now) (congrArg Guard.droppable now)
  | makes guards _ _ unended =>
      have now := World.guard_of_push guards g
      rw [if_neg (Nat.ne_of_lt made)] at now
      rw [unended, Option.toList_none, List.append_nil]
      exact life.congr (congrArg held now) (congrArg Guard.droppable now)
  | lends _ guards _ _ unended | returns guards _ _ unended =>
      have now := World.guard_of_update guards g
      rw [unended, Option.toList_none, List.append_nil]
      refine life.congr ?_ ?_ <;> rw [now] <;> split <;> rfl
  | @ends h ending there unused guards _ _ others shown =>
      have now := World.guard_of_update guards g
      by_cases same : h = g
      · -- The guard itself ends, which it can do only where it has not ended yet.
        subst same
        rw [if_pos rfl] at now
        cases life with
        | armed _ kept =>
            rw [shown droppable kept]
            exact .spent ending (congrArg held now) (congrArg Guard.droppable now)
        | spent _ unheld => exact absurd (there.symm.trans unheld) nofun
      · rw [if_neg same] at now
        rw [others g (Ne.symm same), Option.toList_none, List.append_nil]
        exact life.congr (congrArg held now) (congrArg Guard.droppable now)
  | @expires h guards _ expiring unended =>
      -- The scope of a spent guard ends, which leaves all guards as they are.
      have gone : world.Spent h := spent h (expiring ▸ .head _)
      have now := World.guard_of_update guards g
      rw [unended gone.empty, Option.toList_none, List.append_nil]
      refine life.congr ?_ ?_ <;> rw [now] <;> split
      · next same => exact gone.unheld.symm.trans (same ▸ rfl)
      · rfl
      · next same => exact gone.empty.symm.trans (same ▸ rfl)
      · rfl

end Guard.Life

end

/-! ## Guards in a run -/

/-- The ends of a guard up to a moment of a run, each with what the guard dropped in it. -/
def Code.endings (code : Code σ ν) (memory : σ) (g : GuardId) (n : Nat) :
    List (Guard.Ending × Option (Droppable σ ν)) :=
  (List.range n).filterMap fun m => (code.moment memory m).2.ending? g (code.moment memory m).1

def Code.Makes (code : Code σ ν) (memory : σ) (made : Nat) (g : GuardId) (droppable : Droppable σ ν) :
    Prop :=
  (code.moment memory made).2.control = .task (.start (.newGuard droppable)) ∧
    (code.moment memory (made + 1)).2.control = .task (.finish (.returned (.object g)))

section
variable {code : Code σ ν} {memory : σ} {g : GuardId} {n made : Nat} {droppable : Droppable σ ν}

theorem Code.endings_succ (code : Code σ ν) (memory : σ) (g : GuardId) (n : Nat) :
    code.endings memory g (n + 1) = code.endings memory g n ++
      ((code.moment memory n).2.ending? g (code.moment memory n).1).toList := by
  rw [endings, List.range_succ, List.filterMap_append]
  rfl

theorem Code.moment_tends (code : Code σ ν) (memory : σ) (n : Nat) :
    (code.moment memory (n + 1) = code.moment memory n ∧
      ∀ g, (code.moment memory n).2.ending? g (code.moment memory n).1 = none) ∨
    ((code.moment memory n).2.step (code.moment memory n).1 =
        some ((code.moment memory (n + 1)).1, (code.moment memory (n + 1)).2) ∧
      (code.moment memory n).2.Tends (code.moment memory n).1
        (code.moment memory (n + 1)).1 (code.moment memory (n + 1)).2) := by
  have next := code.moment_next memory n
  cases action : (code.moment memory n).2.step (code.moment memory n).1 with
  | none =>
      rw [action] at next
      exact .inl ⟨next, fun g => Thread.ending?_of_stuck action g⟩
  | some reached =>
      rw [action] at next
      obtain rfl : reached = code.moment memory (n + 1) := next.symm
      exact .inr ⟨rfl, Thread.step_tends action⟩

theorem Code.guards_grow {m : Nat} (earlier : m ≤ n) :
    (code.moment memory m).1.guards.size ≤ (code.moment memory n).1.guards.size := by
  induction n, earlier using Nat.le_induction with
  | base => exact Nat.le_refl _
  | succ n _ ih =>
      obtain ⟨same, _⟩ | ⟨_, tends⟩ := code.moment_tends memory n
      · rwa [same]
      · exact Nat.le_trans ih tends.grows

theorem Code.endings_unmade (unmade : (code.moment memory n).1.guards.size ≤ g) :
    code.endings memory g n = [] := by
  refine List.filterMap_eq_nil_iff.mpr fun m earlier => ?_
  have unmade : (code.moment memory m).1.guards.size ≤ g :=
    Nat.le_trans (Code.guards_grow (Nat.le_of_lt (List.mem_range.mp earlier))) unmade
  obtain ⟨_, unended⟩ | ⟨_, tends⟩ := code.moment_tends memory m
  · exact unended g
  · cases tends with
    | keeps _ _ _ unended | makes _ _ _ unended | lends _ _ _ _ unended | returns _ _ _ unended =>
        exact unended g
    | @ends h _ held _ _ _ _ others =>
        exact others g fun same => Nat.not_lt_of_le unmade (same ▸ World.guard_made held)
    | expires _ _ expiring unended =>
        exact unended ((Thread.Tended.advance memory 0 code m).spent _ (expiring ▸ .head _)).empty g

theorem Code.Makes.begins (makes : code.Makes memory made g droppable) :
    Guard.Life g droppable (code.moment memory (made + 1)).1 (code.endings memory g (made + 1)) ∧
      g < (code.moment memory (made + 1)).1.guards.size := by
  obtain ⟨starts, answers⟩ := makes
  obtain ⟨same, _⟩ | ⟨action, _⟩ := code.moment_tends memory made
  · rw [same] at answers
    exact absurd (starts.symm.trans answers) nofun
  · obtain ⟨rfl, guards, unended⟩ := Thread.step_newGuard starts answers action
    have now := World.guard_of_push guards (code.moment memory made).1.guards.size
    rw [if_pos rfl] at now
    rw [Code.endings_succ, unended, Code.endings_unmade (Nat.le_refl _), guards, Table.size_push]
    exact ⟨.armed (congrArg Guard.held now) (congrArg Guard.droppable now), Nat.lt_succ_self _⟩

theorem Code.Makes.life (makes : code.Makes memory made g droppable) (later : made < n) :
    Guard.Life g droppable (code.moment memory n).1 (code.endings memory g n) := by
  obtain ⟨begins, fresh⟩ := makes.begins
  induction n, later using Nat.le_induction with
  | base => exact begins
  | succ n later ih =>
      rw [Code.endings_succ]
      obtain ⟨same, unended⟩ | ⟨_, tends⟩ := code.moment_tends memory n
      · rwa [same, unended, Option.toList_none, List.append_nil]
      · exact ih.step (Nat.lt_of_lt_of_le fresh (Code.guards_grow later))
          (Thread.Tended.advance memory 0 code n).spent tends

end

/-! ## Calls on a guard -/

/-- An error of the droppable does not leave the end of a scope, where a panic does. -/
def Exit.muted : Exit → Exit
  | returned _ => returned .done
  | panicked payload => panicked payload

/-- An error of the droppable is logged at the end of a scope, and nothing else. -/
def Exit.guardEvents (g : GuardId) : Exit → List Event
  | returned reply => (reply.error?.map (.guardFailed g)).toList
  | panicked _ => []

def Call.On (g : GuardId) : Call σ ν → Prop
  | dropThrough h | inspectGuard h | releaseGuard h | disarmGuard h | forgetGuard h => h = g
  | _ => False

open Thread

/-- What a guard of a droppable comes to in a run, up to a moment, and what calls on it do then. As long as
it has not ended, its droppable is dropped through it with what comes of that; when it is released, it is
dropped with what comes of that; at the end of its scope, it is dropped and an error logged; and when the
guard is disarmed, it is handed back. All this adds nothing to the history itself. -/
structure Guard.Serves (g : GuardId) (droppable : Droppable σ ν) (world : World σ ν)
    (thread : Thread σ ν) (endings : List (Guard.Ending × Option (Droppable σ ν))) : Prop where
  life : Guard.Life g droppable world endings
  lends : endings = [] → thread.control = .task (.start (.dropThrough g)) →
    ∃ next, next.history = world.history ∧
      thread.step world = some (next, ⟨thread.id, .task (.dispose droppable), .through g :: thread.stack⟩)
  returns : ∀ exit rest, thread = ⟨thread.id, .task (.finish exit), .through g :: rest⟩ →
    ∃ next, next.history = world.history ∧
      thread.step world = some (next, ⟨thread.id, .task (.finish exit), rest⟩)
  releases : endings = [] → .through g ∉ thread.stack → thread.control = .task (.start (.releaseGuard g)) →
    ∃ next, next.history = world.history ∧
      thread.step world = some (next, ⟨thread.id, .task (.dispose droppable),
        .holding droppable.handles :: .expiring g :: thread.stack⟩) ∧
      ∀ exit last, Ends thread.id next (.task (.dispose droppable)) exit last →
        ∃ final, last.Parts final ∧
          Works last ⟨thread.id, .task (.finish exit),
              .holding droppable.handles :: .expiring g :: thread.stack⟩ final
            ⟨thread.id, .task (.finish exit), thread.stack⟩
  closes : endings = [] → .through g ∉ thread.stack → thread.control = .task (.start (.forgetGuard g)) →
    ∃ next, next.history = world.history ∧
      thread.step world = some (next, ⟨thread.id, .task (.dispose droppable),
        .guarding g (.returned .done) :: .holding droppable.handles :: thread.stack⟩) ∧
      ∀ exit last, Ends thread.id next (.task (.dispose droppable)) exit last →
        ∃ final, (last.emitAll (exit.guardEvents g)).Parts final ∧
          Works last ⟨thread.id, .task (.finish exit),
              .guarding g (.returned .done) :: .holding droppable.handles :: thread.stack⟩ final
            ⟨thread.id, .task (.finish exit.muted), thread.stack⟩
  disarms : endings = [] → .through g ∉ thread.stack → thread.control = .task (.start (.disarmGuard g)) →
    ∃ next p, next.history = world.history ∧ next.parcel p = some droppable ∧
      thread.Works world next ⟨thread.id, .task (.finish (.returned (.object p))), thread.stack⟩
  /-- A guard does not end while its droppable is being dropped through it. -/
  waits : .through g ∈ thread.stack → ∀ ending : Guard.Ending,
    thread.control = .task (.start (ending.call g)) →
      thread.step world = some (world, ⟨thread.id, .task (.finish (.returned .missing)), thread.stack⟩)
  /-- The scope of a guard that a call has consumed ends with the call, whatever that comes to. -/
  expires : ∀ exit rest, thread = ⟨thread.id, .task (.finish exit), .expiring g :: rest⟩ →
    ∃ next, next.history = world.history ∧
      thread.step world = some (next, ⟨thread.id, .task (.finish exit), rest⟩)
  /-- A guard that has ended cannot be called, and the end of its scope finds nothing in it. -/
  gone : endings ≠ [] →
    (∀ call : Call σ ν, call.On g → thread.control = .task (.start call) →
      thread.step world = some (world, ⟨thread.id, .task (.finish (.returned .missing)), thread.stack⟩)) ∧
    ∀ outcome, Guard.close g outcome world (world.guard g).droppable = world.go (.finish outcome)

section
variable {world next : World σ ν} {thread : Thread σ ν} {g : GuardId} {droppable : Droppable σ ν}
  {id : ThreadId} {base stack : List (Frame σ ν)} {exit : Exit}

theorem Thread.Works.expires (spent : world.Spent g)
    (held : Held world
      ⟨id, .task (.finish exit), .holding droppable.handles :: .expiring g :: base⟩) :
    ∃ next, world.Parts next ∧
      Works world ⟨id, .task (.finish exit), .holding droppable.handles :: .expiring g :: base⟩ next
        ⟨id, .task (.finish exit), base⟩ := by
  obtain ⟨next, works, parts⟩ := givesUp held
  have empty := (spent.reaches works.reaches).empty
  exact ⟨next.endGuard g, parts, works.trans (.step rfl (step_expiring empty) (.done _ _))⟩

theorem Thread.Works.closes
    (held : Held world ⟨id, .task (.finish exit),
      .guarding g (.returned .done) :: .holding droppable.handles :: base⟩) :
    ∃ next, (world.emitAll (exit.guardEvents g)).Parts next ∧
      Works world ⟨id, .task (.finish exit),
          .guarding g (.returned .done) :: .holding droppable.handles :: base⟩ next
        ⟨id, .task (.finish exit.muted), base⟩ := by
  have logs : Thread.step world
      ⟨id, .task (.finish exit),
        .guarding g (.returned .done) :: .holding droppable.handles :: base⟩ =
        some (world.emitAll (exit.guardEvents g),
          ⟨id, .task (.finish exit.muted), .holding droppable.handles :: base⟩) := by
    cases exit <;> rfl
  obtain ⟨next, works, parts⟩ := givesUp (held.step logs)
  exact ⟨next, parts, .step rfl logs works⟩

theorem Held.ended {control : Control σ ν} (held : Held world ⟨id, control, base⟩)
    (run : Relinquish.Ends id world control exit next) : Held next ⟨id, .task (.finish exit), base⟩ :=
  (run.above base).rule Held (fun _ _ _ _ held action => held.step action) held

theorem Call.start_missing {call : Call σ ν} (on : call.On g) (unheld : (world.guard g).held = false) :
    call.start world = world.answer .missing := by
  cases call <;> first | contradiction | skip
  all_goals
    obtain rfl : _ = g := on
    simp [start, World.whenConsumable, unheld]

theorem Guard.Ending.start_busy (ending : Guard.Ending) (busy : (world.guard g).uses ≠ 0) :
    (ending.call g).start world = world.answer .missing := by
  cases ending <;> simp [call, Call.start, World.whenConsumable, busy]

theorem Thread.step_answers {call : Call σ ν} {reply : Reply}
    (answers : call.start world = next.answer reply) (id : ThreadId) (stack : List (Frame σ ν)) :
    Thread.step world ⟨id, .task (.start call), stack⟩ =
      some (next, ⟨id, .task (.finish (.returned reply)), stack⟩) := by
  simp only [Thread.step, Task.step, answers]
  rfl

section Armed

/-! What a step does for a call on a guard that is there, is not in use and has its droppable. -/

variable (there : (world.guard g).held = true) (kept : (world.guard g).droppable = some droppable)
include there kept

theorem Thread.step_dropThrough (id : ThreadId) (stack : List (Frame σ ν)) :
    Thread.step world ⟨id, .task (.start (.dropThrough g)), stack⟩ =
      some (world.updateGuard g fun guard => { guard with uses := guard.uses + 1 },
        ⟨id, .task (.dispose droppable), .through g :: stack⟩) := by
  simp only [Thread.step, Task.step, Call.start, there, kept, if_true]
  rfl

variable (unused : (world.guard g).uses = 0)
include unused

theorem World.whenConsumable_armed (move : World σ ν → Option (Droppable σ ν) → Option (Move σ ν)) :
    world.whenConsumable g move = move (world.endGuard g) (some droppable) := by
  simp only [whenConsumable, there, unused, kept]
  rfl

theorem Thread.step_releaseGuard (id : ThreadId) (stack : List (Frame σ ν)) :
    Thread.step world ⟨id, .task (.start (.releaseGuard g)), stack⟩ =
      some (world.endGuard g, ⟨id, .task (.dispose droppable),
        .holding droppable.handles :: .expiring g :: stack⟩) := by
  simp only [Thread.step, Task.step, Call.start, World.whenConsumable_armed there kept unused]
  rfl

theorem Thread.step_forgetGuard (id : ThreadId) (stack : List (Frame σ ν)) :
    Thread.step world ⟨id, .task (.start (.forgetGuard g)), stack⟩ =
      some (world.endGuard g, ⟨id, .task (.dispose droppable),
        .guarding g (.returned .done) :: .holding droppable.handles :: stack⟩) := by
  simp only [Thread.step, Task.step, Call.start, World.whenConsumable_armed there kept unused]
  rfl

theorem Thread.step_disarmGuard (id : ThreadId) (stack : List (Frame σ ν)) :
    Thread.step world ⟨id, .task (.start (.disarmGuard g)), stack⟩ =
      some (((world.endGuard g).addParcel droppable).1,
        ⟨id, .task (.finish (.returned (.object world.parcels.size))), .expiring g :: stack⟩) := by
  simp only [Thread.step, Task.step, Call.start, World.whenConsumable_armed there kept unused]
  rfl

end Armed

theorem Guard.Life.serves {endings : List (Guard.Ending × Option (Droppable σ ν))}
    (life : Guard.Life g droppable world endings) (tended : thread.Tended world)
    (held : Held world thread) : Guard.Serves g droppable world thread endings := by
  obtain ⟨id, control, stack⟩ := thread
  -- What the guard is tells whether it has ended, and the stack whether it is in use.
  have unused (free : .through g ∉ stack) : (world.guard g).uses = 0 := by
    rw [tended.lent]
    exact List.count_eq_zero.mpr fun lent => free (Thread.mem_lent.mp lent)
  have armed (unended : endings = []) :
      (world.guard g).held = true ∧ (world.guard g).droppable = some droppable := by
    cases life with
    | armed there kept => exact ⟨there, kept⟩
    | spent => contradiction
  have emptied (ended : endings ≠ []) :
      (world.guard g).held = false ∧ (world.guard g).droppable = none := by
    cases life with
    | armed => contradiction
    | spent _ unheld empty => exact ⟨unheld, empty⟩
  constructor
  case life => exact life
  case lends =>
    rintro unended rfl
    obtain ⟨there, kept⟩ := armed unended
    exact ⟨world.updateGuard g fun guard => { guard with uses := guard.uses + 1 }, rfl,
      step_dropThrough there kept id stack⟩
  case returns =>
    rintro exit rest same
    cases same
    exact ⟨world.updateGuard g fun guard => { guard with uses := guard.uses - 1 }, rfl, rfl⟩
  case releases =>
    rintro unended free rfl
    obtain ⟨there, kept⟩ := armed unended
    have begins := step_releaseGuard there kept (unused free) id stack
    refine ⟨world.endGuard g, rfl, begins, fun exit last run => ?_⟩
    have spent := (World.Spent.of_end there (rfl : (world.endGuard g).guards = _)).reaches run
    exact Works.expires spent ((held.step begins).ended run)
  case closes =>
    rintro unended free rfl
    obtain ⟨there, kept⟩ := armed unended
    have begins := step_forgetGuard there kept (unused free) id stack
    refine ⟨world.endGuard g, rfl, begins, fun exit last run => ?_⟩
    exact Works.closes ((held.step begins).ended run)
  case disarms =>
    rintro unended free rfl
    obtain ⟨there, kept⟩ := armed unended
    have given : ((world.endGuard g).addParcel droppable).1.parcel world.parcels.size = some droppable :=
      (Table.get_push world.parcels (some droppable) world.parcels.size).trans (if_pos rfl)
    have spent : ((world.endGuard g).addParcel droppable).1.Spent g := .of_end there rfl
    refine ⟨((world.endGuard g).addParcel droppable).1.endGuard g, world.parcels.size, rfl, given, ?_⟩
    exact .step rfl (step_disarmGuard there kept (unused free) id stack)
      (.step rfl (step_expiring spent.empty) (.done _ _))
  case waits =>
    rintro lent ending rfl
    have busy : (world.guard g).uses ≠ 0 := by
      rw [tended.lent]
      exact Nat.ne_of_gt (List.count_pos_iff.mpr (Thread.mem_lent.mpr lent))
    exact Thread.step_answers (ending.start_busy busy) id stack
  case expires =>
    rintro exit rest same
    cases same
    exact ⟨world.endGuard g, rfl, Thread.step_expiring (tended.spent g (.head _)).empty⟩
  case gone =>
    intro ended
    obtain ⟨unheld, empty⟩ := emptied ended
    refine ⟨?_, fun outcome => by rw [empty]; rfl⟩
    rintro call on rfl
    exact Thread.step_answers (Call.start_missing on unheld) id stack

theorem Thread.Tended.unemptied {call : Call σ ν} {after : Thread σ ν} (tended : thread.Tended world)
    (calls : call = .dropThrough g ∨ call = .disarmGuard g)
    (starts : thread.control = .task (.start call)) (action : thread.step world = some (next, after)) :
    after.control ≠ .task (.finish Guard.emptied) := by
  obtain ⟨id, control, stack⟩ := thread
  obtain rfl := starts
  have armed := tended.armed g
  obtain ⟨move, made, rfl, rfl⟩ := Thread.step_task action nofun
  have begins : Ensures (call.start world) fun move => move.control ≠ .task (.finish Guard.emptied) := by
    obtain rfl | rfl := calls <;> cases found : (world.guard g).droppable <;> rw [found] at armed
    · simp [Call.start, armed, Guard.emptied]
    · simp [Call.start, found, armed]
    · simp [Call.start, World.whenConsumable, armed, Guard.emptied]
    · simp [Call.start, World.addParcel, found, Guard.emptied]
  exact begins move made

/-- At every moment of a run: guards that have been made serve their droppables, no call finds a guard
empty that it takes to be full, and the drop handler of a slot has been given at most one value, be it
through guards or not. -/
theorem Code.guards_serve (code : Code σ ν) (memory : σ) (n : Nat) :
    (∀ made g droppable, made < n → code.Makes memory made g droppable →
      Guard.Serves g droppable (code.moment memory n).1 (code.moment memory n).2
        (code.endings memory g n)) ∧
    (∀ g call next after, call = .dropThrough g ∨ call = .disarmGuard g →
      (code.moment memory n).2.control = .task (.start call) →
        (code.moment memory n).2.step (code.moment memory n).1 = some (next, after) →
          after.control ≠ .task (.finish Guard.emptied)) ∧
    ∀ s, ((code.moment memory n).1.handed.filter fun entry => entry.1 = s).length ≤ 1 := by
  have tended := Tended.advance memory 0 code n
  refine ⟨fun made g droppable later makes => ?_, fun g call next after => ?_, fun s => ?_⟩
  · exact (makes.life later).serves tended (.advance memory 0 code n)
  · exact tended.unemptied
  · obtain ⟨release, -, releases⟩ := (Releases.ofCode memory 0 code s).advance (.ofCode memory 0 code) n
    exact releases.handed_once

end

/-- A guard of a slot that is dropped through the guard, which panics, and then released. -/
def Code.guardSlot : Code Unit Unit :=
  .call (.newSlot (fun _ => .panic (.text "boom")) (.ret (.text "value"))) fun _ =>
    .call (.getValue 0) fun _ =>
      .call (.newGuard (.slot 0)) fun _ =>
        .attempt (.call (.dropThrough 0) .ret) fun _ => .call (.releaseGuard 0) .ret

/-- The guard is there after the panic, and empty from the beginning of its release to the end of its
scope. -/
theorem Code.guards_serve_guardSlot :
    let moment := Code.guardSlot.moment ()
    Code.guardSlot.Makes () 22 0 (.slot 0) ∧
      (moment 26).2.control = .task (.start (.dropThrough 0)) ∧
      (moment 32).2.control = .task (.finish (.panicked (.text "boom"))) ∧
      (moment 36).2.control = .task (.start (.releaseGuard 0)) ∧
      Guard.Serves 0 (.slot 0) (moment 36).1 (moment 36).2 [] ∧
      Guard.Serves 0 (.slot 0) (moment 37).1 (moment 37).2 [(.released, some (.slot 0))] ∧
      (moment 42).2 = ⟨0, .task (.finish (.returned .done)), .expiring 0 :: (moment 43).2.stack⟩ ∧
      Guard.Serves 0 (.slot 0) (moment 42).1 (moment 42).2 [(.released, some (.slot 0))] ∧
      (∀ g next after, (moment 26).2.control = .task (.start (.dropThrough g)) →
        (moment 26).2.step (moment 26).1 = some (next, after) →
          after.control ≠ .task (.finish Guard.emptied)) ∧
      ((moment 44).1.handed.filter fun entry => entry.1 = 0).length ≤ 1 := by
  have makes : Code.guardSlot.Makes () 22 0 (.slot 0) := ⟨rfl, rfl⟩
  refine ⟨makes, rfl, rfl, rfl, ?_, ?_, rfl, ?_, fun g next after => ?_, ?_⟩
  · exact (Code.guards_serve Code.guardSlot () 36).1 22 0 _ (by decide) makes
  · exact (Code.guards_serve Code.guardSlot () 37).1 22 0 _ (by decide) makes
  · exact (Code.guards_serve Code.guardSlot () 42).1 22 0 _ (by decide) makes
  · exact (Code.guards_serve Code.guardSlot () 26).2.1 g _ next after (.inl rfl)
  · exact (Code.guards_serve Code.guardSlot () 44).2.2 0

end Relinquish
