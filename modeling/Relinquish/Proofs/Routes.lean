import Relinquish.Proofs.Drops
import Relinquish.Proofs.Tending
import Relinquish.Proofs.Teardown

/-!
The ends of drop calls and where they go. A slot is dropped by user code, through accessors and
guards, by scopes that have adopted it, with owners and as a link of other slots. Whatever the route,
the call that runs the drop handler hands its failure to what waits for it, and there alone it gets
into a report.
-/

namespace Relinquish

variable {σ ν : Type} {id : ThreadId} {s : SlotId} {world next : World σ ν}

/-! ## Calls -/

def World.marked (world : World σ ν) (s : SlotId) : World σ ν :=
  world.updateSlot s fun slot => { slot with dropped := true }

/-- The slot is marked as dropped, and its value is given to its drop handler. -/
def World.released (world : World σ ν) (s : SlotId) (value : Value) : World σ ν :=
  (((world.marked s).updateSlot s fun slot => { slot with value := none }).emit
    (.releasing s)).act (.handed s value)

section
variable {base : List (Frame σ ν)}

theorem Thread.Works.swap_again (dropped : (world.slot s).dropped = true) :
    Works world ⟨id, .task (.swap s), base⟩ (world.act (.dropEnded s (.returned .done)))
      ⟨id, .task (.finish (.returned .done)), base⟩ := by
  have ends : Thread.step world ⟨id, .task (.swap s), base⟩ =
      some (world.act (.dropEnded s (.returned .done)),
        ⟨id, .task (.finish (.returned .done)), base⟩) := by
    simp only [Thread.step, Task.step, dropped, if_true]
    rfl
  exact .step rfl ends (.done _ _)

theorem Thread.step_swap (undropped : (world.slot s).dropped = false) :
    Thread.step world ⟨id, .task (.swap s), base⟩ =
      some (world.marked s, ⟨id, .task (.take s), base⟩) := by
  simp only [Thread.step, Task.step, undropped]
  rfl

theorem Thread.Works.swap_empty (undropped : (world.slot s).dropped = false)
    (free : world.free (.value s) = true) (empty : (world.slot s).value = none) :
    Works world ⟨id, .task (.swap s), base⟩
      ((world.marked s).act (.dropEnded s (.returned .done)))
      ⟨id, .task (.finish (.returned .done)), base⟩ := by
  have none : ((world.marked s).slot s).value = none := by
    rw [World.marked, World.slot_updateSlot, if_pos rfl]
    exact empty
  have free : (world.marked s).free (.value s) = true := free
  have takes : Thread.step (world.marked s) ⟨id, .task (.take s), base⟩ =
      some ((world.marked s).act (.dropEnded s (.returned .done)),
        ⟨id, .task (.finish (.returned .done)), base⟩) := by
    simp only [Thread.step, Task.step, World.whenFree, List.all_cons, free, List.all_nil,
      Bool.and_true, if_true, none]
    rfl
  exact .step rfl (step_swap undropped) (.step rfl takes (.done _ _))

theorem Thread.Works.swap_runs {value : Value} (undropped : (world.slot s).dropped = false)
    (free : world.free (.value s) = true) (held : (world.slot s).value = some value) :
    Works world ⟨id, .task (.swap s), base⟩ (world.released s value)
      ⟨id, .code ((world.slot s).release value), .releasing s value :: base⟩ := by
  have some : ((world.marked s).slot s).value = .some value := by
    rw [World.marked, World.slot_updateSlot, if_pos rfl]
    exact held
  have release : ((world.marked s).slot s).release = (world.slot s).release := by
    rw [World.marked, World.slot_updateSlot, if_pos rfl]
  have free : (world.marked s).free (.value s) = true := free
  have takes : Thread.step (world.marked s) ⟨id, .task (.take s), base⟩ =
      .some (world.released s value,
        ⟨id, .code ((world.slot s).release value), .releasing s value :: base⟩) := by
    simp only [Thread.step, Task.step, World.whenFree, List.all_cons, free, List.all_nil,
      Bool.and_true, if_true, some, ← release]
    simp [World.run, World.released, Thread.after, release]
  exact .step rfl (step_swap undropped) (.step rfl takes (.done _ _))

end

/-! ## What an end goes through -/

theorem Thread.step_giveUp (world : World σ ν) (id : ThreadId) (handle : Handle) (rest : List Handle)
    (exit : Exit) :
    (∃ next handles, step world ⟨id, .task (.letGo (handle :: rest) exit), []⟩ =
      some (next, ⟨id, .task (.letGo handles exit), []⟩)) ∨
    ∃ next sc, step world ⟨id, .task (.letGo (handle :: rest) exit), []⟩ =
      some (next, Thread.above ⟨id, .task (.drain sc 0 []), []⟩ [.vanishing sc rest exit]) := by
  by_cases gone : (world.relinquish handle).unheld handle = true
  · cases handle with
    | slot t =>
        refine .inl ⟨(world.relinquish (.slot t)).discardSlot t,
          ((world.relinquish (.slot t)).slot t).held ++ rest, ?_⟩
        simp [step, Task.step, gone, World.go, after]
    | scope sc =>
        by_cases empty : ((world.relinquish (.scope sc)).scope sc).pending = []
        · refine .inl ⟨world.relinquish (.scope sc), rest, ?_⟩
          simp [step, Task.step, empty, World.go, after]
        · refine .inr ⟨world.relinquish (.scope sc), sc, ?_⟩
          simp [step, Task.step, gone, empty, World.push, after, above]
  · refine .inl ⟨world.relinquish handle, rest, ?_⟩
    simp [step, Task.step, gone, World.go, after]

theorem Ends.letGo {handles : List Handle} {exit inner : Exit}
    (run : Ends id world (.task (.letGo handles exit)) inner next) : inner = exit := by
  obtain ⟨steps, run⟩ := run
  induction steps using Nat.strongRecOn generalizing world handles with
  | ind steps ih =>
      cases steps with
      | zero =>
          simp only [Thread.advance, Prod.mk.injEq, Thread.mk.injEq, Control.task.injEq,
            reduceCtorEq, false_and, and_false] at run
      | succ steps =>
          cases handles with
          | nil =>
              have finishes : Thread.step world ⟨id, .task (.letGo [] exit), []⟩ =
                  some (world, ⟨id, .task (.finish exit), []⟩) := rfl
              rw [Thread.advance_succ finishes] at run
              exact (Ends.unique (.finish id world exit) ⟨steps, run⟩).1
          | cons handle rest =>
              rcases Thread.step_giveUp world id handle rest exit with
                ⟨middle, handles, action⟩ | ⟨middle, sc, action⟩
              · rw [Thread.advance_succ action] at run
                exact ih steps (Nat.lt_succ_self steps) run
              · rw [Thread.advance_succ action] at run
                obtain ⟨torn, drained, left, fewer, ended, resumed⟩ :=
                  Thread.advance_cut steps run (Nat.zero_le _)
                -- A teardown returns, and what it returns is only told of.
                obtain ⟨reply, rfl⟩ := (Ends.drain ended).returned
                cases left with
                | zero => simp [Thread.advance] at resumed
                | succ left =>
                    rw [Thread.advance_succ rfl] at resumed
                    exact ih left (Nat.lt_succ_of_lt fewer) resumed

def Frame.Relays : Frame σ ν → Prop
  | .holding _ | .through _ | .expiring _ => True
  | _ => False

theorem Frame.Relays.step {frame : Frame σ ν} (relays : frame.Relays) (world : World σ ν)
    (spent : ∀ g, frame = .expiring g → world.Spent g) (id : ThreadId) (exit : Exit)
    (base : List (Frame σ ν)) :
    ∃ next task, Thread.step world ⟨id, .task (.finish exit), frame :: base⟩ =
        some (next, ⟨id, .task task, base⟩) ∧
      ∀ inner last, Ends id next (.task task) inner last → inner = exit := by
  cases frame with
  | holding handles => exact ⟨world, .letGo handles exit, rfl, fun _ _ run => run.letGo⟩
  | through g =>
      exact ⟨_, .finish exit, rfl, fun _ _ run => (Ends.unique (.finish ..) run).1⟩
  | expiring g =>
      exact ⟨_, .finish exit, Thread.step_expiring (spent g rfl).empty,
        fun _ _ run => (Ends.unique (.finish ..) run).1⟩
  | _ => exact relays.elim

theorem Thread.Reaches.relayed {between : List (Frame σ ν)} {exit inner : Exit}
    (run : Reaches world ⟨id, .task (.finish exit), between⟩ next ⟨id, .task (.finish inner), []⟩)
    (relays : ∀ frame ∈ between, frame.Relays) (spent : ∀ g, .expiring g ∈ between → world.Spent g) :
    inner = exit := by
  induction between generalizing world exit with
  | nil => exact (Ends.unique (.finish id world exit) run).1
  | cons frame base ih =>
      obtain ⟨middle, task, action, keeps⟩ := (relays frame (.head _)).step world
        (fun g same => spent g (same ▸ .head _)) id exit base
      have run := Reaches.rest (.step action (.refl _ _)) run
      have others : ∀ frame ∈ base, frame.Relays := fun frame member => relays frame (.tail _ member)
      have spent g (member : .expiring g ∈ base) : middle.Spent g :=
        (spent g (.tail _ member)).step (step_tends action)
      -- What the frame itself does comes to its end before the frames below get it.
      cases base with
      | nil => exact keeps inner next run
      | cons below base =>
          have run : Reaches middle (Thread.above ⟨id, .task task, []⟩ (below :: base)) next _ := run
          obtain ⟨last, passed, ended, further⟩ := run.cut (Nat.zero_le _)
          obtain rfl := keeps passed last ended
          exact ih further others fun g member => (spent g member).reaches ended

def Frame.Awaits : Frame σ ν → Prop
  | .tearing .. | .owning .. | .linking .. | .guarding .. => True
  | _ => False

/-- How a frame that waits for a release goes on, given what the release failed with if it did: the
failure gets into one report, or is told by one event. -/
inductive Takes (world : World σ ν) (failure : Option Error) :
    Frame σ ν → World σ ν → Control σ ν → Prop
  | scope {sc : ScopeId} {rest : List (Action σ ν)} {ran : Nat} {failures : List Error} :
      Takes world failure (.tearing sc rest ran failures) world
        (.task (.batch sc rest ran (failures ++ failure.toList)))
  | owner {rest : List (Droppable σ ν)} {failures : List Error} :
      Takes world failure (.owning rest failures) world
        (.task (.disposeAll rest (failures ++ failure.toList)))
  | link {t : SlotId} {error : Error} {rest : List (Nat × Droppable σ ν)}
      {handlers : List (Nat × (Error → Code σ ν))} {failures : List DropError} :
      Takes world failure (.linking t error rest handlers failures)
        (world.emitAll (failure.map (.linkFailed t)).toList)
        (.task (.links t error rest handlers (failures ++ failure.toList.map .dropChain)))
  | guard {g : GuardId} {outcome : Exit} :
      Takes world failure (.guarding g outcome)
        (world.emitAll (failure.map (.guardFailed g)).toList) (.task (.finish outcome))

theorem Frame.Awaits.takes {frame : Frame σ ν} (awaits : frame.Awaits) (world : World σ ν)
    (id : ThreadId) (reply : Reply) (base : List (Frame σ ν)) :
    ∃ next control, Takes world reply.error? frame next control ∧
      Thread.step world ⟨id, .task (.finish (.returned reply)), frame :: base⟩ =
        some (next, ⟨id, control, base⟩) := by
  cases frame with
  | tearing => exact ⟨_, _, .scope, rfl⟩
  | owning => exact ⟨_, _, .owner, rfl⟩
  | guarding => exact ⟨_, _, .guard, rfl⟩
  | linking =>
      refine ⟨_, _, .link, ?_⟩
      cases failed : reply.error? <;>
        simp only [Thread.step, Frame.resume, failed, Option.toList_none, List.map_nil,
          List.append_nil] <;>
        rfl
  | _ => exact awaits.elim

/-! ## Drops in a run -/

/-- How the drop calls on a slot go and where their ends go, at a moment of a run. -/
structure DropsOnce (world : World σ ν) (thread : Thread σ ν) (s : SlotId) (release : Release) :
    Prop where
  drops : Dropped release (world.drops s)
  begins : (world.drops s).countP Drop.begins ≤ 1
  errors : (world.drops s).filterMap Drop.error? = release.error?.toList
  others : ∀ exit, .ended exit ∈ world.drops s → exit = .returned .done ∨
    ∃ value inner, release = .finished value inner ∧ exit = inner.ofRelease
  running : thread.releasing s = release.running?.toList
  spent : release ≠ .never → (world.slot s).dropped = true ∧ (world.slot s).value = none
  /-- Whoever drops a dropped slot leaves nothing behind but an act that no log shows. -/
  again : thread.control = .task (.swap s) → (world.slot s).dropped = true →
    thread.Works world (world.act (.dropEnded s (.returned .done)))
      ⟨thread.id, .task (.finish (.returned .done)), thread.stack⟩
  empty : thread.control = .task (.swap s) → (world.slot s).dropped = false →
    (world.slot s).value = none →
      thread.Works world ((world.marked s).act (.dropEnded s (.returned .done)))
        ⟨thread.id, .task (.finish (.returned .done)), thread.stack⟩
  runs : thread.control = .task (.swap s) → (world.slot s).dropped = false →
    ∀ value, (world.slot s).value = some value → release = .never ∧
      thread.Works world (world.released s value)
        ⟨thread.id, .code ((world.slot s).release value), .releasing s value :: thread.stack⟩
  /-- Where the drop handler ends, so does the call that has run it. -/
  ends : ∀ exit value base, thread.control = .task (.finish exit) →
    thread.stack = .releasing s value :: base → release = .running value ∧
      thread.Works world (world.act (.dropEnded s exit.ofRelease))
        ⟨thread.id, .task (.finish exit.ofRelease), base⟩
  late : ∀ value, thread.control = .task (.releaseLate s value) → release = .never ∧
    thread.Works world (world.act (.handed s value))
      ⟨thread.id, .code ((world.slot s).release value), .releasingLate s value :: thread.stack⟩
  endsLate : ∀ reply value base, thread.control = .task (.finish (.returned reply)) →
    thread.stack = .releasingLate s value :: base →
      thread.Works world (world.emitAll (reply.error?.map (.lateReleaseFailed s)).toList)
        ⟨thread.id, .task (.finish (.returned (.failed (.drop .dropped)))), base⟩
  /-- What waits below for the end of a drop call gets just that end, if the run comes down to it. -/
  relayed : ∀ between base, thread.control = .task (.swap s) → thread.stack = between ++ base →
    (∀ frame ∈ between, frame.Relays) → ∀ exit inner last next,
      Ends thread.id world (.task (.swap s)) exit last →
      Thread.Reaches world ⟨thread.id, .task (.swap s), between⟩ next
        ⟨thread.id, .task (.finish inner), []⟩ → inner = exit
  taken : ∀ reply frame base, thread.control = .task (.finish (.returned reply)) →
    thread.stack = frame :: base → frame.Awaits → ∃ next control,
      Takes world reply.error? frame next control ∧
        thread.step world = some (next, ⟨thread.id, control, base⟩)

theorem Releases.once {thread : Thread σ ν} {release : Release}
    (releases : Releases world thread s release) (regular : Regular world thread)
    (tended : thread.Tended world) : DropsOnce world thread s release := by
  obtain ⟨id, control, stack⟩ := thread
  constructor
  case drops => exact releases.drops
  case begins =>
    rw [releases.drops.begins_once]
    cases release.begun? <;> simp
  case errors => exact releases.drops.errors
  case others => exact fun exit => releases.drops.done_or_over
  case running => exact releases.running
  case spent => exact fun used => ⟨(releases.spent used).1.dropped, (releases.spent used).1.empty⟩
  case again =>
    rintro rfl dropped
    exact .swap_again dropped
  case empty =>
    rintro rfl undropped empty
    exact .swap_empty undropped (regular.value_free rfl) empty
  case runs =>
    rintro rfl undropped value held
    exact ⟨releases.never held, .swap_runs undropped (regular.value_free rfl) held⟩
  case ends =>
    rintro exit value base rfl rfl
    have running := releases.running
    have top : (.releasing s value : Frame σ ν).releasing? s = some value := if_pos rfl
    rw [Thread.releasing, List.filterMap_cons, top] at running
    refine ⟨?_, .step rfl rfl (.done _ _)⟩
    cases release <;> simp only [Release.running?, Option.toList_none, Option.toList_some,
      reduceCtorEq, List.cons.injEq] at running
    rw [running.1]
  case late =>
    rintro value rfl
    exact ⟨releases.never_of_late rfl, .step rfl rfl (.done _ _)⟩
  case endsLate =>
    rintro reply value base rfl rfl
    exact .step rfl rfl (.done _ _)
  case relayed =>
    rintro between base rfl rfl relays exit inner last next ends run
    refine ((ends.above between).rest run).relayed relays fun g member => ?_
    exact (tended.spent g (Thread.mem_expiring.mpr (List.mem_append_left _ member))).reaches ends
  case taken =>
    rintro reply frame base rfl rfl awaits
    exact awaits.takes world id reply base

/-- Whatever code runs, and by whatever routes a slot is dropped, at most one drop call ever runs the
slot's drop handler, and what the handler fails with is what that call alone returns. A value that
is produced after the drop is released without any drop call, and then none ever returns an
error. -/
theorem Thread.failure_reported_once (memory : σ) (code : Code σ ν) (steps : Nat) (s : SlotId) :
    let world := (advance steps { memory } (.ofCode 0 code)).1
    let thread := (advance steps { memory } (.ofCode 0 code)).2
    ∃ release, DropsOnce world thread s release ∧
      ∀ more, ∃ later, release.Leads later ∧
        DropsOnce (advance more world thread).1 (advance more world thread).2 s later := by
  intro world thread
  obtain ⟨release, -, releases⟩ :=
    (Releases.ofCode memory 0 code s).advance (.ofCode memory 0 code) steps
  refine ⟨release, releases.once (.advance memory 0 code steps) (.advance memory 0 code steps),
    fun more => ?_⟩
  obtain ⟨later, leads, further⟩ := releases.advance (.advance memory 0 code steps) more
  have regular := Regular.advance memory 0 code (steps + more)
  have tended := Tended.advance memory 0 code (steps + more)
  rw [advance_add] at regular tended
  exact ⟨later, leads, further.once regular tended⟩

/-- A scope has adopted a slot twice, and the drop handler drops the slot again and then fails. -/
def Code.adoptTwice : Code Unit Unit :=
  .call (.newSlot (fun _ => .call (.dropSlot 0) fun _ => .ret (.failed (.text "stuck")))
    (.ret (.text "value"))) fun _ =>
    .call (.newScope .collectAll) fun _ =>
      .call (.adopt 0 0) fun _ => .call (.adopt 0 0) fun _ =>
        .call (.getValue 0) fun _ => .call (.runAll 0) .ret

theorem Thread.failure_reported_once_adoptTwice :
    let last := advance 80 { memory := () } (.ofCode 0 Code.adoptTwice)
    last.2.exit? =
        some (.returned (.failed (.teardown (.mk [.drop (.drop (.text "stuck"))] none)))) ∧
      ∃ release, DropsOnce last.1 last.2 0 release ∧
        release.error?.toList = [.drop (.drop (.text "stuck"))] := by
  intro last
  obtain ⟨release, once, -⟩ := failure_reported_once () Code.adoptTwice 80 0
  exact ⟨rfl, release, once, once.errors.symm⟩

end Relinquish
