import Relinquish.Proofs.Ledger
import Relinquish.Proofs.Lockstep
import Relinquish.Proofs.Owners
import Relinquish.Proofs.Rounds
import Relinquish.Proofs.Routes

/-!
Owners and scopes. An owner drops its slots one after the other, and a scope that has adopted the
slots in the same order drops them as well. Both do the same and fail alike, as long as the drop
handlers return, leave the scope alone and let the slots live.
-/

namespace Relinquish

variable {σ ν : Type} {id : ThreadId} {sc : ScopeId} {own : Scope σ ν} {extra : SlotId → Nat}
  {world other next later : World σ ν}

/-! ## The scope that only one world has for its own -/

namespace World.Twin

theorem refl (made : sc < world.scopes.size) :
    world.Twin sc (world.scope sc) [].count world where
  memory := rfl
  slot _ := rfl
  scope _ _ := .refl _
  own := rfl
  slots := rfl
  scopes := rfl
  accessors := rfl
  guards := rfl
  parcels := rfl
  registries := rfl
  locks := rfl
  values := rfl
  threads := rfl
  account := rfl
  unmade _ _ := rfl
  made := made

theorem updateOwn (twin : world.Twin sc own extra other) (change : Scope σ ν → Scope σ ν) :
    world.Twin sc (change own) extra (other.updateScope sc change) := by
  refine { twin with scope := fun t apart => ?_, own := ?_, scopes := ?_ }
  · rw [scope_updateScope, if_neg (Ne.symm apart)]
    exact twin.scope t apart
  · rw [scope_updateScope, if_pos rfl, twin.own]
  · refine (Table.size_update ?_ change).trans twin.scopes
    rw [twin.scopes]
    exact twin.made

theorem recount (twin : world.Twin sc own extra other) {s : SlotId} {change : Slot σ ν → Slot σ ν}
    {more : SlotId → Nat} (made : s < world.slots.size)
    (changed : change ((world.slot s).lend (extra s)) = (world.slot s).lend (more s))
    (others : ∀ t ≠ s, more t = extra t) : world.Twin sc own more (other.updateSlot s change) := by
  refine { twin with slot := fun t => ?_, slots := ?_, unmade := fun t beyond => ?_ }
  · rw [slot_updateSlot, twin.slot]
    split
    · next same =>
        subst same
        exact changed
    · next apart => rw [others t (Ne.symm apart)]
  · refine (Table.size_update ?_ change).trans twin.slots
    rw [twin.slots]
    exact made
  · have apart : t ≠ s := fun same => Nat.not_le_of_lt made (same ▸ beyond)
    rw [others t apart]
    exact twin.unmade t beyond

theorem adopted {slots : List SlotId} {s : SlotId} (made : s < world.slots.size)
    (twin : world.Twin sc own slots.count other) :
    world.Twin sc { own with pending := own.pending ++ [⟨other.actions, .release s⟩] }
      (slots ++ [s]).count (other.adopt sc s) := by
  have held : world.Twin sc own (slots ++ [s]).count (other.retain (.slot s)) := by
    refine twin.recount made ?_ fun t apart => ?_
    · simp [Slot.lend, Nat.add_assoc]
    · simp [List.count_cons_of_ne (Ne.symm apart)]
  have counted : world.Twin sc own (slots ++ [s]).count
      { other.retain (.slot s) with actions := other.actions + 1 } := { held with }
  exact (counted.updateOwn fun scope =>
    { scope with pending := scope.pending ++ [⟨other.actions, .release s⟩] }).record_own rfl

theorem givenBack {slots : List SlotId} {s : SlotId} (made : s < world.slots.size)
    (twin : world.Twin sc own (s :: slots).count other) :
    world.Twin sc own slots.count (other.relinquish (.slot s)) := by
  refine twin.recount made ?_ fun t apart => ?_
  · simp [Slot.lend]
  · simp [Ne.symm apart]

end World.Twin

/-! ## One slot's turn -/

theorem Ends.of_swap_panicked {s : SlotId} {payload : Payload}
    (run : Ends id world (.task (.swap s)) (.panicked payload) next) :
    ∃ reached value, Thread.Reaches world ⟨id, .task (.swap s), []⟩ reached
      ⟨id, .task (.finish (.panicked payload)), [.releasing s value]⟩ := by
  have unreturned {later : World σ ν} {reply : Reply}
      (done : Ends id world (.task (.swap s)) (.returned reply) later) : False :=
    Exit.noConfusion (done.unique run).1
  cases dropped : (world.slot s).dropped with
  | true => exact (unreturned (Thread.Works.swap_again dropped).reaches).elim
  | false =>
      cases free : world.free (.value s) with
      | false =>
          have stuck : Thread.step (world.marked s) ⟨id, .task (.take s), []⟩ = none := by
            have locked : (world.marked s).free (.value s) = false := free
            simp [Thread.step, Task.step, World.whenFree, locked]
          have marked : Thread.Reaches world ⟨id, .task (.swap s), []⟩ _ _ :=
            .step (Thread.step_swap dropped) (.refl _ _)
          cases Ends.unstuck (marked.rest run) stuck
      | true =>
          cases held : (world.slot s).value with
          | none => exact (unreturned (Thread.Works.swap_empty dropped free held).reaches).elim
          | some value =>
              have begun : Thread.Reaches world ⟨id, .task (.swap s), []⟩ (world.released s value)
                  (Thread.above ⟨id, .code ((world.slot s).release value), []⟩
                    [.releasing s value]) := (Thread.Works.swap_runs dropped free held).reaches
              obtain ⟨reached, inner, handled, left⟩ := (begun.rest run).cut (Nat.zero_le _)
              have passed : Ends id _ (.task (.finish inner.ofRelease)) _ _ :=
                Thread.Reaches.rest (.step rfl (.refl _ _)) left
              obtain ⟨same, -⟩ := (Ends.finish id _ inner.ofRelease).unique passed
              refine ⟨reached, value, begun.trans ?_⟩
              cases inner with
              | panicked cause =>
                  obtain rfl := Exit.panicked.inj same
                  exact handled.above [.releasing s value]
              | returned reply =>
                  simp only [Exit.ofRelease] at same
                  split at same <;> contradiction

structure Owning (id : ThreadId) (sc : ScopeId) (kept slots : List SlotId) (failures : List Error)
    (world : World σ ν) : Prop where
  covers : world.Covers []
  listed : ∀ s ∈ slots, s ∈ kept
  heeds : Thread.Heeds sc kept world ⟨id, .task (.disposeAll (slots.map .slot) failures), []⟩
  returns : ∀ reached s value rest failures' payload,
    ¬ Thread.Reaches world ⟨id, .task (.disposeAll (slots.map .slot) failures), []⟩ reached
      ⟨id, .task (.finish (.panicked payload)), [.releasing s value, .owning rest failures']⟩

namespace Owning

variable {kept slots : List SlotId} {failures : List Error} {s : SlotId} {exit : Exit}

theorem reaches (id : ThreadId) (world : World σ ν) (s : SlotId) (slots : List SlotId)
    (failures : List Error) :
    Thread.Reaches world ⟨id, .task (.disposeAll ((s :: slots).map .slot) failures), []⟩ world
      (Thread.above ⟨id, .task (.swap s), []⟩ [.owning (slots.map .slot) failures]) :=
  .step rfl (.step rfl (.refl _ _))

theorem turn (owning : Owning id sc kept (s :: slots) failures world) :
    Thread.Heeds sc kept world ⟨id, .task (.swap s), []⟩ :=
  (owning.heeds.later (reaches id world s slots failures)).of_above

theorem held (owning : Owning id sc kept slots failures world) (s : SlotId) :
    Held world ⟨id, .task (.swap s), []⟩ :=
  ⟨owning.covers, nofun⟩

theorem returned (owning : Owning id sc kept (s :: slots) failures world)
    (run : Ends id world (.task (.swap s)) exit next) : ∃ reply, exit = .returned reply := by
  cases exit with
  | returned reply => exact ⟨reply, rfl⟩
  | panicked payload =>
      obtain ⟨reached, value, panics⟩ := run.of_swap_panicked
      have reach := (reaches id world s slots failures).trans (panics.above _)
      exact absurd reach (owning.returns reached s value _ _ payload)

theorem goesOn {reply : Reply} (owning : Owning id sc kept (s :: slots) failures world)
    (run : Ends id world (.task (.swap s)) (.returned reply) next) :
    Owning id sc kept slots (failures ++ reply.error?.toList) next := by
  have reach : Thread.Reaches world ⟨id, .task (.disposeAll ((s :: slots).map .slot) failures), []⟩
      next ⟨id, .task (.disposeAll (slots.map .slot) (failures ++ reply.error?.toList)), []⟩ :=
    (reaches id world s slots failures).trans ((run.above _).trans (.step rfl (.refl _ _)))
  constructor
  · exact (Thread.Reaches.rule run Held (fun _ _ _ _ held => held.step) (owning.held s)).covers
  · exact fun t member => owning.listed t (.tail _ member)
  · exact owning.heeds.later reach
  · exact fun _ _ _ _ _ _ further => owning.returns _ _ _ _ _ _ (reach.trans further)

/-! ### The same turn in the scope's teardown -/

theorem released {middle : World σ ν} {rest : List SlotId}
    (owning : Owning id sc kept (s :: rest) failures world)
    (run : Ends id world (.task (.swap s)) exit next)
    (twin : next.Twin sc own (s :: rest).count middle) :
    next.Twin sc own rest.count (middle.relinquish (.slot s)) ∧
      Thread.Reaches middle ⟨id, .task (.finish exit), [.holding [.slot s]]⟩
        (middle.relinquish (.slot s)) ⟨id, .task (.finish exit), []⟩ := by
  have lives := owning.turn.alive _ _ run s (owning.listed s (.head _))
  have given := twin.givenBack (World.made_of_held lives)
  have unheld : (middle.relinquish (.slot s)).unheld (.slot s) = false := by
    simp only [World.unheld, given.slot, Slot.lend_handles, Slot.lend_shared,
      decide_eq_false_iff_not]
    exact fun none => absurd lives (by simp only [World.Lives]; omega)
  have goes : Thread.step middle ⟨id, .task (.letGo [.slot s] exit), []⟩ =
      some (middle.relinquish (.slot s), ⟨id, .task (.letGo [] exit), []⟩) := by
    simp [Thread.step, Task.step, unheld, World.go, Thread.after]
  exact ⟨given, .step rfl (.step goes (.step rfl (.refl _ _)))⟩

variable {rest : List SlotId} {action : Action σ ν}
  (owning : Owning id sc kept (s :: rest) failures world)
  (twin : world.Twin sc own (s :: rest).count other) (releases : action.job = .release s)

omit owning in
include twin releases in
theorem starts : Thread.Reaches (other.act (.started sc action.id)) (action.job.thread id)
    (other.act (.started sc action.id)) (Thread.above ⟨id, .task (.swap s), []⟩
      [.holding [.slot s]]) ∧
    world.Twin sc own (s :: rest).count (other.act (.started sc action.id)) := by
  rw [releases]
  exact ⟨.refl _ _, twin.record_own rfl⟩

include owning twin releases

theorem serves (run : Ends id world (.task (.swap s)) exit next) :
    ∃ later, action.Ends id sc other exit later ∧ next.Twin sc own rest.count later := by
  obtain ⟨begun, started⟩ := starts twin releases
  have few : ∀ t, (s :: rest).count t ≠ 0 → t ∈ kept := fun t some =>
    owning.listed t (List.count_pos_iff.mp (Nat.pos_of_ne_zero some))
  obtain ⟨middle, ends, twin⟩ :=
    Ends.twins owning.turn few (owning.held s) started (.task (.same trivial)) run
  obtain ⟨given, last⟩ := owning.released run twin
  exact ⟨_, begun.trans ((ends.above [.holding [.slot s]]).trans last), given⟩

theorem served (run : action.Ends id sc other exit later) :
    ∃ next, Ends id world (.task (.swap s)) exit next ∧ next.Twin sc own rest.count later := by
  obtain ⟨begun, started⟩ := starts twin releases
  have few : ∀ t, (s :: rest).count t ≠ 0 → t ∈ kept := fun t some =>
    owning.listed t (List.count_pos_iff.mp (Nat.pos_of_ne_zero some))
  obtain ⟨middle, inner, ends, further⟩ := (begun.rest run).cut (Nat.zero_le _)
  obtain ⟨next, ended, twin⟩ :=
    Ends.of_twins owning.turn few (owning.held s) started (.task (.same trivial)) ends
  obtain ⟨given, last⟩ := owning.released ended twin
  have again : Ends id (middle.relinquish (.slot s)) (.task (.finish inner)) exit later :=
    last.rest further
  obtain ⟨rfl, rfl⟩ := (Ends.finish id _ inner).unique again
  exact ⟨next, ended, given⟩

end Owning

/-! ## The teardown of the owner -/

inductive Sweep (id : ThreadId) : World σ ν → List SlotId → List Reply → World σ ν → Prop
  | nobody (world : World σ ν) : Sweep id world [] [] world
  | drops {world middle next : World σ ν} {s : SlotId} {slots : List SlotId} {reply : Reply}
      {replies : List Reply} (run : Ends id world (.task (.swap s)) (.returned reply) middle)
      (further : Sweep id middle slots replies next) :
      Sweep id world (s :: slots) (reply :: replies) next

variable {kept slots : List SlotId} {failures : List Error} {replies : List Reply} {exit : Exit}

theorem Sweep.reaches (sweep : Sweep id world slots replies next) (failures : List Error) :
    Thread.Reaches world ⟨id, .task (.disposeAll (slots.map .slot) failures), []⟩ next
      ⟨id, .task (.disposeAll [] (failures ++ replies.filterMap Reply.error?)), []⟩ := by
  induction sweep generalizing failures with
  | nobody world =>
      rw [List.filterMap_nil, List.append_nil]
      exact .refl world _
  | @drops world middle next s slots reply replies run further ih =>
      have first := (Owning.reaches id world s slots failures).trans
        ((run.above _).trans (.step rfl (.refl _ _)))
      have failed : (reply :: replies).filterMap Reply.error? =
          reply.error?.toList ++ replies.filterMap Reply.error? := by
        rw [List.filterMap_cons]
        cases reply.error? <;> rfl
      rw [failed, ← List.append_assoc]
      exact first.trans (ih _)

def World.ownerTold (world : World σ ν) (failures : List Error) : World σ ν :=
  if failures.isEmpty then world else world.emit (.ownerFailed failures.length)

theorem World.slot_ownerTold (world : World σ ν) (failures : List Error) (s : SlotId) :
    (world.ownerTold failures).slot s = world.slot s := by
  unfold ownerTold
  split <;> rfl

theorem World.memory_ownerTold (world : World σ ν) (failures : List Error) :
    (world.ownerTold failures).memory = world.memory := by
  unfold ownerTold
  split <;> rfl

theorem World.ledger_ownerTold (world : World σ ν) (failures : List Error) :
    (world.ownerTold failures).ledger = world.ledger := by
  unfold ownerTold
  split <;> rfl

theorem World.account_ownerTold (world : World σ ν) (failures : List Error) :
    (world.ownerTold failures).account =
      (if failures.isEmpty then [] else [.event (.ownerFailed failures.length)]) ++
        world.account := by
  unfold ownerTold
  split <;> rfl

theorem Sweep.ends (sweep : Sweep id world slots.reverse replies next) :
    Ends id world (.task (.dispose (.owner (slots.map .slot))))
      (.returned (Droppable.ownerResult (replies.filterMap Reply.error?)))
      (next.ownerTold (replies.filterMap Reply.error?)) := by
  have opens : Thread.step world ⟨id, .task (.dispose (.owner (slots.map .slot))), []⟩ =
      some (world, ⟨id, .task (.disposeAll (slots.reverse.map .slot) []), []⟩) := by
    rw [List.map_reverse]
    rfl
  exact .step opens ((sweep.reaches []).trans (.step rfl (.refl _ _)))

theorem Owning.sweep (owning : Owning id sc kept slots failures world)
    (run : Ends id world (.task (.disposeAll (slots.map .slot) failures)) exit later) :
    ∃ replies next, Sweep id world slots replies next := by
  induction slots generalizing world failures with
  | nil => exact ⟨[], world, .nobody world⟩
  | cons s slots ih =>
      obtain ⟨middle, inner, ended, further⟩ :=
        ((Owning.reaches id world s slots failures).rest run).cut (Nat.zero_le _)
      obtain ⟨reply, rfl⟩ := owning.returned ended
      obtain ⟨replies, next, sweep⟩ := ih (owning.goesOn ended)
        (Thread.Reaches.rest (.step rfl (.refl _ _)) further)
      exact ⟨reply :: replies, next, .drops ended sweep⟩

/-! ## The teardown of the scope -/

theorem Owning.batch (owning : Owning id sc kept slots failures world)
    (sweep : Sweep id world slots replies next) (twin : world.Twin sc own slots.count other)
    {actions : List (Action σ ν)} (jobs : actions.map Action.job = slots.map .release) :
    ∃ served later, Batch id sc other actions served later ∧
      next.Twin sc own [].count later ∧
      Served.failures served = replies.filterMap Reply.error? := by
  induction sweep generalizing failures other actions with
  | nobody world =>
      obtain rfl := List.map_eq_nil_iff.mp jobs
      exact ⟨[], other, .nobody other, twin, rfl⟩
  | @drops world middle next s slots reply replies run further ih =>
      cases actions with
      | nil => contradiction
      | cons action actions =>
          obtain ⟨releases, jobs⟩ := List.cons.inj jobs
          obtain ⟨halfway, turn, twin⟩ := owning.serves twin releases run
          obtain ⟨served, later, batch, twin, same⟩ := ih (owning.goesOn run) twin jobs
          refine ⟨_, later, .serves turn batch, twin, ?_⟩
          rw [Served.failures, List.filterMap_cons, List.filterMap_cons, ← same]
          rfl

theorem Owning.of_batch (owning : Owning id sc kept slots failures world)
    (twin : world.Twin sc own slots.count other) {actions : List (Action σ ν)}
    {served : List Served} (jobs : actions.map Action.job = slots.map .release)
    (batch : Batch id sc other actions served later) :
    ∃ replies next, Sweep id world slots replies next := by
  induction batch generalizing slots failures world with
  | nobody other =>
      obtain rfl := List.map_eq_nil_iff.mp jobs.symm
      exact ⟨[], world, .nobody world⟩
  | @serves other middle later action actions exit others run further ih =>
      cases slots with
      | nil => contradiction
      | cons s slots =>
          obtain ⟨releases, jobs⟩ := List.cons.inj jobs
          obtain ⟨halfway, ended, twin⟩ := owning.served twin releases run
          obtain ⟨reply, rfl⟩ := owning.returned ended
          obtain ⟨replies, next, sweep⟩ := ih (owning.goesOn ended) twin jobs
          exact ⟨reply :: replies, next, .drops ended sweep⟩

/-- User code that adopts the slots into the scope, in order, and runs its teardown. -/
def Code.adoptAll (sc : ScopeId) : List SlotId → Code σ ν
  | [] => .call (.runAll sc) .ret
  | s :: rest => .call (.adopt sc s) fun _ => adoptAll sc rest

theorem Code.reaches_adopted {s : SlotId} (rest : List SlotId)
    (scope : world.usable (.scope sc) = true) (slot : world.usable (.slot s) = true) :
    Thread.Reaches world ⟨id, .code (.adoptAll sc (s :: rest)), []⟩ (world.adopt sc s)
      ⟨id, .code (.adoptAll sc rest), []⟩ := by
  have adopts : Thread.step world ⟨id, .task (.start (.adopt sc s)),
        [.calling fun _ => .adoptAll sc rest]⟩ =
      some (world.adopt sc s, ⟨id, .task (.finish (.returned (.object s))),
        [.calling fun _ => .adoptAll sc rest]⟩) := by
    simp [Thread.step, Task.step, Call.start, World.whenUsable, scope, slot, World.answer, World.go,
      Thread.after]
  exact .step rfl (.step adopts (.step rfl (.refl _ _)))

theorem Code.reaches_adoptedAll (rest : List SlotId)
    (scope : (decide (0 < own.handles) || own.lent) = true)
    (usable : ∀ s ∈ rest, world.usable (.slot s) = true)
    (twin : world.Twin sc own slots.count other) :
    ∃ actions later, Thread.Reaches other ⟨id, .code (.adoptAll sc rest), []⟩ later
        ⟨id, .code (.adoptAll sc []), []⟩ ∧
      actions.map Action.job = rest.map .release ∧
      world.Twin sc { own with pending := own.pending ++ actions } (slots ++ rest).count later := by
  induction rest generalizing own slots other with
  | nil =>
      refine ⟨[], other, .refl _ _, rfl, ?_⟩
      rw [List.append_nil, List.append_nil]
      exact twin
  | cons s rest ih =>
      have slot := usable s (.head _)
      have made := World.made_of_held (World.Lives.of_usable slot)
      have opened : other.usable (.scope sc) = true := by rwa [World.usable, twin.own]
      have slot : other.usable (.slot s) = true := by
        rwa [twin.usable (.slot s) (by simp)]
      obtain ⟨actions, later, adopted, jobs, twin⟩ :=
        ih (by exact scope) (fun t member => usable t (.tail _ member)) (twin.adopted made)
      refine ⟨⟨other.actions, .release s⟩ :: actions, later,
        (reaches_adopted rest opened slot).trans adopted, ?_, ?_⟩
      · rw [List.map_cons, jobs]
        rfl
      · simpa only [List.append_assoc, List.singleton_append] using twin

/-- The scope is as good as new and collects all failures. -/
structure World.Unused (world : World σ ν) (sc : ScopeId) : Prop where
  usable : world.usable (.scope sc) = true
  policy : (world.scope sc).policy = .collectAll
  empty : (world.scope sc).pending = []

theorem World.made_of_usable (usable : world.usable (.scope sc) = true) :
    sc < world.scopes.size := by
  by_contra unmade
  have none : world.scope sc = {} := by
    rw [World.scope, Table.get, List.getElem?_eq_none (Nat.le_of_not_lt unmade)]
    rfl
  simp [World.usable, none] at usable

theorem Rounds.of_batch {actions : List (Action σ ν)} {served : List Served}
    (waits : (other.scope sc).pending.reverse = actions)
    (batch : Batch id sc (other.takePending sc).1 actions served later)
    (twin : world.Twin sc own extra later) (empty : own.pending = []) :
    ∃ torn, Rounds id sc other served torn ∧ world.Twin sc own extra torn := by
  have drained : (later.scope sc).pending = [] := by rw [twin.own, empty]
  have taken : world.Twin sc own extra (later.takePending sc).1 := by
    have taken := twin.updateOwn fun scope => { scope with pending := [] }
    have same : { own with pending := [] } = own := by rw [← empty]
    rwa [same] at taken
  cases actions with
  | nil =>
      cases batch
      exact ⟨_, .drained (List.reverse_eq_nil_iff.mp waits), twin⟩
  | cons action actions =>
      have some : (other.scope sc).pending ≠ [] := fun none => by simp [none] at waits
      have rounds := Rounds.round some (waits ▸ batch) (.drained drained)
      rw [List.append_nil] at rounds
      exact ⟨_, rounds, taken⟩

theorem Ends.adoptAll {reply : Reply} (scope : world.usable (.scope sc) = true)
    (run : Ends id (world.retain (.scope sc)) (.task (.drain sc 0 [])) (.returned reply) next) :
    Ends id world (.code (.adoptAll sc [])) (.returned reply) (next.relinquish (.scope sc)) :=
  .step rfl (((Ends.runAll scope run).above [.calling .ret]).trans
    (.step rfl (.step rfl (.refl _ _))))

theorem Ends.of_adoptAll (scope : world.usable (.scope sc) = true)
    (run : Ends id world (.code (.adoptAll sc [])) exit next) :
    ∃ inner middle, Ends id (world.retain (.scope sc)) (.task (.drain sc 0 [])) inner middle := by
  have called : Thread.Reaches world ⟨id, .code (.adoptAll sc []), []⟩ (world.retain (.scope sc))
      (Thread.above ⟨id, .task (.drain sc 0 []), []⟩ [.holding [.scope sc], .calling .ret]) :=
    .step rfl (.step (Thread.step_runAll id [.calling .ret] scope) (.refl _ _))
  obtain ⟨middle, inner, drained, -⟩ := (called.rest run).cut (Nat.zero_le _)
  exact ⟨inner, middle, drained⟩

/-! ## Both teardowns -/

/-- An owner of the slots can be torn down, and they can be adopted into the scope instead. -/
structure World.Adoptable (world : World σ ν) (id : ThreadId) (sc : ScopeId) (slots : List SlotId) :
    Prop where
  unused : world.Unused sc
  usable : ∀ s ∈ slots, world.usable (.slot s) = true
  heeds : Thread.Heeds sc slots world (.ofOwner id (slots.map .slot))
  /-- The drop handlers that the owner's teardown runs do not panic. -/
  returns : ∀ reached s value rest failures payload,
    ¬ Thread.Reaches world (.ofOwner id (slots.map .slot)) reached
      ⟨id, .task (.finish (.panicked payload)), [.releasing s value, .owning rest failures]⟩

/-- How an owner and a scope that collects all failures report the same ones. -/
inductive Reported : List Error → Reply → Reply → Prop
  | fine : Reported [] .done .done
  | failed (first : Error) (others : List Error) :
      Reported (first :: others) (.failed (.drop (.teardown (.mk (first :: others) none))))
        (.failed (.teardown (.mk (first :: others) none)))

/-- Both teardowns come to their ends, have done the same and report the same. -/
structure World.TornAlike (world : World σ ν) (id : ThreadId) (sc : ScopeId) (slots : List SlotId)
    (failures : List Error) (owned adopted : World σ ν) : Prop where
  ends : ∃ ofOwner ofScope, Reported failures ofOwner ofScope ∧
    Ends id world (.task (.dispose (.owner (slots.map .slot)))) (.returned ofOwner) owned ∧
    Ends id world (.code (.adoptAll sc slots)) (.returned ofScope) adopted
  alike : ∀ s, adopted.slot s = owned.slot s
  memory : adopted.memory = owned.memory
  /-- The same drop handlers were given the same values in the same order. -/
  ledger : adopted.ledger = owned.ledger
  /-- All that happened is the same but for what the teardowns tell of themselves. -/
  account : ∃ account,
    owned.account = (if failures.isEmpty then [] else [.event (.ownerFailed failures.length)]) ++
      account ∧
    adopted.account = .event (.tornDown sc slots.length failures.length) :: account

theorem World.ledger_account (world : World σ ν) :
    world.ledger = world.account.filterMap Mark.deed? := by
  rw [ledger, account, List.filterMap_filter]
  refine List.filterMap_congr fun mark _ => ?_
  cases numbered : mark.numbered with
  | false => rfl
  | true =>
      simp only [Mark.numbered] at numbered
      split at numbered <;> first | rfl | contradiction

theorem Reported.of_failures (failures : List Error) :
    Reported failures (Droppable.ownerResult failures)
      (TeardownPolicy.collectAll.result failures) := by
  cases failures with
  | nil => exact .fine
  | cons first others => exact .failed first others

namespace World.Adoptable

variable (adoptable : world.Adoptable id sc slots)

include adoptable

theorem owning (covers : world.Covers []) : Owning id sc slots slots.reverse [] world := by
  have opens : Thread.step world (.ofOwner id (slots.map .slot)) =
      some (world, ⟨id, .task (.disposeAll (slots.reverse.map .slot) []), []⟩) := by
    rw [List.map_reverse]
    rfl
  have opened := Thread.Reaches.step opens (.refl _ _)
  constructor
  · exact covers
  · exact fun s member => List.mem_reverse.mp member
  · exact adoptable.heeds.later opened
  · exact fun _ _ _ _ _ _ further => adoptable.returns _ _ _ _ _ _ (opened.trans further)

theorem adopted : ∃ later own,
    world.Twin sc own slots.reverse.count ((later.retain (.scope sc)).takePending sc).1 ∧
    own.pending = [] ∧ own.policy = .collectAll ∧
    ((later.retain (.scope sc)).scope sc).pending.reverse.map Action.job =
      slots.reverse.map .release ∧
    later.usable (.scope sc) = true ∧
    Thread.Reaches world ⟨id, .code (.adoptAll sc slots), []⟩ later
      ⟨id, .code (.adoptAll sc []), []⟩ := by
  obtain ⟨usable, policy, empty⟩ := adoptable.unused
  obtain ⟨actions, later, adopted, jobs, twin⟩ :=
    Code.reaches_adoptedAll slots usable adoptable.usable (.refl (World.made_of_usable usable))
  have counts : slots.reverse.count = ([] ++ slots).count := funext fun s => List.count_reverse
  have pending : ((later.retain (.scope sc)).scope sc).pending = actions := by
    rw [World.retain, scope_updateScope, if_pos rfl, twin.own, empty]
    rfl
  have taken := (twin.updateOwn fun scope => { scope with shared := scope.shared + 1 }).updateOwn
    fun scope => { scope with pending := [] }
  rw [← counts] at taken
  refine ⟨later, _, taken, rfl, policy, ?_, ?_, adopted⟩
  · rw [pending, List.map_reverse, jobs, List.map_reverse]
  · rw [World.usable, twin.own]
    exact usable

theorem tornAlike {replies : List Reply} (covers : world.Covers [])
    (sweep : Sweep id world slots.reverse replies next) :
    ∃ failures owned adopted, world.TornAlike id sc slots failures owned adopted := by
  obtain ⟨later, own, twin, empty, policy, jobs, usable, adopted⟩ := adoptable.adopted
  obtain ⟨served, finished, batch, twin, failures⟩ :=
    (adoptable.owning covers).batch sweep twin jobs
  obtain ⟨torn, rounds, twin⟩ := Rounds.of_batch rfl batch twin empty
  have ends := rounds.ends
  rw [twin.own, policy, failures] at ends
  have count : served.length = slots.length := by
    have length := congrArg List.length batch.actions
    have waiting := congrArg List.length jobs
    simp only [List.length_map, List.length_reverse] at length waiting
    exact length.trans waiting
  have told : torn.reported sc served.length (replies.filterMap Reply.error?) =
      torn.emit (.tornDown sc slots.length (replies.filterMap Reply.error?).length) := by
    rw [World.reported, twin.own, policy, count]
    rfl
  rw [told] at ends
  have owned := sweep.ends
  have collected := adopted.trans (Ends.adoptAll usable ends)
  generalize replies.filterMap Reply.error? = failures at owned collected
  refine ⟨failures, next.ownerTold failures,
    (torn.emit (.tornDown sc slots.length failures.length)).relinquish (.scope sc), ?_⟩
  exact
    { ends := ⟨_, _, .of_failures failures, owned, collected⟩
      alike s := by
        rw [slot_ownerTold]
        exact twin.slot s
      memory := by
        rw [memory_ownerTold]
        exact twin.memory
      ledger := by
        rw [ledger_ownerTold, ledger_account next, ← twin.account, ← ledger_account]
        rfl
      account := ⟨next.account, account_ownerTold next failures, congrArg _ twin.account⟩ }

theorem sweep_of_adopted (covers : world.Covers [])
    (run : Ends id world (.code (.adoptAll sc slots)) exit next) :
    ∃ replies later, Sweep id world slots.reverse replies later := by
  obtain ⟨later, own, twin, empty, policy, jobs, usable, adopted⟩ := adoptable.adopted
  obtain ⟨inner, middle, drained⟩ := Ends.of_adoptAll usable (adopted.rest run)
  obtain ⟨served, torn, rounds⟩ := (World.Finite.of_ends drained).rounds
  have owning := adoptable.owning covers
  cases rounds with
  | drained none =>
      rw [none] at jobs
      exact owning.of_batch twin jobs (.nobody _)
  | round waits batch further => exact owning.of_batch twin jobs batch

theorem sweep (covers : world.Covers [])
    (run : Ends id world (.task (.dispose (.owner (slots.map .slot)))) exit next) :
    ∃ replies later, Sweep id world slots.reverse replies later := by
  have opens : Thread.step world ⟨id, .task (.dispose (.owner (slots.map .slot))), []⟩ =
      some (world, ⟨id, .task (.disposeAll (slots.reverse.map .slot) []), []⟩) := by
    rw [List.map_reverse]
    rfl
  exact (adoptable.owning covers).sweep (Thread.Reaches.rest (.step opens (.refl _ _)) run)

end World.Adoptable

/-- Either an owner of the slots and a scope that has adopted them are torn down alike, or neither
teardown comes to its end. -/
theorem World.owner_as_scope (memory : σ) (code : Code σ ν) (moment : Nat) (id : ThreadId)
    (sc : ScopeId) (slots : List SlotId) :
    let world := (Thread.advance moment { memory } (.ofCode 0 code)).1
    world.Adoptable id sc slots →
    (∃ failures owned adopted, world.TornAlike id sc slots failures owned adopted) ∨
      ∀ exit next, ¬ Ends id world (.task (.dispose (.owner (slots.map .slot)))) exit next ∧
        ¬ Ends id world (.code (.adoptAll sc slots)) exit next := by
  intro world adoptable
  have covers : world.Covers [] :=
    (Held.advance memory 0 code moment).covers.mono (List.nil_sublist _)
  by_cases ends : ∃ replies next, Sweep id world slots.reverse replies next
  · obtain ⟨replies, next, sweep⟩ := ends
    exact .inl (adoptable.tornAlike covers sweep)
  · refine .inr fun exit next => ⟨fun run => ends ?_, fun run => ends ?_⟩
    · exact adoptable.sweep covers run
    · exact adoptable.sweep_of_adopted covers run

def Thread.minds (sc : ScopeId) (slots : List SlotId) (world : World σ ν) (thread : Thread σ ν) :
    Bool :=
  (match thread.control with
    | .task (.start call) => call.scope? != some sc
    | .task (.finish (.panicked _)) => false
    | _ => true) &&
  slots.all fun s => decide (0 < (world.slot s).handles + (world.slot s).shared)

theorem World.Adoptable.of_advance {steps : Nat} (unused : world.Unused sc)
    (usable : ∀ s ∈ slots, world.usable (.slot s) = true)
    (ended : (Thread.advance steps world (.ofOwner id (slots.map .slot))).2.exit? = some exit)
    (minds : ∀ n ≤ steps, (Thread.advance n world (.ofOwner id (slots.map .slot))).2.minds sc slots
      (Thread.advance n world (.ofOwner id (slots.map .slot))).1 = true) :
    world.Adoptable id sc slots := by
  have always {next : World σ ν} {after : Thread σ ν}
      (reach : Thread.Reaches world (.ofOwner id (slots.map .slot)) next after) :
      after.minds sc slots next = true := by
    obtain ⟨n, early, reach⟩ := reach.within ended
    simpa only [reach] using minds n early
  refine ⟨unused, usable, ⟨?_, ?_⟩, ?_⟩
  · intro next after call reach starting
    have minds := always reach
    simp only [Thread.minds, starting, Bool.and_eq_true, bne_iff_ne] at minds
    exact minds.1
  · intro next after reach s member
    have minds := always reach
    simp only [Thread.minds, Bool.and_eq_true, List.all_eq_true, decide_eq_true_eq] at minds
    exact minds.2 s member
  · intro reached s value rest failures payload reach
    exact absurd (always reach) (by simp [Thread.minds])

/-- Three slots, all with values: the drop handler of the first drops the second and fails, and so
does that of the third. -/
def Code.threeSlots : Code Unit Unit :=
  .call (.newScope .collectAll) fun _ =>
    .call (.newSlot (fun _ => .call (.dropSlot 1) fun _ => .ret (.failed (.text "older")))
        (.ret (.text "a"))) fun _ =>
      .call (.newSlot (fun _ => .ret .done) (.ret (.text "b"))) fun _ =>
        .call (.newSlot (fun _ => .ret (.failed (.text "newer"))) (.ret (.text "c"))) fun _ =>
          .call (.getValue 0) fun _ => .call (.getValue 1) fun _ => .call (.getValue 2) .ret

/-- One slot comes twice, and another is dropped before its turn. -/
theorem World.owner_as_scope_threeSlots :
    let world := (Thread.advance 67 { memory := () } (.ofCode 0 Code.threeSlots)).1
    world.Adoptable 0 0 [1, 0, 0, 2] ∧ ∃ failures owned adopted,
      world.TornAlike 0 0 [1, 0, 0, 2] failures owned adopted ∧
        failures = [.drop (.drop (.text "newer")), .drop (.drop (.text "older"))] := by
  intro world
  have ended : (Thread.advance 34 world (.ofOwner 0 ([1, 0, 0, 2].map .slot))).2.exit? =
      some (.returned (.failed (.drop (.teardown
        (.mk [.drop (.drop (.text "newer")), .drop (.drop (.text "older"))] none))))) := rfl
  have run : Ends 0 world (.task (.dispose (.owner ([1, 0, 0, 2].map .slot)))) _ _ :=
    ⟨34, Prod.ext rfl (Thread.exit?_eq_some ended)⟩
  have adoptable : world.Adoptable 0 0 [1, 0, 0, 2] :=
    .of_advance ⟨rfl, rfl, rfl⟩ (by decide +kernel) ended (by decide +kernel)
  obtain ⟨failures, owned, adopted, alike⟩ | neither :=
    owner_as_scope () Code.threeSlots 67 0 0 [1, 0, 0, 2] adoptable
  · obtain ⟨ofOwner, ofScope, reported, ends, -⟩ := alike.ends
    obtain ⟨same, -⟩ := run.unique ends
    obtain rfl := Exit.returned.inj same
    refine ⟨adoptable, failures, owned, adopted, alike, ?_⟩
    cases reported
    rfl
  · exact absurd run (neither _ _).1

end Relinquish
