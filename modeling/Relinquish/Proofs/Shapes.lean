import Relinquish.Proofs.Policies
import Relinquish.Proofs.Rounds

/-!
With which errors each operation ends. Every task promises that its errors are of a certain shape,
and every frame makes such a promise of its own of what it is told about the end above it; a step
keeps what a thread promises.
-/

namespace Relinquish

variable {σ ν : Type}

/-! ## Shapes of errors -/

/-- Errors of a lookup. The reaction to a failed initializer reports what its links failed with, and
then what its handlers failed with. -/
inductive Error.OfLookup : Error → Prop
  | dropped : OfLookup (.drop .dropped)
  | reentrant : OfLookup (.drop .reentrant)
  | initialization (cause : Error) (links handlers : List Error) :
      OfLookup (.drop (.initialization cause (links.map .dropChain ++ handlers.map .handler)))

inductive Error.OfDrop : Error → Prop
  | mk (source : Error) : OfDrop (.drop (.drop source))

/-- What a teardown has failed with: something, and only one thing where the first failure is all
that is asked for. -/
structure TeardownPolicy.Reports (policy : TeardownPolicy) (failures : List Error) : Prop where
  some : failures ≠ []
  one : policy = .firstFailure → failures.length = 1

inductive Error.OfOwner : Error → Prop
  | mk {failures : List Error} (some : failures ≠ []) :
      OfOwner (.drop (.teardown (.mk failures none)))

inductive Error.OfTeardown (policy : TeardownPolicy) : Error → Prop
  | mk {failures : List Error} (reports : policy.Reports failures) :
      OfTeardown policy (.teardown (.mk failures none))

def Exit.error? : Exit → Option Error
  | returned reply => reply.error?
  | panicked _ => none

/-- Errors of a call that has lent a scope to a body: the body's own, or that of the teardown, which
then tells which error of the body it interrupted. -/
inductive Error.OfDeferring (policy : TeardownPolicy) (outcome : Exit) : Error → Prop
  | own {error : Error} (same : outcome.error? = some error) : OfDeferring policy outcome error
  | torn {failures : List Error} (reports : policy.Reports failures) :
      OfDeferring policy outcome (.drop (.teardown (.mk failures outcome.error?)))

theorem TeardownPolicy.result_of_failures (policy : TeardownPolicy) {failures : List Error}
    (some : failures ≠ []) :
    ∃ reported, policy.Reports reported ∧ reported ⊆ failures ∧
      policy.result failures = .failed (.teardown (.mk reported none)) := by
  cases failures with
  | nil => contradiction
  | cons first rest =>
      cases policy with
      | collectAll => exact ⟨first :: rest, ⟨some, nofun⟩, List.Subset.refl _, rfl⟩
      | firstFailure => exact ⟨[first], ⟨nofun, fun _ => rfl⟩, by simp, rfl⟩

theorem TeardownPolicy.ofTeardown_result (policy : TeardownPolicy) {failures : List Error}
    {error : Error} (failed : (policy.result failures).error? = some error) :
    error.OfTeardown policy := by
  cases failures with
  | nil => contradiction
  | cons first rest =>
      obtain ⟨reported, reports, -, result⟩ := policy.result_of_failures (List.cons_ne_nil first rest)
      rw [result] at failed
      obtain rfl := Option.some.inj failed
      exact .mk reports

theorem Droppable.ofOwner_result {failures : List Error} {error : Error}
    (failed : (ownerResult failures).error? = some error) : error.OfOwner := by
  cases failures with
  | nil => contradiction
  | cons first rest =>
      obtain rfl := Option.some.inj failed
      exact .mk nofun

theorem Exit.ofDrop_ofRelease {exit : Exit} {error : Error}
    (failed : exit.ofRelease.error? = some error) : error.OfDrop := by
  cases exit with
  | panicked payload => contradiction
  | returned reply =>
      simp only [ofRelease] at failed
      split at failed
      · obtain rfl := Option.some.inj failed
        exact .mk _
      · contradiction

theorem Exit.afterTeardown_of_told {policy : TeardownPolicy} (outcome : Exit) {reply : Reply}
    (told : ∀ error, reply.error? = some error → error.OfTeardown policy) :
    outcome.afterTeardown reply.teardown? = outcome ∨
      ∃ failures, policy.Reports failures ∧ reply = .failed (.teardown (.mk failures none)) ∧
        outcome.afterTeardown reply.teardown? =
          .returned (.failed (.drop (.teardown (.mk failures outcome.error?)))) := by
  cases torn : reply.teardown? with
  | none => exact .inl rfl
  | some report =>
      obtain rfl : reply = .failed (.teardown report) := by
        unfold Reply.teardown? at torn
        split at torn <;> simp_all
      cases told _ rfl with
      | mk reports =>
          cases outcome with
          | panicked payload => exact .inl rfl
          | returned reply =>
              refine .inr ⟨_, reports, rfl, ?_⟩
              cases body : reply.error? <;>
                simp [afterTeardown, error?, body, TeardownError.interrupting,
                  TeardownError.failures]

theorem Exit.ofDeferring_afterTeardown {policy : TeardownPolicy} {outcome : Exit} {reply : Reply}
    {error : Error} (told : ∀ error, reply.error? = some error → error.OfTeardown policy)
    (failed : (outcome.afterTeardown reply.teardown?).error? = some error) :
    error.OfDeferring policy outcome := by
  rcases outcome.afterTeardown_of_told told with same | ⟨failures, reports, -, torn⟩
  · rw [same] at failed
    exact .own failed
  · rw [torn] at failed
    obtain rfl := Option.some.inj failed
    exact .torn reports

namespace World

variable (world : World σ ν)

def OfTeardown (sc : ScopeId) (error : Error) : Prop :=
  sc < world.scopes.size → error.OfTeardown (world.scope sc).policy

variable {world} {next : World σ ν} {sc : ScopeId} {error : Error}

theorem Governs.of_ofTeardown (governs : world.Governs next) :
    next.OfTeardown sc error → world.OfTeardown sc error := by
  intro shaped made
  rw [← governs.policy sc made]
  exact shaped (Nat.lt_of_lt_of_le made governs.made)

end World

/-! ## Promises -/

def Exit.Fails (P : Error → Prop) (exit : Exit) : Prop :=
  ∀ error, exit.error? = some error → P error

def Droppable.Fails (P : Error → Prop) : Droppable σ ν → Prop
  | action _ => ∀ error, P error
  | slot _ => ∀ error, error.OfDrop → P error
  | owner _ => ∀ error, error.OfOwner → P error
  | scopeOwner => True

def Call.Fails (world : World σ ν) (P : Error → Prop) : Call σ ν → Prop
  | getValue _ | withValue _ _ => ∀ error, error.OfLookup → P error
  | dropSlot _ | dropAccessed _ => ∀ error, error.OfDrop → P error
  | runAll sc => ∀ error, world.OfTeardown sc error → P error
  | _ => ∀ error, P error

def Selection.Fails (P : Error → Prop) : Selection σ ν → Prop
  | links _ | handlers _ _ => ∀ error, error.OfLookup → P error
  | numbers _ => True

/-- All errors with which the task can end satisfy the predicate. -/
def Task.Fails (world : World σ ν) (P : Error → Prop) : Task σ ν → Prop
  | finish exit | letGo _ exit => exit.Fails P
  | start call => call.Fails world P
  | look _ | enter _ | lookAgain _ | produce _ | lockValue _ _ | confirm _ _ | store _ _
  | releaseLate _ _ => ∀ error, error.OfLookup → P error
  | unlockValue _ next | leave _ next => next.Fails world P
  | consult selection _ | sift selection _ _ _ => selection.Fails P
  | links _ _ _ _ failures =>
      (∃ links : List Error, failures = links.map .dropChain) ∧ ∀ error, error.OfLookup → P error
  | handlers _ _ _ failures =>
      (∃ links handlers : List Error, failures = links.map .dropChain ++ handlers.map .handler) ∧
        ∀ error, error.OfLookup → P error
  | swap _ | take _ => ∀ error, error.OfDrop → P error
  | dispose droppable => droppable.Fails P
  | disposeAll _ _ => ∀ error, error.OfOwner → P error
  | copy _ _ | copyValue _ _ _ | deliver _ => True
  | drain sc _ _ | batch sc _ _ _ | report sc _ _ => ∀ error, world.OfTeardown sc error → P error

def Control.Fails (world : World σ ν) (P : Error → Prop) : Control σ ν → Prop
  | code _ => ∀ error, P error
  | task work => work.Fails world P

/-- Where what is above the frame ends with an error of the one kind, the frame comes to an error of
the other kind. -/
def Frame.Fails (world : World σ ν) (P Q : Error → Prop) : Frame σ ν → Prop
  | calling _ | attempted _ | joined _ _ => ∀ error, Q error
  | holding _ | looking _ | getting _ | through _ | expiring _ => ∀ error, P error → Q error
  | initializing _ | releasingLate _ _ => ∀ error, error.OfLookup → Q error
  | judging selection _ _ _ _ => selection.Fails Q
  | linking _ _ _ _ failures =>
      (∃ links : List Error, failures = links.map .dropChain) ∧ ∀ error, error.OfLookup → Q error
  | handling _ _ _ failures =>
      (∃ links handlers : List Error, failures = links.map .dropChain ++ handlers.map .handler) ∧
        ∀ error, error.OfLookup → Q error
  | releasing _ _ => ∀ error, error.OfDrop → Q error
  | owning _ _ => ∀ error, error.OfOwner → Q error
  | tearing sc _ _ _ => ∀ error, world.OfTeardown sc error → Q error
  | vanishing _ _ outcome | guarding _ outcome => outcome.Fails Q
  | body sc => sc < world.scopes.size ∧ ∀ error, Q error
  | closing sc outcome =>
      sc < world.scopes.size ∧ (∀ error, P error → error.OfTeardown (world.scope sc).policy) ∧
        ∀ error, error.OfDeferring (world.scope sc).policy outcome → Q error
  | cloning _ | «using» _ | orNone _ | orElse _ _ | fallingBack _ | reading _ | matched => True

/-- What the frames of a stack make, one after the other, of an error of the first kind. -/
def World.Unwinds (world : World σ ν) : (Error → Prop) → List (Frame σ ν) → (Error → Prop) → Prop
  | P, [], Q => ∀ error, P error → Q error
  | P, frame :: stack, Q => ∃ R, frame.Fails world P R ∧ world.Unwinds R stack Q

def Thread.Fails (world : World σ ν) (P : Error → Prop) (thread : Thread σ ν) : Prop :=
  ∃ Q, thread.control.Fails world Q ∧ world.Unwinds Q thread.stack P

def Move.Fails (P : Error → Prop) (move : Move σ ν) : Prop :=
  ∃ Q, move.control.Fails move.world Q ∧ move.world.Unwinds Q move.frames P

section
variable {world next : World σ ν} {P Q R : Error → Prop}

theorem Frame.Fails.mono {frame : Frame σ ν} (governs : world.Governs next)
    (fails : frame.Fails world P Q) : frame.Fails next P Q := by
  cases frame with
  | tearing sc rest ran failures =>
      exact fun error shaped => fails error (governs.of_ofTeardown shaped)
  | body sc => exact ⟨Nat.lt_of_lt_of_le fails.1 governs.made, fails.2⟩
  | closing sc outcome =>
      obtain ⟨made, told, all⟩ := fails
      refine ⟨Nat.lt_of_lt_of_le made governs.made, ?_, ?_⟩
      · rw [governs.policy sc made]
        exact told
      · rw [governs.policy sc made]
        exact all
  | _ => exact fails

theorem World.Unwinds.mono {stack : List (Frame σ ν)} (governs : world.Governs next)
    (unwinds : world.Unwinds P stack Q) : next.Unwinds P stack Q := by
  induction stack generalizing P with
  | nil => exact unwinds
  | cons frame stack ih =>
      obtain ⟨R, fails, unwinds⟩ := unwinds
      exact ⟨R, fails.mono governs, ih unwinds⟩

theorem Task.Fails.mono {task : Task σ ν} (governs : world.Governs next)
    (fails : task.Fails world P) : task.Fails next P := by
  induction task with
  | start call =>
      cases call with
      | runAll sc => exact fun error shaped => fails error (governs.of_ofTeardown shaped)
      | _ => exact fails
  | drain sc | batch sc | report sc =>
      exact fun error shaped => fails error (governs.of_ofTeardown shaped)
  | unlockValue s task ih | leave s task ih => exact ih fails
  | _ => exact fails

theorem Frame.Fails.weaken {frame : Frame σ ν} (fails : frame.Fails world Q R)
    (weaker : ∀ error, P error → Q error) : frame.Fails world P R := by
  cases frame with
  | holding | looking | getting | through | expiring =>
      exact fun error holds => fails error (weaker error holds)
  | closing sc outcome =>
      exact ⟨fails.1, fun error holds => fails.2.1 error (weaker error holds), fails.2.2⟩
  | _ => exact fails

theorem World.Unwinds.weaken {stack : List (Frame σ ν)} (unwinds : world.Unwinds Q stack R)
    (weaker : ∀ error, P error → Q error) : world.Unwinds P stack R := by
  cases stack with
  | nil => exact fun error holds => unwinds error (weaker error holds)
  | cons frame stack =>
      obtain ⟨S, fails, unwinds⟩ := unwinds
      exact ⟨S, fails.weaken weaker, unwinds⟩

theorem World.Unwinds.append {frames stack : List (Frame σ ν)}
    (first : world.Unwinds P frames Q) (second : world.Unwinds Q stack R) :
    world.Unwinds P (frames ++ stack) R := by
  induction frames generalizing P with
  | nil => exact second.weaken first
  | cons frame frames ih =>
      obtain ⟨S, fails, first⟩ := first
      exact ⟨S, fails, ih first⟩

/-! ## Every move keeps a promise -/

namespace Move.Fails

theorem of_task {work : Task σ ν} (fails : work.Fails world P) :
    Move.Fails P { world, control := .task work } :=
  ⟨P, fails, fun _ => id⟩

theorem of_code {code : Code σ ν} (all : ∀ error, P error) :
    Move.Fails P { world, control := .code code } :=
  ⟨P, all, fun _ => id⟩

theorem of_push {work : Task σ ν} {frame : Frame σ ν} (inner : work.Fails world Q)
    (fails : frame.Fails world Q P) :
    Move.Fails P { world, control := .task work, frames := [frame] } :=
  ⟨Q, inner, P, fails, fun _ => id⟩

theorem of_run {code : Code σ ν} {frame : Frame σ ν}
    (fails : frame.Fails world (fun _ => True) P) :
    Move.Fails P { world, control := .code code, frames := [frame] } :=
  ⟨_, fun _ => trivial, P, fails, fun _ => id⟩

end Move.Fails

def Move.Loose (move : Move σ ν) : Prop :=
  move.control.Fails move.world (fun _ => True) ∧
    ∀ frame ∈ move.frames, frame.Fails move.world (fun _ => True) fun _ => True

theorem World.Unwinds.of_loose {frames : List (Frame σ ν)} (all : ∀ error, P error)
    (loose : ∀ frame ∈ frames, frame.Fails world (fun _ => True) fun _ => True) :
    world.Unwinds (fun _ => True) frames P := by
  induction frames with
  | nil => exact fun error _ => all error
  | cons frame frames ih =>
      exact ⟨_, loose frame (.head _), ih fun other member => loose other (.tail _ member)⟩

theorem Move.Loose.fails {move : Move σ ν} (loose : move.Loose) (all : ∀ error, P error) :
    move.Fails P :=
  ⟨_, loose.1, .of_loose all loose.2⟩

theorem Exit.Fails.returned {reply : Reply} (fine : reply.error? = none) :
    (Exit.returned reply).Fails P := by
  intro error failed
  rw [Exit.error?, fine] at failed
  contradiction

theorem Exit.Fails.of_other {exit : Exit}
    (other : ∀ error, exit = .returned (.failed error) → False) : exit.Fails P := by
  intro error failed
  cases exit with
  | panicked payload => contradiction
  | returned reply =>
      cases reply <;> try contradiction
      exact (other _ rfl).elim

theorem Exit.Fails.failed {error : Error} (shaped : P error) :
    (Exit.returned (.failed error)).Fails P := by
  intro other failed
  obtain rfl := Option.some.inj failed
  exact shaped

@[simp] theorem Droppable.fails_true (droppable : Droppable σ ν) : droppable.Fails fun _ => True := by
  cases droppable <;> simp [Fails]

@[simp] theorem Selection.fails_true (selection : Selection σ ν) : selection.Fails fun _ => True := by
  cases selection <;> simp [Fails]

@[simp] theorem Exit.fails_true (exit : Exit) : exit.Fails fun _ => True :=
  fun _ _ => trivial

@[simp] theorem Move.loose_finish (world : World σ ν) (exit : Exit) :
    Loose { world, control := .task (.finish exit) } :=
  ⟨exit.fails_true, List.forall_mem_nil _⟩

@[simp] theorem Move.loose_letGo (world : World σ ν) (handles : List Handle) (exit : Exit) :
    Loose { world, control := .task (.letGo handles exit) } :=
  ⟨exit.fails_true, List.forall_mem_nil _⟩

theorem Call.start_loose (world : World σ ν) (call : Call σ ν) :
    Ensures (call.start world) Move.Loose := by
  cases call <;> simp only [start]
  case access =>
    split
    · unfold Accessor.frame
      split <;> simp [Move.Loose, Control.Fails, Task.Fails, Frame.Fails]
    · simp
  case dropAccessed | dispose =>
    split
    · simp [Move.Loose, Control.Fails, Task.Fails, Frame.Fails]
    · simp
  case forgetAccessor | forgetParcel => split <;> simp
  case dropThrough | releaseGuard | disarmGuard | forgetGuard =>
    simp only [Ensures.whenConsumable_iff, Ensures.ite_iff, Guard.close]
    split <;> simp [Move.Loose, Control.Fails, Task.Fails, Frame.Fails]
  case deferring => simp [Move.Loose, Control.Fails, Frame.Fails, World.addScope]
  case copySlot | getValue | withValue | dropSlot | runAll | select | loadConfig =>
    simp [Move.Loose, Control.Fails, Task.Fails, Frame.Fails]
  case matchKind => split <;> simp [Move.Loose, Control.Fails, Task.Fails, Frame.Fails]
  all_goals simp

theorem Call.start_fails {call : Call σ ν} (fails : call.Fails world P) :
    Ensures (call.start world) (Move.Fails P) := by
  have missing : Move.Fails P { world, control := .task (.finish (.returned .missing)) } :=
    .of_task (.returned rfl)
  have loose (all : ∀ error, P error) : Ensures (call.start world) (Move.Fails P) :=
    (call.start_loose world).imp fun move fine => fine.fails all
  cases call with
  | getValue s =>
      simp only [start, Ensures.operate_iff]
      exact ⟨fun _ => ⟨_, fails, _, fun _ => id, _, fun _ => id, fun _ => id⟩, fun _ => missing⟩
  | withValue s use =>
      simp only [start, Ensures.operate_iff]
      exact ⟨fun _ => ⟨_, fails, _, fun _ => id, _, fun _ => id, _, fun _ => id, fun _ => id⟩,
        fun _ => missing⟩
  | dropSlot s =>
      simp only [start, Ensures.operate_iff]
      exact ⟨fun _ => ⟨_, fails, _, fun _ => id, fun _ => id⟩, fun _ => missing⟩
  | dropAccessed a =>
      simp only [start]
      split
      · rw [Ensures.borrow_iff]
        exact ⟨_, fails, _, fun _ => id, fun _ => id⟩
      · rw [Ensures.answer_iff]
        exact missing
  | runAll sc =>
      have retained : world.Writes (world.retainAll [.scope sc]) := .retainAll .refl _
      simp only [start, Ensures.operate_iff]
      exact ⟨fun _ => ⟨P, fun error shaped => fails error (retained.governs.of_ofTeardown shaped), P,
        fun _ => id, fun _ => id⟩, fun _ => missing⟩
  | _ => exact loose fails

theorem Task.step_fails (world : World σ ν) (id : ThreadId) {task : Task σ ν}
    (fails : task.Fails world P) : Ensures (task.step world id) (Move.Fails P) := by
  cases task with
  | finish exit => simp [step]
  | start call => exact Call.start_fails fails
  | letGo handles exit =>
      exact .letGo (fun _ => .of_task fails) (fun _ _ _ _ => .of_task fails)
        (fun _ _ _ _ => .of_task fails)
        fun _ _ _ => .of_push (Q := fun _ => True) (fun _ _ => trivial) fails
  | look s | lookAgain s =>
      simp only [step, Ensures.whenFree_iff]
      intro _
      split
      · simp only [Ensures.go_iff, Ensures.answer_iff]
        exact .of_task (Exit.Fails.returned rfl)
      · exact (Ensures.go_iff ..).mpr (.of_task fails)
  | enter s =>
      simp only [step, Ensures.bind_iff, Ensures.ite_iff, Ensures.go_iff]
      exact fun _ _ => ⟨fun _ => .of_task (Exit.Fails.failed (fails _ .reentrant)),
        fun _ => .of_task fails⟩
  | produce s =>
      simp only [step, Ensures.ite_iff, Ensures.go_iff, Ensures.run_iff]
      exact ⟨fun _ => .of_task (Exit.Fails.failed (fails _ .dropped)), fun _ => .of_run fails⟩
  | lockValue s value =>
      simp only [step, Ensures.whenFree_iff, Ensures.go_iff]
      exact fun _ => .of_task fails
  | confirm s value =>
      simp only [step, Ensures.ite_iff, Ensures.go_iff]
      exact ⟨fun _ => .of_task fails, fun _ => .of_task fails⟩
  | store s value => exact (Ensures.go_iff ..).mpr (.of_task (Exit.Fails.returned rfl))
  | unlockValue s next =>
      have governs : world.Governs (world.unlock (.value s)) := .of_scopes rfl
      have fails : next.Fails world P := fails
      exact (Ensures.go_iff ..).mpr (.of_task (fails.mono governs))
  | leave s next =>
      have governs : world.Governs (world.leaveSlot s) := .of_scopes rfl
      have fails : next.Fails world P := fails
      exact (Ensures.go_iff ..).mpr (.of_task (fails.mono governs))
  | releaseLate s value => exact (Ensures.run_iff ..).mpr (.of_run fails)
  | consult selection error =>
      simp only [step, Ensures.whenFree_iff, Ensures.go_iff]
      exact fun _ => .of_task fails
  | sift selection error rest places =>
      cases rest <;> simp only [step, Ensures.proceed_iff, Ensures.ask_iff]
      · refine ⟨?_, ?_, fun _ _ => .of_task (.returned rfl)⟩
        · rintro s rfl
          exact .of_task fails
        · rintro s links rfl
          exact .of_task ⟨⟨[], rfl⟩, fails⟩
      · exact ⟨fun _ => .of_task fails, fun _ => .of_task fails, fun _ _ => .of_run fails⟩
  | links s error rest callbacks failures =>
      cases rest with
      | nil =>
          obtain ⟨⟨links, rfl⟩, fails⟩ := fails
          exact (Ensures.go_iff ..).mpr (.of_task ⟨⟨links, [], by simp⟩, fails⟩)
      | cons entry rest =>
          exact (Ensures.push_iff ..).mpr (.of_push entry.2.fails_true fails)
  | handlers s error rest failures =>
      cases rest with
      | nil =>
          obtain ⟨⟨links, handlers, rfl⟩, fails⟩ := fails
          exact (Ensures.answer_iff ..).mpr
            (.of_task (.failed (fails _ (.initialization error links handlers))))
      | cons entry rest => exact (Ensures.run_iff ..).mpr (.of_run fails)
  | swap s =>
      simp only [step, Ensures.ite_iff, Ensures.endDrop_iff, Ensures.go_iff]
      exact ⟨fun _ => .of_task (.returned rfl), fun _ => .of_task fails⟩
  | take s =>
      simp only [step, Ensures.whenFree_iff]
      intro _
      split
      · exact (Ensures.run_iff ..).mpr (.of_run fails)
      · exact (Ensures.endDrop_iff ..).mpr (.of_task (.returned rfl))
  | dispose droppable =>
      cases droppable with
      | action code => exact (Ensures.run_iff ..).mpr (.of_code fails)
      | slot s => exact (Ensures.go_iff ..).mpr (.of_task fails)
      | owner slots => exact (Ensures.go_iff ..).mpr (.of_task fails)
      | scopeOwner => exact (Ensures.answer_iff ..).mpr (.of_task (.returned rfl))
  | disposeAll rest failures =>
      cases rest with
      | nil =>
          refine (Ensures.answer_iff ..).mpr (.of_task fun error failed => ?_)
          exact fails error (Droppable.ofOwner_result failed)
      | cons slot rest => exact (Ensures.push_iff ..).mpr (.of_push slot.fails_true fails)
  | copy s cloner =>
      simp only [step, Ensures.whenFree_iff]
      intro _
      split <;> exact (Ensures.go_iff ..).mpr (.of_task trivial)
  | copyValue s made cloner =>
      simp only [step, Ensures.whenFree_iff]
      intro _
      split
      · exact (Ensures.run_iff ..).mpr (.of_run trivial)
      · exact (Ensures.go_iff ..).mpr (.of_task trivial)
  | deliver made => exact (Ensures.answer_iff ..).mpr (.of_task (.returned rfl))
  | drain sc ran failures =>
      have governs : world.Governs (world.takePending sc).1 := .updateScope world sc fun _ => rfl
      simp only [step]
      split <;>
        exact (Ensures.go_iff ..).mpr
          (.of_task fun error shaped => fails error (governs.of_ofTeardown shaped))
  | batch sc rest ran failures =>
      cases rest with
      | nil => exact (Ensures.go_iff ..).mpr (.of_task fails)
      | cons action rest =>
          simp only [step]
          split
          · exact (Ensures.run_iff ..).mpr (.of_run fails)
          · refine (Ensures.push_iff ..).mpr ⟨fun _ => True, ?_, fun _ => True, ?_, P, fails, ?_⟩
            · exact fun _ _ => trivial
            · exact fun _ _ => trivial
            · exact fun _ holds => holds
  | report sc ran failures =>
      refine (Ensures.answer_iff ..).mpr (.of_task fun error failed => fails error fun _ => ?_)
      exact TeardownPolicy.ofTeardown_result _ failed

theorem Code.step_fails (world : World σ ν) (id : ThreadId) (code : Code σ ν)
    (all : ∀ error, P error) : Ensures (code.step world id) (Move.Fails P) := by
  cases code with
  | ret reply => exact (Ensures.answer_iff ..).mpr (.of_task fun error _ => all error)
  | panic payload => exact (Ensures.go_iff ..).mpr (.of_task nofun)
  | load | store | note => exact (Ensures.run_iff ..).mpr (.of_code all)
  | attempt body continuation => exact (Ensures.run_iff ..).mpr (.of_run all)
  | elsewhere body continuation =>
      exact (Ensures.some_iff _).mpr ⟨_, fun _ => trivial, P, all, fun _ holds => holds⟩
  | call request continuation =>
      refine (Ensures.push_iff ..).mpr (.of_push (Q := fun _ => True) ?_ all)
      cases request <;> simp [Task.Fails, Call.Fails]

theorem Frame.resume_fails {exit : Exit} {frame : Frame σ ν} (fails : frame.Fails world P Q)
    (ended : exit.Fails P) : Ensures (frame.resume world exit) (Move.Fails Q) := by
  have panics (payload : Payload) : (Exit.panicked payload).Fails Q := nofun
  cases frame with
  | calling continuation =>
      cases exit with
      | panicked payload => exact (Ensures.go_iff ..).mpr (.of_task (panics payload))
      | returned reply => exact (Ensures.run_iff ..).mpr (.of_code fails)
  | attempted continuation => exact (Ensures.run_iff ..).mpr (.of_code fails)
  | joined starter continuation =>
      exact (Ensures.some_iff _).mpr ⟨Q, fails, fun _ holds => holds⟩
  | holding handles | looking s | through g =>
      exact (Ensures.go_iff ..).mpr (.of_task fun error failed => fails error (ended error failed))
  | initializing s =>
      simp only [resume, Ensures.initializerEnded_iff]
      refine ⟨?_, fun _ _ => ⟨fun _ _ => .of_task fails, fun _ => .of_task fails⟩⟩
      rintro payload rfl
      exact .of_task (panics payload)
  | releasingLate s value =>
      cases exit with
      | panicked payload => exact (Ensures.go_iff ..).mpr (.of_task (panics payload))
      | returned reply => exact (Ensures.answer_iff ..).mpr (.of_task (.failed (fails _ .dropped)))
  | judging selection error place rest places =>
      cases exit with
      | panicked payload => exact (Ensures.go_iff ..).mpr (.of_task (panics payload))
      | returned reply => exact (Ensures.go_iff ..).mpr (.of_task fails)
  | linking s error rest callbacks failures =>
      cases exit with
      | panicked payload => exact (Ensures.go_iff ..).mpr (.of_task (panics payload))
      | returned reply =>
          obtain ⟨⟨links, rfl⟩, fails⟩ := fails
          simp only [resume]
          split
          · exact (Ensures.go_iff ..).mpr (.of_task ⟨⟨links, rfl⟩, fails⟩)
          · next failure _ =>
              exact (Ensures.go_iff ..).mpr (.of_task ⟨⟨links ++ [failure], by simp⟩, fails⟩)
  | handling s error rest failures =>
      cases exit with
      | panicked payload => exact (Ensures.go_iff ..).mpr (.of_task (panics payload))
      | returned reply =>
          obtain ⟨⟨links, handlers, rfl⟩, fails⟩ := fails
          simp only [resume]
          split
          · exact (Ensures.go_iff ..).mpr (.of_task ⟨⟨links, handlers, rfl⟩, fails⟩)
          · next failure _ =>
              refine (Ensures.go_iff ..).mpr (.of_task ⟨⟨links, handlers ++ [failure], ?_⟩, fails⟩)
              simp
  | releasing s value =>
      refine (Ensures.endDrop_iff ..).mpr (.of_task fun error failed => ?_)
      exact fails error (Exit.ofDrop_ofRelease failed)
  | owning rest failures =>
      cases exit with
      | panicked payload => exact (Ensures.go_iff ..).mpr (.of_task (panics payload))
      | returned reply => exact (Ensures.go_iff ..).mpr (.of_task fails)
  | cloning copy =>
      cases exit with
      | panicked payload => exact (Ensures.go_iff ..).mpr (.of_task (panics payload))
      | returned reply => exact (Ensures.go_iff ..).mpr (.of_task trivial)
  | getting use =>
      simp only [resume]
      split
      · exact (Ensures.run_iff ..).mpr (.of_run trivial)
      · exact (Ensures.go_iff ..).mpr (.of_task fun error failed => fails error (ended error failed))
  | expiring g =>
      have passed : exit.Fails Q := fun error failed => fails error (ended error failed)
      refine (Ensures.close_iff ..).mpr ⟨fun disposed _ => ?_, fun _ => .of_task passed⟩
      exact ⟨fun _ => True, disposed.fails_true, Q, passed, Q, fun _ => id, fun _ => id⟩
  | guarding g outcome =>
      cases exit with
      | panicked payload => exact (Ensures.go_iff ..).mpr (.of_task (panics payload))
      | returned reply => exact (Ensures.go_iff ..).mpr (.of_task fails)
  | «using» value | fallingBack s | matched =>
      cases exit with
      | panicked payload => exact (Ensures.go_iff ..).mpr (.of_task (panics payload))
      | returned reply => exact (Ensures.answer_iff ..).mpr (.of_task (.returned rfl))
  | reading announced =>
      cases exit with
      | panicked payload => exact (Ensures.go_iff ..).mpr (.of_task (panics payload))
      | returned reply => exact Ensures.configRead fun _ _ _ => .of_task (.returned rfl)
  | orNone s =>
      simp only [resume]
      split
      · exact (Ensures.answer_iff ..).mpr (.of_task (.returned rfl))
      · next other => exact (Ensures.go_iff ..).mpr (.of_task (.of_other other))
  | orElse s fallback =>
      simp only [resume]
      split
      · exact (Ensures.run_iff ..).mpr (.of_run trivial)
      · exact (Ensures.answer_iff ..).mpr (.of_task (.returned rfl))
      · next other _ => exact (Ensures.go_iff ..).mpr (.of_task (.of_other other))
  | tearing sc rest ran failures => exact (Ensures.go_iff ..).mpr (.of_task fails)
  | vanishing sc rest outcome =>
      cases exit with
      | panicked payload => exact (Ensures.go_iff ..).mpr (.of_task (panics payload))
      | returned reply => exact (Ensures.go_iff ..).mpr (.of_task fails)
  | body sc =>
      have closes : (Frame.closing sc exit : Frame σ ν).Fails world (world.OfTeardown sc) Q :=
        ⟨fails.1, fun _ shaped => shaped fails.1, fun error _ => fails.2 error⟩
      exact (Ensures.push_iff ..).mpr (.of_push (fun _ shaped => shaped) closes)
  | closing sc outcome =>
      obtain ⟨-, told, all⟩ := fails
      cases exit with
      | panicked payload => exact (Ensures.go_iff ..).mpr (.of_task (panics payload))
      | returned reply =>
          refine (Ensures.go_iff ..).mpr (.of_task fun error failed => all error ?_)
          exact Exit.ofDeferring_afterTeardown (fun error failed => told error (ended error failed)) failed

theorem Thread.Fails.step {thread after : Thread σ ν} (fails : thread.Fails world P)
    (action : thread.step world = some (next, after)) : after.Fails next P := by
  have governs := step_governs action
  refine step_rule (fun thread next after => world.Governs next → thread.Fails world P →
    after.Fails next P) ?_ ?_ ?_ action governs fails
  · intro id code stack move made governs fails
    obtain ⟨Q, all, unwinds⟩ := fails
    obtain ⟨R, control, frames⟩ := code.step_fails world id all move made
    exact ⟨R, control, frames.append (unwinds.mono governs)⟩
  · intro id work stack move made governs fails
    obtain ⟨Q, promised, unwinds⟩ := fails
    obtain ⟨R, control, frames⟩ := work.step_fails world id promised move made
    exact ⟨R, control, frames.append (unwinds.mono governs)⟩
  · intro id exit frame stack move made governs fails
    obtain ⟨Q, ended, S, promised, unwinds⟩ := fails
    obtain ⟨R, control, frames⟩ := Frame.resume_fails promised ended move made
    exact ⟨R, control, frames.append (unwinds.mono governs)⟩

theorem Thread.Reaches.fails {thread after : Thread σ ν} (run : Reaches world thread next after)
    (fails : thread.Fails world P) : after.Fails next P :=
  run.rule (fun world thread => thread.Fails world P)
    (fun _ _ _ _ fails action => fails.step action) fails

theorem Ends.fails {id : ThreadId} {control : Control σ ν} {exit : Exit}
    (run : Ends id world control exit next) (fails : control.Fails world P) : exit.Fails P := by
  have start : Thread.Fails world P ⟨id, control, []⟩ := ⟨P, fails, fun _ holds => holds⟩
  obtain ⟨Q, ended, all⟩ := Thread.Reaches.fails run start
  exact fun error failed => all error (ended error failed)

end

end Relinquish
