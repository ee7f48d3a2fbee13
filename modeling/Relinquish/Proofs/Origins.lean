import Relinquish.Proofs.Deferring
import Relinquish.Proofs.Refusals
import Relinquish.Proofs.Shapes

/-!
Where errors come from. Whatever error is in sight of a thread, also as a part of another one, has
been made by the library in the shape that the place asks for, or user code has brought it in.
-/

namespace Relinquish

variable {σ ν : Type}

/-! ## The parts of an error -/

def Error.parts : Error → List Error
  | text _ | config _ => []
  | custom _ _ _ source => source.toList
  | teardown (.mk failures interrupted) => failures ++ interrupted.toList
  | drop (.initialization cause failures) => cause :: failures.map .drop
  | drop (.drop source) | drop (.dropChain source) | drop (.handler source) => [source]
  | drop (.teardown report) => [.teardown report]
  | drop .dropped | drop .reentrant | drop (.panicked _) => []

/-- An error is another one or, at any depth, a part of it. -/
inductive Error.Within (error : Error) : Error → Prop
  | self : Within error error
  | part {part whole : Error} (member : part ∈ whole.parts) (within : Within error part) :
      Within error whole

theorem Error.Within.trans {error part whole : Error} (first : error.Within part)
    (second : part.Within whole) : error.Within whole := by
  induction second with
  | self => exact first
  | part member _ ih => exact .part member ih

/-! ## The errors in sight of a thread -/

def Reply.errors : Reply → List Error
  | failed error => [error]
  | applied _ reply => reply.errors
  | _ => []

def Exit.errors : Exit → List Error
  | returned reply => reply.errors
  | panicked _ => []

def Call.errors : Call σ ν → List Error
  | select _ error | matchKind _ error => [error]
  | _ => []

def Task.errors : Task σ ν → List Error
  | finish exit | letGo _ exit => exit.errors
  | start call => call.errors
  | unlockValue _ next | leave _ next => next.errors
  | consult _ error | sift _ error _ _ => [error]
  | links _ error _ _ failures | handlers _ error _ failures => error :: failures.map .drop
  | disposeAll _ failures | drain _ _ failures | batch _ _ _ failures | report _ _ failures =>
      failures
  | _ => []

def Frame.errors : Frame σ ν → List Error
  | judging _ error _ _ _ => [error]
  | linking _ error _ _ failures | handling _ error _ failures => error :: failures.map .drop
  | owning _ failures | tearing _ _ _ failures => failures
  | vanishing _ _ exit | closing _ exit | guarding _ exit => exit.errors
  | _ => []

def Control.errors : Control σ ν → List Error
  | code _ => []
  | task work => work.errors

def Thread.errors (thread : Thread σ ν) : List Error :=
  thread.control.errors ++ thread.stack.flatMap Frame.errors

def Thread.Shows (thread : Thread σ ν) (error : Error) : Prop :=
  ∃ whole ∈ thread.errors, error.Within whole

/-- The errors with which code ends or which it gives to a call. -/
def Code.offers : Code σ ν → List Error
  | ret reply => reply.errors
  | call request _ => request.errors
  | _ => []

def Thread.Offers (thread : Thread σ ν) (error : Error) : Prop :=
  ∃ code whole, thread.control = .code code ∧ whole ∈ code.offers ∧ error.Within whole

/-! ## The errors that the library makes -/

/-- The next step of the task makes the error. -/
inductive Task.Makes (world : World σ ν) : Task σ ν → Error → Prop
  | reentrant (s : SlotId) : Makes world (.enter s) (.drop .reentrant)
  | dropped (s : SlotId) : Makes world (.produce s) (.drop .dropped)
  | initialization (s : SlotId) (cause : Error) (links handlers : List Error) :
      Makes world (.handlers s cause [] (links.map .dropChain ++ handlers.map .handler))
        (.drop (.initialization cause (links.map .dropChain ++ handlers.map .handler)))
  | owner {failures : List Error} (some : failures ≠ []) :
      Makes world (.disposeAll [] failures) (.drop (.teardown (.mk failures none)))
  | ownerReport {failures : List Error} (some : failures ≠ []) :
      Makes world (.disposeAll [] failures) (.teardown (.mk failures none))
  | teardown {sc : ScopeId} {ran : Nat} {failures reported : List Error}
      (reports : (world.scope sc).policy.Reports reported) (known : reported ⊆ failures) :
      Makes world (.report sc ran failures) (.teardown (.mk reported none))

/-- The frame makes the error when it is told how what is above it has ended. -/
inductive Frame.Makes (world : World σ ν) : Exit → Frame σ ν → Error → Prop
  | late (exit : Exit) (s : SlotId) (value : Value) :
      Makes world exit (.releasingLate s value) (.drop .dropped)
  | dropChain {s : SlotId} {cause : Error} {rest : List (Nat × Droppable σ ν)}
      {handlers : List (Nat × (Error → Code σ ν))} {failures : List DropError} (error : Error) :
      Makes world (.returned (.failed error)) (.linking s cause rest handlers failures)
        (.drop (.dropChain error))
  | handler {s : SlotId} {cause : Error} {rest : List (Nat × (Error → Code σ ν))}
      {failures : List DropError} (error : Error) :
      Makes world (.returned (.failed error)) (.handling s cause rest failures)
        (.drop (.handler error))
  | drop {s : SlotId} {value : Value} (error : Error) :
      Makes world (.returned (.failed error)) (.releasing s value) (.drop (.drop error))
  | panicked {sc : ScopeId} {rest : List (Action σ ν)} {ran : Nat} {failures : List Error}
      (payload : Payload) :
      Makes world (.panicked payload) (.tearing sc rest ran failures) (.drop (.ofPanic payload))
  | deferring {sc : ScopeId} {outcome : Exit} {failures : List Error}
      (reports : (world.scope sc).policy.Reports failures) :
      Makes world (.returned (.failed (.teardown (.mk failures none)))) (.closing sc outcome)
        (.drop (.teardown (.mk failures outcome.error?)))
  | interrupted {sc : ScopeId} {outcome : Exit} {failures : List Error} {body : Error}
      (reports : (world.scope sc).policy.Reports failures) (ended : outcome.error? = some body) :
      Makes world (.returned (.failed (.teardown (.mk failures none)))) (.closing sc outcome)
        (.teardown (.mk failures (some body)))

inductive Thread.Makes (world : World σ ν) : Thread σ ν → Error → Prop
  | task {id : ThreadId} {work : Task σ ν} {stack : List (Frame σ ν)} {error : Error}
      (makes : work.Makes world error) : Makes world ⟨id, .task work, stack⟩ error
  | frame {id : ThreadId} {exit : Exit} {frame : Frame σ ν} {stack : List (Frame σ ν)}
      {error : Error} (makes : frame.Makes world exit error) :
      Makes world ⟨id, .task (.finish exit), frame :: stack⟩ error

/-! ## Every step -/

def Move.Bears (source : Error → Prop) (move : Move σ ν) : Prop :=
  (∀ error ∈ move.control.errors, source error) ∧
    ∀ frame ∈ move.frames, ∀ error ∈ frame.errors, source error

section
variable {source : Error → Prop} {world next : World σ ν} {P Q : Error → Prop}

theorem Reply.mem_errors {reply : Reply} {error : Error} (failed : reply.error? = some error) :
    error ∈ reply.errors := by
  cases reply <;> simp_all [Reply.error?, Reply.errors]

theorem Move.Bears.of_task {work : Task σ ν} (bears : ∀ error ∈ work.errors, source error) :
    Move.Bears source { world, control := .task work } :=
  ⟨bears, List.forall_mem_nil _⟩

theorem Move.Bears.of_code (code : Code σ ν) : Move.Bears source { world, control := .code code } :=
  ⟨List.forall_mem_nil _, List.forall_mem_nil _⟩

theorem Move.Bears.of_run {code : Code σ ν} {frame : Frame σ ν}
    (bears : ∀ error ∈ frame.errors, source error) :
    Move.Bears source { world, control := .code code, frames := [frame] } :=
  ⟨List.forall_mem_nil _, List.forall_mem_singleton.mpr bears⟩

theorem Move.Bears.of_push {work : Task σ ν} {frame : Frame σ ν}
    (inner : ∀ error ∈ work.errors, source error) (bears : ∀ error ∈ frame.errors, source error) :
    Move.Bears source { world, control := .task work, frames := [frame] } :=
  ⟨inner, List.forall_mem_singleton.mpr bears⟩

@[simp] theorem Move.bears_letGo (world : World σ ν) (handles : List Handle) :
    Move.Bears source { world, control := .task (.letGo handles (.returned .done)) } :=
  .of_task (List.forall_mem_nil _)

@[simp] theorem Move.bears_answer_iff (world : World σ ν) (reply : Reply) :
    Move.Bears source { world, control := .task (.finish (.returned reply)) } ↔
      ∀ error ∈ reply.errors, source error := by
  constructor
  · intro bears
    exact bears.1
  · intro bears
    apply Move.Bears.of_task
    exact bears

theorem Call.start_bears (world : World σ ν) (call : Call σ ν)
    (kept : ∀ error ∈ call.errors, source error) :
    Ensures (call.start world) (Move.Bears source) := by
  cases call <;> simp only [start]
  case access =>
    split
    · unfold Accessor.frame
      split <;> simp [Move.Bears, Control.errors, Task.errors, Frame.errors]
    · simp [Reply.errors]
  case dropAccessed | dispose =>
    split
    · simp [Move.Bears, Control.errors, Task.errors, Frame.errors]
    · simp [Reply.errors]
  case forgetAccessor | forgetParcel => split <;> simp [Reply.errors]
  case dropThrough | releaseGuard | disarmGuard | forgetGuard =>
    simp only [Ensures.whenConsumable_iff, Ensures.ite_iff, Guard.close]
    split <;>
      simp [Move.Bears, Control.errors, Task.errors, Frame.errors, Exit.errors, Reply.errors,
        Guard.emptied]
  case copySlot | getValue | withValue | dropSlot | runAll | loadConfig | deferring =>
    simp [Move.Bears, Control.errors, Task.errors, Frame.errors, Exit.errors, Reply.errors]
  case select r error =>
    simp only [Ensures.ite_iff, Ensures.go_iff, Ensures.answer_iff]
    exact ⟨fun _ => .of_task kept, fun _ => .of_task (List.forall_mem_nil _)⟩
  case matchKind =>
    split
    · simp [Reply.errors]
    · exact (Ensures.run_iff ..).mpr (.of_run (List.forall_mem_nil _))
  case peek s =>
    have read : (((world.slot s).value.map Reply.value).getD .nothing).errors = [] := by
      cases (world.slot s).value <;> rfl
    simp [read, Reply.errors]
  all_goals simp [Reply.errors]

theorem Task.step_bears (world : World σ ν) (id : ThreadId) {task : Task σ ν}
    (fails : task.Fails world P) (kept : ∀ error ∈ task.errors, source error)
    (made : ∀ error, task.Makes world error → source error) :
    Ensures (task.step world id) (Move.Bears source) := by
  have nothing : ∀ error ∈ ([] : List Error), source error := List.forall_mem_nil _
  cases task with
  | finish exit => simp [step]
  | start call => exact call.start_bears world kept
  | letGo handles exit =>
      exact .letGo (fun _ => .of_task kept) (fun _ _ _ _ => .of_task kept)
        (fun _ _ _ _ => .of_task kept) fun _ _ _ => .of_push nothing kept
  | look s | lookAgain s =>
      simp only [step, Ensures.whenFree_iff]
      intro _
      split <;> simp only [Ensures.go_iff, Ensures.answer_iff] <;> exact .of_task nothing
  | enter s =>
      simp only [step, Ensures.bind_iff, Ensures.ite_iff, Ensures.go_iff]
      refine fun _ _ => ⟨fun _ => .of_task ?_, fun _ => .of_task nothing⟩
      exact List.forall_mem_singleton.mpr (made _ (.reentrant s))
  | produce s =>
      simp only [step, Ensures.ite_iff, Ensures.go_iff, Ensures.run_iff]
      refine ⟨fun _ => .of_task ?_, fun _ => .of_run nothing⟩
      exact List.forall_mem_singleton.mpr (made _ (.dropped s))
  | lockValue s value =>
      simp only [step, Ensures.whenFree_iff, Ensures.go_iff]
      exact fun _ => .of_task nothing
  | confirm s value =>
      simp only [step, Ensures.ite_iff, Ensures.go_iff]
      exact ⟨fun _ => .of_task nothing, fun _ => .of_task nothing⟩
  | store s value => exact (Ensures.go_iff ..).mpr (.of_task nothing)
  | unlockValue s next | leave s next => exact (Ensures.go_iff ..).mpr (.of_task kept)
  | releaseLate s value => exact (Ensures.run_iff ..).mpr (.of_run nothing)
  | consult selection error =>
      simp only [step, Ensures.whenFree_iff, Ensures.go_iff]
      exact fun _ => .of_task kept
  | sift selection error rest places =>
      cases rest <;> simp only [step, Ensures.proceed_iff, Ensures.ask_iff]
      · exact ⟨fun _ _ => .of_task kept, fun _ _ _ => .of_task kept, fun _ _ => .of_task nothing⟩
      · exact ⟨fun _ => .of_task kept, fun _ => .of_task kept, fun _ _ => .of_run kept⟩
  | links s error rest callbacks failures =>
      cases rest with
      | nil => exact (Ensures.go_iff ..).mpr (.of_task kept)
      | cons entry rest => exact (Ensures.push_iff ..).mpr (.of_push nothing kept)
  | handlers s error rest failures =>
      cases rest with
      | nil =>
          obtain ⟨⟨links, handlers, rfl⟩, -⟩ := fails
          refine (Ensures.answer_iff ..).mpr (.of_task (List.forall_mem_singleton.mpr ?_))
          exact made _ (.initialization s error links handlers)
      | cons entry rest => exact (Ensures.run_iff ..).mpr (.of_run kept)
  | swap s =>
      simp only [step, Ensures.ite_iff, Ensures.endDrop_iff, Ensures.go_iff]
      exact ⟨fun _ => .of_task nothing, fun _ => .of_task nothing⟩
  | take s =>
      simp only [step, Ensures.whenFree_iff]
      intro _
      split
      · exact (Ensures.run_iff ..).mpr (.of_run nothing)
      · exact (Ensures.endDrop_iff ..).mpr (.of_task nothing)
  | dispose droppable =>
      cases droppable with
      | action code => exact (Ensures.run_iff ..).mpr (.of_code code)
      | slot s => exact (Ensures.go_iff ..).mpr (.of_task nothing)
      | owner slots => exact (Ensures.go_iff ..).mpr (.of_task nothing)
      | scopeOwner => exact (Ensures.answer_iff ..).mpr (.of_task nothing)
  | disposeAll rest failures =>
      cases rest with
      | nil =>
          refine (Ensures.answer_iff ..).mpr (.of_task ?_)
          cases failures with
          | nil => exact nothing
          | cons first others =>
              have owner := made _ (.owner (List.cons_ne_nil first others))
              exact List.forall_mem_singleton.mpr owner
      | cons slot rest => exact (Ensures.push_iff ..).mpr (.of_push nothing kept)
  | copy s cloner =>
      simp only [step, Ensures.whenFree_iff]
      intro _
      split <;> exact (Ensures.go_iff ..).mpr (.of_task nothing)
  | copyValue s made cloner =>
      simp only [step, Ensures.whenFree_iff]
      intro _
      split
      · exact (Ensures.run_iff ..).mpr (.of_run nothing)
      · exact (Ensures.go_iff ..).mpr (.of_task nothing)
  | deliver made => exact (Ensures.answer_iff ..).mpr (.of_task nothing)
  | drain sc ran failures =>
      simp only [step]
      split <;> exact (Ensures.go_iff ..).mpr (.of_task kept)
  | batch sc rest ran failures =>
      cases rest with
      | nil => exact (Ensures.go_iff ..).mpr (.of_task kept)
      | cons action rest =>
          simp only [step]
          split
          · exact (Ensures.run_iff ..).mpr (.of_run kept)
          · refine (Ensures.push_iff ..).mpr ⟨nothing, List.forall_mem_cons.mpr ⟨nothing, ?_⟩⟩
            exact List.forall_mem_singleton.mpr kept
  | report sc ran failures =>
      refine (Ensures.answer_iff ..).mpr (.of_task ?_)
      cases failures with
      | nil => exact nothing
      | cons first others =>
          obtain ⟨reported, reports, known, result⟩ :=
            (world.scope sc).policy.result_of_failures (List.cons_ne_nil first others)
          rw [result]
          exact List.forall_mem_singleton.mpr (made _ (.teardown reports known))

theorem Exit.errors_ofRelease {exit : Exit} {s : SlotId} {value : Value}
    (made : ∀ error, Frame.Makes world exit (.releasing s value) error → source error) :
    ∀ error ∈ exit.ofRelease.errors, source error := by
  cases exit with
  | panicked payload => exact List.forall_mem_nil _
  | returned reply =>
      cases reply with
      | failed error => exact List.forall_mem_singleton.mpr (made _ (.drop error))
      | _ => exact List.forall_mem_nil _

theorem Exit.errors_afterTeardown {outcome : Exit} {reply : Reply} {sc : ScopeId}
    (told : ∀ error, reply.error? = some error → error.OfTeardown (world.scope sc).policy)
    (kept : ∀ error ∈ outcome.errors, source error)
    (made : ∀ error, Frame.Makes world (.returned reply) (.closing sc outcome) error → source error) :
    ∀ error ∈ (outcome.afterTeardown reply.teardown?).errors, source error := by
  rcases outcome.afterTeardown_of_told told with same | ⟨failures, reports, rfl, torn⟩
  · rw [same]
    exact kept
  · rw [torn]
    exact List.forall_mem_singleton.mpr (made _ (.deferring reports))

theorem Frame.resume_bears {exit : Exit} {frame : Frame σ ν} (fails : frame.Fails world P Q)
    (shaped : exit.Fails P) (ended : ∀ error ∈ exit.errors, source error)
    (kept : ∀ error ∈ frame.errors, source error)
    (made : ∀ error, frame.Makes world exit error → source error) :
    Ensures (frame.resume world exit) (Move.Bears source) := by
  have nothing : ∀ error ∈ ([] : List Error), source error := List.forall_mem_nil _
  cases frame with
  | calling continuation =>
      cases exit with
      | panicked payload => exact (Ensures.go_iff ..).mpr (.of_task nothing)
      | returned reply => exact (Ensures.run_iff ..).mpr (.of_code _)
  | attempted continuation => exact (Ensures.run_iff ..).mpr (.of_code _)
  | joined starter continuation => exact (Ensures.some_iff _).mpr ⟨nothing, List.forall_mem_nil _⟩
  | holding handles | looking s | through g => exact (Ensures.go_iff ..).mpr (.of_task ended)
  | initializing s =>
      simp only [resume, Ensures.initializerEnded_iff]
      refine ⟨?_, ?_⟩
      · rintro payload rfl
        exact .of_task nothing
      · rintro reply rfl
        refine ⟨fun error failed => .of_task (List.forall_mem_singleton.mpr ?_),
          fun _ => .of_task nothing⟩
        exact ended _ (Reply.mem_errors failed)
  | releasingLate s value =>
      cases exit with
      | panicked payload => exact (Ensures.go_iff ..).mpr (.of_task nothing)
      | returned reply =>
          refine (Ensures.answer_iff ..).mpr (.of_task (List.forall_mem_singleton.mpr ?_))
          exact made _ (.late _ s value)
  | judging selection error place rest places =>
      cases exit with
      | panicked payload => exact (Ensures.go_iff ..).mpr (.of_task nothing)
      | returned reply => exact (Ensures.go_iff ..).mpr (.of_task kept)
  | linking s error rest callbacks failures =>
      cases exit with
      | panicked payload => exact (Ensures.go_iff ..).mpr (.of_task nothing)
      | returned reply =>
          cases reply with
          | failed failure =>
              have failed := made _ (.dropChain failure)
              refine (Ensures.go_iff ..).mpr (.of_task ?_)
              simpa [Task.errors, Frame.errors, or_imp, forall_and, failed] using kept
          | _ => exact (Ensures.go_iff ..).mpr (.of_task kept)
  | handling s error rest failures =>
      cases exit with
      | panicked payload => exact (Ensures.go_iff ..).mpr (.of_task nothing)
      | returned reply =>
          cases reply with
          | failed failure =>
              have failed := made _ (.handler failure)
              refine (Ensures.go_iff ..).mpr (.of_task ?_)
              simpa [Task.errors, Frame.errors, or_imp, forall_and, failed] using kept
          | _ => exact (Ensures.go_iff ..).mpr (.of_task kept)
  | releasing s value => exact (Ensures.endDrop_iff ..).mpr (.of_task (Exit.errors_ofRelease made))
  | owning rest failures =>
      cases exit with
      | panicked payload => exact (Ensures.go_iff ..).mpr (.of_task nothing)
      | returned reply =>
          refine (Ensures.go_iff ..).mpr (.of_task (List.forall_mem_append.mpr ⟨kept, ?_⟩))
          intro error member
          exact ended error (Reply.mem_errors (Option.mem_toList.mp member))
  | cloning copy =>
      cases exit with
      | panicked payload => exact (Ensures.go_iff ..).mpr (.of_task nothing)
      | returned reply => exact (Ensures.go_iff ..).mpr (.of_task nothing)
  | getting use =>
      simp only [resume]
      split
      · exact (Ensures.run_iff ..).mpr (.of_run nothing)
      · exact (Ensures.go_iff ..).mpr (.of_task ended)
  | «using» value =>
      cases exit with
      | panicked payload => exact (Ensures.go_iff ..).mpr (.of_task nothing)
      | returned reply => exact (Ensures.answer_iff ..).mpr (.of_task ended)
  | fallingBack s | matched =>
      cases exit with
      | panicked payload => exact (Ensures.go_iff ..).mpr (.of_task nothing)
      | returned reply => exact (Ensures.answer_iff ..).mpr (.of_task nothing)
  | expiring g =>
      simp only [resume, Ensures.close_iff]
      refine ⟨fun _ _ => ⟨nothing, List.forall_mem_cons.mpr ⟨ended, ?_⟩⟩, fun _ => .of_task ended⟩
      exact List.forall_mem_singleton.mpr nothing
  | reading announced =>
      cases exit with
      | panicked payload => exact (Ensures.go_iff ..).mpr (.of_task nothing)
      | returned reply => exact Ensures.configRead fun _ _ _ => .of_task nothing
  | orNone s =>
      simp only [resume]
      split
      · exact (Ensures.answer_iff ..).mpr (.of_task nothing)
      · exact (Ensures.go_iff ..).mpr (.of_task ended)
  | orElse s fallback =>
      simp only [resume]
      split
      · exact (Ensures.run_iff ..).mpr (.of_run nothing)
      · exact (Ensures.answer_iff ..).mpr (.of_task nothing)
      · exact (Ensures.go_iff ..).mpr (.of_task ended)
  | tearing sc rest ran failures =>
      refine (Ensures.go_iff ..).mpr (.of_task (List.forall_mem_append.mpr ⟨kept, ?_⟩))
      cases exit with
      | panicked payload => exact List.forall_mem_singleton.mpr (made _ (.panicked payload))
      | returned reply =>
          intro error member
          exact ended error (Reply.mem_errors (Option.mem_toList.mp member))
  | vanishing sc rest outcome | guarding g outcome =>
      cases exit with
      | panicked payload => exact (Ensures.go_iff ..).mpr (.of_task nothing)
      | returned reply => exact (Ensures.go_iff ..).mpr (.of_task kept)
  | body sc => exact (Ensures.push_iff ..).mpr (.of_push nothing ended)
  | closing sc outcome =>
      cases exit with
      | panicked payload => exact (Ensures.go_iff ..).mpr (.of_task nothing)
      | returned reply =>
          have told (error : Error) (failed : reply.error? = some error) :=
            fails.2.1 error (shaped error failed)
          exact (Ensures.go_iff ..).mpr (.of_task (Exit.errors_afterTeardown told kept made))

/-! ## Every run -/

theorem Code.step_bears (world : World σ ν) (id : ThreadId) (code : Code σ ν)
    (offered : ∀ error ∈ code.offers, source error) :
    Ensures (code.step world id) (Move.Bears source) := by
  have nothing : ∀ error ∈ ([] : List Error), source error := List.forall_mem_nil _
  cases code with
  | ret reply => exact (Ensures.answer_iff ..).mpr (.of_task offered)
  | panic payload => exact (Ensures.go_iff ..).mpr (.of_task nothing)
  | load | store | note => exact (Ensures.run_iff ..).mpr (.of_code _)
  | attempt body continuation => exact (Ensures.run_iff ..).mpr (.of_run nothing)
  | elsewhere body continuation =>
      exact (Ensures.some_iff _).mpr ⟨nothing, List.forall_mem_singleton.mpr nothing⟩
  | call request continuation => exact (Ensures.push_iff ..).mpr (.of_push offered nothing)

theorem Move.Bears.above {move : Move σ ν} {stack : List (Frame σ ν)} (bears : move.Bears source)
    (below : ∀ error ∈ stack.flatMap Frame.errors, source error) (id : ThreadId) :
    ∀ error ∈ Thread.errors ⟨id, move.control, move.frames ++ stack⟩, source error := by
  intro error member
  simp only [Thread.errors, List.flatMap_append, List.mem_append] at member
  rcases member with control | frames | stack
  · exact bears.1 error control
  · obtain ⟨frame, inside, member⟩ := List.mem_flatMap.mp frames
    exact bears.2 frame inside error member
  · exact below error stack

/-- An error that a thread has after a step was there before, or code offers it, or the library
makes it. -/
def Thread.Yields (world : World σ ν) (thread : Thread σ ν) (error : Error) : Prop :=
  error ∈ thread.errors ∨ (∃ code, thread.control = .code code ∧ error ∈ code.offers) ∨
    thread.Makes world error

theorem Thread.step_yields {thread after : Thread σ ν} (fails : thread.Fails world P)
    (action : thread.step world = some (next, after)) :
    ∀ error ∈ after.errors, thread.Yields world error := by
  refine step_rule (fun thread _ after => thread.Fails world P →
    ∀ error ∈ after.errors, thread.Yields world error) ?_ ?_ ?_ action fails
  · intro id code stack move made fails
    have bears : move.Bears (Yields world ⟨id, .code code, stack⟩) :=
      code.step_bears world id (fun error offered => .inr (.inl ⟨code, rfl, offered⟩)) move made
    apply bears.above
    intro error member
    exact .inl (List.mem_append_right _ member)
  · intro id work stack move made fails
    obtain ⟨Q, promised, unwinds⟩ := fails
    have bears : move.Bears (Yields world ⟨id, .task work, stack⟩) :=
      Task.step_bears world id promised (fun error kept => .inl (List.mem_append_left _ kept))
        (fun error makes => .inr (.inr (.task makes))) move made
    apply bears.above
    intro error member
    exact .inl (List.mem_append_right _ member)
  · intro id exit frame stack move made fails
    obtain ⟨Q, shaped, R, promised, unwinds⟩ := fails
    have kept : ∀ error ∈ frame.errors,
        Yields world ⟨id, .task (.finish exit), frame :: stack⟩ error := by
      intro error member
      apply Or.inl
      simp [errors, member]
    have bears : move.Bears (Yields world ⟨id, .task (.finish exit), frame :: stack⟩) :=
      Frame.resume_bears promised shaped (fun error ended => .inl (List.mem_append_left _ ended)) kept
        (fun error makes => .inr (.inr (.frame makes))) move made
    apply bears.above
    intro error member
    apply Or.inl
    simp only [errors, List.flatMap_cons, List.mem_append]
    exact .inr (.inr member)

/-! ## Parts -/

theorem Exit.mem_errors {exit : Exit} {error : Error} (failed : exit.error? = some error) :
    error ∈ exit.errors := by
  cases exit with
  | panicked payload => contradiction
  | returned reply => exact Reply.mem_errors failed

theorem Task.Makes.parts {task : Task σ ν} {whole error : Error} (makes : task.Makes world whole)
    (member : error ∈ whole.parts) : error ∈ task.errors ∨ task.Makes world error := by
  cases makes with
  | reentrant | dropped => contradiction
  | initialization => exact .inl member
  | owner some =>
      obtain rfl := List.mem_singleton.mp member
      exact .inr (.ownerReport some)
  | ownerReport some => exact .inl (by simpa [Error.parts, Task.errors] using member)
  | teardown reports known => exact .inl (known (by simpa [Error.parts] using member))

theorem Frame.Makes.parts {exit : Exit} {frame : Frame σ ν} {whole error : Error}
    (makes : frame.Makes world exit whole) (member : error ∈ whole.parts) :
    (∃ other ∈ exit.errors ++ frame.errors, error.Within other) ∨ frame.Makes world exit error := by
  have told (known : error ∈ exit.errors) :
      ∃ other ∈ exit.errors ++ frame.errors, error.Within other :=
    ⟨error, List.mem_append_left _ known, .self⟩
  cases makes with
  | late => contradiction
  | dropChain | handler | drop => exact .inl (told member)
  | panicked payload => cases payload <;> contradiction
  | @deferring sc outcome failures reports =>
      obtain rfl := List.mem_singleton.mp member
      cases ended : outcome.error? with
      | none => exact .inl ⟨_, List.mem_append_left _ (.head _), .self⟩
      | some body => exact .inr (.interrupted reports ended)
  | @interrupted sc outcome failures body reports ended =>
      left
      rcases List.mem_append.mp member with failure | last
      · refine ⟨.teardown (.mk failures none), List.mem_append_left _ (.head _), ?_⟩
        exact .part (List.mem_append_left _ failure) .self
      · obtain rfl := List.mem_singleton.mp last
        exact ⟨error, List.mem_append_right _ (Exit.mem_errors ended), .self⟩

theorem Thread.Makes.parts {thread : Thread σ ν} {whole error : Error}
    (makes : thread.Makes world whole) (member : error ∈ whole.parts) :
    thread.Shows error ∨ thread.Makes world error := by
  cases makes with
  | task makes =>
      rcases makes.parts member with known | makes
      · exact .inl ⟨error, List.mem_append_left _ known, .self⟩
      · exact .inr (.task makes)
  | frame makes =>
      rcases makes.parts member with ⟨other, known, within⟩ | makes
      · refine .inl ⟨other, ?_, within⟩
        rw [errors, List.flatMap_cons, ← List.append_assoc]
        exact List.mem_append_left _ known
      · exact .inr (.frame makes)

theorem Thread.Makes.within {thread : Thread σ ν} {whole error : Error}
    (makes : thread.Makes world whole) (within : error.Within whole) :
    thread.Shows error ∨ thread.Makes world error := by
  induction within with
  | self => exact .inr makes
  | part member within ih =>
      rcases makes.parts member with ⟨other, shown, inside⟩ | makes
      · exact .inl ⟨other, shown, within.trans inside⟩
      · exact ih makes

theorem Thread.step_shows {thread after : Thread σ ν} {error : Error} (fails : thread.Fails world P)
    (action : thread.step world = some (next, after)) (shows : after.Shows error) :
    thread.Shows error ∨ thread.Offers error ∨ thread.Makes world error := by
  obtain ⟨whole, member, within⟩ := shows
  rcases step_yields fails action whole member with kept | ⟨code, running, offered⟩ | makes
  · exact .inl ⟨whole, kept, within⟩
  · exact .inr (.inl ⟨code, whole, running, offered, within⟩)
  · rcases makes.within within with shown | makes
    · exact .inl shown
    · exact .inr (.inr makes)

theorem Thread.fails_ofCode (memory : σ) (code : Code σ ν) (steps : Nat) :
    (advance steps { memory } (.ofCode 0 code)).2.Fails
      (advance steps { memory } (.ofCode 0 code)).1 fun _ => True :=
  Reaches.fails ⟨steps, rfl⟩ ⟨_, fun _ => trivial, fun _ holds => holds⟩

end

/-- At an earlier moment of a run the library made the error, or user code brought it in when it was
nowhere in sight before. -/
def Code.Originates (memory : σ) (code : Code σ ν) (steps : Nat) (error : Error) : Prop :=
  let moment := fun before => Thread.advance before { memory } (.ofCode 0 code)
  ∃ earlier < steps, (moment earlier).2.Makes (moment earlier).1 error ∨
    (moment earlier).2.Offers error ∧ ∀ before ≤ earlier, ¬ (moment before).2.Shows error

theorem Code.Originates.mono {memory : σ} {code : Code σ ν} {before steps : Nat} {error : Error}
    (originates : code.Originates memory before error) (le : before ≤ steps) :
    code.Originates memory steps error := by
  obtain ⟨earlier, less, origin⟩ := originates
  exact ⟨earlier, Nat.lt_of_lt_of_le less le, origin⟩

theorem Thread.Shows.originates {memory : σ} {code : Code σ ν} {steps : Nat} {error : Error}
    (shows : (Thread.advance steps { memory } (.ofCode 0 code)).2.Shows error) :
    code.Originates memory steps error := by
  induction steps using Nat.strongRecOn with
  | ind steps ih =>
      cases steps with
      | zero =>
          obtain ⟨whole, member, -⟩ := shows
          contradiction
      | succ steps =>
          -- The error was in sight before, or the last step has brought it up.
          by_cases seen : ∃ before ≤ steps, (advance before { memory } (.ofCode 0 code)).2.Shows error
          · obtain ⟨before, le, shown⟩ := seen
            exact (ih before (Nat.lt_succ_of_le le) shown).mono (Nat.le_succ_of_le le)
          · have unseen : ∀ before ≤ steps, ¬ (advance before { memory } (.ofCode 0 code)).2.Shows error :=
              fun before le shown => seen ⟨before, le, shown⟩
            rw [advance_add] at shows
            cases action : Thread.step (advance steps { memory } (.ofCode 0 code)).1
                (advance steps { memory } (.ofCode 0 code)).2 with
            | none =>
                simp only [advance, action] at shows
                exact absurd shows (unseen steps (Nat.le_refl _))
            | some reached =>
                simp only [advance, action] at shows
                rcases step_shows (fails_ofCode memory code steps) action shows with
                  shown | offered | makes
                · exact absurd shown (unseen steps (Nat.le_refl _))
                · exact ⟨steps, Nat.lt_succ_self _, .inr ⟨offered, unseen⟩⟩
                · exact ⟨steps, Nat.lt_succ_self _, .inl makes⟩

/-! ## Every operation -/

section
variable {id : ThreadId} {world next : World σ ν} {exit : Exit}

theorem Ends.gets {s : SlotId} {call : Call σ ν} (gets : call.Gets s)
    (run : Ends id world (.task (.start call)) exit next) : exit.Fails Error.OfLookup := by
  have promised : call.Fails world Error.OfLookup := by
    cases call with
    | getValue | withValue => exact fun _ shaped => shaped
    | _ => exact gets.elim
  exact Ends.fails run promised

theorem Ends.runs {sc : ScopeId} (run : Ends id world (.task (.start (.runAll sc))) exit next) :
    exit.Fails (Error.OfTeardown (world.scope sc).policy) := by
  have shaped : exit.Fails (world.OfTeardown sc) := Ends.fails run fun _ shaped => shaped
  by_cases made : sc < world.scopes.size
  · exact fun error failed => shaped error failed made
  · -- A scope that was never made is not usable, and the call is not started.
    have unusable : world.usable (.scope sc) = false := by
      have default : world.scope sc = default := by
        simp [World.scope, Table.get, List.getElem?_eq_none (Nat.le_of_not_lt made)]
      simp only [World.usable, default]
      rfl
    have missing : Ends id world (.task (.start (.runAll sc))) (.returned .missing) world := by
      refine .step ?_ (.refl _ _)
      simp [Thread.step, Task.step, Call.start, World.operate, World.whenUsable, unusable,
        World.answer, World.go, Thread.after]
    obtain ⟨rfl, -⟩ := missing.unique run
    exact .returned rfl

theorem Ends.lends {config : ScopeConfig} {body : ScopeId → Code σ ν}
    (run : Ends id world (.task (.start (.deferring config body))) exit next) :
    ∃ outcome closing,
      Ends id (world.lend config) (.code (body world.scopes.size)) outcome closing ∧
        exit.Fails (Error.OfDeferring config.policy outcome) := by
  have begins : Thread.step world ⟨id, .task (.start (.deferring config body)), []⟩ =
      some (world.lend config, Thread.above ⟨id, .code (body world.scopes.size), []⟩
        [.body world.scopes.size]) := rfl
  have begun := Thread.Reaches.rest (.step begins (.refl _ _)) run
  obtain ⟨closing, outcome, ended, rest⟩ := begun.cut (Nat.zero_le _)
  refine ⟨outcome, closing, ended, ?_⟩
  have closes : Thread.step closing ⟨id, .task (.finish outcome), [.body world.scopes.size]⟩ =
      some (closing, ⟨id, .task (.drain world.scopes.size 0 []),
        [.closing world.scopes.size outcome]⟩) := rfl
  have torn := Thread.Reaches.rest (.step closes (.refl _ _)) rest
  have made : world.scopes.size < (world.lend config).scopes.size := by
    simp [World.lend, World.addScope, Table.size_push]
  have governs := ended.governs
  have known := Nat.lt_of_lt_of_le made governs.made
  have policy : (closing.scope world.scopes.size).policy = config.policy := by
    rw [governs.policy _ made, World.lend, World.scope_addScope, if_pos rfl]
    rfl
  have closing : (Frame.closing world.scopes.size outcome).Fails closing
      (closing.OfTeardown world.scopes.size) (Error.OfDeferring config.policy outcome) := by
    rw [← policy]
    exact ⟨known, fun _ shaped => shaped known, fun _ shaped => shaped⟩
  obtain ⟨Q, shaped, all⟩ :=
    torn.fails ⟨_, fun _ shaped => shaped, _, closing, fun _ holds => holds⟩
  exact fun error failed => all error (shaped error failed)

end

/-- The errors with which the operations end that a moment of a run begins. -/
structure Thread.FailsInShape (world : World σ ν) (thread : Thread σ ν) : Prop where
  gets : ∀ s call exit next, call.Gets s → thread.control = .task (.start call) →
    Ends thread.id world thread.control exit next → exit.Fails Error.OfLookup
  drops : ∀ s exit next, thread.control = .task (.start (.dropSlot s)) →
    Ends thread.id world thread.control exit next → exit.Fails Error.OfDrop
  disposes : ∀ slots exit next, thread.control = .task (.dispose (.owner slots)) →
    Ends thread.id world thread.control exit next → exit.Fails Error.OfOwner
  runs : ∀ sc exit next, thread.control = .task (.start (.runAll sc)) →
    Ends thread.id world thread.control exit next →
    exit.Fails (Error.OfTeardown (world.scope sc).policy)
  /-- A call that lends a scope ends once its body has ended. -/
  lends : ∀ config body exit next, thread.control = .task (.start (.deferring config body)) →
    Ends thread.id world thread.control exit next →
    ∃ outcome closing,
      Ends thread.id (world.lend config) (.code (body world.scopes.size)) outcome closing ∧
        exit.Fails (Error.OfDeferring config.policy outcome)

theorem Thread.fails_in_shape (world : World σ ν) (thread : Thread σ ν) :
    thread.FailsInShape world where
  gets s call exit next gets starting run := by
    rw [starting] at run
    exact run.gets gets
  drops s exit next starting run := by
    rw [starting] at run
    exact Ends.fails run fun _ shaped => shaped
  disposes slots exit next starting run := by
    rw [starting] at run
    exact Ends.fails run fun _ shaped => shaped
  runs sc exit next starting run := by
    rw [starting] at run
    exact run.runs
  lends config body exit next starting run := by
    rw [starting] at run
    exact run.lends

/-! ## What the library reports -/

/-- The scope whose teardown reports in the next step, also through the call that has lent it. -/
def Thread.reporting? (thread : Thread σ ν) : Option ScopeId :=
  match thread.control, thread.stack with
  | .task (.report sc _ _), _ => some sc
  | .task (.finish _), .closing sc _ :: _ => some sc
  | _, _ => none

/-- What there is in a report that the library makes. -/
structure Thread.Reports (world : World σ ν) (thread : Thread σ ν) (report : TeardownError) :
    Prop where
  first : report.first.isSome = true
  source : report.source.isSome = true
  one : ∀ sc, thread.reporting? = some sc → (world.scope sc).policy = .firstFailure →
    report.failures.length = 1
  /-- Only a call that has lent a scope tells of an interrupted error, which is that of its body. -/
  interrupted : ∀ body, report.interrupted = some body ↔
    ∃ id exit sc outcome stack, thread = ⟨id, .task (.finish exit), .closing sc outcome :: stack⟩ ∧
      outcome.error? = some body

theorem TeardownError.first_isSome {failures : List Error} (some : failures ≠ [])
    (interrupted : Option Error) : (TeardownError.mk failures interrupted).first.isSome = true := by
  cases failures with
  | nil => contradiction
  | cons first rest => rfl

theorem TeardownError.source_isSome {failures : List Error} (some : failures ≠ [])
    (interrupted : Option Error) : (TeardownError.mk failures interrupted).source.isSome = true := by
  cases failures with
  | nil => contradiction
  | cons first rest => cases interrupted <;> rfl

theorem Thread.Makes.reports {world : World σ ν} {thread : Thread σ ν} {report : TeardownError}
    (makes : thread.Makes world (.teardown report)) : thread.Reports world report := by
  cases makes with
  | task makes =>
      cases makes with
      | ownerReport some =>
          refine ⟨TeardownError.first_isSome some _, TeardownError.source_isSome some _, nofun, ?_⟩
          intro body
          constructor
          · nofun
          · rintro ⟨id, exit, sc, outcome, stack, same, -⟩
            cases same
      | teardown reports known =>
          refine ⟨TeardownError.first_isSome reports.some _,
            TeardownError.source_isSome reports.some _, ?_, ?_⟩
          · intro sc here policy
            obtain rfl := Option.some.inj here
            exact reports.one policy
          · intro body
            constructor
            · nofun
            · rintro ⟨id, exit, sc, outcome, stack, same, -⟩
              cases same
  | @frame id exit _ stack _ makes =>
      cases makes with
      | @interrupted sc outcome failures body reports ended =>
          refine ⟨TeardownError.first_isSome reports.some _,
            TeardownError.source_isSome reports.some _, ?_, ?_⟩
          · intro sc here policy
            obtain rfl := Option.some.inj here
            exact reports.one policy
          · intro other
            constructor
            · intro same
              obtain rfl := Option.some.inj same
              exact ⟨_, _, sc, outcome, stack, rfl, ended⟩
            · -- The frame that tells of an interrupted error is the one that is on top.
              rintro ⟨_, _, _, _, _, same, told⟩
              obtain ⟨-, -, same⟩ := Thread.mk.inj same
              obtain ⟨same, -⟩ := List.cons.inj same
              obtain ⟨-, rfl⟩ := Frame.closing.inj same
              rw [← told, ← ended]
              rfl

theorem Thread.Makes.reaction {world : World σ ν} {thread : Thread σ ν} {cause : Error}
    {failures : List DropError} (makes : thread.Makes world (.drop (.initialization cause failures))) :
    ∃ links handlers : List Error, failures = links.map .dropChain ++ handlers.map .handler := by
  cases makes with
  | task makes =>
      cases makes with
      | initialization s cause links handlers => exact ⟨links, handlers, rfl⟩
  | frame makes =>
      generalize whole : Error.drop (.initialization cause failures) = error at makes
      cases makes with
      | panicked payload => cases payload <;> cases whole
      | _ => cases whole

/-- At a moment of a run all errors of the library are as they should be: those with which its
operations end, those in sight at any depth, and those that it makes now. -/
structure Code.ErrorsFormed (memory : σ) (code : Code σ ν) (steps : Nat) (world : World σ ν)
    (thread : Thread σ ν) : Prop where
  operations : thread.FailsInShape world
  origins : ∀ error, thread.Shows error → code.Originates memory steps error
  reports : ∀ report, thread.Makes world (.teardown report) → thread.Reports world report
  reactions : ∀ cause failures, thread.Makes world (.drop (.initialization cause failures)) →
    ∃ links handlers : List Error, failures = links.map .dropChain ++ handlers.map .handler

theorem Code.errors_formed (memory : σ) (code : Code σ ν) (steps : Nat) :
    code.ErrorsFormed memory steps (Thread.advance steps { memory } (.ofCode 0 code)).1
      (Thread.advance steps { memory } (.ofCode 0 code)).2 where
  operations := Thread.fails_in_shape _ _
  origins _ shows := shows.originates
  reports _ makes := makes.reports
  reactions _ _ makes := makes.reaction

/-- The error of a scope fails an initializer, and the body that asked for the value fails with what
became of it and leaves two failing actions behind. -/
def Code.failWithin : Code Unit Unit :=
  let initializer :=
    .call (.newScope .collectAll) fun _ =>
      .call (.defer 1 (.ret (.failed (.text "inner")))) fun _ => .call (.runAll 1) .ret
  let body := fun sc =>
    .call (.defer sc (.panic .other)) fun _ =>
      .call (.defer sc (.ret (.failed (.text "newer")))) fun _ =>
        .call (.newSlot (fun _ => .ret .done) initializer) fun _ => .call (.getValue 0) .ret
  .call (.deferring { policy := .firstFailure } body) .ret

theorem Code.errors_formed_failWithin :
    let ended := Thread.advance 100 { memory := () } (.ofCode 0 failWithin)
    let inner := Error.teardown (.mk [.text "inner"] none)
    let asked := Error.drop (.initialization inner [])
    ended.2.exit? =
        some (.returned (.failed (.drop (.teardown (.mk [.text "newer"] (some asked)))))) ∧
      failWithin.Originates () 100 inner ∧ failWithin.Originates () 100 asked := by
  intro ended inner asked
  have formed := errors_formed () failWithin 100
  have within : asked.Within (.drop (.teardown (.mk [.text "newer"] (some asked)))) :=
    .part (.head _) (.part (.tail _ (.head _)) .self)
  have shown (error : Error) (inside : error.Within asked) : ended.2.Shows error :=
    ⟨_, .head _, inside.trans within⟩
  exact ⟨rfl, formed.origins inner (shown inner (.part (.head _) .self)),
    formed.origins asked (shown asked .self)⟩

end Relinquish
