import Relinquish.Proofs.Conservation

/-!
What the ledger says of initializers and drop handlers is what steps have done: a run of an initializer
begins, ends and gives its value, and a drop handler is called, just when the ledger says so.
-/

namespace Relinquish

variable {σ ν : Type}

/-- A list has one more at its head, of which this holds; or it is as before, and this holds of
nothing. -/
inductive Adds {α : Type} (before after : List α) (holds : α → Prop) : Prop
  | none (same : after = before) (nothing : ∀ a, ¬ holds a)
  | one (a : α) (grown : after = a :: before) (held : holds a)

theorem Adds.congr {α : Type} {before after : List α} {holds holds' : α → Prop}
    (adds : Adds before after holds) (same : ∀ a, holds a ↔ holds' a) : Adds before after holds' := by
  cases adds with
  | none unchanged nothing => exact .none unchanged fun a held => nothing a ((same a).mpr held)
  | one a grown held => exact .one a grown ((same a).mp held)

def Deed.began? : Deed → Option SlotId
  | began s => some s
  | _ => none

def Deed.ended? : Deed → Option SlotId
  | ended s => some s
  | _ => none

def Deed.gained? : Deed → Option (SlotId × Value)
  | produced s value => some (s, value)
  | _ => none

/-! ## Runs of initializers -/

/-- From one moment of a thread to the next, the initializer of the slot has begun to run. -/
structure Thread.Begins (world : World σ ν) (thread after : Thread σ ν) (s : SlotId) : Prop where
  code : after.control = .code (world.slot s).initializer
  awaited : after.pauses = .initializing s :: thread.pauses

/-- The initializer of the slot has just ended well, and has given the value. -/
def Thread.Gains (thread : Thread σ ν) (s : SlotId) (value : Value) : Prop :=
  ∃ reply rest, thread.control = .task (.finish (.returned reply)) ∧ reply.error? = none ∧
    thread.stack = .initializing s :: rest ∧ value.text = reply.content

section
variable {world next : World σ ν} {makes : Prop} {runs : Code σ ν → Prop} {stage stage' : Stage}
  {ended : Option Pause} {pushed : List Pause}

theorem Effect.begins (effect : Effect world next makes runs stage ended stage' pushed) :
    Adds (world.ledger.filterMap Deed.began?) (next.ledger.filterMap Deed.began?) fun s =>
      runs (world.slot s).initializer ∧ pushed = .initializing s :: ended.toList := by
  cases effect
  case began s code undropped change =>
    refine .one s ?_ ⟨code, rfl⟩
    rw [change.ledger]
    rfl
  case failed change | produced change | stored change | released change | swapped change | took change
    | discarded change | cloned change =>
      refine .none ?_ fun t begins => ?_
      · rw [change.ledger]
        rfl
      · exact List.cons_ne_nil _ _ begins.2.symm
  all_goals
    have same : world.Alike next := by assumption
    refine .none (by rw [same.ledger]) fun t begins => ?_
    simp at begins

theorem Effect.ends (effect : Effect world next makes runs stage ended stage' pushed) :
    Adds (world.ledger.filterMap Deed.ended?) (next.ledger.filterMap Deed.ended?) fun s =>
      ended = some (.initializing s) := by
  cases effect
  case failed s change | produced s value fresh change =>
    refine .one s ?_ rfl
    rw [change.ledger]
    rfl
  case began change | stored change | released change | swapped change | took change
    | discarded change | cloned change =>
      refine .none ?_ fun t ends => ?_
      · rw [change.ledger]
        rfl
      · simp at ends
  all_goals
    have same : world.Alike next := by assumption
    refine .none (by rw [same.ledger]) fun t ends => ?_
    simp at ends

theorem Effect.unproduced (effect : Effect world next makes runs stage ended stage' pushed)
    (other : ∀ s, ended ≠ some (.initializing s)) :
    next.ledger.filterMap Deed.gained? = world.ledger.filterMap Deed.gained? := by
  cases effect
  case produced s value fresh change => exact absurd rfl (other s)
  case began change | failed change | stored change | released change | swapped change | took change
    | discarded change | cloned change =>
      rw [change.ledger]
      rfl
  all_goals
    have same : world.Alike next := by assumption
    rw [same.ledger]

end

section
variable {world next : World σ ν} {thread after : Thread σ ν}

theorem Thread.step_begins (action : thread.step world = some (next, after)) :
    Adds (world.ledger.filterMap Deed.began?) (next.ledger.filterMap Deed.began?)
      (thread.Begins world after) := by
  obtain ⟨pushed, rest, before, afterwards, effect⟩ := step_affects action
  refine effect.begins.congr fun s => ?_
  have awaits : after.pauses = .initializing s :: thread.pauses ↔
      pushed = .initializing s :: thread.ended?.toList := by
    rw [before, afterwards, ← List.cons_append, List.append_left_inj]
  rw [← awaits]
  exact ⟨fun ⟨code, awaited⟩ => ⟨code, awaited⟩, fun ⟨code, awaited⟩ => ⟨code, awaited⟩⟩

theorem Thread.step_ends (action : thread.step world = some (next, after)) :
    Adds (world.ledger.filterMap Deed.ended?) (next.ledger.filterMap Deed.ended?) fun s =>
      thread.ended? = some (.initializing s) := by
  obtain ⟨pushed, rest, _, _, effect⟩ := step_affects action
  exact effect.ends

theorem Frame.resume_gains (world : World σ ν) (id : ThreadId) (exit : Exit) (s : SlotId)
    (stack : List (Frame σ ν)) :
    Ensures ((Frame.initializing s).resume world exit) fun move =>
      Adds (world.ledger.filterMap Deed.gained?) (move.world.ledger.filterMap Deed.gained?) fun entry =>
        Thread.Gains ⟨id, .task (.finish exit), .initializing s :: stack⟩ entry.1 entry.2 := by
  simp only [resume, Ensures.initializerEnded_iff]
  refine ⟨?_, ?_⟩
  · rintro payload rfl
    refine .none rfl ?_
    rintro entry ⟨reply, rest, ended, _⟩
    cases ended
  · rintro reply rfl
    refine ⟨fun error failed => .none rfl ?_, fun well => ?_⟩
    · rintro entry ⟨reply, rest, ended, well, _⟩
      cases ended
      rw [failed] at well
      contradiction
    · exact .one (s, ⟨world.values, reply.content⟩) rfl ⟨reply, stack, rfl, well, rfl, rfl⟩

theorem Thread.step_gains (action : thread.step world = some (next, after)) :
    Adds (world.ledger.filterMap Deed.gained?) (next.ledger.filterMap Deed.gained?) fun entry =>
      thread.Gains entry.1 entry.2 := by
  obtain ⟨id, control, stack⟩ := thread
  by_cases ends : ∃ exit s rest, control = .task (.finish exit) ∧ stack = .initializing s :: rest
  · obtain ⟨exit, s, rest, rfl, rfl⟩ := ends
    obtain ⟨move, made, rfl, rfl⟩ := step_frame action
    exact Frame.resume_gains world id exit s rest move made
  · obtain ⟨pushed, rest, _, _, effect⟩ := step_affects action
    refine .none (effect.unproduced fun s ended => ends ?_) ?_
    · unfold ended? at ended
      split at ended
      · next exit frame rest finish top =>
          cases frame <;> simp only [Frame.pause?, reduceCtorEq, Option.some.injEq] at ended
          exact ⟨exit, _, rest, finish, top⟩
      · contradiction
    · rintro entry ⟨reply, rest, ended, _, top, _⟩
      exact ends ⟨_, _, rest, ended, top⟩

end

/-! ## Calls of drop handlers -/

/-- The slot of which the frame waits for the drop handler, and the value that the handler has. -/
def Frame.handler? : Frame σ ν → Option (SlotId × Value)
  | .releasing s value | .releasingLate s value => some (s, value)
  | _ => none

/-- From one moment of a thread to the next, the drop handler of the slot has been called. -/
structure Thread.Hands (world : World σ ν) (thread after : Thread σ ν) (s : SlotId) (value : Value) :
    Prop where
  code : after.control = .code ((world.slot s).release value)
  awaited : ∃ frame : Frame σ ν, frame.handler? = some (s, value) ∧ after.stack = frame :: thread.stack

def Stage.Releases : Stage → Prop
  | .late _ _ | .taking _ => True
  | _ => False

section
variable {world next : World σ ν} {makes : Prop} {runs : Code σ ν → Prop} {stage stage' : Stage}
  {ended : Option Pause} {pushed : List Pause}

/-- Values are handed over only by who comes too late with one, or takes one from its slot. -/
theorem Effect.unhanded (effect : Effect world next makes runs stage ended stage' pushed)
    (other : ¬ stage.Releases) : next.handed = world.handed := by
  cases effect
  case released | took => exact absurd trivial other
  case began change | failed change | produced change | stored change | swapped change
    | discarded change | cloned change =>
      rw [World.handed, change.ledger]
      rfl
  all_goals
    have same : world.Alike next := by assumption
    rw [World.handed, same.ledger, World.handed]

end

/-! ## Frames that wait for no drop handler -/

def Task.Releases : Task σ ν → Prop
  | .releaseLate _ _ | .take _ => True
  | _ => False

def Move.Unhanding (move : Move σ ν) : Prop :=
  move.frames.filterMap Frame.handler? = []

theorem Call.start_unhanding (world : World σ ν) (call : Call σ ν) :
    Ensures (call.start world) Move.Unhanding := by
  cases call <;> simp only [start]
  case access =>
    split
    · unfold Accessor.frame
      split <;> simp [Move.Unhanding, Frame.handler?]
    · simp [Move.Unhanding]
  case dropAccessed | forgetAccessor | dispose | forgetParcel | matchKind =>
    split <;> simp [Move.Unhanding, Frame.handler?]
  case dropThrough | releaseGuard | disarmGuard | forgetGuard =>
    simp only [Ensures.whenConsumable_iff, Ensures.ite_iff, Guard.close]
    split <;> simp [Move.Unhanding, Frame.handler?]
  all_goals simp [Move.Unhanding, Frame.handler?]

theorem Task.step_unhanding (world : World σ ν) (id : ThreadId) {task : Task σ ν}
    (other : ¬ task.Releases) : Ensures (task.step world id) Move.Unhanding := by
  cases task with
  | releaseLate | take => exact absurd trivial other
  | start call => exact call.start_unhanding world
  | letGo handles exit =>
      rcases handles with - | ⟨s | sc, rest⟩ <;> simp [step, Move.Unhanding, Frame.handler?]
  | look | lookAgain | copyValue =>
      simp only [step, Ensures.whenFree_iff]
      split <;> simp [Move.Unhanding, Frame.handler?]
  | copy s cloner => cases cloner <;> simp [step, Move.Unhanding]
  | sift selection error rest | links s error rest | handlers s error rest =>
      cases rest <;> simp [step, Move.Unhanding, Frame.handler?]
  | dispose droppable => cases droppable <;> simp [step, Move.Unhanding]
  | disposeAll rest failures => cases rest <;> simp [step, Move.Unhanding, Frame.handler?]
  | drain sc ran failures =>
      simp only [step]
      split <;> simp [Move.Unhanding]
  | batch sc rest ran failures =>
      rcases rest with - | ⟨⟨action, code | s⟩, rest⟩ <;> simp [step, Move.Unhanding, Frame.handler?]
  | _ => simp [step, Move.Unhanding, Frame.handler?]

theorem Frame.resume_unhanding (world : World σ ν) (exit : Exit) (frame : Frame σ ν) :
    Ensures (frame.resume world exit) Move.Unhanding := by
  cases frame with
  | initializing s => simp [resume, Move.Unhanding]
  | linking | handling =>
      cases exit <;> simp only [resume]
      · split <;> simp [Move.Unhanding]
      · simp [Move.Unhanding]
  | getting | orNone | orElse | expiring =>
      simp only [resume, Guard.close]
      split <;> simp [Move.Unhanding, handler?]
  | reading announced =>
      cases exit <;> simp only [resume]
      · exact .configRead fun _ _ _ => rfl
      · simp [Move.Unhanding]
  | _ => cases exit <;> simp [resume, Move.Unhanding, handler?]

/-! ## Steps -/

section
variable {world next : World σ ν} {thread after : Thread σ ν}

/-- What a step adds to the values that are handed over, and the drop handler that it calls. -/
def Thread.HandsOver (world next : World σ ν) (thread after : Thread σ ν) : Prop :=
  Adds world.handed next.handed fun entry => thread.Hands world after entry.1 entry.2

theorem Move.Unhanding.handsOver {move : Move σ ν} (unhanding : move.Unhanding)
    (handed : move.world.handed = world.handed) {id : ThreadId} {rest : List (Frame σ ν)}
    (short : rest.length ≤ thread.stack.length) :
    thread.HandsOver world move.world ⟨id, move.control, move.frames ++ rest⟩ := by
  refine .none handed fun entry hands => ?_
  obtain ⟨frame, waits, pushed⟩ := hands.awaited
  rcases List.append_eq_cons_iff.mp pushed with ⟨_, same⟩ | ⟨more, frames, _⟩
  · rw [same, List.length_cons] at short
    omega
  · rw [Unhanding, frames, List.filterMap_cons, waits] at unhanding
    contradiction

theorem Task.step_handed (world : World σ ν) (id : ThreadId) {task : Task σ ν}
    (other : ¬ task.Releases) :
    Ensures (task.step world id) fun move => move.world.handed = world.handed := by
  cases task with
  | releaseLate | take => exact absurd trivial other
  | unlockValue s after | leave s after =>
      simp only [step, Ensures.go_iff]
      rfl
  | _ => exact (step_affects world id _).imp fun _ effect => Effect.unhanded effect not_false

theorem Task.step_handsOver (world : World σ ν) (id : ThreadId) (task : Task σ ν)
    (stack : List (Frame σ ν)) :
    Ensures (task.step world id) fun move => Thread.HandsOver world move.world
      ⟨id, .task task, stack⟩ ⟨move.thread.getD id, move.control, move.frames ++ stack⟩ := by
  by_cases releases : task.Releases
  · cases task with
    | take s =>
        simp only [step, Ensures.whenFree_iff]
        intro _
        split
        · next value held =>
            rw [Ensures.run_iff]
            refine .one (s, value) ?_ ⟨by simp, _, rfl, rfl⟩
            simp [World.handed, Mark.deed?, Deed.handed?]
        · rw [Ensures.endDrop_iff]
          refine Move.Unhanding.handsOver (by rfl) ?_ (Nat.le_refl _)
          simp [World.handed, Mark.deed?]
    | releaseLate s value =>
        simp only [step, Ensures.run_iff]
        refine .one (s, value) ?_ ⟨rfl, _, rfl, rfl⟩
        simp [World.handed, Mark.deed?, Deed.handed?]
    | _ => contradiction
  · intro move made
    have unhanding := step_unhanding world id releases move made
    exact unhanding.handsOver (step_handed world id releases move made) (Nat.le_refl _)

theorem Thread.step_hands (action : thread.step world = some (next, after)) :
    thread.HandsOver world next after := by
  refine step_rule (fun thread next after => thread.HandsOver world next after) ?_ ?_ ?_ action
  · intro id code stack move made
    have unhanding : move.Unhanding := by
      cases code <;> obtain rfl := Option.some.inj made <;> rfl
    have effect := code.step_affects world id move made
    exact unhanding.handsOver (effect.unhanded not_false) (Nat.le_refl _)
  · intro id task stack
    exact task.step_handsOver world id stack
  · intro id exit frame stack move made
    have effect := frame.resume_affects world False exit move made
    exact (frame.resume_unhanding world exit move made).handsOver (effect.unhanded not_false)
      (Nat.le_succ _)

/-! ## All of it -/

/-- What a step adds to the ledger about initializers and drop handlers is what it does. -/
structure Thread.Honest (world next : World σ ν) (thread after : Thread σ ν) : Prop where
  begins : Adds (world.ledger.filterMap Deed.began?) (next.ledger.filterMap Deed.began?)
    (thread.Begins world after)
  ends : Adds (world.ledger.filterMap Deed.ended?) (next.ledger.filterMap Deed.ended?) fun s =>
    thread.ended? = some (.initializing s)
  gains : Adds (world.ledger.filterMap Deed.gained?) (next.ledger.filterMap Deed.gained?) fun entry =>
    thread.Gains entry.1 entry.2
  hands : thread.HandsOver world next after

theorem Thread.step_honest (action : thread.step world = some (next, after)) :
    thread.Honest world next after :=
  ⟨step_begins action, step_ends action, step_gains action, step_hands action⟩

end

end Relinquish
