import Relinquish.Proofs.Conservation
import Relinquish.Proofs.Entry
import Relinquish.Proofs.Holds

/-!
The trials of a slot: runs of its initializer fail until at most one succeeds, and after that, or
after a drop, there are no more.
-/

namespace Relinquish

variable {σ ν : Type}

/-! ## Sequences of trials -/

/-- Trials of which each has failed, newest first. -/
inductive Failing : List Trial → Prop
  | none : Failing []
  | failed {exit : Exit} {trials : List Trial} (fails : exit.failure? ≠ none)
      (earlier : Failing trials) : Failing (.ended exit :: .begun :: trials)

/-- Trials that failed, and after them perhaps one that is under way or one that has succeeded. -/
inductive Tried : (running : Bool) → List Trial → Prop
  | failing {trials : List Trial} (earlier : Failing trials) : Tried false trials
  | running {trials : List Trial} (earlier : Failing trials) : Tried true (.begun :: trials)
  | succeeded {exit : Exit} {trials : List Trial} (succeeds : exit.failure? = none)
      (earlier : Failing trials) : Tried false (.ended exit :: .begun :: trials)

def Succeeded (trials : List Trial) : Prop :=
  ∃ exit earlier, trials = .ended exit :: earlier ∧ exit.failure? = none

theorem not_succeeded_begun (earlier : List Trial) : ¬ Succeeded (.begun :: earlier) := by
  rintro ⟨exit, rest, same, _⟩
  cases same

theorem succeeded_ended {exit : Exit} {earlier : List Trial}
    (succeeded : Succeeded (.ended exit :: earlier)) : exit.failure? = none := by
  obtain ⟨last, rest, same, succeeds⟩ := succeeded
  cases same
  exact succeeds

theorem Failing.not_succeeded {trials : List Trial} (failing : Failing trials) :
    ¬ Succeeded trials := by
  rintro ⟨exit, earlier, rfl, succeeds⟩
  cases failing with
  | failed fails _ => exact fails succeeds

theorem Tried.begin {trials : List Trial} (tried : Tried false trials)
    (unsuccessful : ¬ Succeeded trials) : Tried true (.begun :: trials) := by
  cases tried with
  | failing earlier => exact .running earlier
  | succeeded succeeds _ => exact absurd ⟨_, _, rfl, succeeds⟩ unsuccessful

theorem Tried.finish {trials : List Trial} (tried : Tried true trials) (exit : Exit) :
    Tried false (.ended exit :: trials) := by
  cases tried with
  | running earlier =>
      by_cases succeeds : exit.failure? = none
      · exact .succeeded succeeds earlier
      · exact .failing (.failed succeeds earlier)

theorem Tried.not_succeeded {trials : List Trial} (tried : Tried true trials) :
    ¬ Succeeded trials := by
  cases tried with
  | running earlier => exact not_succeeded_begun _

/-! ## What becomes of a slot after a success -/

def Stage.brings? : Stage → Option SlotId
  | carrying s _ | storing s _ => some s
  | _ => none

def World.Gone (world : World σ ν) (s : SlotId) : Prop :=
  s < world.slots.size ∧ (world.slot s).handles + (world.slot s).shared = 0

/-- The initializer of a slot is of no more use: the slot is dropped, or has its value, or gets it, or
has gone. -/
def Provided (world : World σ ν) (stage : Stage) (s : SlotId) : Prop :=
  (world.condition s).dropped = true ∨ (world.condition s).value ≠ none ∨ stage.brings? = some s ∨
    world.Gone s

section
variable {world next : World σ ν} {makes : Prop} {runs : Code σ ν → Prop} {stage stage' : Stage}
  {ended : Option Pause} {pushed : List Pause}

theorem Effect.taking (effect : Effect world next makes runs stage ended stage' pushed)
    (taking : ∀ s, stage = .taking s → (world.condition s).dropped = true) (s : SlotId)
    (takes : stage' = .taking s) : (next.condition s).dropped = true := by
  cases effect with
  | quiet same =>
      rw [same.condition]
      exact taking s takes
  | swapped undropped change =>
      obtain rfl := Stage.taking.inj takes
      rw [change.condition, if_pos rfl]
  | copied source same made => rcases made with rfl | rfl <;> contradiction
  | _ => contradiction

theorem World.made_of_value {s : SlotId} (held : (world.condition s).value ≠ none) :
    s < world.slots.size := by
  by_contra unmade
  apply held
  rw [condition, slot, Table.get, List.getElem?_eq_none (Nat.le_of_not_lt unmade)]
  rfl

theorem Effect.provided_of_value
    (effect : Effect world next makes runs stage ended stage' pushed)
    (taking : ∀ s, stage = .taking s → (world.condition s).dropped = true)
    (made : world.slots.size ≤ next.slots.size) (s : SlotId)
    (held : (world.condition s).value ≠ none) : Provided next stage' s := by
  cases effect
  case began change | failed change | produced change | released change | swapped change
    | stored change | cloned change =>
      right
      left
      rw [change.condition]
      split
      · next equal => simp [equal, held]
      · exact held
  case took t value code found change =>
      by_cases equal : t = s
      · subst equal
        exact .inl (by rw [change.condition, if_pos rfl]; exact taking t rfl)
      · exact .inr (.inl (by rwa [change.condition, if_neg equal]))
  case discarded t value gone found change =>
      by_cases equal : t = s
      · subst equal
        exact .inr (.inr (.inr ⟨Nat.lt_of_lt_of_le (World.made_of_value held) made,
          (next.unheld_slot t).mp gone⟩))
      · exact .inr (.inl (by rwa [change.condition, if_neg equal]))
  all_goals
    have same : world.Alike next := by assumption
    exact .inr (.inl (by rwa [same.condition]))

theorem Effect.provided (effect : Effect world next makes runs stage ended stage' pushed)
    (taking : ∀ s, stage = .taking s → (world.condition s).dropped = true)
    (gone : ∀ s, world.Gone s → next.Gone s) (made : world.slots.size ≤ next.slots.size) (s : SlotId)
    (provided : Provided world stage s) : Provided next stage' s := by
  rcases provided with dropped | held | brings | old
  · exact .inl (effect.dropped dropped)
  · exact effect.provided_of_value taking made s held
  · cases effect with
    | quiet same => exact .inr (.inr (.inl brings))
    | confirmed same undropped => exact .inr (.inr (.inl brings))
    | overtaken same dropped =>
        obtain rfl := Option.some.inj brings
        exact .inl (by rwa [same.condition])
    | stored change =>
        obtain rfl := Option.some.inj brings
        exact .inr (.inl (by simp [change.condition]))
    | _ => contradiction
  · exact .inr (.inr (.inr (gone s old)))

end

/-! ## Runs -/

theorem Thread.pause_of_top {thread : Thread σ ν} {frame : Frame σ ν} {pause : Pause}
    (top : thread.top? = some frame) (pauses : frame.pause? = some pause) : pause ∈ thread.pauses := by
  obtain ⟨id, control, stack⟩ := thread
  unfold top? at top
  split at top
  · exact List.mem_filterMap.mpr ⟨frame, List.mem_of_mem_head? top, pauses⟩
  · contradiction

theorem Guarded.set_of_paused {condition : SlotId → Condition} {stage : Stage} {pauses : List Pause}
    {s : SlotId} (guarded : Guarded condition stage pauses) (paused : .initializing s ∈ pauses) :
    (condition s).initializing = true := by
  have running := guarded.running s
  have once := List.count_pos_iff.mpr paused
  by_contra unset
  rw [if_neg unset] at running
  omega

structure Tracked (world : World σ ν) (thread : Thread σ ν) : Prop where
  sound : Sound world thread
  held : Held world thread
  tried : ∀ s, Tried (world.slot s).initializing (world.trials s)
  provided : ∀ s, Succeeded (world.trials s) → Provided world thread.control.stage s
  taking : ∀ s, thread.control.stage = .taking s → (world.condition s).dropped = true

namespace Tracked

variable {world next : World σ ν} {thread after : Thread σ ν}

theorem unsuccessful (tracked : Tracked world thread) {s : SlotId}
    (work : thread.control = .task (.produce s)) (undropped : (world.slot s).dropped = false) :
    ¬ Succeeded (world.trials s) := by
  intro succeeded
  have vacant := tracked.sound.guarded.vacant s
  have shared := tracked.held.shared (s := s)
  have provided := tracked.provided s succeeded
  rw [work] at vacant shared provided
  -- Whatever a success has left behind, a thread about to produce has found the opposite.
  rcases provided with dropped | valued | brings | ⟨_, gone⟩
  · exact absurd (undropped.symm.trans dropped) nofun
  · exact valued (vacant rfl)
  · contradiction
  · have shared := shared rfl
    omega

theorem step (tracked : Tracked world thread) (action : thread.step world = some (next, after)) :
    Tracked next after := by
  obtain ⟨pushed, rest, _, _, effect⟩ := Thread.step_affects action
  obtain ⟨_, _, _, _, _, passes⟩ := Thread.step_passes action
  have pays := (Thread.step_pays tracked.held action).1
  have gone (s : SlotId) (old : world.Gone s) : next.Gone s :=
    ⟨Nat.lt_of_lt_of_le old.1 pays.made, pays.gone s old.1 old.2⟩
  have remains := effect.provided tracked.taking gone pays.made
  refine ⟨tracked.sound.step action, tracked.held.step action, fun s => ?_, fun s succeeded => ?_,
    effect.taking tracked.taking⟩
  -- The step leaves the trials alone, or begins one, or ends the one that is under way.
  · rcases passes.tries s with ⟨flag, trials⟩ | ⟨work, undropped, flag, trials⟩ |
      ⟨exit, top, flag, trials, _⟩
    · rw [flag, trials]
      exact tracked.tried s
    · have unset : (world.slot s).initializing = false :=
        tracked.sound.guarded.clear s (by rw [work]; rfl)
      have tried := tracked.tried s
      rw [unset] at tried
      rw [flag, trials]
      exact tried.begin (tracked.unsuccessful work undropped)
    · have set : (world.slot s).initializing = true :=
        tracked.sound.guarded.set_of_paused (Thread.pause_of_top top rfl)
      have tried := tracked.tried s
      rw [set] at tried
      rw [flag, trials]
      exact tried.finish exit
  · rcases passes.tries s with ⟨_, trials⟩ | ⟨_, _, _, trials⟩ | ⟨exit, _, _, trials, carries⟩
    · rw [trials] at succeeded
      exact remains s (tracked.provided s succeeded)
    · rw [trials] at succeeded
      exact absurd succeeded (not_succeeded_begun _)
    · rw [trials] at succeeded
      obtain ⟨value, carried⟩ := carries (succeeded_ended succeeded)
      rw [carried]
      exact .inr (.inr (.inl rfl))

theorem ofCode (memory : σ) (id : ThreadId) (code : Code σ ν) :
    Tracked { memory } (.ofCode id code) where
  sound := .ofCode memory id code
  held := .ofCode memory id code
  tried _ := .failing .none
  provided _ succeeded := absurd succeeded Failing.none.not_succeeded
  taking := nofun

theorem advance (memory : σ) (id : ThreadId) (code : Code σ ν) (steps : Nat) :
    Tracked (Thread.advance steps { memory } (.ofCode id code)).1
      (Thread.advance steps { memory } (.ofCode id code)).2 :=
  Thread.advance_rule Tracked (fun _ _ _ _ tracked action => tracked.step action)
    (.ofCode memory id code) steps

end Tracked

end Relinquish
