import Relinquish.Proofs.Copies
import Mathlib.Data.List.Count
import Mathlib.Data.List.Nodup

/-!
Conservation of values. Every value that enters a slot's life stays in the slot, or goes to the
slot's drop handler once, or is lost with the slot, which warns; a thread that is on the way from
one of these to another carries the value.
-/

namespace Relinquish

variable {σ ν : Type}

/-! ## The books -/

def Deed.entry? : Deed → Option (SlotId × Value)
  | produced s value | cloned s value => some (s, value)
  | _ => none

def Deed.handed? : Deed → Option (SlotId × Value)
  | handed s value => some (s, value)
  | _ => none

def Deed.lost? : Deed → Option (SlotId × Value)
  | lost s value => some (s, value)
  | _ => none

def Deed.warned? : Deed → Option SlotId
  | warned s => some s
  | _ => none

namespace World

variable (world : World σ ν)

def entered : List (SlotId × Value) :=
  world.ledger.filterMap Deed.entry?

def handed : List (SlotId × Value) :=
  world.ledger.filterMap Deed.handed?

def lost : List (SlotId × Value) :=
  world.ledger.filterMap Deed.lost?

def warned : List SlotId :=
  world.ledger.filterMap Deed.warned?

end World

def Stage.flight : Stage → List (SlotId × Value)
  | carrying s value | storing s value | late s value => [(s, value)]
  | _ => []

/-! ## The guard of the right to initialize -/

def Stage.entered? : Stage → Option SlotId
  | entered s | vacant s | carrying s _ | storing s _ => some s
  | _ => none

def Stage.vacant? : Stage → Option SlotId
  | vacant s | carrying s _ | storing s _ => some s
  | _ => none

/-- Initializers run one at a time for each slot, on an empty slot; a slot that is dropped stays
empty once its value has been taken. -/
structure Guarded (condition : SlotId → Condition) (stage : Stage) (pauses : List Pause) : Prop where
  running : ∀ s, pauses.count (.initializing s) = if (condition s).initializing then 1 else 0
  clear : ∀ s, stage.entered? = some s → (condition s).initializing = false
  vacant : ∀ s, stage.vacant? = some s → (condition s).value = none
  blank : ∀ s, (condition s).initializing = true → (condition s).value = none
  undropped : ∀ s value, stage = .storing s value → (condition s).dropped = false
  emptied : ∀ s, (condition s).dropped = true → (condition s).value = none ∨ stage = .taking s

namespace Guarded

variable {condition changed : SlotId → Condition} {stage stage' : Stage} {pauses rest : List Pause}

theorem congr (guarded : Guarded condition stage pauses) (same : ∀ s, changed s = condition s) :
    Guarded changed stage pauses := by
  rw [funext same]
  exact guarded

theorem idle (guarded : Guarded condition stage pauses)
    (taken : ∀ s, stage = .taking s → (condition s).value = none) :
    Guarded condition .idle pauses where
  running := guarded.running
  clear := nofun
  vacant := nofun
  blank := guarded.blank
  undropped := nofun
  emptied := by
    intro s dropped
    rcases guarded.emptied s dropped with empty | taking
    · exact .inl empty
    · exact .inl (taken s taking)

theorem repause (guarded : Guarded condition stage pauses)
    (same : ∀ s, rest.count (.initializing s) = pauses.count (.initializing s)) :
    Guarded condition stage rest where
  running := fun s => (same s).trans (guarded.running s)
  clear := guarded.clear
  vacant := guarded.vacant
  blank := guarded.blank
  undropped := guarded.undropped
  emptied := guarded.emptied

theorem change (guarded : Guarded condition stage pauses) {s : SlotId} {c : Condition}
    (changes : ∀ t, changed t = if s = t then c else condition t)
    (running : rest.count (.initializing s) = if c.initializing then 1 else 0)
    (others : ∀ t, s ≠ t → rest.count (.initializing t) = pauses.count (.initializing t))
    (blank : c.initializing = true → c.value = none) (emptied : c.dropped = true → c.value = none)
    (taking : ∀ t, stage = .taking t → s = t) : Guarded changed .idle rest where
  running := by
    intro t
    rw [changes]
    split
    · next equal => exact equal ▸ running
    · next other => exact (others t other).trans (guarded.running t)
  clear := nofun
  vacant := nofun
  blank := by
    intro t
    rw [changes]
    split
    · exact blank
    · exact guarded.blank t
  undropped := nofun
  emptied := by
    intro t dropped
    rw [changes] at dropped ⊢
    split at dropped
    · next equal => exact .inl (by rw [if_pos equal]; exact emptied dropped)
    · next other =>
        rw [if_neg other]
        rcases guarded.emptied t dropped with empty | stage
        · exact .inl empty
        · exact absurd (taking t stage) other

theorem restage (guarded : Guarded condition .idle pauses)
    (clear : ∀ s, stage'.entered? = some s → (condition s).initializing = false)
    (vacant : ∀ s, stage'.vacant? = some s → (condition s).value = none)
    (undropped : ∀ s value, stage' = .storing s value → (condition s).dropped = false) :
    Guarded condition stage' pauses where
  running := guarded.running
  clear := clear
  vacant := vacant
  blank := guarded.blank
  undropped := undropped
  emptied := by
    intro s dropped
    rcases guarded.emptied s dropped with empty | taking
    · exact .inl empty
    · contradiction

theorem ending {s : SlotId} (guarded : Guarded condition stage (.initializing s :: pauses)) :
    pauses.count (.initializing s) = 0 ∧ (condition s).value = none := by
  have running := guarded.running s
  rw [List.count_cons_self] at running
  split at running
  · next initializing => exact ⟨Nat.succ.inj running, guarded.blank s initializing⟩
  · contradiction

theorem swap (guarded : Guarded condition .idle pauses) {s : SlotId}
    (changes : ∀ t, changed t = if s = t then { condition s with dropped := true }
      else condition t) : Guarded changed (.taking s) pauses where
  running := by
    intro t
    rw [guarded.running t, changes]
    by_cases equal : s = t
    · simp [equal]
    · simp [equal]
  clear := nofun
  vacant := nofun
  blank := by
    intro t
    rw [changes]
    split
    · exact guarded.blank s
    · exact guarded.blank t
  undropped := nofun
  emptied := by
    intro t dropped
    rw [changes] at dropped ⊢
    split at dropped
    · next equal => exact .inr (by rw [equal])
    · next other =>
        rw [if_neg other]
        rcases guarded.emptied t dropped with empty | stage
        · exact .inl empty
        · contradiction

end Guarded

section
variable {world next : World σ ν} {makes : Prop} {runs : Code σ ν → Prop} {stage stage' : Stage}
  {ended : Option Pause} {pushed rest : List Pause}

theorem Guarded.step (guarded : Guarded world.condition stage (ended.toList ++ rest))
    (effect : Effect world next makes runs stage ended stage' pushed)
    (awaited : ∀ c, ended = some (.cloning c) → world.condition c = {}) :
    Guarded next.condition stage' (pushed ++ rest) := by
  have apart {s t : SlotId} (other : s ≠ t) :
      (Pause.initializing s :: rest).count (.initializing t) = rest.count (.initializing t) := by
    rw [List.count_cons_of_ne]
    simpa using other
  have past (copy s : SlotId) :
      (Pause.cloning copy :: rest).count (.initializing s) = rest.count (.initializing s) :=
    List.count_cons_of_ne (by simp)
  cases effect with
  | quiet same => exact guarded.congr same.condition
  | entered same free =>
      refine (guarded.restage ?_ ?_ ?_).congr same.condition
      · rintro s ⟨⟩
        exact free
      · exact nofun
      · exact nofun
  | found same | refused same | delivered same => exact (guarded.idle nofun).congr same.condition
  | vacant same empty =>
      refine ((guarded.idle nofun).restage ?_ ?_ ?_).congr same.condition
      · rintro s ⟨⟩
        exact guarded.clear _ rfl
      · rintro s ⟨⟩
        exact empty
      · exact nofun
  | @began s code undropped change =>
      -- Whoever goes on to begin has found that no initializer of the slot was running.
      have unpaused := guarded.running s
      rw [guarded.clear s rfl] at unpaused
      refine guarded.change change.condition ?_ (fun t other => apart other) ?_ ?_ nofun
      · rw [List.cons_append, List.count_cons_self]
        exact congrArg (· + 1) unpaused
      · exact fun _ => guarded.vacant s rfl
      · simp [undropped]
  | @failed s change =>
      obtain ⟨last, empty⟩ := Guarded.ending guarded
      refine guarded.change change.condition last (fun t other => (apart other).symm) nofun ?_ nofun
      exact fun _ => empty
  | @produced s value fresh change =>
      obtain ⟨last, empty⟩ := Guarded.ending guarded
      have idle : Guarded next.condition .idle rest := by
        refine guarded.change change.condition last (fun t other => (apart other).symm) nofun ?_
          nofun
        exact fun _ => empty
      apply idle.restage
      · rintro t ⟨⟩
        simp [change.condition]
      · rintro t ⟨⟩
        simp [change.condition, empty]
      · exact nofun
  | confirmed same undropped =>
      refine ((guarded.idle nofun).restage ?_ ?_ ?_).congr same.condition
      · rintro s ⟨⟩
        exact guarded.clear _ rfl
      · rintro s ⟨⟩
        exact guarded.vacant _ rfl
      · rintro s value ⟨⟩
        exact undropped
  | overtaken same | nothing same =>
      refine ((guarded.idle nofun).restage ?_ ?_ ?_).congr same.condition
      · exact nofun
      · exact nofun
      · exact nofun
  | @stored s value change =>
      have clear := guarded.clear s rfl
      have undropped := guarded.undropped s value rfl
      refine guarded.change change.condition (guarded.running s) (fun _ _ => rfl) ?_ ?_ nofun
      · simp [clear]
      · simp [undropped]
  | released code change =>
      apply (guarded.idle nofun).congr
      intro t
      rw [change.condition]
      split
      · next equal => rw [equal]
      · rfl
  | swapped undropped change => exact guarded.swap change.condition
  | @took s value code held change =>
      apply guarded.change change.condition (guarded.running s) (fun _ _ => rfl)
      · exact fun _ => rfl
      · exact fun _ => rfl
      · rintro t ⟨⟩
        rfl
  | missed same empty =>
      refine (guarded.idle ?_).congr same.condition
      rintro s ⟨⟩
      exact empty
  | @discarded s value gone held change =>
      refine guarded.change change.condition (guarded.running s) (fun _ _ => rfl) ?_ ?_ nofun
      · exact fun _ => rfl
      · exact fun _ => rfl
  | copied source same made =>
      refine (guarded.restage ?_ ?_ ?_).congr same.condition
      all_goals rcases made with rfl | rfl <;> exact nofun
  | @cloning copy same => exact ((guarded.idle nofun).repause (past copy)).congr same.condition
  | @cloned copy value fresh change =>
      have blank := awaited copy rfl
      have idle : Guarded next.condition .idle rest := by
        refine guarded.change change.condition ?_ (fun t _ => (past copy t).symm) ?_ ?_ nofun
        · exact (past copy copy).symm.trans (guarded.running copy)
        · simp [blank]
        · simp [blank]
      exact idle.restage nofun nofun nofun
  | @uncloned copy same =>
      exact (guarded.repause fun s => (past copy s).symm).congr same.condition

/-! ## The balance -/

def Condition.stock (condition : Condition) (value : Value) : Nat :=
  if condition.value = some value then 1 else 0

/-- Each value that entered the life of a slot is in the slot, or on its way, or has been handed to
the drop handler, or is lost; and for each loss there is a warning. -/
structure Balanced (world : World σ ν) (stage : Stage) : Prop where
  fresh : ∀ entry ∈ world.entered, entry.2.id < world.values
  distinct : (world.entered.map fun entry => entry.2.id).Nodup
  balance : ∀ s value, world.entered.count (s, value) =
    (world.condition s).stock value + stage.flight.count (s, value) +
      world.handed.count (s, value) + world.lost.count (s, value)
  warned : world.warned = world.lost.map Prod.fst

theorem Balanced.alike (balanced : Balanced world stage) (same : world.Alike next)
    (flight : stage'.flight = stage.flight) : Balanced next stage' where
  fresh := by
    intro entry listed
    rw [World.entered, same.ledger] at listed
    exact Nat.lt_of_lt_of_le (balanced.fresh entry listed) same.values
  distinct := by
    rw [World.entered, same.ledger]
    exact balanced.distinct
  balance := by
    intro s value
    rw [World.entered, World.handed, World.lost, same.ledger, same.condition, flight]
    exact balanced.balance s value
  warned := by
    rw [World.warned, World.lost, same.ledger]
    exact balanced.warned

structure Books (s : SlotId) (condition : Condition) (stage : Stage) (deeds : List Deed)
    (condition' : Condition) (stage' : Stage) : Prop where
  moves : ∀ value, (deeds.filterMap Deed.entry?).count (s, value) + condition.stock value +
      stage.flight.count (s, value) =
    condition'.stock value + stage'.flight.count (s, value) +
      (deeds.filterMap Deed.handed?).count (s, value) +
      (deeds.filterMap Deed.lost?).count (s, value)
  others : ∀ t value, s ≠ t →
    (deeds.filterMap Deed.entry?).count (t, value) + stage.flight.count (t, value) =
      stage'.flight.count (t, value) + (deeds.filterMap Deed.handed?).count (t, value) +
        (deeds.filterMap Deed.lost?).count (t, value)
  warns : deeds.filterMap Deed.warned? = (deeds.filterMap Deed.lost?).map Prod.fst

theorem Balanced.alters {s : SlotId} {condition : Condition} {deeds : List Deed} {made : Nat}
    (balanced : Balanced world stage) (change : world.Alters next s condition deeds made)
    (books : Books s (world.condition s) stage deeds condition stage')
    (entries : deeds.filterMap Deed.entry? = [] ∨ ∃ value,
      deeds.filterMap Deed.entry? = [(s, value)] ∧ value.id = world.values ∧ made = 1) :
    Balanced next stage' := by
  have entered : next.entered = deeds.filterMap Deed.entry? ++ world.entered := by
    rw [World.entered, change.ledger, List.filterMap_append, World.entered]
  have grows : world.values ≤ next.values := by
    rw [change.values]
    exact Nat.le_add_right _ _
  constructor
  -- A value that enters now is newer than all that have entered before.
  · intro entry listed
    rw [entered] at listed
    rcases List.mem_append.mp listed with new | old
    · rcases entries with none | ⟨value, one, fresh, made⟩
      · rw [none] at new
        exact absurd new List.not_mem_nil
      · rw [one] at new
        rw [List.mem_singleton.mp new, change.values, made]
        exact Nat.lt_succ_of_le (Nat.le_of_eq fresh)
    · exact Nat.lt_of_lt_of_le (balanced.fresh entry old) grows
  · rw [entered]
    rcases entries with none | ⟨value, one, fresh, _⟩
    · rw [none]
      exact balanced.distinct
    · rw [one]
      refine List.nodup_cons.mpr ⟨fun listed => ?_, balanced.distinct⟩
      obtain ⟨entry, old, equal⟩ := List.mem_map.mp listed
      have less := balanced.fresh entry old
      rw [equal] at less
      exact absurd (fresh ▸ less) (Nat.lt_irrefl _)
  · intro t value
    have before := balanced.balance t value
    rw [entered, World.handed, World.lost, change.ledger, change.condition]
    rw [World.handed, World.lost] at before
    simp only [List.filterMap_append, List.count_append]
    split
    · next equal =>
        have moves := books.moves value
        rw [equal] at moves
        omega
    · next other =>
        have others := books.others t value other
        omega
  · rw [World.warned, World.lost, change.ledger, List.filterMap_append, List.filterMap_append,
      List.map_append, books.warns]
    exact congrArg _ balanced.warned

theorem Balanced.step (balanced : Balanced world stage)
    (guarded : Guarded world.condition stage (ended.toList ++ rest))
    (effect : Effect world next makes runs stage ended stage' pushed)
    (awaited : ∀ c, ended = some (.cloning c) → world.condition c = {}) :
    Balanced next stage' := by
  cases effect
  case quiet same | entered same _ | found same | vacant same _ | refused same _
    | confirmed same _ | overtaken same _ | missed same _ | cloning same | nothing same
    | uncloned same | delivered same =>
      exact balanced.alike same rfl
  case copied source same made =>
      rcases made with rfl | rfl <;> exact balanced.alike same rfl
  case began change | failed change | released change | swapped change =>
      refine balanced.alters change ⟨?_, ?_, ?_⟩ (.inl rfl) <;>
        simp [List.filterMap_cons, Deed.entry?, Deed.handed?, Deed.lost?, Deed.warned?,
          Stage.flight, Condition.stock]
  case produced fresh change =>
      refine balanced.alters change ⟨?_, ?_, ?_⟩ (.inr ⟨_, rfl, fresh, rfl⟩) <;>
        simp [List.filterMap_cons, Deed.entry?, Deed.handed?, Deed.lost?, Deed.warned?,
          Stage.flight, Condition.stock, Nat.add_comm]
  case stored s value change =>
      have vacant := guarded.vacant s rfl
      refine balanced.alters change ⟨?_, ?_, ?_⟩ (.inl rfl) <;>
        simp [Stage.flight, Condition.stock, vacant, List.count_cons]
  case took held change | discarded gone held change =>
      refine balanced.alters change ⟨?_, ?_, ?_⟩ (.inl rfl) <;>
        simp +contextual [List.filterMap_cons, Deed.entry?, Deed.handed?, Deed.lost?, Deed.warned?,
          Stage.flight, Condition.stock, List.count_cons, held]
  case cloned copy value fresh change =>
      have blank := awaited copy rfl
      refine balanced.alters change ⟨?_, ?_, ?_⟩ (.inr ⟨_, rfl, fresh, rfl⟩) <;>
        simp [List.filterMap_cons, Deed.entry?, Deed.handed?, Deed.lost?, Deed.warned?,
          Stage.flight, Condition.stock, List.count_cons, blank]

theorem Effect.dropped (effect : Effect world next makes runs stage ended stage' pushed)
    {s : SlotId} (dropped : (world.condition s).dropped = true) :
    (next.condition s).dropped = true := by
  cases effect
  case began change | failed change | produced change | stored change | released change
    | swapped change | took change | discarded change | cloned change =>
      rw [change.condition]
      split
      · next equal => simp [equal, dropped]
      · exact dropped
  all_goals
    have same : world.Alike next := by assumption
    rw [same.condition]
    exact dropped

/-- What a step writes into the books, and why: a value enters when the initializer or the cloner of
a slot has ended, it is handed over by going on with the slot's drop handler, and it is lost with the
last hold on the slot. -/
structure Accounts (world next : World σ ν) (runs : Code σ ν → Prop) (ended : Option Pause) :
    Prop where
  entered : next.entered = world.entered ∨ ∃ s value,
    next.entered = (s, value) :: world.entered ∧
      (ended = some (.initializing s) ∨ ended = some (.cloning s))
  handed : next.handed = world.handed ∨ ∃ s value,
    next.handed = (s, value) :: world.handed ∧ runs ((world.slot s).release value)
  lost : next.lost = world.lost ∨ ∃ s value,
    next.lost = (s, value) :: world.lost ∧ (world.slot s).value = some value ∧
      next.unheld (.slot s) = true
  dropped : ∀ s, (world.slot s).dropped = true → (next.slot s).dropped = true

theorem Effect.accounts (effect : Effect world next makes runs stage ended stage' pushed) :
    Accounts world next runs ended := by
  have books {s : SlotId} {condition : Condition} {deeds : List Deed} {made : Nat}
      (change : world.Alters next s condition deeds made) :
      next.entered = deeds.filterMap Deed.entry? ++ world.entered ∧
        next.handed = deeds.filterMap Deed.handed? ++ world.handed ∧
        next.lost = deeds.filterMap Deed.lost? ++ world.lost := by
    simp [World.entered, World.handed, World.lost, change.ledger]
  have dropped : ∀ s, (world.slot s).dropped = true → (next.slot s).dropped = true :=
    fun s => effect.dropped
  cases effect
  case released s value code change | took s value code held change =>
      obtain ⟨entered, handed, lost⟩ := books change
      exact ⟨.inl entered, .inr ⟨s, value, handed, code⟩, .inl lost, dropped⟩
  case produced s value fresh change =>
      obtain ⟨entered, handed, lost⟩ := books change
      exact ⟨.inr ⟨s, value, entered, .inl rfl⟩, .inl handed, .inl lost, dropped⟩
  case cloned s value fresh change =>
      obtain ⟨entered, handed, lost⟩ := books change
      exact ⟨.inr ⟨s, value, entered, .inr rfl⟩, .inl handed, .inl lost, dropped⟩
  case discarded s value gone held change =>
      obtain ⟨entered, handed, lost⟩ := books change
      exact ⟨.inl entered, .inl handed, .inr ⟨s, value, lost, held, gone⟩, dropped⟩
  case began change | failed change | stored change | swapped change =>
      obtain ⟨entered, handed, lost⟩ := books change
      exact ⟨.inl entered, .inl handed, .inl lost, dropped⟩
  all_goals
    have same : world.Alike next := by assumption
    refine ⟨.inl ?_, .inl ?_, .inl ?_, dropped⟩
    · rw [World.entered, same.ledger, World.entered]
    · rw [World.handed, same.ledger, World.handed]
    · rw [World.lost, same.ledger, World.lost]

end

/-! ## Runs -/

structure Sound (world : World σ ν) (thread : Thread σ ν) : Prop where
  discreet : Discreet world thread
  guarded : Guarded world.condition thread.control.stage thread.pauses
  balanced : Balanced world thread.control.stage

theorem Sound.step {world next : World σ ν} {thread after : Thread σ ν}
    (sound : Sound world thread) (action : thread.step world = some (next, after)) :
    Sound next after := by
  obtain ⟨pushed, rest, before, afterwards, effect⟩ := Thread.step_affects action
  have awaited : ∀ c, thread.ended? = some (.cloning c) → world.condition c = {} := by
    intro c ended
    refine sound.discreet.blank c (List.mem_append_right _ ?_)
    simp [before, ended, Pause.copy?]
  have guarded := sound.guarded
  rw [before] at guarded
  refine ⟨sound.discreet.step action, ?_, sound.balanced.step guarded effect awaited⟩
  rw [afterwards]
  exact guarded.step effect awaited

theorem Sound.ofCode (memory : σ) (id : ThreadId) (code : Code σ ν) :
    Sound { memory } (.ofCode id code) where
  discreet := Discreet.ofCode memory id code
  guarded := ⟨fun _ => rfl, nofun, nofun, nofun, nofun, nofun⟩
  balanced := ⟨nofun, List.nodup_nil, fun _ _ => rfl, rfl⟩

theorem Sound.advance (memory : σ) (id : ThreadId) (code : Code σ ν) (steps : Nat) :
    Sound (Thread.advance steps { memory } (.ofCode id code)).1
      (Thread.advance steps { memory } (.ofCode id code)).2 :=
  Thread.advance_rule Sound
    (fun _ _ _ _ sound action => Sound.step sound action) (Sound.ofCode memory id code) steps

/-- User code runs, or a call or the whole run has ended. -/
def Thread.Observes (thread : Thread σ ν) : Prop :=
  match thread.control with
  | .code _ | .task (.finish _) => True
  | _ => False

theorem Thread.Observes.idle {thread : Thread σ ν} (observes : thread.Observes) :
    thread.control.stage = .idle := by
  unfold Observes at observes
  split at observes
  · next control => rw [control]; rfl
  · next control => rw [control]; rfl
  · contradiction

end Relinquish
