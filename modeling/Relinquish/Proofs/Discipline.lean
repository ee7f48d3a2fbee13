import Relinquish.Proofs.Refusals

/-!
The discipline of initializers. One at a time runs for a slot, which refuses meanwhile to give its
value; once one has succeeded, or the slot has been dropped, no other one begins.
-/

namespace Relinquish

variable {σ ν : Type}

/-! ## Asking a slot whose initializer runs, or that is dropped and empty -/

/-- The part of the stack that the running thread has pushed. -/
def Thread.segment (thread : Thread σ ν) : List (Frame σ ν) :=
  thread.stack.takeWhile fun frame => frame.starter?.isNone

theorem mem_keepers {s : SlotId} (id : ThreadId) {stack : List (Frame σ ν)}
    (runs : .initializing s ∈ stack.takeWhile fun frame => frame.starter?.isNone) :
    id ∈ keepers s id stack := by
  induction stack with
  | nil => contradiction
  | cons frame rest ih =>
      cases starter : frame.starter? with
      | some other => simp [starter] at runs
      | none =>
          rw [keepers, starter, Option.getD_none]
          rw [List.takeWhile_cons, starter] at runs
          rcases List.mem_cons.mp runs with rfl | below
          · simp [Frame.kept]
          · exact List.mem_append_right _ (ih below)

theorem keepers_eq_nil {s : SlotId} (id : ThreadId) {stack : List (Frame σ ν)}
    (runs : .initializing s ∉ stack.filterMap Frame.pause?) : keepers s id stack = [] := by
  induction stack generalizing id with
  | nil => rfl
  | cons frame rest ih =>
      have none : frame.kept.count s = 0 := by
        apply List.count_eq_zero.mpr
        intro kept
        cases frame <;> simp only [Frame.kept, List.mem_singleton, List.not_mem_nil] at kept
        subst kept
        exact runs (.head _)
      rw [keepers, none, ih]
      · rfl
      · intro below
        obtain ⟨other, member, paused⟩ := List.mem_filterMap.mp below
        exact runs (List.mem_filterMap.mpr ⟨other, .tail _ member, paused⟩)

theorem Owned.admits {world : World σ ν} {s : SlotId} {keepers : List ThreadId} {id : ThreadId}
    (owned : Owned (world.slot s).entered keepers) (member : id ∈ keepers) :
    ∃ depth, world.Admits s id depth := by
  cases entered : (world.slot s).entered with
  | none =>
      rw [entered] at owned
      have none : keepers = [] := owned
      rw [none] at member
      contradiction
  | some entry =>
      obtain ⟨owner, depth⟩ := entry
      rw [entered] at owned
      obtain ⟨positive, same⟩ := owned
      rw [same] at member
      obtain rfl := List.eq_of_mem_replicate member
      obtain ⟨left, rfl⟩ : ∃ left, depth = left + 1 := ⟨depth - 1, by omega⟩
      exact ⟨left + 1, .again entered⟩

theorem Owned.free {world : World σ ν} {s : SlotId} (id : ThreadId)
    (owned : Owned (world.slot s).entered []) : world.Admits s id 0 := by
  cases entered : (world.slot s).entered with
  | none => exact .free entered
  | some entry =>
      rw [entered] at owned
      obtain ⟨positive, same⟩ := owned
      have none : entry.2 = 0 := by simpa using congrArg List.length same.symm
      omega

theorem World.Vacant.retain {world : World σ ν} {s : SlotId} {id : ThreadId} {depth : Nat}
    (vacant : world.Vacant s id depth) : (world.retain (.slot s)).Vacant s id depth := by
  have entered : ((world.retain (.slot s)).slot s).entered = (world.slot s).entered := by
    rw [World.retain, slot_updateSlot, if_pos rfl]
  refine ⟨Nat.lt_of_lt_of_le vacant.made (Table.size_le_update world.slots s _), vacant.free, ?_, ?_⟩
  · rw [World.retain, slot_updateSlot, if_pos rfl]
    exact vacant.empty
  · cases vacant.admits with
    | free none => exact .free (entered.trans none)
    | again some => exact .again (entered.trans some)

/-! ## Lookups in a run -/

theorem Sound.runs_of_set {world : World σ ν} {thread : Thread σ ν} {s : SlotId}
    (sound : Sound world thread) (set : (world.slot s).initializing = true) :
    .initializing s ∈ thread.stack := by
  have running := (sound.guarded.running s).trans (if_pos set)
  obtain ⟨frame, member, paused⟩ :=
    List.mem_filterMap.mp (List.count_pos_iff.mp (Nat.lt_of_lt_of_eq Nat.one_pos running.symm))
  cases frame <;> simp only [Frame.pause?, reduceCtorEq, Option.some.injEq] at paused
  cases paused
  exact member

/-- What the answers to lookups come from, at every moment of a run. -/
structure Regular (world : World σ ν) (thread : Thread σ ν) : Prop where
  tracked : Tracked world thread
  kept : Kept world thread
  free : ∀ lock, world.free lock = true ↔ lock ∉ thread.locks

namespace Regular

variable {world : World σ ν} {thread : Thread σ ν} {s : SlotId}

theorem advance (memory : σ) (id : ThreadId) (code : Code σ ν) (steps : Nat) :
    Regular (Thread.advance steps { memory } (.ofCode id code)).1
      (Thread.advance steps { memory } (.ofCode id code)).2 := by
  refine ⟨.advance memory id code steps, .advance memory id code steps, fun lock => ?_⟩
  have run : Thread.Reaches { memory } (.ofCode id code) _ _ := ⟨steps, rfl⟩
  rw [(run.restores rfl).orderly.free]
  exact and_iff_right rfl

theorem value_free (regular : Regular world thread) (unlocked : thread.control.locks = []) :
    world.free (.value s) = true := by
  rw [regular.free, Thread.locks, unlocked, List.nil_append]
  intro held
  obtain ⟨frame, _, locked⟩ := List.mem_flatMap.mp held
  exact frame.value_unlocked s locked

theorem set_of_runs (regular : Regular world thread) (runs : .initializing s ∈ thread.segment) :
    (world.slot s).initializing = true := by
  have member : .initializing s ∈ thread.stack := (List.takeWhile_sublist _).subset runs
  exact regular.tracked.sound.guarded.set_of_paused (List.mem_filterMap.mpr ⟨_, member, rfl⟩)

theorem vacant_of_runs (regular : Regular world thread) (made : s < world.slots.size)
    (unlocked : thread.control.locks = []) (runs : .initializing s ∈ thread.segment) :
    ∃ depth, world.Vacant s thread.id depth := by
  -- Whoever runs the initializer has entered the slot and may enter again.
  have keeps : thread.id ∈ thread.keepers s := List.mem_append_right _ (mem_keepers thread.id runs)
  obtain ⟨depth, admits⟩ := Owned.admits (regular.kept s) keeps
  exact ⟨depth, made, regular.value_free unlocked,
    regular.tracked.sound.guarded.blank s (regular.set_of_runs runs), admits⟩

theorem vacant_of_unset (regular : Regular world thread) (made : s < world.slots.size)
    (unlocked : thread.control.locks = []) (unkept : thread.control.kept = [])
    (unset : (world.slot s).initializing = false) (empty : (world.slot s).value = none) :
    world.Vacant s thread.id 0 := by
  have unkeeps : thread.keepers s = [] := by
    rw [Thread.keepers, unkept, keepers_eq_nil thread.id]
    · rfl
    · intro paused
      exact Bool.false_ne_true (unset.symm.trans (regular.tracked.sound.guarded.set_of_paused paused))
  have owned := regular.kept s
  rw [unkeeps] at owned
  exact ⟨made, regular.value_free unlocked, empty, owned.free thread.id⟩

theorem runs_of_set (regular : Regular world thread) (set : (world.slot s).initializing = true) :
    .initializing s ∈ thread.stack :=
  regular.tracked.sound.runs_of_set set

theorem refuses_look (regular : Regular world thread) (looks : thread.control = .task (.look s))
    (runs : .initializing s ∈ thread.segment) :
    Thread.Works world thread world
      ⟨thread.id, .task (.finish (.refused .reentrant)), thread.stack⟩ := by
  obtain ⟨id, control, stack⟩ := thread
  obtain rfl : control = .task (.look s) := looks
  have shared := regular.tracked.held.shared (s := s) rfl
  have made := World.made_of_held (Nat.add_pos_right _ shared)
  obtain ⟨depth, vacant⟩ := regular.vacant_of_runs made rfl runs
  exact vacant.refuses stack (regular.set_of_runs runs)

variable {call : Call σ ν}

theorem refuses (regular : Regular world thread) (gets : call.Gets s)
    (starts : thread.control = .task (.start call)) (handles : 0 < (world.slot s).handles)
    (runs : .initializing s ∈ thread.segment) :
    Thread.Works world thread (world.act (.lookedUp s (.refused .reentrant)))
      ⟨thread.id, .task (.finish (.refused .reentrant)), thread.stack⟩ := by
  obtain ⟨id, control, stack⟩ := thread
  obtain rfl : control = .task (.start call) := starts
  have made := World.made_of_held (Nat.add_pos_left handles _)
  obtain ⟨depth, vacant⟩ := regular.vacant_of_runs made rfl runs
  have same := congrArg Condition.initializing (world.condition_retain (.slot s) s)
  have set := same.trans (regular.set_of_runs runs)
  exact Thread.Works.call gets handles (fun base => vacant.retain.refuses base set) stack

theorem withholds (regular : Regular world thread) (gets : call.Gets s)
    (starts : thread.control = .task (.start call)) (handles : 0 < (world.slot s).handles)
    (dropped : (world.slot s).dropped = true) (empty : (world.slot s).value = none)
    (unset : (world.slot s).initializing = false) :
    Thread.Works world thread (world.act (.lookedUp s (.refused .dropped)))
      ⟨thread.id, .task (.finish (.refused .dropped)), thread.stack⟩ := by
  obtain ⟨id, control, stack⟩ := thread
  obtain rfl : control = .task (.start call) := starts
  have made := World.made_of_held (Nat.add_pos_left handles _)
  have vacant := (regular.vacant_of_unset made rfl rfl unset empty).retain
  have same := world.condition_retain (.slot s) s
  have still := (congrArg Condition.initializing same).trans unset
  have gone := (congrArg Condition.dropped same).trans dropped
  exact Thread.Works.call gets handles (fun base => vacant.withholds base still gone) stack

end Regular

/-! ## No trials after a success or a drop -/

section
variable {world next : World σ ν} {thread after : Thread σ ν} {s : SlotId}

theorem Tracked.trials_of_succeeded (tracked : Tracked world thread)
    (succeeded : Succeeded (world.trials s)) (action : thread.step world = some (next, after)) :
    next.trials s = world.trials s := by
  obtain ⟨_, _, _, _, _, passes⟩ := Thread.step_passes action
  rcases passes.tries s with ⟨_, trials⟩ | ⟨work, undropped, _, _⟩ | ⟨exit, top, _, _, _⟩
  · exact trials
  · exact absurd succeeded (tracked.unsuccessful work undropped)
  · -- A trial that ends now has been under way, hence has not succeeded before.
    have set : (world.slot s).initializing = true :=
      tracked.sound.guarded.set_of_paused (Thread.pause_of_top top rfl)
    have tried := tracked.tried s
    rw [set] at tried
    exact absurd succeeded tried.not_succeeded

theorem Tracked.settled (tracked : Tracked world thread) (succeeded : Succeeded (world.trials s))
    (steps : Nat) : (Thread.advance steps world thread).1.trials s = world.trials s := by
  refine (Thread.advance_rule
    (fun next after => Tracked next after ∧ next.trials s = world.trials s)
    (fun middle between next after earlier action => ?_) ⟨tracked, rfl⟩ steps).2
  obtain ⟨tracked, same⟩ := earlier
  exact ⟨tracked.step action, (tracked.trials_of_succeeded (same ▸ succeeded) action).trans same⟩

theorem Thread.step_trials_of_dropped (dropped : (world.slot s).dropped = true)
    (action : thread.step world = some (next, after)) :
    ∃ since, next.trials s = since ++ world.trials s ∧ .begun ∉ since := by
  obtain ⟨_, _, _, _, _, passes⟩ := step_passes action
  rcases passes.tries s with ⟨_, trials⟩ | ⟨_, undropped, _, _⟩ | ⟨exit, _, _, trials, _⟩
  · exact ⟨[], trials, List.not_mem_nil⟩
  · exact absurd (undropped.symm.trans dropped) Bool.false_ne_true
  · exact ⟨[.ended exit], trials, by simp⟩

theorem Thread.advance_trials_of_dropped (dropped : (world.slot s).dropped = true) (steps : Nat) :
    ∃ since, (advance steps world thread).1.trials s = since ++ world.trials s ∧
      .begun ∉ since := by
  refine (advance_rule
    (fun next _ => (next.slot s).dropped = true ∧
      ∃ since, next.trials s = since ++ world.trials s ∧ .begun ∉ since)
    (fun middle between next after earlier action => ?_)
    ⟨dropped, [], rfl, List.not_mem_nil⟩ steps).2
  obtain ⟨dropped, since, earlier, begun⟩ := earlier
  obtain ⟨_, _, _, _, effect⟩ := step_affects action
  obtain ⟨more, later, unbegun⟩ := step_trials_of_dropped dropped action
  refine ⟨effect.dropped dropped, more ++ since, ?_, ?_⟩
  · rw [later, earlier, List.append_assoc]
  · exact fun member => (List.mem_append.mp member).elim unbegun begun

end

/-! ## The discipline -/

/-- How a slot's initializer is run, and what whoever asks for the slot's value is answered. An
answer to a call leaves nothing behind but the act of looking up, which no log shows. -/
structure Disciplined (world : World σ ν) (thread : Thread σ ν) (s : SlotId) : Prop where
  /-- The initializer is on the stack once or not at all, as the flag says. -/
  alone : thread.pauses.count (.initializing s) = if (world.slot s).initializing then 1 else 0
  refuses : ∀ call : Call σ ν, call.Gets s → thread.control = .task (.start call) →
    0 < (world.slot s).handles → .initializing s ∈ thread.segment →
      Thread.Works world thread (world.act (.lookedUp s (.refused .reentrant)))
        ⟨thread.id, .task (.finish (.refused .reentrant)), thread.stack⟩
  /-- So is whoever looks for the value through an accessor. -/
  refusesLook : thread.control = .task (.look s) → .initializing s ∈ thread.segment →
    Thread.Works world thread world
      ⟨thread.id, .task (.finish (.refused .reentrant)), thread.stack⟩
  refusesOnly : ∀ call : Call σ ν, call.Gets s → ∀ last,
    Ends thread.id world (.task (.start call)) (.refused .reentrant) last →
      .initializing s ∈ thread.stack
  tried : Tried (world.slot s).initializing (world.trials s)
  settled : Succeeded (world.trials s) → ∀ more,
    (Thread.advance more world thread).1.trials s = world.trials s
  spent : (world.slot s).dropped = true → ∀ more, ∃ since,
    (Thread.advance more world thread).1.trials s = since ++ world.trials s ∧ .begun ∉ since
  withholds : ∀ call : Call σ ν, call.Gets s → thread.control = .task (.start call) →
    0 < (world.slot s).handles → (world.slot s).dropped = true → (world.slot s).value = none →
      (world.slot s).initializing = false →
        Thread.Works world thread (world.act (.lookedUp s (.refused .dropped)))
          ⟨thread.id, .task (.finish (.refused .dropped)), thread.stack⟩

/-- Whatever code runs, at every moment every slot's initializer is run with discipline. -/
theorem Thread.initializer_disciplined (memory : σ) (code : Code σ ν) (steps : Nat) (s : SlotId) :
    Disciplined (Thread.advance steps { memory } (.ofCode 0 code)).1
      (Thread.advance steps { memory } (.ofCode 0 code)).2 s := by
  have regular := Regular.advance memory 0 code steps
  constructor
  case alone => exact regular.tracked.sound.guarded.running s
  case refuses =>
    intro call gets starts handles runs
    exact regular.refuses gets starts handles runs
  case refusesLook => exact regular.refuses_look
  case refusesOnly =>
    intro call gets last refused
    exact regular.runs_of_set (gets.running refused)
  case tried => exact regular.tracked.tried s
  case settled => exact regular.tracked.settled
  case spent => exact advance_trials_of_dropped
  case withholds =>
    intro call gets starts handles dropped empty unset
    exact regular.withholds gets starts handles dropped empty unset

/-- An initializer drops its slot and asks for its value; later the value is asked for once more. -/
def Code.askWithin : Code Unit Unit :=
  .call (.newSlot (fun _ => .ret .done)
    (.call (.dropSlot 0) fun _ => .call (.getValue 0) fun _ => .ret (.text "late"))) fun _ =>
      .call (.getValue 0) fun _ => .call (.getValue 0) .ret

theorem Thread.initializer_disciplined_askWithin :
    let within := Thread.advance 18 { memory := () } (.ofCode 0 Code.askWithin)
    let later := Thread.advance 42 { memory := () } (.ofCode 0 Code.askWithin)
    Works within.1 within.2 (within.1.act (.lookedUp 0 (.refused .reentrant)))
      ⟨0, .task (.finish (.refused .reentrant)), within.2.stack⟩ ∧
    Works later.1 later.2 (later.1.act (.lookedUp 0 (.refused .dropped)))
      ⟨0, .task (.finish (.refused .dropped)), later.2.stack⟩ := by
  intro within later
  have runs : .initializing 0 ∈ within.2.segment := .tail _ (.head _)
  have refuses := (initializer_disciplined () Code.askWithin 18 0).refuses
  have withholds := (initializer_disciplined () Code.askWithin 42 0).withholds
  exact ⟨refuses (.getValue 0) rfl rfl Nat.one_pos runs,
    withholds (.getValue 0) rfl rfl Nat.one_pos rfl rfl rfl⟩

end Relinquish
