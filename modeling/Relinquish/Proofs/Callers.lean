import Relinquish.Proofs.Errands

/-!
Callers of a slot of which it is known what its code comes to: each run of the initializer by how
many there have been before, and kinds, links and handlers by the error that they get. A thread that
gets or drops the value goes from post to post, and where it is in a reaction says what is still due.
-/

namespace Relinquish

variable {σ ν : Type}

/-! ## What the code of a slot comes to -/

/-- Kinds, links and handlers by their places; of kinds only those that are code. -/
structure Outcomes where
  initializer : Nat → Error ⊕ String
  linkKind : Nat → Error → Bool
  handlerKind : Nat → Error → Bool
  link : Nat → Error → Option Error
  handler : Nat → Error → Option Error
  release : Value → Exit

def Reply.outcome (reply : Reply) : Error ⊕ String :=
  match reply.error? with
  | some error => .inl error
  | none => .inr reply.content

def Slot.kinds (slot : Slot σ ν) : Selection σ ν → List (Nat × Kind σ ν)
  | .links _ => slot.links.kinds
  | .handlers _ _ => slot.handlers.kinds
  | .numbers _ => []

namespace Outcomes

variable (o : Outcomes) (slot : Slot σ ν) (error : Error)

def kind : Selection σ ν → Nat → Error → Bool
  | .links _ => o.linkKind
  | .handlers _ _ => o.handlerKind
  | .numbers _ => fun _ _ => false

def sieve (told : Nat → Error → Bool) (kinds : List (Nat × Kind σ ν)) : List Nat :=
  (kinds.filter fun (place, kind) => (kind.judge error).elim id fun _ => told place error).map Prod.fst

def links : List (Nat × Droppable σ ν) :=
  slot.links.pick (sieve error o.linkKind slot.links.kinds)

def handlers : List (Nat × (Error → Code σ ν)) :=
  slot.handlers.pick (sieve error o.handlerKind slot.handlers.kinds)

def failuresOf {α : Type} (outcome : Nat → Error → Option Error) (wrap : Error → DropError)
    (entries : List (Nat × α)) : List DropError :=
  entries.filterMap fun entry => (outcome entry.1 error).map wrap

def linkFailures (links : List (Nat × Droppable σ ν)) : List DropError :=
  failuresOf error o.link .dropChain links

def handlerFailures (handlers : List (Nat × (Error → Code σ ν))) : List DropError :=
  failuresOf error o.handler .handler handlers

def failures : List DropError :=
  o.linkFailures error (o.links slot error) ++ o.handlerFailures error (o.handlers slot error)

def answer : Exit :=
  .returned (.failed (.drop (.initialization error (o.failures slot error))))

end Outcomes

/-- The end that a frame gets is the one that is known beforehand. -/
def Frame.Expects (o : Outcomes) (slot : Slot σ ν) (s : SlotId) (runs : Nat) (exit : Exit) :
    Frame σ ν → Prop
  | .initializing t => t = s →
      ∃ reply, exit = .returned reply ∧ reply.outcome = o.initializer runs
  | .judging selection error place _ _ => selection.Of s →
      ∃ reply, exit = .returned reply ∧ reply.accepts = o.kind selection place error
  | .linking t error rest _ _ => t = s →
      ∃ reply, exit = .returned reply ∧ ∀ place link,
        (place, link) :: rest <:+ o.links slot error → reply.error? = o.link place error
  | .handling t error rest _ => t = s →
      ∃ reply, exit = .returned reply ∧ ∀ place handler,
        (place, handler) :: rest <:+ o.handlers slot error → reply.error? = o.handler place error
  | .releasing t value => t = s → exit = o.release value
  | _ => True

def Thread.Expects (o : Outcomes) (slot : Slot σ ν) (s : SlotId) (runs : Nat) (thread : Thread σ ν) :
    Prop :=
  ∀ exit frame stack, thread.control = .task (.finish exit) → thread.stack = frame :: stack →
    frame.Expects o slot s runs exit

/-! ## Reactions -/

def Selection.toil (slot : Slot σ ν) : Selection σ ν → Nat
  | .links _ => 2 * slot.links.size + 4 * slot.handlers.size + 14
  | .handlers _ chosen => 2 * chosen.length + 2 * slot.handlers.size + 12
  | .numbers _ => 0

def Slot.toil (slot : Slot σ ν) : Nat :=
  4 * (slot.links.size + slot.handlers.size) + 15

section
variable (o : Outcomes) (slot : Slot σ ν) (s : SlotId) (error : Error)

inductive Selected : Selection σ ν → Prop
  | links : Selected (.links s)
  | handlers : Selected (.handlers s (o.links slot error))

/-- Work that is due in the reaction to an error, and how many steps are left at most. -/
inductive Due : Nat → Task σ ν → Prop
  | consults {selection : Selection σ ν} (selected : Selected o slot s error selection) :
      Due (2 * (slot.kinds selection).length + selection.toil slot + 1) (.consult selection error)
  | sifts {selection : Selection σ ν} {rest : List (Nat × Kind σ ν)} {places : List Nat}
      (selected : Selected o slot s error selection)
      (complete : places ++ Outcomes.sieve error (o.kind selection) rest =
        Outcomes.sieve error (o.kind selection) (slot.kinds selection)) :
      Due (2 * rest.length + selection.toil slot) (.sift selection error rest places)
  | links {rest : List (Nat × Droppable σ ν)} {failures : List DropError}
      (remaining : rest <:+ o.links slot error)
      (complete : failures ++ (o.linkFailures error rest ++
        o.handlerFailures error (o.handlers slot error)) = o.failures slot error) :
      Due (2 * rest.length + 2 * (o.handlers slot error).length + 11)
        (.links s error rest (o.handlers slot error) failures)
  | handlers {rest : List (Nat × (Error → Code σ ν))} {failures : List DropError}
      (remaining : rest <:+ o.handlers slot error)
      (complete : failures ++ o.handlerFailures error rest = o.failures slot error) :
      Due (2 * rest.length + 10) (.handlers s error rest failures)

inductive Awaits : Nat → Frame σ ν → Prop
  | judging {selection : Selection σ ν} {place : Nat} {kind : Kind σ ν}
      {rest : List (Nat × Kind σ ν)} {places : List Nat} {code : Code σ ν}
      (selected : Selected o slot s error selection) (verdict : kind.judge error = .inr code)
      (complete : places ++ Outcomes.sieve error (o.kind selection) ((place, kind) :: rest) =
        Outcomes.sieve error (o.kind selection) (slot.kinds selection)) :
      Awaits (2 * rest.length + selection.toil slot + 1) (.judging selection error place rest places)
  | linking {place : Nat} {link : Droppable σ ν} {rest : List (Nat × Droppable σ ν)}
      {failures : List DropError} (remaining : (place, link) :: rest <:+ o.links slot error)
      (complete : failures ++ (o.linkFailures error ((place, link) :: rest) ++
        o.handlerFailures error (o.handlers slot error)) = o.failures slot error) :
      Awaits (2 * rest.length + 2 * (o.handlers slot error).length + 12)
        (.linking s error rest (o.handlers slot error) failures)
  | handling {place : Nat} {handler : Error → Code σ ν} {rest : List (Nat × (Error → Code σ ν))}
      {failures : List DropError} (remaining : (place, handler) :: rest <:+ o.handlers slot error)
      (complete : failures ++ o.handlerFailures error ((place, handler) :: rest) =
        o.failures slot error) :
      Awaits (2 * rest.length + 11) (.handling s error rest failures)

end

section
variable {o : Outcomes} {slot : Slot σ ν} {s : SlotId} {error : Error}

theorem Slot.links_of_setup {other : Slot σ ν} (same : other.setup = slot.setup) :
    other.links = slot.links :=
  (congrArg Slot.links same : other.setup.links = slot.setup.links)

theorem Slot.handlers_of_setup {other : Slot σ ν} (same : other.setup = slot.setup) :
    other.handlers = slot.handlers :=
  (congrArg Slot.handlers same : other.setup.handlers = slot.setup.handlers)

theorem Selected.of {selection : Selection σ ν} (selected : Selected o slot s error selection) :
    selection.Of s := by
  cases selected <;> rfl

theorem Awaits.serves {left : Nat} {frame : Frame σ ν} (awaits : Awaits o slot s error left frame) :
    frame.Serves s := by
  cases awaits with
  | judging selected => exact selected.of
  | linking | handling => rfl

theorem Outcomes.sieve_cons {told : Nat → Error → Bool} {place : Nat} {kind : Kind σ ν}
    {rest : List (Nat × Kind σ ν)} (holds : Bool)
    (verdict : (kind.judge error).elim id (fun _ => told place error) = holds) :
    sieve error told ((place, kind) :: rest) =
      (if holds then [place] else []) ++ sieve error told rest := by
  cases holds <;> simp [sieve, verdict]

theorem Outcomes.failuresOf_cons {α : Type} {outcome : Nat → Error → Option Error}
    {wrap : Error → DropError} {place : Nat} {entry : α} {rest : List (Nat × α)}
    {failure : Option Error} (fails : failure = outcome place error) :
    failuresOf error outcome wrap ((place, entry) :: rest) =
      (failure.map wrap).toList ++ failuresOf error outcome wrap rest := by
  subst fails
  cases failed : outcome place error <;> simp [failuresOf, failed]

theorem Registry.length_kinds {α : Type} (registry : Registry σ ν α) :
    registry.kinds.length = registry.size := by
  simp [kinds, size]

theorem Registry.length_pick_sieve {α : Type} (registry : Registry σ ν α)
    (told : Nat → Error → Bool) (error : Error) :
    (registry.pick (Outcomes.sieve error told registry.kinds)).length ≤ registry.size := by
  refine Nat.le_trans (List.length_filterMap_le _ _) ?_
  rw [Outcomes.sieve, List.length_map, ← registry.length_kinds]
  exact List.length_filter_le _ _

end

/-! ## Posts -/

inductive Post where
  | away
  | inside
  | vacant
  | running
  | carrying (value : Value)
  | confirming (value : Value)
  | storing (value : Value)
  | unlocking (value : Value)
  | leaving (value : Value)
  | got (value : Value)
  | failing (error : Error)
  | reacting (error : Error)
  | told (error : Error)
  | taking
  | releasing (value : Value)
  | dropped (exit : Exit)
  | second

def Post.spot (o : Outcomes) (slot : Slot σ ν) : Post → Spot
  | away | reacting _ => .away
  | inside => .inside
  | vacant => .vacant
  | running => .running
  | carrying value => .carrying value
  | confirming value => .confirming value
  | storing value => .storing value
  | unlocking value => .unlocking (.ending (.returned (.value value)))
  | leaving value => .leaving (.ending (.returned (.value value)))
  | got value => .done (.returned (.value value))
  | failing _ => .leaving .reacting
  | told error => .done (o.answer slot error)
  | taking => .taking
  | releasing _ => .releasing
  | dropped exit => .done exit
  | second => .done (.returned .done)

def Post.caught? : Post → Option Error
  | failing error | reacting error | told error => some error
  | _ => none

/-- What is still ahead of a thread is counted in steps, those of the slot's code apart. -/
inductive Posted (o : Outcomes) (slot : Slot σ ν) (s : SlotId) (id : ThreadId) :
    Errand → Post → Nat → Thread σ ν → Prop
  | calls (errand : Errand) :
      Posted o slot s id errand .away (slot.toil + 8) (.ofCode id (.call (errand.call s) .ret))
  | starts (errand : Errand) : Posted o slot s id errand .away (slot.toil + 7)
      ⟨id, .task (.start (errand.call s)), [.calling .ret]⟩
  | looks : Posted o slot s id .get .away (slot.toil + 6) ⟨id, .task (.look s), Errand.get.base s⟩
  | enters : Posted o slot s id .get .away (slot.toil + 5) ⟨id, .task (.enter s), Errand.get.base s⟩
  | looksAgain : Posted o slot s id .get .inside (slot.toil + 4)
      ⟨id, .task (.lookAgain s), Errand.get.base s⟩
  | produces : Posted o slot s id .get .vacant (slot.toil + 3)
      ⟨id, .task (.produce s), Errand.get.base s⟩
  | runs (inner : Thread σ ν) (home : inner.home = id) : Posted o slot s id .get .running
      (slot.toil + 2) (inner.above (.initializing s :: Errand.get.base s))
  | locks (value : Value) : Posted o slot s id .get (.carrying value) 14
      ⟨id, .task (.lockValue s value), Errand.get.base s⟩
  | confirms (value : Value) : Posted o slot s id .get (.confirming value) 13
      ⟨id, .task (.confirm s value), Errand.get.base s⟩
  | stores (value : Value) : Posted o slot s id .get (.storing value) 12
      ⟨id, .task (.store s value), Errand.get.base s⟩
  | unlocks (value : Value) : Posted o slot s id .get (.unlocking value) 11
      ⟨id, .task (.unlockValue s (.leave s (.finish (.returned (.value value))))), Errand.get.base s⟩
  | leaves (value : Value) : Posted o slot s id .get (.leaving value) 10
      ⟨id, .task (.leave s (.finish (.returned (.value value)))), Errand.get.base s⟩
  | got {value : Value} {thread : Thread σ ν} (ending : thread.Ending s id (.returned (.value value))) :
      Posted o slot s id .get (.got value) thread.wind thread
  | fails (error : Error) : Posted o slot s id .get (.failing error) (slot.toil + 1)
      ⟨id, .task (.leave s (.consult (.links s) error)), Errand.get.base s⟩
  | reacts {error : Error} {left : Nat} {work : Task σ ν} (due : Due o slot s error left work) :
      Posted o slot s id .get (.reacting error) left ⟨id, .task work, Errand.get.base s⟩
  | runsReaction {error : Error} {left : Nat} {frame : Frame σ ν}
      (awaits : Awaits o slot s error left frame) (inner : Thread σ ν) (home : inner.home = id) :
      Posted o slot s id .get (.reacting error) left (inner.above (frame :: Errand.get.base s))
  | told {error : Error} {thread : Thread σ ν} (ending : thread.Ending s id (o.answer slot error)) :
      Posted o slot s id .get (.told error) thread.wind thread
  | swaps : Posted o slot s id .drop .away 9 ⟨id, .task (.swap s), Errand.drop.base s⟩
  | takes : Posted o slot s id .drop .taking 8 ⟨id, .task (.take s), Errand.drop.base s⟩
  | releases (value : Value) (inner : Thread σ ν) (home : inner.home = id) :
      Posted o slot s id .drop (.releasing value) 7
        (inner.above (.releasing s value :: Errand.drop.base s))
  | dropped {exit : Exit} {thread : Thread σ ν} (ending : thread.Ending s id exit) :
      Posted o slot s id .drop (.dropped exit) thread.wind thread
  | second {thread : Thread σ ν} (ending : thread.Ending s id (.returned .done)) :
      Posted o slot s id .drop .second thread.wind thread

/-- The ways from post to post, where nobody drops a slot of which others get the value. -/
inductive Shifts (o : Outcomes) (s : SlotId) (id : ThreadId) (runs : Nat) :
    Errand → Cell → Post → List Deed → Cell → Post → Prop
  | rest {errand : Errand} {cell : Cell} {post : Post} : Shifts o s id runs errand cell post [] cell post
  | found {cell : Cell} {value : Value} (held : cell.value = some value) :
      Shifts o s id runs .get cell .away [] cell (.got value)
  | enters {cell : Cell} (free : cell.entered = none) (unset : cell.initializing = false) :
      Shifts o s id runs .get cell .away [] { cell with entered := some (id, 1) } .inside
  | foundInside {cell : Cell} {value : Value} (held : cell.value = some value) :
      Shifts o s id runs .get cell .inside [] cell (.leaving value)
  | foundNothing {cell : Cell} (empty : cell.value = none) :
      Shifts o s id runs .get cell .inside [] cell .vacant
  | begins {cell : Cell} (undropped : cell.dropped = false) :
      Shifts o s id runs .get cell .vacant [.began s] { cell with initializing := true } .running
  | fails {cell : Cell} {error : Error} (outcome : o.initializer runs = .inl error) :
      Shifts o s id runs .get cell .running [.ended s] { cell with initializing := false }
        (.failing error)
  | produces {cell : Cell} {value : Value} (outcome : o.initializer runs = .inr value.text) :
      Shifts o s id runs .get cell .running [.produced s value, .ended s]
        { cell with initializing := false } (.carrying value)
  | locks {cell : Cell} {value : Value} (free : cell.holders = []) :
      Shifts o s id runs .get cell (.carrying value) [] { cell with holders := [id] }
        (.confirming value)
  | confirms {cell : Cell} {value : Value} (undropped : cell.dropped = false) :
      Shifts o s id runs .get cell (.confirming value) [] cell (.storing value)
  | stores {cell : Cell} {value : Value} :
      Shifts o s id runs .get cell (.storing value) [] { cell with value := some value }
        (.unlocking value)
  | unlocks {cell : Cell} {value : Value} :
      Shifts o s id runs .get cell (.unlocking value) [] { cell with holders := [] } (.leaving value)
  | leaves {cell : Cell} {value : Value} :
      Shifts o s id runs .get cell (.leaving value) [] cell.left (.got value)
  | reacts {cell : Cell} {error : Error} :
      Shifts o s id runs .get cell (.failing error) [] cell.left (.reacting error)
  | tells {cell : Cell} {error : Error} :
      Shifts o s id runs .get cell (.reacting error) [] cell (.told error)
  | swaps {cell : Cell} (undropped : cell.dropped = false) :
      Shifts o s id runs .drop cell .away [] { cell with dropped := true } .taking
  | second {cell : Cell} (dropped : cell.dropped = true) :
      Shifts o s id runs .drop cell .away [] cell .second
  | takes {cell : Cell} {value : Value} (free : cell.holders = []) (held : cell.value = some value) :
      Shifts o s id runs .drop cell .taking [.handed s value] { cell with value := none }
        (.releasing value)
  | misses {cell : Cell} (free : cell.holders = []) (empty : cell.value = none) :
      Shifts o s id runs .drop cell .taking [] cell (.dropped (.returned .done))
  | released {cell : Cell} {value : Value} :
      Shifts o s id runs .drop cell (.releasing value) [] cell (.dropped (o.release value).ofRelease)

def Advances (o : Outcomes) (slot : Slot σ ν) (s : SlotId) (id : ThreadId) (runs : Nat)
    (errand : Errand) (world : World σ ν) (post : Post) (left lent : Nat) (next : World σ ν)
    (after : Thread σ ν) : Prop :=
  ∃ more there fewer, Posted o slot s id errand there fewer after ∧ fewer < left ∧
    Shifts o s id runs errand (world.cell s) post more (next.cell s) there ∧
    next.deeds s = more ++ world.deeds s ∧ world.Lends s lent next after.borrows

def Move.Advances (o : Outcomes) (slot : Slot σ ν) (s : SlotId) (id : ThreadId) (runs : Nat)
    (errand : Errand) (world : World σ ν) (post : Post) (left lent : Nat) (stack : List (Frame σ ν))
    (move : Move σ ν) : Prop :=
  Relinquish.Advances o slot s id runs errand world post left lent move.world
    ⟨move.thread.getD id, move.control, move.frames ++ stack⟩

structure World.Offers (world : World σ ν) (slot : Slot σ ν) (s : SlotId) (id : ThreadId)
    (errand : Errand) (post : Post) : Prop where
  handles : 0 < (world.slot s).handles
  setup : (world.slot s).setup = slot.setup
  undropped : errand = .get → (world.slot s).dropped = false
  unset : (world.slot s).entered = none → (world.slot s).initializing = false
  apart : post = .away → ∀ depth, (world.slot s).entered ≠ some (id, depth)

section
variable {o : Outcomes} {slot : Slot σ ν} {s : SlotId} {id : ThreadId} {runs left fewer : Nat}
  {errand : Errand} {post : Post} {world next : World σ ν} {error : Error}

theorem Advances.keep {lent : Nat} {after : Thread σ ν} (rests : world.Rests s next)
    (lends : world.Lends s lent next after.borrows) (posted : Posted o slot s id errand post fewer after)
    (less : fewer < left) : Advances o slot s id runs errand world post left lent next after := by
  refine ⟨[], post, fewer, posted, less, ?_, rests.deeds, lends⟩
  rw [rests.cell]
  exact .rest

theorem Advances.rest {after : Thread σ ν} (spares : world.Spares s next)
    (posted : Posted o slot s id errand post fewer after) (less : fewer < left) :
    Advances o slot s id runs errand world post left after.borrows next after :=
  .keep spares.rests (.of_slot spares.slot) posted less

/-! ## Steps in a reaction -/

section
variable (setup : (world.slot s).setup = slot.setup)
include setup

theorem Selected.kinds {selection : Selection σ ν} (selected : Selected o slot s error selection) :
    world.kinds selection = slot.kinds selection := by
  cases selected with
  | links => exact congrArg Registry.kinds (Slot.links_of_setup setup)
  | handlers => exact congrArg Registry.kinds (Slot.handlers_of_setup setup)

theorem Due.sifted {selection : Selection σ ν} {places : List Nat}
    (selected : Selected o slot s error selection)
    (complete : places = Outcomes.sieve error (o.kind selection) (slot.kinds selection)) :
    Ensures ((world.unlock selection.lock).proceed selection error places)
      (Move.Advances o slot s id runs .get world (.reacting error) (selection.toil slot) 1
        (Errand.get.base s)) := by
  have unlocks := World.Spares.unlock world (selection.lock_ne s)
  have links := slot.links.length_pick_sieve o.linkKind error
  have handlers := slot.handlers.length_pick_sieve o.handlerKind error
  cases selected with
  | links =>
      have same : ((world.unlock (.links s)).slot s).links.pick places = o.links slot error := by
        rw [World.slot_unlock, Slot.links_of_setup setup, complete]
        rfl
      simp only [World.proceed, Ensures.go_iff, same, Selection.lock]
      refine .rest unlocks (.reacts (.consults .handlers)) ?_
      simp only [Slot.kinds, Registry.length_kinds, Selection.toil, Outcomes.links]
      omega
  | handlers =>
      have same : ((world.unlock (.handlers s)).slot s).handlers.pick places =
          o.handlers slot error := by
        rw [World.slot_unlock, Slot.handlers_of_setup setup, complete]
        rfl
      simp only [World.proceed, Ensures.go_iff, same, Selection.lock]
      refine .rest (unlocks.trans (.emit s _ rfl)) (.reacts (.links (List.suffix_refl _) rfl)) ?_
      simp only [Selection.toil, Outcomes.handlers]
      omega

theorem Due.advances {work : Task σ ν} (due : Due o slot s error left work) :
    Ensures (work.step world id)
      (Move.Advances o slot s id runs .get world (.reacting error) left 1 (Errand.get.base s)) := by
  cases due with
  | @consults selection selected =>
      simp only [Task.step, Ensures.whenFree_iff, Ensures.go_iff, selected.kinds setup]
      intro _
      refine .rest (.lock world id (selection.lock_ne s)) (.reacts (.sifts selected ?_))
        (Nat.lt_succ_self _)
      rw [List.nil_append]
  | @sifts selection rest places selected complete =>
      cases rest with
      | nil =>
          rw [Outcomes.sieve, List.filter_nil, List.map_nil, List.append_nil] at complete
          rw [List.length_nil, Nat.mul_zero, Nat.zero_add]
          exact Due.sifted setup selected complete
      | cons entry rest =>
          obtain ⟨place, kind⟩ := entry
          have fewer : 2 * rest.length + selection.toil slot <
              2 * ((place, kind) :: rest).length + selection.toil slot := by
            rw [List.length_cons]
            omega
          simp only [Task.step, World.ask]
          split
          · next verdict =>
              rw [Outcomes.sieve_cons true (by rw [verdict]; rfl)] at complete
              rw [Ensures.go_iff]
              refine .rest (.refl s world) (.reacts (.sifts selected ?_)) fewer
              rw [← complete, List.append_assoc]
              rfl
          · next verdict =>
              rw [Outcomes.sieve_cons false (by rw [verdict]; rfl)] at complete
              rw [Ensures.go_iff]
              exact .rest (.refl s world) (.reacts (.sifts selected complete)) fewer
          · next code verdict =>
              rw [Ensures.run_iff]
              refine .rest (.refl s world)
                (.runsReaction (.judging selected verdict complete) ⟨id, .code code, []⟩ rfl) ?_
              rw [List.length_cons]
              omega
  | @links rest failures remaining complete =>
      cases rest with
      | nil =>
          simp only [Task.step, Ensures.go_iff]
          refine .rest (.refl s world) (.reacts (.handlers (List.suffix_refl _) complete)) ?_
          omega
      | cons entry rest =>
          simp only [Task.step, Ensures.push_iff]
          refine .rest (.act s world rfl)
            (.runsReaction (.linking remaining complete) ⟨id, .task (.dispose entry.2), []⟩ rfl) ?_
          rw [List.length_cons]
          omega
  | @handlers rest failures remaining complete =>
      cases rest with
      | nil =>
          obtain rfl : failures = o.failures slot error := by
            rw [← complete]
            exact (List.append_nil _).symm
          simp only [Task.step, Ensures.answer_iff]
          exact ⟨[], _, _, .told (.worked .get), by simp [Thread.wind, Errand.base], .tells, rfl, .of_slot rfl⟩
      | cons entry rest =>
          simp only [Task.step, Ensures.run_iff]
          refine .rest (.act s world rfl)
            (.runsReaction (.handling remaining complete) ⟨id, .code (entry.2 error), []⟩ rfl) ?_
          rw [List.length_cons]
          omega

end

theorem Awaits.advances {frame : Frame σ ν} {exit : Exit}
    (awaits : Awaits o slot s error left frame) (expected : frame.Expects o slot s runs exit) :
    Ensures (frame.resume world exit)
      (Move.Advances o slot s id runs .get world (.reacting error) left 1 (Errand.get.base s)) := by
  cases awaits with
  | @judging selection place kind rest places code selected verdict complete =>
      obtain ⟨reply, rfl, accepts⟩ := expected selected.of
      rw [Outcomes.sieve_cons reply.accepts (by rw [verdict]; exact accepts.symm)]
        at complete
      simp only [Frame.resume, Ensures.go_iff]
      refine .rest (.refl s world) (.reacts (.sifts selected ?_)) (Nat.lt_succ_self _)
      rw [← complete]
      cases reply.accepts <;> simp
  | @linking place link rest failures remaining complete =>
      obtain ⟨reply, rfl, failed⟩ := expected rfl
      rw [Outcomes.linkFailures, Outcomes.failuresOf_cons (failed place link remaining)] at complete
      have remaining := (List.suffix_cons _ _).trans remaining
      simp only [Frame.resume]
      split
      · next none =>
          rw [none] at complete
          rw [Ensures.go_iff]
          exact .rest (.refl s world) (.reacts (.links remaining complete)) (Nat.lt_succ_self _)
      · next failure some =>
          rw [some] at complete
          rw [Ensures.go_iff]
          refine .rest (.emit s world rfl) (.reacts (.links remaining ?_)) (Nat.lt_succ_self _)
          rw [← complete, List.append_assoc]
          rfl
  | @handling place handler rest failures remaining complete =>
      obtain ⟨reply, rfl, failed⟩ := expected rfl
      rw [Outcomes.handlerFailures, Outcomes.failuresOf_cons (failed place handler remaining)]
        at complete
      have remaining := (List.suffix_cons _ _).trans remaining
      simp only [Frame.resume]
      split
      · next none =>
          rw [none] at complete
          rw [Ensures.go_iff]
          exact .rest (.refl s world) (.reacts (.handlers remaining complete)) (Nat.lt_succ_self _)
      · next failure some =>
          rw [some] at complete
          rw [Ensures.go_iff]
          refine .rest (.emit s world rfl) (.reacts (.handlers remaining ?_))
            (Nat.lt_succ_self _)
          rw [← complete, List.append_assoc]
          rfl

/-! ## Steps from post to post -/

theorem World.lends_updateSlot (world : World σ ν) (s : SlotId) (change : Slot σ ν → Slot σ ν)
    (setup : (change (world.slot s)).setup = (world.slot s).setup)
    (shared : (change (world.slot s)).shared = (world.slot s).shared) :
    world.Lends s 1 (world.updateSlot s change) 1 := by
  constructor <;> rw [slot_updateSlot, if_pos rfl]
  · exact setup
  · rw [shared]

theorem Errand.start_advances (handles : 0 < (world.slot s).handles) (errand : Errand) :
    Ensures (Task.step world id (.start (errand.call s)))
      (Move.Advances o slot s id runs errand world .away (slot.toil + 7) 0 [.calling .ret]) := by
  have usable : ∀ handle ∈ [Handle.slot s], world.usable handle = true := by
    simp [World.usable, handles]
  have rests : world.Rests s (world.retain (.slot s)) := .retain s world (.slot s)
  have lends : world.Lends s 0 (world.retain (.slot s)) 1 := .retain s world
  cases errand with
  | get =>
      simp only [Task.step, Errand.call, Call.start, Ensures.operate_iff]
      exact ⟨fun _ => .keep rests lends .looks (Nat.lt_succ_self _), fun unusable => absurd usable unusable⟩
  | drop =>
      have fewer : 9 < slot.toil + 7 := by
        rw [Slot.toil]
        omega
      simp only [Task.step, Errand.call, Call.start, Ensures.operate_iff]
      exact ⟨fun _ => .keep rests lends .swaps fewer, fun unusable => absurd usable unusable⟩

theorem Task.look_advances :
    Ensures (Task.step world id (.look s))
      (Move.Advances o slot s id runs .get world .away (slot.toil + 6) 1 (Errand.get.base s)) := by
  have fewer : 9 < slot.toil + 6 := by
    rw [Slot.toil]
    omega
  simp only [Task.step, Ensures.whenFree_iff]
  intro _
  split
  · next value held =>
      rw [Ensures.answer_iff]
      exact ⟨[], _, _, .got (.worked .get), fewer, .found held, rfl, .of_slot rfl⟩
  · rw [Ensures.go_iff]
    exact .rest (.refl s world) .enters (Nat.lt_succ_self _)

theorem Task.enter_advances (offers : world.Offers slot s id .get .away) :
    Ensures (Task.step world id (.enter s))
      (Move.Advances o slot s id runs .get world .away (slot.toil + 5) 1 (Errand.get.base s)) := by
  simp only [Task.step, World.enterSlot]
  cases owner : (world.slot s).entered with
  | none =>
      have cell := world.cell_updateSlot s fun slot => { slot with entered := some (id, 1) }
      have unset := offers.unset owner
      simp only [Option.bind_some, World.slot_updateSlot, if_true, unset, Bool.false_eq_true, if_false,
        Ensures.go_iff]
      exact ⟨[], _, _, .looksAgain, Nat.lt_succ_self _, cell ▸ .enters owner unset, rfl,
        world.lends_updateSlot s _ rfl rfl⟩
  | some entry =>
      obtain ⟨thread, depth⟩ := entry
      have apart : thread ≠ id := by
        rintro rfl
        exact offers.apart rfl depth owner
      simp [apart]

theorem Task.lookAgain_advances :
    Ensures (Task.step world id (.lookAgain s))
      (Move.Advances o slot s id runs .get world .inside (slot.toil + 4) 1 (Errand.get.base s)) := by
  have fewer : 10 < slot.toil + 4 := by
    rw [Slot.toil]
    omega
  simp only [Task.step, Ensures.whenFree_iff]
  intro _
  split
  · next value held =>
      rw [Ensures.go_iff]
      exact ⟨[], _, _, .leaves value, fewer, .foundInside held, rfl, .of_slot rfl⟩
  · next empty =>
      rw [Ensures.go_iff]
      exact ⟨[], _, _, .produces, Nat.lt_succ_self _, .foundNothing empty, rfl, .of_slot rfl⟩

theorem Task.produce_advances (undropped : (world.slot s).dropped = false) :
    Ensures (Task.step world id (.produce s))
      (Move.Advances o slot s id runs .get world .vacant (slot.toil + 3) 1 (Errand.get.base s)) := by
  have cell := world.cell_updateSlot s fun slot => { slot with initializing := true }
  have lends := world.lends_updateSlot s (fun slot => { slot with initializing := true }) rfl rfl
  simp only [Task.step, undropped, Bool.false_eq_true, if_false, Ensures.run_iff]
  refine ⟨[.began s], .running, _, .runs ⟨id, .code _, []⟩ rfl, Nat.lt_succ_self _,
    cell ▸ .begins undropped, ?_, ⟨lends.setup, lends.shared⟩⟩
  rw [World.deeds_act]
  simp [Mark.deed?, Deed.slot]
  rfl

theorem World.initializerEnded_advances {reply : Reply} (outcome : reply.outcome = o.initializer runs) :
    Ensures (world.initializerEnded s (.returned reply))
      (Move.Advances o slot s id runs .get world .running (slot.toil + 2) 1 (Errand.get.base s)) := by
  have cell := world.cell_updateSlot s fun slot => { slot with initializing := false }
  have lends := world.lends_updateSlot s (fun slot => { slot with initializing := false }) rfl rfl
  have ended : ((world.updateSlot s fun slot => { slot with initializing := false }).act
      (.initializerEnded s (.returned reply))).deeds s = .ended s :: world.deeds s := by
    rw [World.deeds_act]
    simp [Mark.deed?, Deed.slot]
    rfl
  rw [Reply.outcome] at outcome
  cases failed : reply.error? with
  | some error =>
      rw [failed] at outcome
      simp only [World.initializerEnded, failed, Ensures.go_iff]
      exact ⟨[.ended s], _, _, .fails error, Nat.lt_succ_self _, cell ▸ .fails outcome.symm, ended,
        ⟨lends.setup, lends.shared⟩⟩
  | none =>
      rw [failed] at outcome
      let value : Value := ⟨world.values, reply.content⟩
      have fewer : 14 < slot.toil + 2 := by
        rw [Slot.toil]
        omega
      simp only [World.initializerEnded, failed, Ensures.go_iff]
      refine ⟨[.produced s value, .ended s], .carrying value, _, .locks value, fewer,
        cell ▸ .produces outcome.symm, ?_, ⟨lends.setup, lends.shared⟩⟩
      rw [World.deeds_act]
      simp [Mark.deed?, Deed.slot]
      exact ⟨rfl, ended⟩

theorem Task.lockValue_advances (value : Value) :
    Ensures (Task.step world id (.lockValue s value))
      (Move.Advances o slot s id runs .get world (.carrying value) 14 1 (Errand.get.base s)) := by
  simp only [Task.step, Ensures.whenFree_iff, Ensures.go_iff]
  intro free
  have unheld : (world.cell s).holders = [] := World.free_iff.mp (free _ (.head _))
  have cell : (world.lock (.value s) id).cell s = { world.cell s with holders := [id] } := by
    simp only [World.cell, World.holders_lock, World.free_iff.mp (free _ (.head _))]
    rfl
  exact ⟨[], _, _, .confirms value, Nat.lt_succ_self _, cell ▸ .locks unheld, rfl, .of_slot rfl⟩

theorem Task.confirm_advances (value : Value) (undropped : (world.slot s).dropped = false) :
    Ensures (Task.step world id (.confirm s value))
      (Move.Advances o slot s id runs .get world (.confirming value) 13 1 (Errand.get.base s)) := by
  simp only [Task.step, undropped, Bool.false_eq_true, if_false, Ensures.go_iff]
  exact ⟨[], _, _, .stores value, Nat.lt_succ_self _, .confirms undropped, rfl, .of_slot rfl⟩

theorem Task.store_advances (value : Value) :
    Ensures (Task.step world id (.store s value))
      (Move.Advances o slot s id runs .get world (.storing value) 12 1 (Errand.get.base s)) := by
  have cell := world.cell_updateSlot s fun slot => { slot with value := some value }
  have lends := world.lends_updateSlot s (fun slot => { slot with value := some value }) rfl rfl
  simp only [Task.step, Ensures.go_iff]
  exact ⟨[], _, _, .unlocks value, Nat.lt_succ_self _, cell ▸ .stores, rfl,
    ⟨lends.setup, lends.shared⟩⟩

theorem Task.unlock_advances (value : Value) :
    Ensures (Task.step world id (.unlockValue s (.leave s (.finish (.returned (.value value))))))
      (Move.Advances o slot s id runs .get world (.unlocking value) 11 1 (Errand.get.base s)) := by
  have cell : (world.unlock (.value s)).cell s = { world.cell s with holders := [] } := by
    simp only [World.cell, World.holders_unlock]
    rfl
  simp only [Task.step, Ensures.go_iff]
  exact ⟨[], _, _, .leaves value, Nat.lt_succ_self _, cell ▸ .unlocks, rfl, .of_slot rfl⟩

theorem Task.leave_advances (value : Value) :
    Ensures (Task.step world id (.leave s (.finish (.returned (.value value)))))
      (Move.Advances o slot s id runs .get world (.leaving value) 10 1 (Errand.get.base s)) := by
  have cell : (world.leaveSlot s).cell s = (world.cell s).left := world.cell_updateSlot s _
  simp only [Task.step, Ensures.go_iff]
  exact ⟨[], _, _, .got (.worked .get), by simp [Thread.wind, Errand.base], cell ▸ .leaves, rfl,
    world.lends_updateSlot s _ rfl rfl⟩

theorem Task.withdraw_advances (error : Error) :
    Ensures (Task.step world id (.leave s (.consult (.links s) error)))
      (Move.Advances o slot s id runs .get world (.failing error) (slot.toil + 1) 1
        (Errand.get.base s)) := by
  have cell : (world.leaveSlot s).cell s = (world.cell s).left := world.cell_updateSlot s _
  simp only [Task.step, Ensures.go_iff]
  refine ⟨[], _, _, .reacts (.consults .links), ?_, cell ▸ .reacts, rfl, world.lends_updateSlot s _ rfl rfl⟩
  simp only [Slot.kinds, Registry.length_kinds, Selection.toil, Slot.toil]
  omega

theorem Task.swap_advances :
    Ensures (Task.step world id (.swap s))
      (Move.Advances o slot s id runs .drop world .away 9 1 (Errand.drop.base s)) := by
  have cell := world.cell_updateSlot s fun slot => { slot with dropped := true }
  simp only [Task.step, Ensures.ite_iff, Ensures.go_iff, Ensures.endDrop_iff, Bool.not_eq_true]
  constructor
  · intro dropped
    exact ⟨[], _, _, .second (.worked .drop), by simp [Thread.wind, Errand.base], .second dropped, rfl,
      .of_slot rfl⟩
  · intro undropped
    exact ⟨[], _, _, .takes, Nat.lt_succ_self _, cell ▸ .swaps undropped, rfl,
      world.lends_updateSlot s _ rfl rfl⟩

theorem Task.take_advances :
    Ensures (Task.step world id (.take s))
      (Move.Advances o slot s id runs .drop world .taking 8 1 (Errand.drop.base s)) := by
  simp only [Task.step, Ensures.whenFree_iff]
  intro free
  have unheld : (world.cell s).holders = [] := World.free_iff.mp (free _ (.head _))
  split
  · next value held =>
      have cell := world.cell_updateSlot s fun slot => { slot with value := none }
      have lends := world.lends_updateSlot s (fun slot => { slot with value := none }) rfl rfl
      rw [Ensures.run_iff]
      refine ⟨[.handed s value], .releasing value, _, .releases value ⟨id, .code _, []⟩ rfl,
        Nat.lt_succ_self _, cell ▸ .takes unheld held, ?_, ⟨lends.setup, lends.shared⟩⟩
      simp [Mark.deed?, Deed.slot]
      rfl
  · next empty =>
      rw [Ensures.endDrop_iff]
      exact ⟨[], _, _, .dropped (.worked .drop), by simp [Thread.wind, Errand.base],
        .misses unheld empty, rfl, .of_slot rfl⟩

theorem Frame.releasing_advances (value : Value) :
    Ensures ((Frame.releasing s value : Frame σ ν).resume world (o.release value))
      (Move.Advances o slot s id runs .drop world (.releasing value) 7 1 (Errand.drop.base s)) := by
  simp only [Frame.resume, Ensures.endDrop_iff]
  exact ⟨[], _, _, .dropped (.worked .drop), by simp [Thread.wind, Errand.base], .released, rfl, .of_slot rfl⟩

theorem Thread.Ending.advances {exit : Exit} {thread after : Thread σ ν} (there : Post)
    (ending : thread.Ending s id exit)
    (posted : ∀ {thread : Thread σ ν}, thread.Ending s id exit →
      Posted o slot s id errand there thread.wind thread)
    (handles : 0 < (world.slot s).handles) (lent : thread.borrows ≤ (world.slot s).shared)
    (action : thread.step world = some (next, after)) :
    Advances o slot s id runs errand world there thread.wind thread.borrows next after := by
  obtain ⟨ending, rests, fewer, lends⟩ := ending.step handles action
  exact .keep rests (lends lent) (posted ending) fewer

theorem Thread.borrows_above (inner : Thread σ ν) (frame : Frame σ ν) (errand : Errand) (s : SlotId) :
    (inner.above (frame :: errand.base s)).borrows = 1 := by
  obtain ⟨id, control, stack⟩ := inner
  rcases stack with - | ⟨_, - | _⟩ <;> cases errand <;> rfl

theorem Advances.of_task {errand : Errand} {post : Post} {left lent : Nat} {work : Task σ ν}
    {stack : List (Frame σ ν)} {after : Thread σ ν}
    (advances : Ensures (work.step world id)
      (Move.Advances o slot s id runs errand world post left lent stack))
    (unfinished : ∀ exit, work ≠ .finish exit)
    (action : Thread.step world ⟨id, .task work, stack⟩ = some (next, after)) :
    Advances o slot s id runs errand world post left lent next after := by
  obtain ⟨move, made, rfl, rfl⟩ := Thread.step_task action unfinished
  exact advances move made

theorem Posted.step {thread after : Thread σ ν} (posted : Posted o slot s id errand post left thread)
    (offers : world.Offers slot s id errand post) (spared : thread.Serves s → world.Spares s next)
    (expected : thread.Expects o slot s runs) (lent : thread.borrows ≤ (world.slot s).shared)
    (action : thread.step world = some (next, after)) :
    (thread.Serves s ∧ world.Spares s next ∧ Posted o slot s id errand post left after ∧
        after.borrows = thread.borrows) ∨
      Advances o slot s id runs errand world post left thread.borrows next after := by
  cases posted with
  | calls errand =>
      obtain ⟨rfl, rfl⟩ := Prod.mk.inj (Option.some.inj action)
      exact .inr (.rest (.refl s world) (.starts errand) (Nat.lt_succ_self _))
  | starts errand => exact .inr (.of_task (errand.start_advances offers.handles) nofun action)
  | looks => exact .inr (.of_task Task.look_advances nofun action)
  | enters => exact .inr (.of_task (Task.enter_advances offers) nofun action)
  | looksAgain => exact .inr (.of_task Task.lookAgain_advances nofun action)
  | produces => exact .inr (.of_task (Task.produce_advances (offers.undropped rfl)) nofun action)
  | runs inner home =>
      have serves : Frame.Serves s (.initializing s : Frame σ ν) := rfl
      rcases Thread.step_serving home serves spared action with
        ⟨further, rfl, home, busy, spares⟩ | ⟨exit, move, rfl, made, rfl, rfl⟩
      · exact .inl ⟨busy, spares, .runs further home, by simp only [Thread.borrows_above]⟩
      · obtain ⟨reply, rfl, outcome⟩ := expected exit _ _ rfl rfl rfl
        exact .inr (World.initializerEnded_advances outcome move made)
  | locks value => exact .inr (.of_task (Task.lockValue_advances value) nofun action)
  | confirms value =>
      exact .inr (.of_task (Task.confirm_advances value (offers.undropped rfl)) nofun action)
  | stores value => exact .inr (.of_task (Task.store_advances value) nofun action)
  | unlocks value => exact .inr (.of_task (Task.unlock_advances value) nofun action)
  | leaves value => exact .inr (.of_task (Task.leave_advances value) nofun action)
  | got ending => exact .inr (ending.advances _ .got offers.handles lent action)
  | fails error => exact .inr (.of_task (Task.withdraw_advances error) nofun action)
  | @reacts error left work due =>
      refine .inr (.of_task (due.advances offers.setup) (fun exit equal => ?_) action)
      rw [equal] at due
      contradiction
  | @runsReaction error left frame awaits inner home =>
      rcases Thread.step_serving home awaits.serves spared action with
        ⟨further, rfl, home, busy, spares⟩ | ⟨exit, move, rfl, made, rfl, rfl⟩
      · exact .inl ⟨busy, spares, .runsReaction awaits further home, by simp only [Thread.borrows_above]⟩
      · exact .inr (awaits.advances (expected exit _ _ rfl rfl) move made)
  | told ending => exact .inr (ending.advances _ .told offers.handles lent action)
  | swaps => exact .inr (.of_task Task.swap_advances nofun action)
  | takes => exact .inr (.of_task Task.take_advances nofun action)
  | releases value inner home =>
      have serves : Frame.Serves s (.releasing s value : Frame σ ν) := rfl
      rcases Thread.step_serving home serves spared action with
        ⟨further, rfl, home, busy, spares⟩ | ⟨exit, move, rfl, made, rfl, rfl⟩
      · exact .inl ⟨busy, spares, .releases value further home, by simp only [Thread.borrows_above]⟩
      · obtain rfl := expected exit _ _ rfl rfl rfl
        exact .inr (Frame.releasing_advances value move made)
  | dropped ending => exact .inr (ending.advances _ .dropped offers.handles lent action)
  | second ending => exact .inr (ending.advances _ .second offers.handles lent action)

/-! ## What a thread waits for -/

def Thread.Moves (world : World σ ν) (thread : Thread σ ν) : Prop :=
  ∃ reached, thread.step world = some reached

theorem Thread.Ending.moves {exit : Exit} {thread : Thread σ ν} (ending : thread.Ending s id exit) :
    thread.Moves world ∨ thread.exit? = some exit := by
  cases ending with
  | worked errand => cases errand <;> exact .inl ⟨_, rfl⟩
  | letting =>
      left
      simp only [Moves, Thread.step, Task.step]
      split <;> exact ⟨_, rfl⟩
  | free => exact .inl ⟨_, rfl⟩
  | called => cases exit <;> exact .inl ⟨_, rfl⟩
  | answered => exact .inl ⟨_, rfl⟩
  | ended => exact .inr rfl

theorem Thread.moves_above {inner : Thread σ ν} {frame : Frame σ ν} {base : List (Frame σ ν)}
    (serves : frame.Serves s) (idle : ¬ (inner.above (frame :: base)).Serves s) :
    (inner.above (frame :: base)).Moves world := by
  cases ended : inner.exit? with
  | none => exact absurd ⟨frame, inner.mem_callers_above frame base ended, serves⟩ idle
  | some exit =>
      obtain ⟨move, made⟩ := frame.resumes world exit
      rw [exit?_eq_some ended]
      exact ⟨_, congrArg (Option.map _) made⟩

theorem Selected.lock {selection : Selection σ ν} (selected : Selected o slot s error selection) :
    selection.lock ∈ Lock.ofSlot s := by
  cases selected with
  | links => exact .tail _ (.head _)
  | handlers => exact .tail _ (.tail _ (.head _))

theorem Due.moves {work : Task σ ν} {stack : List (Frame σ ν)} (due : Due o slot s error left work)
    (free : work.locks = [] → ∀ lock ∈ Lock.ofSlot s, world.free lock = true) :
    Thread.Moves world ⟨id, .task work, stack⟩ := by
  cases due with
  | consults selected =>
      simp only [Thread.Moves, Thread.step, Task.step, World.whenFree, List.all_cons, List.all_nil,
        free rfl _ selected.lock, Bool.and_true, if_true]
      exact ⟨_, rfl⟩
  | @sifts selection rest places selected complete =>
      cases rest with
      | nil => cases selected <;> exact ⟨_, rfl⟩
      | cons entry rest =>
          simp only [Thread.Moves, Thread.step, Task.step, World.ask]
          split <;> exact ⟨_, rfl⟩
  | @links rest => cases rest <;> exact ⟨_, rfl⟩
  | @handlers rest => cases rest <;> exact ⟨_, rfl⟩

theorem Posted.moves {thread : Thread σ ν} (posted : Posted o slot s id errand post left thread)
    (idle : ¬ thread.Serves s)
    (free : thread.locks = [] → ∀ lock ∈ Lock.ofSlot s, world.free lock = true)
    (unentered : thread.locks = [] → post = .away → (world.slot s).entered = none) :
    thread.Moves world ∨ ∃ exit, thread.exit? = some exit := by
  have whenFree {lock : Lock} (of : lock ∈ Lock.ofSlot s) (move : Option (Move σ ν))
      (unlocked : thread.locks = []) : world.whenFree [lock] move = move := by
    simp [World.whenFree, free unlocked lock of]
  cases posted with
  | got ending | told ending | dropped ending | second ending =>
      exact ending.moves.imp_right fun ended => ⟨_, ended⟩
  | calls | fails | leaves | unlocks | stores => exact .inl ⟨_, rfl⟩
  | starts errand =>
      left
      cases errand <;> simp only [Thread.Moves, Thread.step, Task.step, Errand.call, Call.start,
        World.operate, World.whenUsable] <;> split <;> exact ⟨_, rfl⟩
  | looks | looksAgain =>
      left
      simp only [Thread.Moves, Thread.step, Task.step, whenFree (.head _) _ rfl]
      split <;> exact ⟨_, rfl⟩
  | takes =>
      left
      simp only [Thread.Moves, Thread.step, Task.step, whenFree (.head _) _ rfl]
      split <;> exact ⟨_, rfl⟩
  | locks value =>
      left
      simp only [Thread.Moves, Thread.step, Task.step, whenFree (.head _) _ rfl]
      exact ⟨_, rfl⟩
  | enters =>
      left
      simp only [Thread.Moves, Thread.step, Task.step, World.enterSlot, unentered rfl rfl,
        Option.bind_some]
      split <;> exact ⟨_, rfl⟩
  | produces | confirms | swaps =>
      left
      simp only [Thread.Moves, Thread.step, Task.step]
      split <;> exact ⟨_, rfl⟩
  | reacts due => exact .inl (due.moves fun unlocked => free (by rw [Thread.locks, Control.locks, unlocked]; rfl))
  | runs inner home => exact .inl (Thread.moves_above rfl idle)
  | releases value inner home => exact .inl (Thread.moves_above rfl idle)
  | runsReaction awaits inner home => exact .inl (Thread.moves_above awaits.serves idle)

theorem Posted.done {thread : Thread σ ν} {exit : Exit}
    (posted : Posted o slot s id errand post left thread) (ended : thread.exit? = some exit) :
    post.spot o slot = .done exit := by
  have emptied : thread.stack = [] := by rw [Thread.exit?_eq_some ended]
  cases posted with
  | runs inner | releases value inner | runsReaction awaits inner =>
      exact absurd emptied (List.append_ne_nil_of_right_ne_nil _ (List.cons_ne_nil _ _))
  | got ending | told ending | dropped ending | second ending => rw [ending.exit ended]; rfl
  | _ => contradiction

end

end Relinquish
