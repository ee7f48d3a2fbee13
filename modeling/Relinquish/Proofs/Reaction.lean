import Relinquish.Proofs.Causes
import Relinquish.Proofs.Locks

/-!
The reaction of a slot to an error of its initializer: the kinds of its links and handlers are
asked, the links that match are released and the handlers that match are called, and what fails on
the way is returned together with the error.
-/

namespace Relinquish

variable {σ ν : Type}

/-! ## What happens in a reaction -/

/-- Kinds are asked one after the other whether they match the error, and the places of those that
do are kept. -/
inductive Judged (id : ThreadId) (error : Error) :
    World σ ν → List (Nat × Kind σ ν) → List Nat → World σ ν → Prop
  | nobody (world : World σ ν) : Judged id error world [] [] world
  | told {world next : World σ ν} {place : Nat} {kind : Kind σ ν} {kinds : List (Nat × Kind σ ν)}
      {places : List Nat} {holds : Bool} (verdict : kind.judge error = .inl holds)
      (rest : Judged id error world kinds places next) :
      Judged id error world ((place, kind) :: kinds) (if holds then place :: places else places) next
  | asked {world middle next : World σ ν} {place : Nat} {kind : Kind σ ν}
      {kinds : List (Nat × Kind σ ν)} {places : List Nat} {code : Code σ ν} {reply : Reply}
      (verdict : kind.judge error = .inr code)
      (run : Ends id world (.code code) (.returned reply) middle)
      (rest : Judged id error middle kinds places next) :
      Judged id error world ((place, kind) :: kinds)
        (if reply.accepts then place :: places else places) next

/-- What a kind without a predicate says of an error. -/
inductive Kind.Tells (error : Error) : Kind σ ν → Bool → Prop
  | any : Tells error .any true
  | of {type : ErrorType} {trail : List Error} {holds : Bool} (behind : error.Trail trail)
      (caused : holds = true ↔ ∃ cause ∈ trail, cause.isA type) : Tells error (.of type) holds
  | exact {type : ErrorType} {holds : Bool} (own : holds = true ↔ error.isA type) :
      Tells error (.exact type) holds

/-- The entries of a registry from a place on are asked whether they match the error, each once and
in the order in which they were registered, and those that do are chosen. -/
inductive Sifted {α : Type} (id : ThreadId) (error : Error) :
    World σ ν → Nat → List (Kind σ ν × α) → List (Nat × α) → World σ ν → Prop
  | nobody (world : World σ ν) (place : Nat) : Sifted id error world place [] [] world
  | told {world next : World σ ν} {place : Nat} {kind : Kind σ ν} {entry : α}
      {entries : List (Kind σ ν × α)} {chosen : List (Nat × α)} {holds : Bool}
      (tells : kind.Tells error holds) (rest : Sifted id error world (place + 1) entries chosen next) :
      Sifted id error world place ((kind, entry) :: entries)
        (if holds then (place, entry) :: chosen else chosen) next
  | asked {world middle next : World σ ν} {place : Nat} {name : String} {accepts : Error → Code σ ν}
      {entry : α} {entries : List (Kind σ ν × α)} {chosen : List (Nat × α)} {reply : Reply}
      (run : Ends id world (.code (accepts error)) (.returned reply) middle)
      (rest : Sifted id error middle (place + 1) entries chosen next) :
      Sifted id error world place ((.matching name accepts, entry) :: entries)
        (if reply.accepts then (place, entry) :: chosen else chosen) next

/-- Entries have their turns one after the other, whatever comes of the earlier ones; the errors
that they return are logged and kept. -/
inductive Called {α : Type} (id : ThreadId) (begins : Nat → Act) (turn : α → Control σ ν)
    (event : Error → Event) : World σ ν → List (Nat × α) → List Error → World σ ν → Prop
  | nobody (world : World σ ν) : Called id begins turn event world [] [] world
  | returned {world middle next : World σ ν} {place : Nat} {entry : α} {rest : List (Nat × α)}
      {errors : List Error} {reply : Reply}
      (run : Ends id (world.act (begins place)) (turn entry) (.returned reply) middle)
      (others : Called id begins turn event
        (middle.emitAll (reply.error?.map event).toList) rest errors next) :
      Called id begins turn event world ((place, entry) :: rest) (reply.error?.toList ++ errors) next

/-- The selection of links and then of handlers, the event that tells how many there are, the
releases of the links and then the calls of the handlers. -/
inductive Reaction (id : ThreadId) (s : SlotId) (error : Error) (world : World σ ν)
    (links : List (Nat × Droppable σ ν)) (handlers : List (Nat × (Error → Code σ ν))) :
    List Error → List Error → World σ ν → Prop
  | mk {sifted judged middle next : World σ ν} {linkErrors handlerErrors : List Error}
      (linksSifted : Sifted id error (world.lock (.links s) id) 0 (world.slot s).links.entries
        links sifted)
      (handlersSifted : Sifted id error ((sifted.unlock (.links s)).lock (.handlers s) id) 0
        (sifted.slot s).handlers.entries handlers judged)
      (released : Called id (fun place => .linkStarted s place error) (fun link => .task (.dispose link))
        (.linkFailed s)
        ((judged.unlock (.handlers s)).emit
          (.initializationFailed s error links.length handlers.length))
        links linkErrors middle)
      (called : Called id (fun place => .handlerStarted s place error)
        (fun handler => .code (handler error)) (.handlerFailed s) middle handlers handlerErrors next) :
      Reaction id s error world links handlers linkErrors handlerErrors next

/-! ## Who takes part -/

/-- Whether a kind matches an error: it is told by itself or by the reply of its predicate. -/
inductive Kind.Verdict (id : ThreadId) (error : Error) (kind : Kind σ ν) : Bool → Prop
  | told {holds : Bool} (verdict : kind.judge error = .inl holds) : Verdict id error kind holds
  | asked {code : Code σ ν} {before after : World σ ν} {reply : Reply}
      (verdict : kind.judge error = .inr code)
      (run : Ends id before (.code code) (.returned reply) after) :
      Verdict id error kind reply.accepts

namespace Registry

variable {α : Type} {registry : Registry σ ν α}

/-- The chosen entries are just those of which the kinds match the error. -/
structure Decides (registry : Registry σ ν α) (id : ThreadId) (error : Error)
    (chosen : List (Nat × α)) : Prop where
  registered : ∀ place entry, (place, entry) ∈ chosen →
    ∃ kind, registry.entries[place]? = some (kind, entry)
  matching : ∀ place kind entry, registry.entries[place]? = some (kind, entry) →
    ∃ holds, kind.Verdict id error holds ∧ ((place, entry) ∈ chosen ↔ holds = true)
  distinct : (chosen.map Prod.fst).Nodup

end Registry

/-- Who takes part in the reaction to a failure: the links and the handlers that are registered when
the initializer fails and match. Nobody who is registered later does, but for a handler that the
predicate of a link registers. -/
structure World.Selects (failed : World σ ν) (id : ThreadId) (s : SlotId) (error : Error)
    (links : List (Nat × Droppable σ ν)) (handlers : List (Nat × (Error → Code σ ν))) : Prop where
  links : (failed.slot s).links.Decides id error links
  handlers : ∃ asked : Registry σ ν (Error → Code σ ν),
    (failed.slot s).handlers.entries <+: asked.entries ∧ asked.Decides id error handlers ∧
      ((∀ entry ∈ (failed.slot s).links.kinds, ∃ holds, entry.2.judge error = .inl holds) →
        asked = (failed.slot s).handlers)

/-! ## Code that runs on the way -/

def Selection.Of (s : SlotId) : Selection σ ν → Prop
  | links t => t = s
  | handlers t _ => t = s
  | numbers _ => False

def Frame.Reacts (s : SlotId) : Frame σ ν → Prop
  | .judging selection _ _ _ _ => selection.Of s
  | .linking t _ _ _ _ | .handling t _ _ _ => t = s
  | _ => False

/-- Whatever predicates, links and handlers the slot runs while a thread gets its value, they
return. -/
def World.ReactionsReturn (world : World σ ν) (id : ThreadId) (s : SlotId) : Prop :=
  ∀ reached control frame, Frame.Reacts s frame →
    Thread.Reaches world ⟨id, .task (.look s), []⟩ reached ⟨id, control, [frame]⟩ →
    ∃ reply after, Ends id reached control (.returned reply) after

section
variable {s : SlotId} {id : ThreadId} {error : Error} {first world next : World σ ν}
  {places : List Nat}

theorem World.ReactionsReturn.of_ends {reply : Reply}
    (run : Ends id world (.task (.look s)) (.returned reply) next) : world.ReactionsReturn id s := by
  intro reached control frame reacts reach
  have goes : Thread.Reaches reached (Thread.above ⟨id, control, []⟩ [frame]) next _ :=
    reach.rest run
  obtain ⟨middle, exit, inner, outer⟩ := goes.cut (Nat.zero_le _)
  cases exit with
  | returned reply => exact ⟨reply, middle, inner⟩
  | panicked payload =>
      have escapes : ∃ left, Thread.step middle
          ⟨id, .task (.finish (.panicked payload)), [frame]⟩ =
          some (left, ⟨id, .task (.finish (.panicked payload)), []⟩) := by
        cases frame <;> first | exact ⟨_, rfl⟩ | exact False.elim reacts
      obtain ⟨left, escapes⟩ := escapes
      have ended := Thread.Reaches.rest (.step escapes (.refl left _)) outer
      exact absurd (Ends.unique (.finish id left (.panicked payload)) ended).1 nofun

/-! ## Selection -/

theorem Judged.of_returns {start : Thread σ ν} {selection : Selection σ ν}
    (returns : ∀ reached control place rest kept,
      Thread.Reaches first start reached ⟨id, control, [.judging selection error place rest kept]⟩ →
      ∃ reply after, Ends id reached control (.returned reply) after)
    (kinds : List (Nat × Kind σ ν)) (kept : List Nat)
    (reach : Thread.Reaches first start world ⟨id, .task (.sift selection error kinds kept), []⟩) :
    ∃ places next, Judged id error world kinds places next ∧
      Thread.Reaches first start next
        ⟨id, .task (.sift selection error [] (kept ++ places)), []⟩ := by
  induction kinds generalizing world kept with
  | nil =>
      refine ⟨[], world, .nobody world, ?_⟩
      rwa [List.append_nil]
  | cons entry kinds ih =>
      obtain ⟨place, kind⟩ := entry
      cases verdict : kind.judge error with
      | inl holds =>
          have asks : Thread.step world
              ⟨id, .task (.sift selection error ((place, kind) :: kinds) kept), []⟩ =
              some (world, ⟨id, .task (.sift selection error kinds
                (if holds then kept ++ [place] else kept)), []⟩) := by
            simp only [Thread.step, Task.step, World.ask, verdict]
            cases holds <;> rfl
          obtain ⟨places, next, judged, reach⟩ :=
            ih _ (reach.trans (.step asks (.refl world _)))
          refine ⟨_, next, .told verdict judged, ?_⟩
          cases holds <;> simpa using reach
      | inr code =>
          -- A predicate is code, which runs under the lock of its registry.
          have asks : Thread.step world
              ⟨id, .task (.sift selection error ((place, kind) :: kinds) kept), []⟩ =
              some (world, ⟨id, .code code, [.judging selection error place kinds kept]⟩) := by
            simp only [Thread.step, Task.step, World.ask, verdict]
            rfl
          have asked := reach.trans (.step asks (.refl world _))
          obtain ⟨reply, middle, run⟩ := returns world _ place kinds kept asked
          have answers : Thread.step middle ⟨id, .task (.finish (.returned reply)),
              [.judging selection error place kinds kept]⟩ =
              some (middle, ⟨id, .task (.sift selection error kinds
                (if reply.accepts then kept ++ [place] else kept)), []⟩) := rfl
          obtain ⟨places, next, judged, reach⟩ :=
            ih _ ((asked.trans (run.above _)).trans (.step answers (.refl middle _)))
          refine ⟨_, next, .asked verdict run judged, ?_⟩
          cases accepts : reply.accepts <;> simpa [accepts] using reach

theorem Judged.restores {kinds : List (Nat × Kind σ ν)} {places : List Nat}
    (judged : Judged id error world kinds places next) : Restores world next [] := by
  induction judged with
  | nobody world => exact .refl world
  | told verdict rest ih => exact ih
  | asked verdict run rest ih => exact (Thread.Reaches.restores run rfl).trans ih

theorem Judged.places_sublist {kinds : List (Nat × Kind σ ν)} {places : List Nat}
    (judged : Judged id error world kinds places next) : places.Sublist (kinds.map Prod.fst) := by
  induction judged with
  | nobody => exact .slnil
  | @told _ _ place _ _ _ holds _ _ ih => cases holds <;> [exact ih.cons _; exact ih.cons_cons _]
  | asked _ _ _ ih => split <;> [exact ih.cons_cons _; exact ih.cons _]

theorem Judged.uncons {entry : Nat × Kind σ ν} {kinds : List (Nat × Kind σ ν)} {places : List Nat}
    (judged : Judged id error world (entry :: kinds) places next) :
    ∃ holds kept middle, entry.2.Verdict id error holds ∧ Judged id error middle kinds kept next ∧
      places = if holds then entry.1 :: kept else kept := by
  cases judged with
  | told verdict rest => exact ⟨_, _, _, .told verdict, rest, rfl⟩
  | asked verdict run rest => exact ⟨_, _, _, .asked verdict run, rest, rfl⟩

theorem Judged.verdict {kinds : List (Nat × Kind σ ν)} {places : List Nat} {place : Nat}
    {kind : Kind σ ν} (judged : Judged id error world kinds places next)
    (distinct : (kinds.map Prod.fst).Nodup) (member : (place, kind) ∈ kinds) :
    ∃ holds, kind.Verdict id error holds ∧ (place ∈ places ↔ holds = true) := by
  induction kinds generalizing world places with
  | nil => contradiction
  | cons entry kinds ih =>
      obtain ⟨unlisted, distinct⟩ := List.nodup_cons.mp distinct
      obtain ⟨holds, kept, middle, verdict, rest, rfl⟩ := judged.uncons
      rcases List.mem_cons.mp member with rfl | within
      · have unkept : place ∉ kept := fun listed => unlisted (rest.places_sublist.subset listed)
        exact ⟨holds, verdict, by cases holds <;> simp [unkept]⟩
      · have apart : place ≠ entry.1 := fun same =>
          unlisted (same ▸ List.mem_map_of_mem within)
        obtain ⟨answer, answers, listed⟩ := ih rest distinct within
        exact ⟨answer, answers, by cases holds <;> simp [apart, listed]⟩

theorem Judged.untouched {kinds : List (Nat × Kind σ ν)} {places : List Nat}
    (judged : Judged id error world kinds places next)
    (told : ∀ entry ∈ kinds, ∃ holds, entry.2.judge error = .inl holds) : next = world := by
  induction judged with
  | nobody => rfl
  | told _ _ ih => exact ih fun entry member => told entry (.tail _ member)
  | asked verdict =>
      obtain ⟨holds, other⟩ := told _ (.head _)
      exact absurd (verdict.symm.trans other) nofun

end

namespace Registry

variable {α : Type} {registry : Registry σ ν α} {places : List Nat} {place : Nat} {kind : Kind σ ν}
  {entry : α}

theorem kinds_places : registry.kinds.map Prod.fst = List.range registry.size := by
  simp [kinds, size, List.map_map, Function.comp_def, List.zipIdx_map_snd, List.range_eq_range']

theorem mem_kinds : (place, kind) ∈ registry.kinds ↔
    ∃ entry, registry.entries[place]? = some (kind, entry) := by
  simp [kinds, List.mem_zipIdx_iff_getElem?]

theorem mem_pick : (place, entry) ∈ registry.pick places ↔
    place ∈ places ∧ ∃ kind, registry.entries[place]? = some (kind, entry) := by
  simp only [pick, List.mem_filterMap, Option.map_eq_some_iff, Prod.mk.injEq]
  constructor
  · rintro ⟨place, member, ⟨kind, entry⟩, listed, rfl, rfl⟩
    exact ⟨member, kind, listed⟩
  · rintro ⟨member, kind, listed⟩
    exact ⟨place, member, (kind, entry), listed, rfl, rfl⟩

theorem pick_places : ((registry.pick places).map Prod.fst).Sublist places := by
  induction places with
  | nil => exact .slnil
  | cons place rest ih =>
      rw [pick, List.filterMap_cons]
      cases registry.entries[place]? with
      | none => exact ih.cons place
      | some found => exact ih.cons_cons place

theorem pick_if (listed : registry.entries[place]? = some (kind, entry)) (holds : Bool) :
    registry.pick (if holds then place :: places else places) =
      if holds then (place, entry) :: registry.pick places else registry.pick places := by
  cases holds <;> simp [pick, listed]

theorem kinds_distinct : (registry.kinds.map Prod.fst).Nodup := by
  rw [kinds_places]
  exact List.nodup_range

end Registry

section
variable {id : ThreadId} {error : Error} {world next : World σ ν} {α : Type}
  {registry : Registry σ ν α} {places : List Nat}

theorem Kind.tells_of_judge {kind : Kind σ ν} {holds : Bool} (verdict : kind.judge error = .inl holds) :
    kind.Tells error holds := by
  cases kind with
  | any =>
      obtain rfl := Sum.inl.inj verdict
      exact .any
  | of type =>
      obtain rfl := Sum.inl.inj verdict
      exact .of error.trail_path Error.find_isSome_iff
  | exact type =>
      obtain rfl := Sum.inl.inj verdict
      exact .exact Iff.rfl
  | matching name accepts => contradiction

theorem Kind.eq_matching_of_judge {kind : Kind σ ν} {code : Code σ ν}
    (verdict : kind.judge error = .inr code) :
    ∃ name accepts, kind = .matching name accepts ∧ code = accepts error := by
  cases kind with
  | matching name accepts => exact ⟨name, accepts, rfl, (Sum.inr.inj verdict).symm⟩
  | any | of | exact => contradiction

theorem Judged.sifted_from {entries : List (Kind σ ν × α)} (before : List (Kind σ ν × α))
    (split : registry.entries = before ++ entries)
    (judged : Judged id error world
      ((entries.zipIdx before.length).map fun ((kind, _), place) => (place, kind)) places next) :
    Sifted id error world before.length entries (registry.pick places) next := by
  induction entries generalizing before world places with
  | nil =>
      cases judged
      exact .nobody _ _
  | cons entry entries ih =>
      obtain ⟨kind, entry⟩ := entry
      have listed : registry.entries[before.length]? = some (kind, entry) := by simp [split]
      have rest : registry.entries = (before ++ [(kind, entry)]) ++ entries := by
        rw [split, List.append_cons]
      have places : (before ++ [(kind, entry)]).length = before.length + 1 := List.length_append
      cases judged with
      | told verdict others =>
          rw [← places] at others
          rw [Registry.pick_if listed]
          exact .told (Kind.tells_of_judge verdict) (places ▸ ih _ rest others)
      | asked verdict run others =>
          obtain ⟨name, accepts, rfl, rfl⟩ := Kind.eq_matching_of_judge verdict
          rw [← places] at others
          rw [Registry.pick_if listed]
          exact .asked run (places ▸ ih _ rest others)

theorem Judged.sifted (judged : Judged id error world registry.kinds places next) :
    Sifted id error world 0 registry.entries (registry.pick places) next :=
  judged.sifted_from [] rfl

theorem Judged.decides (judged : Judged id error world registry.kinds places next) :
    registry.Decides id error (registry.pick places) where
  registered _ _ member := (Registry.mem_pick.mp member).2
  matching place kind entry listed := by
    obtain ⟨holds, verdict, kept⟩ :=
      judged.verdict Registry.kinds_distinct (Registry.mem_kinds.mpr ⟨entry, listed⟩)
    refine ⟨holds, verdict, ?_⟩
    rw [← kept, Registry.mem_pick]
    exact and_iff_left ⟨kind, listed⟩
  distinct :=
    .sublist Registry.pick_places (.sublist judged.places_sublist Registry.kinds_distinct)

theorem Judged.ordered (judged : Judged id error world registry.kinds places next) :
    ((registry.pick places).map Prod.fst).Pairwise (· < ·) := by
  have places := judged.places_sublist
  rw [Registry.kinds_places] at places
  exact (List.pairwise_lt_range.sublist places).sublist Registry.pick_places

end

section
variable {s : SlotId} {id : ThreadId} {error : Error} {first world next : World σ ν}
  {places : List Nat}

/-! ## Turns -/

theorem Called.of_returns {α : Type} {begins : Nat → Act} {turn : α → Control σ ν}
    {event : Error → Event} {start : Thread σ ν} (wrap : Error → DropError)
    (control : List (Nat × α) → List DropError → Control σ ν)
    (frame : List (Nat × α) → List DropError → Frame σ ν) (last : List (Nat × α))
    (returns : ∀ reached control rest failures, last <:+ rest →
      Thread.Reaches first start reached ⟨id, control, [frame rest failures]⟩ →
      ∃ reply after, Ends id reached control (.returned reply) after)
    (begin : ∀ (world : World σ ν) place entry rest failures,
      Thread.step world ⟨id, control ((place, entry) :: rest) failures, []⟩ =
        some (world.act (begins place), ⟨id, turn entry, [frame rest failures]⟩))
    (resume : ∀ (world : World σ ν) reply rest failures,
      Thread.step world ⟨id, .task (.finish (.returned reply)), [frame rest failures]⟩ =
        some (world.emitAll (reply.error?.map event).toList,
          ⟨id, control rest (failures ++ reply.error?.toList.map wrap), []⟩))
    (entries : List (Nat × α)) (failures : List DropError)
    (reach : Thread.Reaches first start world ⟨id, control (entries ++ last) failures, []⟩) :
    ∃ errors next, Called id begins turn event world entries errors next ∧
      Thread.Reaches first start next
        ⟨id, control last (failures ++ errors.map wrap), []⟩ := by
  induction entries generalizing world failures with
  | nil =>
      refine ⟨[], world, .nobody world, ?_⟩
      rwa [List.map_nil, List.append_nil]
  | cons entry rest ih =>
      obtain ⟨place, entry⟩ := entry
      have begun := reach.trans (.step (begin world place entry _ failures) (.refl _ _))
      obtain ⟨reply, middle, run⟩ := returns _ _ _ _ (List.suffix_append rest last) begun
      have ended := begun.trans (run.above _)
      obtain ⟨errors, next, called, reach⟩ :=
        ih _ (ended.trans (.step (resume middle reply _ failures) (.refl _ _)))
      refine ⟨_, next, .returned run called, ?_⟩
      rwa [List.map_append, ← List.append_assoc]

/-! ## The reaction as a whole -/

def World.withdraw (world : World σ ν) (s : SlotId) (error : Error) : World σ ν :=
  ((world.updateSlot s fun slot => { slot with initializing := false }).act
    (.initializerEnded s (.returned (.failed error)))).leaveSlot s

theorem World.Retains.withdraw (world : World σ ν) (s : SlotId) (error : Error) :
    world.Retains (world.withdraw s error) := by
  have cleared : world.Retains
      (world.updateSlot s fun slot => { slot with initializing := false }) :=
    .updateSlot world s (fun _ => rfl) fun _ => rfl
  have left (world : World σ ν) : world.Retains (world.leaveSlot s) :=
    .updateSlot world s (fun _ => rfl) fun _ => rfl
  exact cleared.trans ((act _ _).trans (left _))

theorem Thread.step_consult {selection : Selection σ ν} (free : world.free selection.lock = true) :
    Thread.step world ⟨id, .task (.consult selection error), []⟩ =
      some (world.lock selection.lock id,
        ⟨id, .task (.sift selection error (world.kinds selection) []), []⟩) := by
  simp only [Thread.step, Task.step, World.whenFree, List.all_cons, free, List.all_nil, Bool.and_true]
  rfl

theorem Judged.of_consult {start : Thread σ ν} {selection : Selection σ ν}
    (returns : ∀ reached control place rest kept,
      Thread.Reaches first start reached ⟨id, control, [.judging selection error place rest kept]⟩ →
      ∃ reply after, Ends id reached control (.returned reply) after)
    (free : world.free selection.lock = true)
    (reach : Thread.Reaches first start world ⟨id, .task (.consult selection error), []⟩) :
    ∃ places next, Judged id error (world.lock selection.lock id) (world.kinds selection) places next ∧
      Thread.Reaches first start next ⟨id, .task (.sift selection error [] places), []⟩ :=
  Judged.of_returns returns _ [] (reach.trans (.step (Thread.step_consult free) (.refl _ _)))

theorem Judged.links (judged : Judged id error (world.lock (.links s) id)
      (world.slot s).links.kinds places next) (made : s < world.slots.size) :
    (next.slot s).links = (world.slot s).links :=
  judged.restores.preserves.linksKept s made (world.not_free_lock _ id)

theorem Judged.handlers (judged : Judged id error (world.lock (.handlers s) id)
      (world.slot s).handlers.kinds places next) (made : s < world.slots.size) :
    (next.slot s).handlers = (world.slot s).handlers :=
  judged.restores.preserves.handlersKept s made (world.not_free_lock _ id)

theorem Judged.selects {failed judged : World σ ν} {handlerPlaces : List Nat}
    (links : Judged id error ((failed.withdraw s error).lock (.links s) id)
      ((failed.withdraw s error).slot s).links.kinds places next)
    (handlers : Judged id error ((next.unlock (.links s)).lock (.handlers s) id)
      (next.slot s).handlers.kinds handlerPlaces judged) (made : s < failed.slots.size) :
    failed.Selects id s error (((failed.withdraw s error).slot s).links.pick places)
      ((next.slot s).handlers.pick handlerPlaces) := by
  have kept := World.Retains.withdraw failed s error
  have grows := links.restores.preserves.handlers s (Nat.lt_of_lt_of_le made kept.made)
  rw [kept.links s made] at links ⊢
  rw [World.slot_lock, kept.handlers s made] at grows
  refine ⟨links.decides, _, grows, handlers.decides, fun told => ?_⟩
  rw [links.untouched told]
  exact kept.handlers s made

theorem Judged.step_links (judged : Judged id error (world.lock (.links s) id)
      (world.slot s).links.kinds places next) (made : s < world.slots.size) :
    Thread.step next ⟨id, .task (.sift (.links s) error [] places), []⟩ =
      some (next.unlock (.links s),
        ⟨id, .task (.consult (.handlers s ((world.slot s).links.pick places)) error), []⟩) := by
  rw [← judged.links made]
  rfl

theorem Judged.step_handlers (judged : Judged id error (world.lock (.handlers s) id)
      (world.slot s).handlers.kinds places next) (made : s < world.slots.size)
    (links : List (Nat × Droppable σ ν)) :
    Thread.step next ⟨id, .task (.sift (.handlers s links) error [] places), []⟩ =
      some ((next.unlock (.handlers s)).emit (.initializationFailed s error links.length
          ((world.slot s).handlers.pick places).length),
        ⟨id, .task (.links s error links ((world.slot s).handlers.pick places) []), []⟩) := by
  rw [← judged.handlers made]
  rfl

theorem Judged.of_links (returns : first.ReactionsReturn id s) (made : s < world.slots.size)
    (free : world.free (.links s) = true)
    (reach : Thread.Reaches first ⟨id, .task (.look s), []⟩ world
      ⟨id, .task (.consult (.links s) error), []⟩) :
    ∃ places next, Judged id error (world.lock (.links s) id) (world.slot s).links.kinds places next ∧
      Thread.Reaches first ⟨id, .task (.look s), []⟩ (next.unlock (.links s))
        ⟨id, .task (.consult (.handlers s ((world.slot s).links.pick places)) error), []⟩ := by
  obtain ⟨places, next, judged, sifted⟩ := Judged.of_consult
    (fun _ _ _ _ _ => returns _ _ (.judging (.links s) ..) rfl) free reach
  exact ⟨places, next, judged, sifted.snoc (judged.step_links made)⟩

theorem Judged.of_handlers (returns : first.ReactionsReturn id s) (made : s < world.slots.size)
    (free : world.free (.handlers s) = true) {links : List (Nat × Droppable σ ν)}
    (reach : Thread.Reaches first ⟨id, .task (.look s), []⟩ world
      ⟨id, .task (.consult (.handlers s links) error), []⟩) :
    ∃ places next,
      Judged id error (world.lock (.handlers s) id) (world.slot s).handlers.kinds places next ∧
      Thread.Reaches first ⟨id, .task (.look s), []⟩
        ((next.unlock (.handlers s)).emit (.initializationFailed s error links.length
          ((world.slot s).handlers.pick places).length))
        ⟨id, .task (.links s error links ((world.slot s).handlers.pick places) []), []⟩ := by
  obtain ⟨places, next, judged, sifted⟩ := Judged.of_consult
    (fun _ _ _ _ _ => returns _ _ (.judging (.handlers s links) ..) rfl) free reach
  exact ⟨places, next, judged, sifted.snoc (judged.step_handlers made links)⟩

theorem Thread.step_linking (world : World σ ν) (reply : Reply) (rest : List (Nat × Droppable σ ν))
    (handlers : List (Nat × (Error → Code σ ν))) (failures : List DropError) :
    Thread.step world ⟨id, .task (.finish (.returned reply)),
      [.linking s error rest handlers failures]⟩ =
    some (world.emitAll (reply.error?.map (.linkFailed s)).toList,
      ⟨id, .task (.links s error rest handlers
        (failures ++ reply.error?.toList.map .dropChain)), []⟩) := by
  cases failed : reply.error? <;>
    simp only [Thread.step, Frame.resume, failed, Option.toList_none, List.map_nil, List.append_nil] <;>
    rfl

theorem Thread.step_handling (world : World σ ν) (reply : Reply)
    (rest : List (Nat × (Error → Code σ ν))) (failures : List DropError) :
    Thread.step world ⟨id, .task (.finish (.returned reply)), [.handling s error rest failures]⟩ =
    some (world.emitAll (reply.error?.map (.handlerFailed s)).toList,
      ⟨id, .task (.handlers s error rest (failures ++ reply.error?.toList.map .handler)), []⟩) := by
  cases failed : reply.error? <;>
    simp only [Thread.step, Frame.resume, failed, Option.toList_none, List.map_nil, List.append_nil] <;>
    rfl

theorem Called.of_chosen (returns : first.ReactionsReturn id s)
    (links : List (Nat × Droppable σ ν)) (handlers : List (Nat × (Error → Code σ ν)))
    (reach : Thread.Reaches first ⟨id, .task (.look s), []⟩ world
      ⟨id, .task (.links s error links handlers []), []⟩) :
    ∃ linkErrors middle handlerErrors next,
      Called id (fun place => .linkStarted s place error) (fun link => .task (.dispose link))
        (.linkFailed s) world links linkErrors middle ∧
      Called id (fun place => .handlerStarted s place error)
        (fun handler => .code (handler error)) (.handlerFailed s) middle handlers handlerErrors next ∧
      Ends id first (.task (.look s))
        (.returned (.failed (.drop (.initialization error
          (linkErrors.map .dropChain ++ handlerErrors.map .handler))))) next := by
  obtain ⟨linkErrors, middle, released, reach⟩ := Called.of_returns .dropChain
    (fun rest failures => .task (.links s error rest handlers failures))
    (fun rest failures => .linking s error rest handlers failures) []
    (fun _ _ _ _ _ => returns _ _ (.linking ..) rfl) (fun _ _ _ _ _ => rfl)
    (Thread.step_linking · · · handlers ·) links []
    (by rwa [List.append_nil])
  have reach := reach.trans (.step rfl (.refl middle ⟨id, .task (.handlers s error handlers _), []⟩))
  obtain ⟨handlerErrors, next, called, reach⟩ := Called.of_returns .handler
    (fun rest failures => .task (.handlers s error rest failures))
    (fun rest failures => .handling s error rest failures) []
    (fun _ _ _ _ _ => returns _ _ (.handling ..) rfl) (fun _ _ _ _ _ => rfl)
    Thread.step_handling handlers _
    (by rwa [List.append_nil])
  exact ⟨linkErrors, middle, handlerErrors, next, released, called,
    reach.trans (.step rfl (.refl next _))⟩

/-- Someone who gets the value of a slot, and whose run of the initializer has returned an error,
gets the error together with what failed in the reaction to it. Just those react who were registered
and match, in the order of their registration. -/
theorem Reaction.of_failure {failed : World σ ν} (made : s < world.slots.size)
    (free : world.free (.links s) = true ∧ world.free (.handlers s) = true)
    (returns : world.ReactionsReturn id s)
    (fails : Thread.Reaches world ⟨id, .task (.look s), []⟩ failed
      ⟨id, .task (.finish (.returned (.failed error))), [.initializing s]⟩) :
    ∃ links handlers linkErrors handlerErrors next,
      failed.Selects id s error links handlers ∧
      (links.map Prod.fst).Pairwise (· < ·) ∧ (handlers.map Prod.fst).Pairwise (· < ·) ∧
      Reaction id s error (failed.withdraw s error) links handlers linkErrors handlerErrors next ∧
      Ends id world (.task (.look s))
        (.returned (.failed (.drop (.initialization error
          (linkErrors.map .dropChain ++ handlerErrors.map .handler))))) next ∧
      (DropError.initialization error
          (linkErrors.map .dropChain ++ handlerErrors.map .handler)).lastFailure =
        (handlerErrors.getLast?.map .handler).or (linkErrors.getLast?.map .dropChain) := by
  have restores := fails.restores rfl
  have made := Nat.lt_of_lt_of_le made restores.preserves.made
  have resumes : Thread.step failed
      ⟨id, .task (.finish (.returned (.failed error))), [.initializing s]⟩ =
      some (_, ⟨id, .task (.leave s (.consult (.links s) error)), []⟩) := rfl
  have consults := fails.trans (.step resumes (.step rfl (.refl (failed.withdraw s error) _)))
  have unlocked (lock : Lock) : (failed.withdraw s error).free lock = world.free lock :=
    (World.free_congr rfl lock).trans (restores.free lock)
  have kept := Nat.lt_of_lt_of_le made (World.Retains.withdraw failed s error).made
  obtain ⟨linkPlaces, sifted, linksJudged, consults⟩ :=
    Judged.of_links returns kept ((unlocked _).trans free.1) consults
  have kept : s < (sifted.unlock (.links s)).slots.size :=
    Nat.lt_of_lt_of_le kept linksJudged.restores.preserves.made
  have free : (sifted.unlock (.links s)).free (.handlers s) = true := by
    rw [World.free_of_given rfl, linksJudged.restores.free, World.free_of_taken rfl, unlocked]
    exact .inr ⟨nofun, free.2⟩
  obtain ⟨handlerPlaces, judged, handlersJudged, chosen⟩ :=
    Judged.of_handlers returns kept free consults
  obtain ⟨linkErrors, middle, handlerErrors, next, released, called, ends⟩ :=
    Called.of_chosen returns _ _ chosen
  refine ⟨_, _, linkErrors, handlerErrors, next, linksJudged.selects handlersJudged made,
    linksJudged.ordered, handlersJudged.ordered,
    .mk linksJudged.sifted handlersJudged.sifted released called, ends, ?_⟩
  simp [DropError.lastFailure, DropError.failures, List.getLast?_append, List.getLast?_map]

end

/-- A slot that is refused its value, some of whose links and handlers match and some of these fail. -/
def World.withFailing : World Unit Unit where
  memory := ()
  slots := Table.push {}
    { release := fun _ => .ret .done
      initializer := .ret (.failed (.text "refused"))
      links := ⟨[(.exact .config, .action (.ret (.failed (.text "misled")))),
        (.any, .action (.ret (.failed (.text "stuck")))),
        (.matching "picky" fun _ => .ret (.verdict false), .action (.ret .done))]⟩
      handlers := ⟨[(.matching "eager" fun _ => .ret (.verdict true), fun error => .ret (.failed error)),
        (.exact .config, fun _ => .ret .done), (.any, fun _ => .ret .done)]⟩
      handles := 1 }

theorem Reaction.of_failure_stuck :
    let failed := (Thread.advance 5 World.withFailing ⟨0, .task (.look 0), []⟩).1
    ∃ links handlers next, failed.Selects 0 0 (.text "refused") links handlers ∧
      Reaction 0 0 (.text "refused") (failed.withdraw 0 (.text "refused")) links handlers
        [.text "stuck"] [.text "refused"] next ∧
      Ends 0 World.withFailing (.task (.look 0))
        (.returned (.failed (.drop (.initialization (.text "refused")
          [.dropChain (.text "stuck"), .handler (.text "refused")])))) next ∧
      next.log = [.inl (.initializationFailed 0 (.text "refused") 1 2),
        .inl (.linkFailed 0 (.text "stuck")), .inl (.handlerFailed 0 (.text "refused"))] := by
  intro failed
  have run : Ends 0 World.withFailing (.task (.look 0))
      (.returned (.failed (.drop (.initialization (.text "refused")
        [.dropChain (.text "stuck"), .handler (.text "refused")]))))
      (Thread.advance 33 World.withFailing ⟨0, .task (.look 0), []⟩).1 := ⟨33, rfl⟩
  have fails : Thread.Reaches World.withFailing ⟨0, .task (.look 0), []⟩ failed
      ⟨0, .task (.finish (.returned (.failed (.text "refused")))), [.initializing 0]⟩ := ⟨5, rfl⟩
  obtain ⟨links, handlers, linkErrors, handlerErrors, next, selects, -, -, reaction, ends, -⟩ :=
    Reaction.of_failure (by decide) ⟨rfl, rfl⟩ (.of_ends run) fails
  -- There is one run, which tells what has failed.
  obtain ⟨same, rfl⟩ := run.unique ends
  simp only [Exit.returned.injEq, Reply.failed.injEq, Error.drop.injEq, DropError.initialization.injEq,
    true_and] at same
  obtain ⟨rfl, rfl⟩ : linkErrors = [.text "stuck"] ∧ handlerErrors = [.text "refused"] := by
    rcases linkErrors with - | ⟨stuck, - | ⟨more, others⟩⟩ <;> simp [List.map_eq_cons_iff] at same
    simpa using same
  exact ⟨links, handlers, _, selects, reaction, run, rfl⟩

end Relinquish
