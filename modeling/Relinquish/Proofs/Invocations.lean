import Relinquish.Proofs.Reaction

/-!
What one reaction invokes. The links and then the handlers that were chosen have their turns in this
order, each once and no other, up to the first that does not return.
-/

namespace Relinquish

variable {σ ν : Type}

/-! ## Invocations -/

section
variable {α β : Type} (s : SlotId) (error : Error)

def Act.links (entries : List (Nat × α)) : List Act :=
  entries.map fun entry => .linkStarted s entry.1 error

def Act.handlers (entries : List (Nat × α)) : List Act :=
  entries.map fun entry => .handlerStarted s entry.1 error

def Act.invocations (links : List (Nat × α)) (handlers : List (Nat × β)) : List Act :=
  Act.links s error links ++ Act.handlers s error handlers

variable {s error} {links done : List (Nat × α)} {handlers called : List (Nat × β)}

theorem Act.links_prefix (earlier : done <+: links) :
    Act.links s error done <+: Act.invocations s error links handlers :=
  (earlier.map _).trans (List.prefix_append _ _)

theorem Act.invocations_prefix (earlier : called <+: handlers) :
    Act.invocations s error links called <+: Act.invocations s error links handlers :=
  (List.prefix_append_right_inj _).mpr (earlier.map _)

theorem Act.links_snoc (place : Nat) (link : α) :
    Act.links s error (done ++ [(place, link)]) =
      Act.links s error done ++ [.linkStarted s place error] :=
  List.map_append

theorem Act.invocations_snoc (place : Nat) (handler : β) :
    Act.invocations s error links (called ++ [(place, handler)]) =
      Act.invocations s error links called ++ [.handlerStarted s place error] := by
  rw [invocations, invocations, List.append_assoc]
  exact congrArg _ List.map_append

end

def Task.invokes? : Task σ ν → Option Act
  | links s error ((place, _) :: _) _ _ => some (.linkStarted s place error)
  | handlers s error ((place, _) :: _) _ => some (.handlerStarted s place error)
  | _ => none

def Control.invokes? : Control σ ν → Option Act
  | code _ => none
  | task work => work.invokes?

/-- What a thread that runs alone invokes itself, and not code that it has invoked. -/
def Thread.invokes? (thread : Thread σ ν) : Option Act :=
  if thread.stack.isEmpty then thread.control.invokes? else none

def Thread.invocations : Nat → World σ ν → Thread σ ν → List Act
  | 0, _, _ => []
  | steps + 1, world, thread =>
      match thread.step world with
      | some (next, after) => thread.invokes?.toList ++ invocations steps next after
      | none => []

/-! ## The course of a reaction -/

/-- Links are selected first, in the world in which the slot has been left, then handlers. -/
inductive Selecting (id : ThreadId) (s : SlotId) (error : Error) (origin : World σ ν) :
    Selection σ ν → World σ ν → Prop
  | links : Selecting id s error origin (.links s) origin
  | handlers {places : List Nat} {sifted : World σ ν}
      (judged : Judged id error (origin.lock (.links s) id) (origin.slot s).links.kinds places sifted) :
      Selecting id s error origin (.handlers s ((origin.slot s).links.pick places))
        (sifted.unlock (.links s))

/-- The links and the handlers that the reaction is to invoke, and the world in which it begins to. -/
inductive Chosen (id : ThreadId) (s : SlotId) (error : Error) (origin : World σ ν) :
    List (Nat × Droppable σ ν) → List (Nat × (Error → Code σ ν)) → World σ ν → Prop
  | mk {links : List (Nat × Droppable σ ν)} {begun judged : World σ ν} {places : List Nat}
      (selecting : Selecting id s error origin (.handlers s links) begun)
      (handlersJudged : Judged id error (begun.lock (.handlers s) id) (begun.slot s).handlers.kinds
        places judged) :
      Chosen id s error origin links ((begun.slot s).handlers.pick places)
        ((judged.unlock (.handlers s)).emit (.initializationFailed s error links.length
          ((begun.slot s).handlers.pick places).length))

def Released (id : ThreadId) (s : SlotId) (error : Error) :
    World σ ν → List (Nat × Droppable σ ν) → List Error → World σ ν → Prop :=
  Called id (fun place => .linkStarted s place error) (fun link => .task (.dispose link))
    (.linkFailed s)

def Handled (id : ThreadId) (s : SlotId) (error : Error) :
    World σ ν → List (Nat × (Error → Code σ ν)) → List Error → World σ ν → Prop :=
  Called id (fun place => .handlerStarted s place error) (fun handler => .code (handler error))
    (.handlerFailed s)

/-- Where a reaction is that runs alone, and what it has invoked so far. -/
inductive Reacting (id : ThreadId) (s : SlotId) (error : Error) (origin : World σ ν) :
    List Act → World σ ν → Thread σ ν → Prop
  | leaves {world : World σ ν} (left : world.leaveSlot s = origin) :
      Reacting id s error origin [] world ⟨id, .task (.leave s (.consult (.links s) error)), []⟩
  | consults {selection : Selection σ ν} {begun : World σ ν}
      (selecting : Selecting id s error origin selection begun) :
      Reacting id s error origin [] begun ⟨id, .task (.consult selection error), []⟩
  | sifts {selection : Selection σ ν} {begun world : World σ ν}
      {asked rest : List (Nat × Kind σ ν)} {places : List Nat}
      (selecting : Selecting id s error origin selection begun)
      (kinds : begun.kinds selection = asked ++ rest)
      (judged : Judged id error (begun.lock selection.lock id) asked places world) :
      Reacting id s error origin [] world ⟨id, .task (.sift selection error rest places), []⟩
  | asks {selection : Selection σ ν} {begun middle world : World σ ν}
      {asked rest : List (Nat × Kind σ ν)} {places : List Nat} {place : Nat} {kind : Kind σ ν}
      {code : Code σ ν} {inner : Thread σ ν}
      (selecting : Selecting id s error origin selection begun)
      (kinds : begun.kinds selection = asked ++ (place, kind) :: rest)
      (judged : Judged id error (begun.lock selection.lock id) asked places middle)
      (verdict : kind.judge error = .inr code)
      (runs : Thread.Reaches middle ⟨id, .code code, []⟩ world inner) :
      Reacting id s error origin [] world
        (inner.above [.judging selection error place rest places])
  | links {links done rest : List (Nat × Droppable σ ν)}
      {handlers : List (Nat × (Error → Code σ ν))} {begun world : World σ ν} {errors : List Error}
      (chosen : Chosen id s error origin links handlers begun) (split : links = done ++ rest)
      (released : Released id s error begun done errors world) :
      Reacting id s error origin (Act.links s error done) world
        ⟨id, .task (.links s error rest handlers (errors.map .dropChain)), []⟩
  | linking {links done rest : List (Nat × Droppable σ ν)} {place : Nat} {link : Droppable σ ν}
      {handlers : List (Nat × (Error → Code σ ν))} {begun middle world : World σ ν}
      {errors : List Error} {inner : Thread σ ν}
      (chosen : Chosen id s error origin links handlers begun)
      (split : links = done ++ (place, link) :: rest)
      (released : Released id s error begun done errors middle)
      (runs : Thread.Reaches (middle.act (.linkStarted s place error))
        ⟨id, .task (.dispose link), []⟩ world inner) :
      Reacting id s error origin (Act.links s error (done ++ [(place, link)])) world
        (inner.above [.linking s error rest handlers (errors.map .dropChain)])
  | handlers {links : List (Nat × Droppable σ ν)}
      {handlers done rest : List (Nat × (Error → Code σ ν))} {begun middle world : World σ ν}
      {linkErrors errors : List Error}
      (chosen : Chosen id s error origin links handlers begun)
      (released : Released id s error begun links linkErrors middle) (split : handlers = done ++ rest)
      (handled : Handled id s error middle done errors world) :
      Reacting id s error origin (Act.invocations s error links done) world
        ⟨id, .task (.handlers s error rest (linkErrors.map .dropChain ++ errors.map .handler)), []⟩
  | handling {links : List (Nat × Droppable σ ν)}
      {handlers done rest : List (Nat × (Error → Code σ ν))} {place : Nat}
      {handler : Error → Code σ ν} {begun middle between world : World σ ν}
      {linkErrors errors : List Error} {inner : Thread σ ν}
      (chosen : Chosen id s error origin links handlers begun)
      (released : Released id s error begun links linkErrors middle)
      (split : handlers = done ++ (place, handler) :: rest)
      (handled : Handled id s error middle done errors between)
      (runs : Thread.Reaches (between.act (.handlerStarted s place error))
        ⟨id, .code (handler error), []⟩ world inner) :
      Reacting id s error origin (Act.invocations s error links (done ++ [(place, handler)])) world
        (inner.above [.handling s error rest (linkErrors.map .dropChain ++ errors.map .handler)])
  | answered {links : List (Nat × Droppable σ ν)} {handlers : List (Nat × (Error → Code σ ν))}
      {begun world : World σ ν} {failures : List DropError}
      (chosen : Chosen id s error origin links handlers begun) :
      Reacting id s error origin (Act.invocations s error links handlers) world
        ⟨id, .task (.finish (.returned (.failed (.drop (.initialization error failures))))), []⟩
  | panicked {acts : List Act} {world : World σ ν} {payload : Payload}
      (some : acts = [] ∨ ∃ links handlers begun, Chosen id s error origin links handlers begun ∧
        acts <+: Act.invocations s error links handlers) :
      Reacting id s error origin acts world ⟨id, .task (.finish (.panicked payload)), []⟩

section
variable {id : ThreadId} {s : SlotId} {error : Error} {world middle next : World σ ν}

theorem Judged.append {kinds more : List (Nat × Kind σ ν)} {places others : List Nat}
    (judged : Judged id error world kinds places middle)
    (rest : Judged id error middle more others next) :
    Judged id error world (kinds ++ more) (places ++ others) next := by
  induction judged with
  | nobody world => exact rest
  | @told world middle place kind kinds places holds verdict _ ih =>
      have whole : Judged id error world ((place, kind) :: (kinds ++ more)) _ next :=
        .told verdict (ih rest)
      cases holds <;> exact whole
  | @asked world between middle place kind kinds places code reply verdict run _ ih =>
      have whole : Judged id error world ((place, kind) :: (kinds ++ more)) _ next :=
        .asked verdict run (ih rest)
      cases accepts : reply.accepts <;> simpa [accepts] using whole

theorem Called.append {α : Type} {begins : Nat → Act} {turn : α → Control σ ν}
    {event : Error → Event} {entries more : List (Nat × α)} {errors others : List Error}
    (called : Called id begins turn event world entries errors middle)
    (rest : Called id begins turn event middle more others next) :
    Called id begins turn event world (entries ++ more) (errors ++ others) next := by
  induction called with
  | nobody world => exact rest
  | returned run _ ih =>
      rw [List.append_assoc]
      exact .returned run (ih rest)

theorem Judged.snoc {kinds : List (Nat × Kind σ ν)} {places : List Nat} {place : Nat}
    {kind : Kind σ ν} {holds : Bool} (judged : Judged id error world kinds places middle)
    (verdict : kind.judge error = .inl holds ∧ next = middle ∨
      ∃ code reply, kind.judge error = .inr code ∧
        Ends id middle (.code code) (.returned reply) next ∧ reply.accepts = holds) :
    Judged id error world (kinds ++ [(place, kind)])
      (if holds then places ++ [place] else places) next := by
  have last : Judged id error middle [(place, kind)] (if holds then [place] else []) next := by
    rcases verdict with ⟨verdict, rfl⟩ | ⟨code, reply, verdict, run, rfl⟩
    · exact .told verdict (.nobody next)
    · exact .asked verdict run (.nobody next)
  cases holds <;> simpa using judged.append last

theorem Called.snoc {α : Type} {begins : Nat → Act} {turn : α → Control σ ν}
    {event : Error → Event} {entries : List (Nat × α)} {errors : List Error} {place : Nat} {entry : α}
    {reply : Reply} (called : Called id begins turn event world entries errors middle)
    (run : Ends id (middle.act (begins place)) (turn entry) (.returned reply) next) :
    Called id begins turn event world (entries ++ [(place, entry)]) (errors ++ reply.error?.toList)
      (next.emitAll (reply.error?.map event).toList) := by
  have last : Called id begins turn event middle [(place, entry)] (reply.error?.toList ++ [])
      (next.emitAll (reply.error?.map event).toList) := .returned run (.nobody _)
  rw [List.append_nil] at last
  exact called.append last

end

theorem Thread.invokes?_above (inner : Thread σ ν) (frame : Frame σ ν) :
    (inner.above [frame]).invokes? = none := by
  simp [Thread.invokes?, Thread.above]

namespace Reacting

variable {id : ThreadId} {s : SlotId} {error : Error} {origin begun middle world next : World σ ν}
  {acts : List Act} {thread after : Thread σ ν} {selection : Selection σ ν} {places : List Nat}
  {asked rest : List (Nat × Kind σ ν)} {place : Nat} {kind : Kind σ ν}

theorem of_judged (selecting : Selecting id s error origin selection begun)
    (kinds : begun.kinds selection = asked ++ (place, kind) :: rest)
    (judged : Judged id error (begun.lock selection.lock id) (asked ++ [(place, kind)]) places world) :
    Reacting id s error origin [] world ⟨id, .task (.sift selection error rest places), []⟩ := by
  refine .sifts selecting ?_ judged
  rw [kinds, List.append_assoc]
  rfl

theorem of_sifted (made : s < origin.slots.size)
    (selecting : Selecting id s error origin selection begun)
    (judged : Judged id error (begun.lock selection.lock id) (begun.kinds selection) places world)
    (action : Thread.step world ⟨id, .task (.sift selection error [] places), []⟩ =
      some (next, after)) :
    Reacting id s error origin [] next after := by
  cases selecting with
  | links =>
      rw [judged.step_links made] at action
      obtain ⟨rfl, rfl⟩ := Prod.mk.inj (Option.some.inj action)
      exact .consults (.handlers judged)
  | handlers earlier =>
      have made := Nat.lt_of_lt_of_le made earlier.restores.preserves.made
      rw [judged.step_handlers made] at action
      obtain ⟨rfl, rfl⟩ := Prod.mk.inj (Option.some.inj action)
      exact .links (.mk (.handlers earlier) judged) rfl (.nobody _)

theorem of_asked (selecting : Selecting id s error origin selection begun)
    (kinds : begun.kinds selection = asked ++ (place, kind) :: rest)
    (judged : Judged id error (begun.lock selection.lock id) asked places world)
    (action : Thread.step world
      ⟨id, .task (.sift selection error ((place, kind) :: rest) places), []⟩ = some (next, after)) :
    Reacting id s error origin [] next after := by
  cases verdict : kind.judge error with
  | inl holds =>
      simp only [Thread.step, Task.step, World.ask, verdict] at action
      cases holds <;> obtain ⟨rfl, rfl⟩ := Prod.mk.inj (Option.some.inj action) <;>
        exact of_judged selecting kinds (judged.snoc (.inl ⟨verdict, rfl⟩))
  | inr code =>
      simp only [Thread.step, Task.step, World.ask, verdict] at action
      obtain ⟨rfl, rfl⟩ := Prod.mk.inj (Option.some.inj action)
      exact .asks selecting kinds judged verdict (.refl world _)

theorem foreseen (reacting : Reacting id s error origin acts world thread) :
    acts = [] ∨ ∃ links handlers begun, Chosen id s error origin links handlers begun ∧
      acts <+: Act.invocations s error links handlers := by
  cases reacting with
  | leaves | consults | sifts | asks => exact .inl rfl
  | links chosen split =>
      exact .inr ⟨_, _, _, chosen, Act.links_prefix (split ▸ List.prefix_append _ _)⟩
  | linking chosen split =>
      rw [List.append_cons] at split
      exact .inr ⟨_, _, _, chosen, Act.links_prefix (split ▸ List.prefix_append _ _)⟩
  | handlers chosen _ split =>
      exact .inr ⟨_, _, _, chosen, Act.invocations_prefix (split ▸ List.prefix_append _ _)⟩
  | handling chosen _ split =>
      rw [List.append_cons] at split
      exact .inr ⟨_, _, _, chosen, Act.invocations_prefix (split ▸ List.prefix_append _ _)⟩
  | answered chosen => exact .inr ⟨_, _, _, chosen, List.prefix_refl _⟩
  | panicked foreseen => exact foreseen

theorem of_linking {links done rest : List (Nat × Droppable σ ν)} {link : Droppable σ ν}
    {handlers : List (Nat × (Error → Code σ ν))} {errors : List Error} {exit : Exit}
    (chosen : Chosen id s error origin links handlers begun)
    (split : links = done ++ (place, link) :: rest)
    (released : Released id s error begun done errors middle)
    (run : Ends id (middle.act (.linkStarted s place error)) (.task (.dispose link)) exit world)
    (action : Thread.step world ⟨id, .task (.finish exit),
      [.linking s error rest handlers (errors.map .dropChain)]⟩ = some (next, after)) :
    Reacting id s error origin (Act.links s error (done ++ [(place, link)])) next after := by
  cases exit with
  | panicked payload =>
      obtain ⟨rfl, rfl⟩ := Prod.mk.inj (Option.some.inj action)
      exact .panicked (foreseen (.linking chosen split released run))
  | returned reply =>
      rw [Thread.step_linking] at action
      obtain ⟨rfl, rfl⟩ := Prod.mk.inj (Option.some.inj action)
      rw [List.append_cons] at split
      rw [← List.map_append]
      exact .links chosen split (Called.snoc released run)

theorem of_handling {links : List (Nat × Droppable σ ν)}
    {handlers done rest : List (Nat × (Error → Code σ ν))} {handler : Error → Code σ ν}
    {between : World σ ν} {linkErrors errors : List Error} {exit : Exit}
    (chosen : Chosen id s error origin links handlers begun)
    (released : Released id s error begun links linkErrors middle)
    (split : handlers = done ++ (place, handler) :: rest)
    (handled : Handled id s error middle done errors between)
    (run : Ends id (between.act (.handlerStarted s place error)) (.code (handler error)) exit world)
    (action : Thread.step world ⟨id, .task (.finish exit),
      [.handling s error rest (linkErrors.map .dropChain ++ errors.map .handler)]⟩ =
        some (next, after)) :
    Reacting id s error origin (Act.invocations s error links (done ++ [(place, handler)])) next
      after := by
  cases exit with
  | panicked payload =>
      obtain ⟨rfl, rfl⟩ := Prod.mk.inj (Option.some.inj action)
      exact .panicked (foreseen (.handling chosen released split handled run))
  | returned reply =>
      rw [Thread.step_handling] at action
      obtain ⟨rfl, rfl⟩ := Prod.mk.inj (Option.some.inj action)
      rw [List.append_cons] at split
      rw [List.append_assoc, ← List.map_append]
      exact .handlers chosen released split (Called.snoc handled run)

theorem step (made : s < origin.slots.size) (reacting : Reacting id s error origin acts world thread)
    (action : thread.step world = some (next, after)) :
    Reacting id s error origin (acts ++ thread.invokes?.toList) next after := by
  cases reacting with
  | leaves left =>
      obtain ⟨rfl, rfl⟩ := Prod.mk.inj (Option.some.inj action)
      rw [left]
      exact .consults .links
  | @consults selection _ selecting =>
      -- Whoever consults waits for the lock, so a step shows that it was free.
      have free : world.free selection.lock = true := by
        by_contra held
        simp [Thread.step, Task.step, World.whenFree, held] at action
      rw [Thread.step_consult free] at action
      obtain ⟨rfl, rfl⟩ := Prod.mk.inj (Option.some.inj action)
      exact .sifts selecting rfl (.nobody _)
  | @sifts _ _ _ _ rest _ selecting kinds judged =>
      cases rest with
      | nil =>
          rw [List.append_nil] at kinds
          rw [← kinds] at judged
          exact of_sifted made selecting judged action
      | cons entry rest => exact of_asked selecting kinds judged action
  | asks selecting kinds judged verdict runs =>
      rw [Thread.invokes?_above]
      rcases runs.step_above action with ⟨further, runs, rfl⟩ | ⟨exit, run, resumes⟩
      · exact .asks selecting kinds judged verdict runs
      · cases exit with
        | panicked payload =>
            obtain ⟨rfl, rfl⟩ := Prod.mk.inj (Option.some.inj resumes)
            exact .panicked (.inl rfl)
        | returned reply =>
            obtain ⟨rfl, rfl⟩ := Prod.mk.inj (Option.some.inj resumes)
            exact of_judged selecting kinds (judged.snoc (.inr ⟨_, reply, verdict, run, rfl⟩))
  | @links _ done rest _ _ _ _ chosen split released =>
      cases rest with
      | nil =>
          obtain ⟨rfl, rfl⟩ := Prod.mk.inj (Option.some.inj action)
          rw [List.append_nil] at split
          subst split
          have handlers := Reacting.handlers chosen released rfl (.nobody _)
          rw [List.map_nil, List.append_nil] at handlers
          exact handlers
      | cons entry rest =>
          obtain ⟨place, link⟩ := entry
          obtain ⟨rfl, rfl⟩ := Prod.mk.inj (Option.some.inj action)
          have linking := Reacting.linking chosen split released (.refl _ _)
          rw [Act.links_snoc] at linking
          exact linking
  | linking chosen split released runs =>
      rw [Thread.invokes?_above, Option.toList_none, List.append_nil]
      rcases runs.step_above action with ⟨further, runs, rfl⟩ | ⟨exit, run, resumes⟩
      · exact .linking chosen split released runs
      · exact of_linking chosen split released run resumes
  | @handlers _ _ done rest _ _ _ _ _ chosen released split handled =>
      cases rest with
      | nil =>
          obtain ⟨rfl, rfl⟩ := Prod.mk.inj (Option.some.inj action)
          rw [List.append_nil] at split
          subst split
          change Reacting id s error origin (_ ++ []) _ _
          rw [List.append_nil]
          exact .answered chosen
      | cons entry rest =>
          obtain ⟨place, handler⟩ := entry
          obtain ⟨rfl, rfl⟩ := Prod.mk.inj (Option.some.inj action)
          have handling := Reacting.handling chosen released split handled (.refl _ _)
          rw [Act.invocations_snoc] at handling
          exact handling
  | handling chosen released split handled runs =>
      rw [Thread.invokes?_above, Option.toList_none, List.append_nil]
      rcases runs.step_above action with ⟨further, runs, rfl⟩ | ⟨exit, run, resumes⟩
      · exact .handling chosen released split handled runs
      · exact of_handling chosen released split handled run resumes
  | answered | panicked => contradiction

theorem advance (made : s < origin.slots.size)
    (reacting : Reacting id s error origin acts world thread) (steps : Nat) :
    Reacting id s error origin (acts ++ thread.invocations steps world)
      (Thread.advance steps world thread).1 (Thread.advance steps world thread).2 := by
  induction steps generalizing acts world thread with
  | zero =>
      rw [Thread.invocations, List.append_nil]
      exact reacting
  | succ steps ih =>
      cases action : thread.step world with
      | none =>
          simp only [Thread.invocations, Thread.advance, action, List.append_nil]
          exact reacting
      | some reached =>
          simp only [Thread.invocations, Thread.advance, action]
          rw [← List.append_assoc]
          exact ih (reacting.step made action)

end Reacting

/-! ## What is chosen -/

section
variable {id : ThreadId} {s : SlotId} {error : Error} {world next other : World σ ν}

theorem Judged.unique {kinds : List (Nat × Kind σ ν)} {places others : List Nat}
    (judged : Judged id error world kinds places next)
    (again : Judged id error world kinds others other) : others = places ∧ other = next := by
  induction judged generalizing others with
  | nobody world =>
      cases again
      exact ⟨rfl, rfl⟩
  | told verdict rest ih =>
      cases again with
      | told verdict' rest' =>
          obtain rfl := Sum.inl.inj (verdict.symm.trans verdict')
          obtain ⟨rfl, rfl⟩ := ih rest'
          exact ⟨rfl, rfl⟩
      | asked verdict' => exact absurd (verdict.symm.trans verdict') nofun
  | asked verdict run rest ih =>
      cases again with
      | told verdict' => exact absurd (verdict.symm.trans verdict') nofun
      | asked verdict' run' rest' =>
          obtain rfl := Sum.inr.inj (verdict.symm.trans verdict')
          obtain ⟨same, rfl⟩ := run.unique run'
          obtain rfl := Exit.returned.inj same
          obtain ⟨rfl, rfl⟩ := ih rest'
          exact ⟨rfl, rfl⟩

theorem Chosen.unique {links links' : List (Nat × Droppable σ ν)}
    {handlers handlers' : List (Nat × (Error → Code σ ν))}
    (chosen : Chosen id s error world links handlers next)
    (again : Chosen id s error world links' handlers' other) :
    links' = links ∧ handlers' = handlers := by
  obtain ⟨selecting, judged⟩ := chosen
  obtain ⟨selecting', judged'⟩ := again
  cases selecting with
  | handlers earlier =>
      cases selecting' with
      | handlers earlier' =>
          obtain ⟨rfl, rfl⟩ := earlier.unique earlier'
          obtain ⟨rfl, rfl⟩ := judged.unique judged'
          exact ⟨rfl, rfl⟩

end

/-! ## The reaction to a failure -/

def Thread.failing (id : ThreadId) (s : SlotId) (error : Error) : Thread σ ν :=
  ⟨id, .task (.finish (.returned (.failed error))), [.initializing s]⟩

/-- Code that runs above the frame comes before the turn for which the act stands. -/
def Frame.Precedes (s : SlotId) (act : Act) : Frame σ ν → Prop
  | .judging selection _ _ _ _ => selection.Of s
  | .linking t error rest handlers _ => act ∈ Act.invocations t error rest handlers
  | .handling t error rest _ => act ∈ Act.handlers t error rest
  | _ => False

section
variable {id : ThreadId} {s : SlotId} {error : Error} {failed begun : World σ ν}
  {links : List (Nat × Droppable σ ν)} {handlers : List (Nat × (Error → Code σ ν))}

theorem Chosen.selects (made : s < failed.slots.size)
    (chosen : Chosen id s error (failed.withdraw s error) links handlers begun) :
    failed.Selects id s error links handlers := by
  obtain ⟨selecting, judged⟩ := chosen
  cases selecting with
  | handlers earlier => exact earlier.selects judged made

theorem Act.invocations_nodup (selects : failed.Selects id s error links handlers) :
    (Act.invocations s error links handlers).Nodup := by
  obtain ⟨asked, -, decides, -⟩ := selects.handlers
  have links := List.pairwise_map.mp selects.links.distinct
  have handlers := List.pairwise_map.mp decides.distinct
  refine List.nodup_append.mpr ⟨?_, ?_, ?_⟩
  · exact List.pairwise_map.mpr (links.imp fun apart same => apart (Act.linkStarted.inj same).2.1)
  · exact List.pairwise_map.mpr
      (handlers.imp fun apart same => apart (Act.handlerStarted.inj same).2.1)
  · intro first link second handler same
    obtain ⟨_, _, rfl⟩ := List.mem_map.mp link
    obtain ⟨_, _, rfl⟩ := List.mem_map.mp handler
    contradiction

theorem Reacting.of_failing (made : s < failed.slots.size) (steps : Nat) :
    Reacting id s error (failed.withdraw s error)
      ((Thread.failing id s error).invocations (steps + 1) failed)
      (Thread.advance (steps + 1) failed (.failing id s error)).1
      (Thread.advance (steps + 1) failed (.failing id s error)).2 := by
  have made := Nat.lt_of_lt_of_le made (World.Retains.withdraw failed s error).made
  exact Reacting.advance made (.leaves rfl) steps

theorem Thread.invocations_foreseen (made : s < failed.slots.size) (steps : Nat) :
    (Thread.failing id s error).invocations steps failed = [] ∨
      ∃ links handlers begun, Chosen id s error (failed.withdraw s error) links handlers begun ∧
        (Thread.failing id s error).invocations steps failed <+:
          Act.invocations s error links handlers := by
  cases steps with
  | zero => exact .inl rfl
  | succ steps => exact (Reacting.of_failing made steps).foreseen

theorem Thread.invocations_once (made : s < failed.slots.size) (steps : Nat) :
    ((Thread.failing id s error).invocations steps failed).Nodup := by
  rcases invocations_foreseen made steps with none | ⟨links, handlers, begun, chosen, earlier⟩
  · rw [none]
    exact .nil
  · exact (Act.invocations_nodup (chosen.selects made)).sublist earlier.sublist

/-! ## Who is reached -/

variable {act : Act}

theorem Thread.mem_invocations {first world next : World σ ν} {start thread after : Thread σ ν}
    {steps : Nat} (run : advance steps first start = (world, thread))
    (invokes : thread.invokes? = some act) (action : thread.step world = some (next, after)) :
    act ∈ start.invocations (steps + 1) first := by
  induction steps generalizing first start with
  | zero =>
      obtain ⟨rfl, rfl⟩ := Prod.mk.inj run
      simp [invocations, action, invokes]
  | succ steps ih =>
      cases begins : start.step first with
      | none =>
          simp only [advance, begins] at run
          obtain ⟨rfl, rfl⟩ := Prod.mk.inj run
          rw [begins] at action
          contradiction
      | some reached =>
          simp only [advance, begins] at run
          rw [invocations, begins]
          exact List.mem_append_right _ (ih run)

theorem Thread.Reaches.invokes {first world next : World σ ν} {start thread after : Thread σ ν}
    (run : Reaches first start world thread) (invokes : thread.invokes? = some act)
    (action : thread.step world = some (next, after)) :
    ∃ steps, act ∈ start.invocations steps first := by
  obtain ⟨steps, run⟩ := run
  exact ⟨steps + 1, mem_invocations run invokes action⟩

/-- What a failed thread runs until the turn of the act returns. -/
def World.ReturnsBefore (failed : World σ ν) (id : ThreadId) (s : SlotId) (error : Error) (act : Act) :
    Prop :=
  ∀ reached control frame, Frame.Precedes s act frame →
    Thread.Reaches failed (.failing id s error) reached ⟨id, control, [frame]⟩ →
    ∃ reply after, Ends id reached control (.returned reply) after

theorem World.ReturnsBefore.chooses (returns : failed.ReturnsBefore id s error act)
    (made : s < failed.slots.size)
    (free : failed.free (.links s) = true ∧ failed.free (.handlers s) = true) :
    ∃ links handlers begun, Chosen id s error (failed.withdraw s error) links handlers begun ∧
      Thread.Reaches failed (.failing id s error) begun
        ⟨id, .task (.links s error links handlers []), []⟩ := by
  have consults : Thread.Reaches failed (.failing id s error) (failed.withdraw s error)
      ⟨id, .task (.consult (.links s) error), []⟩ := ⟨2, rfl⟩
  have made := Nat.lt_of_lt_of_le made (World.Retains.withdraw failed s error).made
  have unlocked (lock : Lock) : (failed.withdraw s error).free lock = failed.free lock :=
    World.free_congr rfl lock
  obtain ⟨linkPlaces, sifted, linksJudged, asked⟩ := Judged.of_consult
    (fun _ _ _ _ _ => returns _ _ (.judging (.links s) ..) rfl) ((unlocked _).trans free.1) consults
  have consults := asked.snoc (linksJudged.step_links made)
  have made : s < (sifted.unlock (.links s)).slots.size :=
    Nat.lt_of_lt_of_le made linksJudged.restores.preserves.made
  have unlocked : (sifted.unlock (.links s)).free (.handlers s) = true := by
    rw [World.free_of_given rfl, linksJudged.restores.free, World.free_of_taken rfl, unlocked]
    exact .inr ⟨nofun, free.2⟩
  obtain ⟨handlerPlaces, judged, handlersJudged, asked⟩ := Judged.of_consult
    (fun _ _ _ _ _ => returns _ _ (.judging (.handlers s _) ..) rfl) unlocked consults
  exact ⟨_, _, _, .mk (.handlers linksJudged) handlersJudged,
    asked.snoc (handlersJudged.step_handlers made _)⟩

theorem World.ReturnsBefore.releases {before last : List (Nat × Droppable σ ν)}
    (returns : failed.ReturnsBefore id s error act)
    (awaited : act ∈ Act.invocations s error last handlers)
    (reach : Thread.Reaches failed (.failing id s error) begun
      ⟨id, .task (.links s error (before ++ last) handlers []), []⟩) :
    ∃ failures next, Thread.Reaches failed (.failing id s error) next
      ⟨id, .task (.links s error last handlers failures), []⟩ := by
  have earlier reached control rest failures (more : last <:+ rest) :=
    returns reached control (.linking s error rest handlers failures) <| by
      obtain ⟨earlier, rfl⟩ := more
      rcases List.mem_append.mp awaited with link | handler
      · exact List.mem_append_left _ (List.map_subset _ (List.subset_append_right _ _) link)
      · exact List.mem_append_right _ handler
  obtain ⟨errors, next, -, reach⟩ := Called.of_returns .dropChain
    (fun rest failures => .task (.links s error rest handlers failures))
    (fun rest failures => .linking s error rest handlers failures) last earlier
    (fun _ _ _ _ _ => rfl) (Thread.step_linking · · · handlers ·) before [] reach
  exact ⟨_, next, reach⟩

theorem World.ReturnsBefore.handles {before last : List (Nat × (Error → Code σ ν))}
    {failures : List DropError} (returns : failed.ReturnsBefore id s error act)
    (awaited : act ∈ Act.handlers s error last)
    (reach : Thread.Reaches failed (.failing id s error) begun
      ⟨id, .task (.handlers s error (before ++ last) failures), []⟩) :
    ∃ failures next, Thread.Reaches failed (.failing id s error) next
      ⟨id, .task (.handlers s error last failures), []⟩ := by
  have earlier reached control rest failures (more : last <:+ rest) :=
    returns reached control (.handling s error rest failures) <| by
      obtain ⟨earlier, rfl⟩ := more
      exact List.map_subset _ (List.subset_append_right _ _) awaited
  obtain ⟨errors, next, -, reach⟩ := Called.of_returns .handler
    (fun rest failures => .task (.handlers s error rest failures))
    (fun rest failures => .handling s error rest failures) last earlier
    (fun _ _ _ _ _ => rfl) Thread.step_handling before failures reach
  exact ⟨_, next, reach⟩

theorem World.ReturnsBefore.invokes (returns : failed.ReturnsBefore id s error act)
    (chosen : act ∈ Act.invocations s error links handlers)
    (reach : Thread.Reaches failed (.failing id s error) begun
      ⟨id, .task (.links s error links handlers []), []⟩) :
    ∃ steps, act ∈ (Thread.failing id s error).invocations steps failed := by
  rcases List.mem_append.mp chosen with link | handler
  · obtain ⟨⟨place, link⟩, member, rfl⟩ := List.mem_map.mp link
    obtain ⟨before, rest, rfl⟩ := List.append_of_mem member
    obtain ⟨failures, next, reach⟩ := returns.releases (List.mem_append_left _ (.head _)) reach
    exact reach.invokes rfl rfl
  · have all : links ++ [] = links := List.append_nil links
    rw [← all] at reach
    obtain ⟨failures, middle, reach⟩ := returns.releases (List.mem_append_right _ handler) reach
    obtain ⟨⟨place, handler⟩, member, rfl⟩ := List.mem_map.mp handler
    obtain ⟨before, rest, rfl⟩ := List.append_of_mem member
    have reach := reach.snoc (rfl : Thread.step middle _ = some (middle, _))
    obtain ⟨failures, next, reach⟩ := returns.handles (.head _) reach
    exact reach.invokes rfl rfl

theorem World.ReturnsBefore.invoked_iff (returns : failed.ReturnsBefore id s error act)
    (made : s < failed.slots.size)
    (free : failed.free (.links s) = true ∧ failed.free (.handlers s) = true) :
    ∃ links handlers begun, Chosen id s error (failed.withdraw s error) links handlers begun ∧
      ((∃ steps, act ∈ (Thread.failing id s error).invocations steps failed) ↔
        act ∈ Act.invocations s error links handlers) := by
  obtain ⟨links, handlers, begun, chosen, reach⟩ := returns.chooses made free
  refine ⟨links, handlers, begun, chosen, ?_, fun member => returns.invokes member reach⟩
  rintro ⟨steps, member⟩
  rcases Thread.invocations_foreseen made steps with none | ⟨_, _, _, again, earlier⟩
  · rw [none] at member
    contradiction
  · obtain ⟨rfl, rfl⟩ := chosen.unique again
    exact earlier.subset member

end

end Relinquish
