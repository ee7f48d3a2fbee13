import Relinquish.Proofs.Deferring
import Mathlib.Logic.Hydra
import Mathlib.Algebra.BigOperators.Group.Finset.Basic
import Mathlib.Algebra.Order.BigOperators.Group.Finset
import Mathlib.Tactic.Abel

/-!
Programs that are built from steps of their own, deferred actions and bodies with scopes, nested in one
another. What is left of such a program gets smaller with every step, so it comes to its end.
-/

namespace Relinquish

variable {σ ν : Type}

/-! ## Nested programs -/

/-- Code that uses the given scopes, innermost first: it computes, defers actions on these scopes and
lends new ones to bodies. An action uses the scope on which it is deferred and those around it. -/
inductive Code.Nests : List ScopeId → Code σ ν → Prop
  | ret {scopes : List ScopeId} (reply : Reply) : Nests scopes (.ret reply)
  | panic {scopes : List ScopeId} (payload : Payload) : Nests scopes (.panic payload)
  | load {scopes : List ScopeId} {next : σ → Code σ ν} (rest : ∀ memory, Nests scopes (next memory)) :
      Nests scopes (.load next)
  | store {scopes : List ScopeId} {next : Code σ ν} (memory : σ) (rest : Nests scopes next) :
      Nests scopes (.store memory next)
  | note {scopes : List ScopeId} {next : Code σ ν} (entry : ν) (rest : Nests scopes next) :
      Nests scopes (.note entry next)
  | defer {scopes outer : List ScopeId} {sc : ScopeId} {action : Code σ ν} {next : Reply → Code σ ν}
      (enclosing : sc :: outer <:+ scopes) (nests : Nests (sc :: outer) action)
      (rest : ∀ reply, Nests scopes (next reply)) : Nests scopes (.call (.defer sc action) next)
  | deferring {scopes : List ScopeId} {body : ScopeId → Code σ ν} {next : Reply → Code σ ν}
      (config : ScopeConfig) (nests : ∀ sc, Nests (sc :: scopes) (body sc))
      (rest : ∀ reply, Nests scopes (next reply)) : Nests scopes (.call (.deferring config body) next)

def Call.Nests (scopes : List ScopeId) : Call σ ν → Prop
  | defer sc action => ∃ outer, sc :: outer <:+ scopes ∧ action.Nests (sc :: outer)
  | deferring _ body => ∀ sc, (body sc).Nests (sc :: scopes)
  | _ => False

def Action.Nests (scopes : List ScopeId) (action : Action σ ν) : Prop :=
  ∃ code, action.job = .run code ∧ code.Nests scopes

theorem Code.Nests.call {scopes : List ScopeId} {request : Call σ ν} {next : Reply → Code σ ν}
    (nests : (Code.call request next).Nests scopes) :
    request.Nests scopes ∧ ∀ reply, (next reply).Nests scopes := by
  cases nests with
  | defer enclosing nests rest => exact ⟨⟨_, enclosing, nests⟩, rest⟩
  | deferring config nests rest => exact ⟨nests, rest⟩

/-! ## What is left to run -/

inductive Piece (σ ν : Type) where
  | code (code : Code σ ν)
  | request (call : Call σ ν)
  | rest (next : Reply → Code σ ν)

inductive Piece.Leads : Piece σ ν → Piece σ ν → Prop
  | load (next : σ → Code σ ν) (memory : σ) : Leads (.code (next memory)) (.code (.load next))
  | store (memory : σ) (next : Code σ ν) : Leads (.code next) (.code (.store memory next))
  | note (entry : ν) (next : Code σ ν) : Leads (.code next) (.code (.note entry next))
  | request (call : Call σ ν) (next : Reply → Code σ ν) :
      Leads (.request call) (.code (.call call next))
  | rest (call : Call σ ν) (next : Reply → Code σ ν) : Leads (.rest next) (.code (.call call next))
  | reply (next : Reply → Code σ ν) (reply : Reply) : Leads (.code (next reply)) (.rest next)
  | action (sc : ScopeId) (action : Code σ ν) : Leads (.code action) (.request (.defer sc action))
  | body (config : ScopeConfig) (body : ScopeId → Code σ ν) (sc : ScopeId) :
      Leads (.code (body sc)) (.request (.deferring config body))

mutual

theorem Code.acc : (code : Code σ ν) → Acc Piece.Leads (.code code)
  | .ret _ | .panic _ | .attempt _ _ | .elsewhere _ _ => .intro _ nofun
  | .load next => .intro _ fun _ leads => by
      cases leads with | load next memory => exact (next memory).acc
  | .store _ next => .intro _ fun _ leads => by
      cases leads with | store memory next => exact next.acc
  | .note _ next => .intro _ fun _ leads => by
      cases leads with | note entry next => exact next.acc
  | .call request next => .intro _ fun _ leads => by
      cases leads with
      | request call next => exact request.acc
      | rest call next =>
          exact .intro _ fun _ leads => by
            cases leads with | reply next reply => exact (next reply).acc
termination_by structural code => code

theorem Call.acc (call : Call σ ν) : Acc Piece.Leads (.request call) := by
  cases call with
  | defer sc action =>
      exact .intro _ fun _ leads => by
        cases leads with | action sc action => exact action.acc
  | deferring config body =>
      exact .intro _ fun _ leads => by
        cases leads with | body config body sc => exact (body sc).acc
  | _ => exact .intro _ nofun
termination_by structural call

end

theorem Piece.leads_wellFounded : WellFounded (Leads : Piece σ ν → Piece σ ν → Prop) := by
  refine ⟨fun piece => ?_⟩
  cases piece with
  | code code => exact code.acc
  | request call => exact call.acc
  | rest next =>
      exact .intro _ fun _ leads => by
        cases leads with | reply next reply => exact (next reply).acc

/-- What is left to run, and then how much of the library's own work is left. -/
abbrev Burden (σ ν : Type) := Multiset (Piece σ ν) × Nat

/-- One piece gives way to pieces that it leads to, or the library has done some of its work. -/
def Burden.Lighter : Burden σ ν → Burden σ ν → Prop :=
  Prod.Lex (Relation.CutExpand Piece.Leads) (· < ·)

namespace Burden

theorem lighter_wellFounded : WellFounded (Lighter : Burden σ ν → Burden σ ν → Prop) :=
  .prod_lex Piece.leads_wellFounded.cutExpand Nat.lt_wfRel.wf

theorem Lighter.within {lighter burden first second : Burden σ ν} (less : lighter.Lighter burden)
    (rest : Burden σ ν) (after : first = rest + lighter) (before : second = rest + burden) :
    first.Lighter second := by
  rw [after, before]
  cases less with
  | left first second fewer => exact .left _ _ ((Relation.cutExpand_add_left _).mpr fewer)
  | right pieces fewer => exact .right _ (Nat.add_lt_add_left fewer _)

theorem Lighter.leads {piece after : Piece σ ν} (leads : after.Leads piece) (less more : Nat) :
    Lighter ({after}, less) ({piece}, more) :=
  .left _ _ (Relation.cutExpand_singleton_singleton leads)

theorem Lighter.calls (call : Call σ ν) (next : Reply → Code σ ν) :
    Lighter (({.request call}, 0) + (({.rest next}, 0) + 0)) (({.code (.call call next)}, 0) + 0) := by
  simp only [add_zero, Prod.mk_add_mk]
  exact .left _ _ (Relation.cutExpand_double (.request call next) (.rest call next))

theorem Lighter.ends (piece : Piece σ ν) (less more : Nat) : Lighter (0, less) ({piece}, more) :=
  .left _ _ Relation.cutExpand_zero

theorem Lighter.works (pieces : Multiset (Piece σ ν)) {less more : Nat} (fewer : less < more) :
    Lighter (pieces, less) (pieces, more) :=
  .right _ fewer

end Burden

def Action.burden (action : Action σ ν) : Burden σ ν :=
  match action.job with
  | .run code => ({.code code}, 4)
  | .release _ => (0, 4)

def burdenOf (actions : List (Action σ ν)) : Burden σ ν :=
  (actions.map Action.burden).sum

@[simp] theorem burdenOf_nil : burdenOf ([] : List (Action σ ν)) = 0 := rfl

@[simp] theorem burdenOf_cons (action : Action σ ν) (rest : List (Action σ ν)) :
    burdenOf (action :: rest) = action.burden + burdenOf rest := by
  simp [burdenOf]

theorem burdenOf_append (first second : List (Action σ ν)) :
    burdenOf (first ++ second) = burdenOf first + burdenOf second := by
  simp [burdenOf]

theorem burdenOf_reverse (actions : List (Action σ ν)) :
    burdenOf actions.reverse = burdenOf actions := by
  simp [burdenOf, List.sum_reverse]

def Control.burden : Control σ ν → Burden σ ν
  | code piece => ({.code piece}, 0)
  | task (.start call) => ({.request call}, 0)
  | task (.letGo handles _) => (0, handles.length + 1)
  | task (.report _ _ _) => (0, 1)
  | task (.drain _ _ _) => (0, 2)
  | task (.batch _ rest _ _) => (0, if rest.isEmpty then 3 else 1) + burdenOf rest
  | _ => 0

def Frame.burden : Frame σ ν → Burden σ ν
  | calling next => ({.rest next}, 0)
  | tearing _ rest _ _ => (0, 4) + burdenOf rest
  | closing _ _ => (0, 3)
  | body _ => (0, 6)
  | _ => 0

def World.burden (world : World σ ν) : Burden σ ν :=
  ∑ sc ∈ Finset.range world.scopes.size, burdenOf (world.scope sc).pending

def Thread.burden (world : World σ ν) (thread : Thread σ ν) : Burden σ ν :=
  world.burden + (thread.control.burden + (thread.stack.map Frame.burden).sum)

theorem World.pending_unmade {world : World σ ν} {sc : ScopeId} (unmade : world.scopes.size ≤ sc) :
    (world.scope sc).pending = [] := by
  have none : world.scopes.entries[sc]? = none := List.getElem?_eq_none unmade
  simp only [scope, Table.get, none]
  rfl

theorem World.burden_congr {world next : World σ ν} (made : world.scopes.size ≤ next.scopes.size)
    (pending : ∀ sc, (next.scope sc).pending = (world.scope sc).pending) :
    next.burden = world.burden := by
  have more : Finset.range world.scopes.size ⊆ Finset.range next.scopes.size :=
    Finset.range_mono made
  simp only [burden, pending]
  refine (Finset.sum_subset more fun sc _ unmade => ?_).symm
  rw [Finset.mem_range, Nat.not_lt] at unmade
  rw [pending_unmade unmade, burdenOf_nil]

theorem World.burden_change {world next : World σ ν} {sc : ScopeId} (known : sc < world.scopes.size)
    (made : next.scopes.size = world.scopes.size)
    (others : ∀ t, t ≠ sc → (next.scope t).pending = (world.scope t).pending) :
    next.burden + burdenOf (world.scope sc).pending =
      world.burden + burdenOf (next.scope sc).pending := by
  have member : sc ∈ Finset.range world.scopes.size := Finset.mem_range.mpr known
  unfold burden
  rw [made, ← Finset.add_sum_erase _ _ member, ← Finset.add_sum_erase _ _ member]
  have same : ∑ t ∈ (Finset.range world.scopes.size).erase sc, burdenOf (next.scope t).pending =
      ∑ t ∈ (Finset.range world.scopes.size).erase sc, burdenOf (world.scope t).pending :=
    Finset.sum_congr rfl fun t other => by rw [others t (Finset.ne_of_mem_erase other)]
  rw [same]
  abel

theorem World.burden_addAction {sc : ScopeId} (world : World σ ν) (known : sc < world.scopes.size)
    (job : Job σ ν) :
    (world.addAction sc job).burden = world.burden + Action.burden ⟨world.actions, job⟩ := by
  have size : (world.addAction sc job).scopes.size = world.scopes.size := Table.size_update known _
  have change := burden_change known size fun t other => by
    rw [addAction, scope_act, scope_updateScope, if_neg other.symm]
    rfl
  rw [pending_addAction, burdenOf_append, ← add_assoc] at change
  have moved : (world.addAction sc job).burden + burdenOf (world.scope sc).pending =
      world.burden + Action.burden ⟨world.actions, job⟩ + burdenOf (world.scope sc).pending := by
    rw [change, add_right_comm, burdenOf_cons, burdenOf_nil, add_zero]
  exact add_right_cancel moved

theorem World.burden_lend (world : World σ ν) (config : ScopeConfig) :
    (world.lend config).burden = world.burden := by
  have size : (world.lend config).scopes.size = world.scopes.size + 1 := Table.size_push ..
  have scope (t : ScopeId) : (world.lend config).scope t =
      if t = world.scopes.size then config.lentScope else world.scope t := world.scope_addScope _ t
  unfold burden
  rw [size, Finset.sum_range_succ, scope, if_pos rfl]
  have older : ∑ t ∈ Finset.range world.scopes.size, burdenOf ((world.lend config).scope t).pending =
      ∑ t ∈ Finset.range world.scopes.size, burdenOf (world.scope t).pending :=
    Finset.sum_congr rfl fun t known => by
      rw [scope, if_neg (Nat.ne_of_lt (Finset.mem_range.mp known))]
  rw [older]
  exact add_zero _

theorem World.burden_takePending {sc : ScopeId} (world : World σ ν) (known : sc < world.scopes.size) :
    world.burden = (world.takePending sc).1.burden + burdenOf (world.scope sc).pending := by
  have size : (world.takePending sc).1.scopes.size = world.scopes.size := Table.size_update known _
  have change := burden_change known size fun t other => by
    simp only [takePending, scope_updateScope, if_neg other.symm]
  have emptied : ((world.takePending sc).1.scope sc).pending = [] := by
    simp [takePending]
  rw [change, emptied, burdenOf_nil, add_zero]

theorem Thread.lighter_above {world next : World σ ν} {id : ThreadId} {control after : Control σ ν}
    (frames pushed stack : List (Frame σ ν)) (same : next.burden = world.burden)
    (less : (after.burden + (pushed.map Frame.burden).sum).Lighter
      (control.burden + (frames.map Frame.burden).sum)) :
    (burden next ⟨id, after, pushed ++ stack⟩).Lighter
      (burden world ⟨id, control, frames ++ stack⟩) := by
  refine less.within (world.burden + (stack.map Frame.burden).sum) ?_ ?_
  · simp only [burden, same, List.map_append, List.sum_append]
    abel
  · simp only [burden, List.map_append, List.sum_append]
    abel

/-! ## The scopes that are open -/

/-- The given scopes, innermost first, are those that are open. What waits in one of them uses it and
the scopes around it. -/
structure World.Encloses (world : World σ ν) (scopes : List ScopeId) : Prop where
  made : ∀ sc ∈ scopes, sc < world.scopes.size
  lent : ∀ sc ∈ scopes, (world.scope sc).lent = true
  newer : scopes.Pairwise (· > ·)
  pending : ∀ sc ∈ scopes, ∀ action ∈ (world.scope sc).pending,
    ∃ outer, sc :: outer <:+ scopes ∧ action.Nests (sc :: outer)
  emptied : ∀ sc ∉ scopes, (world.scope sc).pending = []

namespace World.Encloses

variable {world next : World σ ν} {scopes : List ScopeId} {sc : ScopeId}

theorem congr (encloses : world.Encloses scopes) (made : world.scopes.size ≤ next.scopes.size)
    (lent : ∀ t ∈ scopes, (next.scope t).lent = (world.scope t).lent)
    (pending : ∀ t, (next.scope t).pending = (world.scope t).pending) : next.Encloses scopes where
  made t member := Nat.lt_of_lt_of_le (encloses.made t member) made
  lent t member := (lent t member).trans (encloses.lent t member)
  newer := encloses.newer
  pending t member := by
    rw [pending]
    exact encloses.pending t member
  emptied t outside := (pending t).trans (encloses.emptied t outside)

theorem of_scopes (encloses : world.Encloses scopes) (same : next.scopes = world.scopes) :
    next.Encloses scopes := by
  have scope (t : ScopeId) : next.scope t = world.scope t := by rw [World.scope, same, World.scope]
  refine encloses.congr (Nat.le_of_eq (by rw [same])) ?_ ?_ <;> intros <;> rw [scope]

theorem lend (encloses : world.Encloses scopes) (config : ScopeConfig) :
    (world.lend config).Encloses (world.scopes.size :: scopes) := by
  have size : (world.lend config).scopes.size = world.scopes.size + 1 := Table.size_push ..
  have scope (t : ScopeId) : (world.lend config).scope t =
      if t = world.scopes.size then config.lentScope else world.scope t := world.scope_addScope _ t
  have older : ∀ t ∈ scopes, t ≠ world.scopes.size := fun t member =>
    Nat.ne_of_lt (encloses.made t member)
  constructor
  · intro t member
    rw [size]
    rcases List.mem_cons.mp member with rfl | member
    · exact Nat.lt_succ_self _
    · exact Nat.lt_succ_of_lt (encloses.made t member)
  · intro t member
    rw [scope]
    rcases List.mem_cons.mp member with rfl | member
    · rw [if_pos rfl]
      rfl
    · rw [if_neg (older t member)]
      exact encloses.lent t member
  · exact List.pairwise_cons.mpr ⟨encloses.made, encloses.newer⟩
  · intro t member action waits
    rw [scope] at waits
    rcases List.mem_cons.mp member with rfl | member
    · rw [if_pos rfl] at waits
      contradiction
    · rw [if_neg (older t member)] at waits
      obtain ⟨outer, enclosing, nests⟩ := encloses.pending t member action waits
      exact ⟨outer, enclosing.trans (List.suffix_cons _ _), nests⟩
  · intro t outside
    rw [List.mem_cons, not_or] at outside
    rw [scope, if_neg outside.1]
    exact encloses.emptied t outside.2

theorem close (encloses : world.Encloses (sc :: scopes)) (empty : (world.scope sc).pending = []) :
    world.Encloses scopes where
  made t member := encloses.made t (List.mem_cons_of_mem _ member)
  lent t member := encloses.lent t (List.mem_cons_of_mem _ member)
  newer := encloses.newer.of_cons
  pending t member action waits := by
    obtain ⟨outer, enclosing, nests⟩ :=
      encloses.pending t (List.mem_cons_of_mem _ member) action waits
    rcases List.suffix_cons_iff.mp enclosing with same | inner
    · obtain ⟨rfl, -⟩ := List.cons.inj same
      rw [empty] at waits
      contradiction
    · exact ⟨outer, inner, nests⟩
  emptied t outside := by
    by_cases same : t = sc
    · rw [same, empty]
    · exact encloses.emptied t fun member => outside ((List.mem_cons.mp member).resolve_left same)

theorem innermost_not_mem (encloses : world.Encloses (sc :: scopes)) : sc ∉ scopes := fun member =>
  Nat.lt_irrefl sc ((List.pairwise_cons.mp encloses.newer).1 sc member)

theorem innermost_nests (encloses : world.Encloses (sc :: scopes)) :
    ∀ action ∈ (world.scope sc).pending, action.Nests (sc :: scopes) := by
  intro action waits
  obtain ⟨outer, enclosing, nests⟩ := encloses.pending sc (List.mem_cons_self ..) action waits
  rcases List.suffix_cons_iff.mp enclosing with same | inner
  · rwa [same] at nests
  · exact absurd (inner.subset (List.mem_cons_self ..)) encloses.innermost_not_mem

theorem defer {outer : List ScopeId} {action : Code σ ν} (encloses : world.Encloses scopes)
    (enclosing : sc :: outer <:+ scopes) (nests : action.Nests (sc :: outer)) :
    (world.addAction sc (.run action)).Encloses scopes where
  made t member :=
    Nat.lt_of_lt_of_le (encloses.made t member) (Writes.refl.addAction sc (.run action)).governs.made
  lent t member := by
    have lent := encloses.lent t member
    simp only [World.addAction, scope_act, scope_updateScope]
    split <;> exact lent
  newer := encloses.newer
  pending t member later waits := by
    by_cases same : sc = t
    · subst same
      rw [pending_addAction] at waits
      rcases List.mem_append.mp waits with before | new
      · exact encloses.pending sc member later before
      · obtain rfl := List.mem_singleton.mp new
        exact ⟨outer, enclosing, action, rfl, nests⟩
    · rw [World.addAction, scope_act, scope_updateScope, if_neg same] at waits
      exact encloses.pending t member later waits
  emptied t outside := by
    have other : sc ≠ t := fun same => outside (same ▸ enclosing.subset (List.mem_cons_self ..))
    rw [World.addAction, scope_act, scope_updateScope, if_neg other]
    exact encloses.emptied t outside

theorem take (encloses : world.Encloses scopes) (sc : ScopeId) :
    (world.takePending sc).1.Encloses scopes where
  made t member := Nat.lt_of_lt_of_le (encloses.made t member) (Table.size_le_update _ _ _)
  lent t member := by
    have lent := encloses.lent t member
    simp only [World.takePending, scope_updateScope]
    split <;> exact lent
  newer := encloses.newer
  pending t member action waits := by
    simp only [World.takePending, scope_updateScope] at waits
    split at waits
    · contradiction
    · exact encloses.pending t member action waits
  emptied t outside := by
    simp only [World.takePending, scope_updateScope]
    split
    · rfl
    · exact encloses.emptied t outside

end World.Encloses

/-! ## Nested threads -/

/-- Above a base, a stack is made of calls, bodies and teardowns. The scopes that are open for what
is on top of it are those of the bodies and teardowns, and below them those of the base. -/
inductive Layers (base : List ScopeId) : List ScopeId → List (Frame σ ν) → Prop
  | bottom : Layers base base []
  | calling {scopes : List ScopeId} {stack : List (Frame σ ν)} {next : Reply → Code σ ν}
      (rest : ∀ reply, (next reply).Nests scopes) (below : Layers base scopes stack) :
      Layers base scopes (.calling next :: stack)
  | body {scopes : List ScopeId} {stack : List (Frame σ ν)} (sc : ScopeId)
      (below : Layers base scopes stack) : Layers base (sc :: scopes) (.body sc :: stack)
  | tearing {scopes : List ScopeId} {stack : List (Frame σ ν)} {rest : List (Action σ ν)}
      (sc : ScopeId) (ran : Nat) (failures : List Error) (outcome : Exit)
      (nests : ∀ action ∈ rest, action.Nests (sc :: scopes)) (below : Layers base scopes stack) :
      Layers base (sc :: scopes) (.tearing sc rest ran failures :: .closing sc outcome :: stack)

inductive Nested (base : List ScopeId) : List ScopeId → Control σ ν → List (Frame σ ν) → Prop
  | code {scopes : List ScopeId} {stack : List (Frame σ ν)} {code : Code σ ν}
      (nests : code.Nests scopes) (below : Layers base scopes stack) :
      Nested base scopes (.code code) stack
  | start {scopes : List ScopeId} {stack : List (Frame σ ν)} {call : Call σ ν}
      (nests : call.Nests scopes) (below : Layers base scopes stack) :
      Nested base scopes (.task (.start call)) stack
  | finish {scopes : List ScopeId} {stack : List (Frame σ ν)} (exit : Exit)
      (below : Layers base scopes stack) : Nested base scopes (.task (.finish exit)) stack
  | drain {scopes : List ScopeId} {stack : List (Frame σ ν)} (sc : ScopeId) (ran : Nat)
      (failures : List Error) (outcome : Exit) (below : Layers base scopes stack) :
      Nested base (sc :: scopes) (.task (.drain sc ran failures)) (.closing sc outcome :: stack)
  | batch {scopes : List ScopeId} {stack : List (Frame σ ν)} {rest : List (Action σ ν)}
      (sc : ScopeId) (ran : Nat) (failures : List Error) (outcome : Exit)
      (nests : ∀ action ∈ rest, action.Nests (sc :: scopes)) (below : Layers base scopes stack) :
      Nested base (sc :: scopes) (.task (.batch sc rest ran failures)) (.closing sc outcome :: stack)
  | report {scopes : List ScopeId} {stack : List (Frame σ ν)} (sc : ScopeId) (ran : Nat)
      (failures : List Error) (outcome : Exit) (closed : sc ∉ scopes)
      (below : Layers base scopes stack) :
      Nested base scopes (.task (.report sc ran failures)) (.closing sc outcome :: stack)
  | reported {scopes : List ScopeId} {stack : List (Frame σ ν)} (sc : ScopeId) (reply : Reply)
      (outcome : Exit) (closed : sc ∉ scopes) (below : Layers base scopes stack) :
      Nested base scopes (.task (.finish (.returned reply))) (.closing sc outcome :: stack)
  | letGo {scopes : List ScopeId} {stack : List (Frame σ ν)} (sc : ScopeId) (exit : Exit)
      (closed : sc ∉ scopes) (below : Layers base scopes stack) :
      Nested base scopes (.task (.letGo [.scope sc] exit)) stack
  | gone {scopes : List ScopeId} {stack : List (Frame σ ν)} (exit : Exit)
      (below : Layers base scopes stack) : Nested base scopes (.task (.letGo [] exit)) stack

/-! ## Steps -/

structure Thread.Proceeds (base scopes : List ScopeId) (world : World σ ν) (thread : Thread σ ν)
    (next : World σ ν) (after : Thread σ ν) (opened : List ScopeId) : Prop where
  step : thread.step world = some (next, after)
  id : after.id = thread.id
  encloses : next.Encloses opened
  nested : Nested base opened after.control after.stack
  known : ∀ sc ∈ opened, sc ∈ scopes ∨ sc = world.scopes.size
  lighter : (after.burden next).Lighter (thread.burden world)

section Steps

variable {base scopes : List ScopeId} {world : World σ ν} {id : ThreadId} {stack : List (Frame σ ν)}

theorem Thread.Proceeds.of_pending {next : World σ ν} {control after : Control σ ν}
    (frames pushed : List (Frame σ ν)) (encloses : next.Encloses scopes)
    (action : Thread.step world ⟨id, control, frames ++ stack⟩ =
      some (next, ⟨id, after, pushed ++ stack⟩))
    (made : world.scopes.size ≤ next.scopes.size)
    (pending : ∀ sc, (next.scope sc).pending = (world.scope sc).pending)
    (nested : Nested base scopes after (pushed ++ stack))
    (less : (after.burden + (pushed.map Frame.burden).sum).Lighter
      (control.burden + (frames.map Frame.burden).sum)) :
    Thread.Proceeds base scopes world ⟨id, control, frames ++ stack⟩ next
      ⟨id, after, pushed ++ stack⟩ scopes where
  step := action
  id := rfl
  encloses := encloses
  nested := nested
  known _ := .inl
  lighter := lighter_above frames pushed stack (World.burden_congr made pending) less

theorem Thread.Proceeds.of_scopes {next : World σ ν} {control after : Control σ ν}
    (frames pushed : List (Frame σ ν)) (encloses : world.Encloses scopes)
    (action : Thread.step world ⟨id, control, frames ++ stack⟩ =
      some (next, ⟨id, after, pushed ++ stack⟩))
    (same : next.scopes = world.scopes) (nested : Nested base scopes after (pushed ++ stack))
    (less : (after.burden + (pushed.map Frame.burden).sum).Lighter
      (control.burden + (frames.map Frame.burden).sum)) :
    Thread.Proceeds base scopes world ⟨id, control, frames ++ stack⟩ next
      ⟨id, after, pushed ++ stack⟩ scopes := by
  refine .of_pending frames pushed (encloses.of_scopes same) action ?_ (fun sc => ?_) nested less
  · rw [same]
  · rw [World.scope, same, World.scope]

theorem Code.Nests.proceeds {code : Code σ ν} (nests : code.Nests scopes)
    (encloses : world.Encloses scopes) (below : Layers base scopes stack) :
    ∃ next after, Thread.Proceeds base scopes world ⟨id, .code code, stack⟩ next after scopes := by
  have leads {next : Code σ ν} (nests : next.Nests scopes) {world' : World σ ν}
      (action : Thread.step world ⟨id, .code code, stack⟩ = some (world', ⟨id, .code next, stack⟩))
      (same : world'.scopes = world.scopes) (leads : Piece.Leads (.code next) (.code code)) :
      ∃ next after, Thread.Proceeds base scopes world ⟨id, .code code, stack⟩ next after scopes :=
    ⟨_, _, .of_scopes [] [] encloses action same (.code nests below) (.leads leads 0 0)⟩
  cases code with
  | ret reply =>
      exact ⟨_, _, .of_scopes [] [] encloses rfl rfl (.finish _ below) (.ends _ 0 0)⟩
  | panic payload =>
      exact ⟨_, _, .of_scopes [] [] encloses rfl rfl (.finish _ below) (.ends _ 0 0)⟩
  | load next =>
      cases nests with | load rest => exact leads (rest world.memory) rfl rfl (.load _ _)
  | store memory next =>
      cases nests with | store memory rest => exact leads rest rfl rfl (.store _ _)
  | note entry next =>
      cases nests with | note entry rest => exact leads rest rfl rfl (.note _ _)
  | call request next =>
      obtain ⟨asks, rest⟩ := nests.call
      exact ⟨_, _, .of_scopes [] [.calling next] encloses rfl rfl
        (.start asks (.calling rest below)) (.calls request next)⟩
  | attempt | elsewhere => nomatch nests

theorem Call.Nests.proceeds {call : Call σ ν} (nests : call.Nests scopes)
    (encloses : world.Encloses scopes) (below : Layers base scopes stack) :
    ∃ next after opened,
      Thread.Proceeds base scopes world ⟨id, .task (.start call), stack⟩ next after opened := by
  cases call <;> try contradiction
  case defer sc action =>
    obtain ⟨outer, enclosing, nests⟩ := nests
    have known : sc ∈ scopes := enclosing.subset (List.mem_cons_self ..)
    have usable : world.usable (.scope sc) = true := by
      simp [World.usable, encloses.lent sc known]
    let next := world.addAction sc (.run action)
    have added : next.burden = world.burden + Action.burden ⟨world.actions, .run action⟩ :=
      world.burden_addAction (encloses.made sc known) _
    refine ⟨next, ⟨id, .task (.finish (.returned .done)), stack⟩, scopes, ?_⟩
    exact
      { step := by
          simp [Thread.step, Task.step, Call.start, World.whenUsable, usable, World.answer, World.go,
            Thread.after, next]
        id := rfl
        encloses := encloses.defer enclosing nests
        nested := .finish _ below
        known := fun _ => .inl
        lighter := by
          have less : Burden.Lighter ({.code action}, 4) ({.request (.defer sc action)}, 0) :=
            .leads (.action sc action) 4 0
          refine less.within (world.burden + (stack.map Frame.burden).sum) ?_ ?_
          · simp only [Thread.burden, added, Action.burden, Control.burden]
            abel
          · simp only [Thread.burden, Control.burden]
            abel }
  case deferring config body =>
    refine ⟨world.lend config, ⟨id, .code (body world.scopes.size), .body world.scopes.size :: stack⟩,
      world.scopes.size :: scopes, ?_⟩
    exact
      { step := rfl
        id := rfl
        encloses := encloses.lend config
        nested := .code (nests _) (.body _ below)
        known := fun t member => (List.mem_cons.mp member).symm
        lighter := Thread.lighter_above [] [.body _] stack (world.burden_lend config)
          (.leads (.body config body _) 6 0) }

theorem Layers.proceeds {exit : Exit} (below : Layers base scopes stack) (more : stack ≠ [])
    (encloses : world.Encloses scopes) :
    ∃ next after,
      Thread.Proceeds base scopes world ⟨id, .task (.finish exit), stack⟩ next after scopes := by
  cases below with
  | bottom => contradiction
  | @calling scopes stack following rest below =>
      cases exit with
      | returned reply =>
          exact ⟨_, _, .of_scopes [.calling following] [] encloses rfl rfl (.code (rest reply) below)
            (by simpa [Control.burden, Frame.burden] using .leads (.reply following reply) 0 0)⟩
      | panicked payload =>
          exact ⟨_, _, .of_scopes [.calling following] [] encloses rfl rfl (.finish _ below)
            (by simpa [Control.burden, Frame.burden] using .ends (.rest following) 0 0)⟩
  | body sc below =>
      have less : Burden.Lighter ((0, 5) : Burden σ ν) (0, 6) := .works 0 (by decide)
      exact ⟨_, _, .of_scopes [.body sc] [.closing sc exit] encloses rfl rfl (.drain sc 0 [] exit below)
        less⟩
  | @tearing scopes stack rest sc ran failures outcome nests below =>
      refine ⟨_, _, .of_scopes [.tearing sc rest ran failures] [] encloses rfl rfl
        (.batch sc ran _ outcome nests below) ?_⟩
      have fewer : (if rest.isEmpty then 3 else 1) < 4 := by split <;> decide
      refine (Burden.Lighter.works 0 fewer).within (burdenOf rest) ?_ ?_
      · simp only [Control.burden, List.map_nil, List.sum_nil, add_zero]
        exact add_comm _ _
      · simp only [Control.burden, Frame.burden, List.map_cons, List.map_nil, List.sum_cons,
          List.sum_nil, add_zero, zero_add]
        exact add_comm _ _

theorem World.Encloses.drain_proceeds {sc : ScopeId} {ran : Nat} {failures : List Error}
    {outcome : Exit} (encloses : world.Encloses (sc :: scopes)) (below : Layers base scopes stack) :
    ∃ next after opened, Thread.Proceeds base (sc :: scopes) world
      ⟨id, .task (.drain sc ran failures), .closing sc outcome :: stack⟩ next after opened := by
  have known : sc < world.scopes.size := encloses.made sc (List.mem_cons_self ..)
  have moved := world.burden_takePending known
  -- With nothing pending the scope closes; otherwise what was pending becomes the batch to run.
  by_cases empty : (world.scope sc).pending = []
  · have emptied : ((world.takePending sc).1.scope sc).pending = [] := by simp [World.takePending]
    rw [empty, burdenOf_nil, add_zero] at moved
    have less : Burden.Lighter ((0, 1) : Burden σ ν) (0, 2) := .works 0 (by decide)
    refine ⟨(world.takePending sc).1,
      ⟨id, .task (.report sc ran failures), .closing sc outcome :: stack⟩, scopes, ?_⟩
    exact
      { step := Thread.step_over id ran failures _ empty
        id := rfl
        encloses := (encloses.take sc).close emptied
        nested := .report sc ran failures outcome encloses.innermost_not_mem below
        known := fun t member => .inl (List.mem_cons_of_mem _ member)
        lighter := Thread.lighter_above [] [] _ moved.symm less }
  · have waits : (world.scope sc).pending.reverse.isEmpty = false := by simpa using empty
    refine ⟨(world.takePending sc).1, ⟨id, .task (.batch sc (world.scope sc).pending.reverse ran failures),
      .closing sc outcome :: stack⟩, sc :: scopes, ?_⟩
    exact
      { step := Thread.step_round id ran failures _ empty
        id := rfl
        encloses := encloses.take sc
        nested := .batch sc ran failures outcome (fun action member =>
          encloses.innermost_nests action (List.mem_reverse.mp member)) below
        known := fun t member => .inl member
        lighter := by
          have less : Burden.Lighter ((0, 1) : Burden σ ν) (0, 2) := .works 0 (by decide)
          refine less.within
            (world.burden + ((Frame.closing sc outcome :: stack).map Frame.burden).sum) ?_ ?_
          · simp only [Thread.burden, Control.burden, waits, Bool.false_eq_true, if_false, moved,
              burdenOf_reverse]
            abel
          · simp only [Thread.burden, Control.burden]
            abel }

theorem Thread.batch_proceeds {sc : ScopeId} {rest : List (Action σ ν)} {ran : Nat}
    {failures : List Error} {outcome : Exit} (encloses : world.Encloses (sc :: scopes))
    (nests : ∀ action ∈ rest, action.Nests (sc :: scopes)) (below : Layers base scopes stack) :
    ∃ next after, Thread.Proceeds base (sc :: scopes) world
      ⟨id, .task (.batch sc rest ran failures), .closing sc outcome :: stack⟩ next after
      (sc :: scopes) := by
  cases rest with
  | nil =>
      have less : Burden.Lighter ((0, 2) : Burden σ ν) (0, 3) := .works 0 (by decide)
      exact ⟨_, _, .of_scopes [] [] encloses rfl rfl (.drain sc ran failures outcome below) less⟩
  | cons action rest =>
      obtain ⟨⟨code, job, inner⟩, others⟩ := List.forall_mem_cons.mp nests
      obtain ⟨a, job'⟩ := action
      obtain rfl : job' = .run code := job
      refine ⟨_, _, .of_scopes [] [.tearing sc rest (ran + 1) failures] encloses rfl rfl
        (.code inner (.tearing sc _ _ outcome others below)) ?_⟩
      have pieces (n m : Nat) : (({.code code}, n + m) : Burden σ ν) = ({.code code}, n) + (0, m) := by
        simp
      refine (Burden.Lighter.works {.code code} (Nat.lt_succ_self 4)).within (burdenOf rest) ?_ ?_
      · simp only [Control.burden, Frame.burden, List.map_cons, List.map_nil, List.sum_cons,
          List.sum_nil]
        rw [← Nat.zero_add 4, pieces 0 4]
        abel
      · simp only [Control.burden, Action.burden, burdenOf_cons, List.map_nil, List.sum_nil]
        rw [pieces 4 1]
        simp only [List.isEmpty_cons, Bool.false_eq_true, if_false]
        abel

theorem World.Encloses.updateScope {sc : ScopeId} {change : Scope σ ν → Scope σ ν}
    (encloses : world.Encloses scopes) (closed : sc ∉ scopes)
    (pending : ∀ scope, (change scope).pending = scope.pending) :
    (world.updateScope sc change).Encloses scopes := by
  refine encloses.congr (Table.size_le_update _ _ _) (fun t member => ?_) (fun t => ?_)
  · have other : sc ≠ t := fun same => closed (same ▸ member)
    rw [scope_updateScope, if_neg other]
  · rw [scope_updateScope]
    split
    · exact pending _
    · rfl

theorem Thread.reported_proceeds {sc : ScopeId} {reply : Reply} {outcome : Exit}
    (encloses : world.Encloses scopes) (closed : sc ∉ scopes) (below : Layers base scopes stack) :
    ∃ next after, Thread.Proceeds base scopes world
      ⟨id, .task (.finish (.returned reply)), .closing sc outcome :: stack⟩ next after scopes := by
  let told := world.emitAll (outcome.unwindingEvents sc reply.teardown?)
  have same : told.scopes = world.scopes := world.scopes_emitAll _
  have less : Burden.Lighter ((0, 2) : Burden σ ν) (0, 3) := .works 0 (by decide)
  refine ⟨told.updateScope sc fun scope => { scope with lent := false }, _,
    .of_pending [.closing sc outcome] []
      ((encloses.of_scopes same).updateScope closed fun _ => rfl) rfl ?_ (fun t => ?_)
      (.letGo sc _ closed below) less⟩
  · rw [← same]
    exact Table.size_le_update ..
  · rw [World.scope_updateScope, World.scope, World.scope, same]
    split <;> rfl

theorem Thread.letGo_proceeds {sc : ScopeId} {exit : Exit} (encloses : world.Encloses scopes)
    (closed : sc ∉ scopes) (below : Layers base scopes stack) :
    ∃ next after, Thread.Proceeds base scopes world
      ⟨id, .task (.letGo [.scope sc] exit), stack⟩ next after scopes := by
  have empty : ((world.relinquish (.scope sc)).scope sc).pending = [] := by
    simpa [World.relinquish] using encloses.emptied sc closed
  have action : Thread.step world ⟨id, .task (.letGo [.scope sc] exit), stack⟩ =
      some (world.relinquish (.scope sc), ⟨id, .task (.letGo [] exit), stack⟩) := by
    simp [Thread.step, Task.step, empty, World.go, Thread.after]
  have less : Burden.Lighter ((0, 1) : Burden σ ν) (0, 2) := .works 0 (by decide)
  have encloses : (world.relinquish (.scope sc)).Encloses scopes :=
    encloses.updateScope closed fun _ => rfl
  refine ⟨_, _, .of_pending [] [] encloses action (Table.size_le_update ..) (fun t => ?_)
    (.gone exit below) less⟩
  simp only [World.relinquish, World.scope_updateScope]
  split <;> rfl

theorem Nested.proceeds {control : Control σ ν} (nested : Nested base scopes control stack)
    (encloses : world.Encloses scopes) (running : Thread.exit? ⟨id, control, stack⟩ = none) :
    ∃ next after opened, Thread.Proceeds base scopes world ⟨id, control, stack⟩ next after opened := by
  cases nested with
  | code nests below =>
      obtain ⟨next, after, proceeds⟩ := nests.proceeds encloses below
      exact ⟨next, after, scopes, proceeds⟩
  | start nests below => exact nests.proceeds encloses below
  | finish exit below =>
      have more : stack ≠ [] := by
        rintro rfl
        contradiction
      obtain ⟨next, after, proceeds⟩ := below.proceeds more encloses
      exact ⟨next, after, scopes, proceeds⟩
  | drain sc ran failures outcome below => exact encloses.drain_proceeds below
  | batch sc ran failures outcome nests below =>
      obtain ⟨next, after, proceeds⟩ := Thread.batch_proceeds encloses nests below
      exact ⟨next, after, _, proceeds⟩
  | report sc ran failures outcome closed below =>
      have less : Burden.Lighter ((0, 0) : Burden σ ν) (0, 1) := .works 0 (by decide)
      exact ⟨_, _, _, .of_scopes [] [] encloses rfl (World.scopes_emitAll _ _)
        (.reported sc _ outcome closed below) less⟩
  | reported sc reply outcome closed below =>
      obtain ⟨next, after, proceeds⟩ := Thread.reported_proceeds encloses closed below
      exact ⟨next, after, scopes, proceeds⟩
  | letGo sc exit closed below =>
      obtain ⟨next, after, proceeds⟩ := Thread.letGo_proceeds encloses closed below
      exact ⟨next, after, scopes, proceeds⟩
  | gone exit below =>
      have less : Burden.Lighter ((0, 0) : Burden σ ν) (0, 1) := .works 0 (by decide)
      exact ⟨_, _, _, .of_scopes [] [] encloses rfl rfl (.finish exit below) less⟩

end Steps

/-! ## Runs -/

/-- The thread is nested above the base, and the shut scopes, which were made before, are not open. -/
structure Thread.Nests (base : List ScopeId) (shut : ScopeId → Prop) (world : World σ ν)
    (thread : Thread σ ν) : Prop where
  opens : ∃ opened, world.Encloses opened ∧ Nested base opened thread.control thread.stack ∧
    ∀ sc ∈ opened, ¬ shut sc
  made : ∀ sc, shut sc → sc < world.scopes.size

namespace Thread.Nests

variable {base : List ScopeId} {shut : ScopeId → Prop} {world next : World σ ν}
  {thread after : Thread σ ν}

theorem step (nests : thread.Nests base shut world) (action : thread.step world = some (next, after)) :
    after.Nests base shut next ∧ after.id = thread.id ∧
      (after.burden next).Lighter (thread.burden world) := by
  obtain ⟨opened, encloses, nested, closed⟩ := nests.opens
  obtain ⟨next', after', opened', proceeds⟩ := nested.proceeds encloses (running_of_step action)
  obtain ⟨rfl, rfl⟩ := Prod.mk.inj (Option.some.inj (action.symm.trans proceeds.step))
  refine ⟨⟨⟨opened', proceeds.encloses, proceeds.nested, fun sc member => ?_⟩, fun sc gone => ?_⟩,
    proceeds.id, proceeds.lighter⟩
  · rcases proceeds.known sc member with old | rfl
    · exact closed sc old
    · exact fun gone => Nat.lt_irrefl _ (nests.made _ gone)
  · exact Nat.lt_of_lt_of_le (nests.made sc gone) (step_governs action).made

theorem reaches (nests : thread.Nests base shut world) (run : Reaches world thread next after) :
    after.Nests base shut next ∧ after.id = thread.id := by
  obtain ⟨steps, run⟩ := run
  have kept := Thread.advance_rule
    (fun next after => after.Nests base shut next ∧ after.id = thread.id)
    (fun _ _ _ _ earlier action =>
      have stepped := earlier.1.step action
      ⟨stepped.1, stepped.2.1.trans earlier.2⟩) ⟨nests, rfl⟩ steps
  rwa [run] at kept

theorem ends (nests : thread.Nests base shut world) :
    ∃ exit next, Reaches world thread next ⟨thread.id, .task (.finish exit), []⟩ := by
  -- An action may defer more code than it is, so what gets less is a multiset of pieces, not a size.
  induction burden : thread.burden world using Burden.lighter_wellFounded.induction
    generalizing world thread with
  | _ load ih =>
      cases ended : thread.exit? with
      | some exit =>
          refine ⟨exit, world, ?_⟩
          rw [← exit?_eq_some ended]
          exact .refl world thread
      | none =>
          obtain ⟨opened, encloses, nested, -⟩ := nests.opens
          obtain ⟨middle, between, _, proceeds⟩ := nested.proceeds encloses ended
          obtain ⟨nests, same, lighter⟩ := nests.step proceeds.step
          rw [burden] at lighter
          obtain ⟨exit, next, run⟩ := ih _ lighter nests rfl
          rw [same] at run
          exact ⟨exit, next, .step proceeds.step run⟩

theorem finished {id : ThreadId} {exit : Exit}
    (nests : Nests base shut world ⟨id, .task (.finish exit), []⟩) : world.Encloses base := by
  obtain ⟨opened, encloses, nested, -⟩ := nests.opens
  cases nested with
  | finish exit below =>
      cases below with
      | bottom => exact encloses

end Thread.Nests

end Relinquish
