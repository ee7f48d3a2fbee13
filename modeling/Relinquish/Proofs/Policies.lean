import Relinquish.Proofs.Runs
import Relinquish.Proofs.Writes

/-!
Scopes are never taken away, and each keeps the policy with which it was made.
-/

namespace Relinquish

variable {σ ν : Type}

theorem World.scopes_emitAll (world : World σ ν) (events : List Event) :
    (world.emitAll events).scopes = world.scopes :=
  world.foldl_same (·.scopes) emit (fun _ _ => rfl) events

structure World.Governs (world next : World σ ν) : Prop where
  made : world.scopes.size ≤ next.scopes.size
  policy : ∀ sc < world.scopes.size, (next.scope sc).policy = (world.scope sc).policy

namespace World.Governs

variable {world middle next : World σ ν}

theorem of_scopes (same : next.scopes = world.scopes) : world.Governs next := by
  refine ⟨Nat.le_of_eq (by rw [same]), fun sc _ => ?_⟩
  rw [scope, same, scope]

theorem refl (world : World σ ν) : world.Governs world :=
  .of_scopes rfl

theorem trans (first : world.Governs middle) (second : middle.Governs next) :
    world.Governs next := by
  refine ⟨Nat.le_trans first.made second.made, fun sc made => ?_⟩
  rw [second.policy sc (Nat.lt_of_lt_of_le made first.made), first.policy sc made]

theorem updateScope (world : World σ ν) (sc : ScopeId) {change : Scope σ ν → Scope σ ν}
    (policy : ∀ scope, (change scope).policy = scope.policy) :
    world.Governs (world.updateScope sc change) := by
  refine ⟨Table.size_le_update world.scopes sc change, fun t _ => ?_⟩
  rw [scope_updateScope]
  split
  · exact policy _
  · rfl

theorem addScope (world : World σ ν) (scope : Scope σ ν) :
    world.Governs (world.addScope scope).1 := by
  refine ⟨?_, fun sc made => ?_⟩
  · rw [World.addScope, Table.size_push]
    exact Nat.le_succ _
  · rw [scope_addScope, if_neg (Nat.ne_of_lt made)]

end World.Governs

theorem World.Writes.governs {world next : World σ ν} (writes : world.Writes next) :
    world.Governs next := by
  induction writes with
  | refl => exact .refl world
  | rest _ _ scopes _ ih => exact ih.trans (.of_scopes scopes)
  | scope _ sc _ policy ih => exact ih.trans (.updateScope _ sc policy)
  | addScope _ scope ih => exact ih.trans (.addScope _ scope)
  | slot _ _ _ _ _ ih | link _ _ _ _ _ ih | handler _ _ _ _ _ ih | addSlot _ _ ih =>
      exact ih.trans (.of_scopes rfl)

theorem Thread.step_governs {world next : World σ ν} {thread after : Thread σ ν}
    (action : thread.step world = some (next, after)) : world.Governs next := by
  refine step_rule (fun _ next _ => world.Governs next) ?_ ?_ ?_ action
  · intro id code stack move made
    cases code <;> simp only [Code.step] at made <;> obtain rfl := Option.some.inj made <;>
      exact .of_scopes rfl
  · intro id task stack move made
    exact (task.step_writes world id move made).governs
  · intro id exit frame stack move made
    exact (frame.resume_writes world exit move made).governs

theorem Thread.Reaches.governs {world next : World σ ν} {thread after : Thread σ ν}
    (run : Reaches world thread next after) : world.Governs next := by
  obtain ⟨steps, run⟩ := run
  have kept : world.Governs (Thread.advance steps world thread).1 :=
    Thread.advance_rule (fun next _ => world.Governs next)
      (fun _ _ _ _ earlier action => earlier.trans (step_governs action)) (.refl world) steps
  rwa [run] at kept

end Relinquish
