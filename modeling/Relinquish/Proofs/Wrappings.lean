import Relinquish.Proofs.Causes
import Mathlib.Logic.Relation

/-!
Wrappings. The library wraps errors into further ones, of which they are the primary cause. Whoever
looks for a cause of some type still finds it behind any number of wrappings, but for one case: a
teardown error is not found in the form in which it is returned.
-/

namespace Relinquish

variable {σ ν : Type}

/-- The library makes the second error of the first one, as its primary cause. -/
inductive Error.Wrapped : Error → Error → Prop where
  | initialization (cause : Error) (followUps : List DropError) :
      Wrapped cause (.drop (.initialization cause followUps))
  | drop (cause : Error) : Wrapped cause (.drop (.drop cause))
  | dropChain (cause : Error) : Wrapped cause (.drop (.dropChain cause))
  | handler (cause : Error) : Wrapped cause (.drop (.handler cause))
  | interrupted (body : Error) (failures : List Error) :
      Wrapped body (.teardown (.mk failures (some body)))
  | first (failure : Error) (later : List Error) :
      Wrapped failure (.teardown (.mk (failure :: later) none))
  | returned (error : TeardownError) : Wrapped (.teardown error) (.drop (.teardown error))

abbrev Error.Wrappings : Error → Error → Prop :=
  Relation.ReflTransGen Error.Wrapped

namespace Error

variable {error wrapper cause : Error} {type : ErrorType}

theorem Wraps.path_eq (wraps : error.Wraps cause) : error.path = error :: cause.path :=
  (Trail.behind error cause cause.path wraps cause.trail_path).eq_path.symm

theorem Wrapped.wraps_or_returned (wrapped : Wrapped error wrapper) :
    wrapper.Wraps error ∨ ∃ inner, error = .teardown inner ∧ wrapper = .drop (.teardown inner) := by
  cases wrapped with
  | initialization _ followUps => exact .inl (.initialization error followUps)
  | drop => exact .inl (.drop error)
  | dropChain => exact .inl (.dropChain error)
  | handler => exact .inl (.handler error)
  | interrupted _ failures => exact .inl (.interrupted failures error)
  | first _ later => exact .inl (.first error later)
  | returned inner => exact .inr ⟨inner, rfl, rfl⟩

theorem Wrapped.of_library (wrapped : Wrapped error wrapper) :
    wrapper.type = some .teardown ∨ wrapper.type = some .drop := by
  cases wrapped with
  | interrupted | first => exact .inl rfl
  | _ => exact .inr rfl

theorem Wrappings.causes_subset (wrappings : Wrappings error wrapper) :
    error.causes ⊆ wrapper.causes := by
  induction wrappings with
  | refl => exact List.Subset.refl _
  | tail _ wrapped ih =>
      apply List.Subset.trans ih
      rcases wrapped.wraps_or_returned with wraps | ⟨inner, rfl, rfl⟩
      · obtain ⟨-, same⟩ := List.cons.inj wraps.path_eq
        rw [same]
        exact List.subset_cons_self _ _
      · exact List.Subset.refl _

theorem Wrappings.mem_path (wrappings : Wrappings error wrapper) :
    error ∈ wrapper.path ∨
      ∃ inner, error = .teardown inner ∧ Wrappings (.drop (.teardown inner)) wrapper := by
  rcases Relation.ReflTransGen.cases_head wrappings with rfl | ⟨middle, wrapped, rest⟩
  · exact .inl List.mem_cons_self
  · rcases wrapped.wraps_or_returned with wraps | ⟨inner, rfl, rfl⟩
    · apply Or.inl
      obtain ⟨-, same⟩ := List.cons.inj wraps.path_eq
      have behind : error ∈ middle.causes := same ▸ List.mem_cons_self
      exact List.mem_cons_of_mem _ (Wrappings.causes_subset rest behind)
    · exact .inr ⟨inner, rfl, rest⟩

theorem Wrappings.find_eq (wrappings : Wrappings error wrapper) (noTeardown : type ≠ .teardown)
    (noDrop : type ≠ .drop) : wrapper.find type = error.find type := by
  have passes {other : Error} (library : other.type = some .teardown ∨ other.type = some .drop) :
      other.isA type = false := by
    rcases library with same | same <;> simp [isA, same, noTeardown.symm, noDrop.symm]
  induction wrappings with
  | refl => rfl
  | @tail middle wrapper _ wrapped ih =>
      rw [← ih, Error.find_eq, Error.find_eq middle]
      rcases wrapped.wraps_or_returned with wraps | ⟨inner, rfl, rfl⟩
      · rw [wraps.path_eq, List.find?_cons, passes wrapped.of_library]
      · have skipped : (Error.teardown inner).isA type = false := passes (.inl rfl)
        simp only [path, List.find?_cons, passes wrapped.of_library, skipped]
        rfl

theorem judges_returned_iff (inner : TeardownError) :
    (Kind.of .teardown : Kind σ ν).judge (.drop (.teardown inner)) = .inl true ↔
      ∃ cause ∈ inner.causes, cause.isA .teardown := by
  rw [Kind.of_judges_true_iff]
  constructor
  · rintro ⟨cause, member, isA⟩
    rcases List.mem_cons.mp member with rfl | behind
    · contradiction
    · exact ⟨cause, behind, isA⟩
  · rintro ⟨cause, behind, isA⟩
    exact ⟨cause, List.mem_cons_of_mem _ behind, isA⟩

/-- A kind that matches an error matches whatever is made of it, and a search finds the same cause in
both. Only teardown errors are not matched as such once they are returned, unless a further one stands
behind them. -/
theorem causes_kept (wrappings : Wrappings error wrapper) (type : ErrorType) :
    ((Kind.of type : Kind σ ν).judge error = .inl true →
      (Kind.of type : Kind σ ν).judge wrapper = .inl true ∨
        type = .teardown ∧ ∃ inner, error = .teardown inner ∧
          Wrappings (.drop (.teardown inner)) wrapper ∧
          (Kind.of type : Kind σ ν).judge (.drop (.teardown inner)) = .inl false) ∧
      (type ≠ .teardown → type ≠ .drop → wrapper.find type = error.find type) ∧
      (∀ drop, wrapper = .drop drop →
        ((drop.findCause type).isSome ↔ (Kind.of type : Kind σ ν).judge wrapper = .inl true)) ∧
      ∀ inner, (Kind.of .teardown : Kind σ ν).judge (.drop (.teardown inner)) = .inl true ↔
        ∃ cause ∈ inner.causes, cause.isA .teardown := by
  refine ⟨fun caught => ?_, wrappings.find_eq, ?_, judges_returned_iff⟩
  · obtain ⟨cause, member, isA⟩ := Kind.of_judges_true_iff.mp caught
    rcases List.mem_cons.mp member with rfl | behind
    · rcases wrappings.mem_path with kept | ⟨inner, rfl, rest⟩
      · exact .inl (Kind.of_judges_true_iff.mpr ⟨cause, kept, isA⟩)
      · -- The error was found as such, which its returned form is not.
        obtain rfl : .teardown = type := by simpa [Error.isA, Error.type] using isA
        cases hidden : (Kind.of .teardown : Kind σ ν).judge (.drop (.teardown inner)) with
        | inr code => contradiction
        | inl found =>
            cases found with
            | false => exact .inr ⟨rfl, inner, rfl, rest, hidden⟩
            | true =>
                obtain ⟨cause, behind, isA⟩ := (judges_returned_iff inner).mp hidden
                have kept := Wrappings.causes_subset rest behind
                exact .inl (Kind.of_judges_true_iff.mpr ⟨cause, List.mem_cons_of_mem _ kept, isA⟩)
    · have kept : cause ∈ wrapper.path := List.mem_cons_of_mem _ (wrappings.causes_subset behind)
      exact .inl (Kind.of_judges_true_iff.mpr ⟨cause, kept, isA⟩)
  · rintro drop rfl
    rw [Kind.of_judges_true_iff, ← find_isSome_iff]
    rfl

/-- A scope's error interrupts another teardown, whose error fails an initializer. -/
theorem causes_kept_rolledBack :
    let inner : Error := .custom "IllegalState" "stuck" none none
    let wrapper : Error :=
      .drop (.initialization (.drop (.teardown (.mk [.text "late"] (some inner)))) [])
    (Kind.of (.custom "IllegalState") : Kind Unit Unit).judge wrapper = .inl true ∧
      wrapper.find (.custom "IllegalState") = some inner := by
  intro inner wrapper
  have wrappings : Wrappings inner wrapper :=
    .tail (.tail (.single (.interrupted inner [.text "late"])) (.returned _)) (.initialization _ [])
  obtain ⟨kept, same, -⟩ :=
    causes_kept (σ := Unit) (ν := Unit) wrappings (.custom "IllegalState")
  have caught : (Kind.of (.custom "IllegalState") : Kind Unit Unit).judge inner = .inl true :=
    Kind.of_judges_true_iff.mpr ⟨inner, .head _, rfl⟩
  refine ⟨(kept caught).resolve_right nofun, (same nofun nofun).trans ?_⟩
  rw [Error.find_eq]
  rfl

/-- The kind of teardown errors matches one, but not the form in which the library returns it. -/
theorem returned_teardown_missed :
    ∃ error wrapper, Wrapped error wrapper ∧
      (Kind.of .teardown : Kind Unit Unit).judge error = .inl true ∧
      (Kind.of .teardown : Kind Unit Unit).judge wrapper = .inl false := by
  refine ⟨.teardown (.mk [.text "stuck"] none), _, .returned _, ?_, ?_⟩
  · exact Kind.of_judges_true_iff.mpr ⟨_, .head _, rfl⟩
  · simp only [Kind.judge, Error.find_eq]
    rfl

end Error

end Relinquish
