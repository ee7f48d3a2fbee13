import Relinquish.Code

/-!
What stands behind an error. `Error.Wraps` says case by case which error another one names as its
source, and `Error.Trail` follows these names to their end. Every error has exactly one trail, which
is its path, and looking for a cause finds the nearest error of the wanted type on it; the kinds of
errors judge by the same trail.
-/

namespace Relinquish

variable {σ ν : Type}

/-- The errors that an error names as its source. Follow-up failures are never among them, and a
teardown error names one of its failures only where it interrupted nothing. -/
inductive Error.Wraps : Error → Error → Prop where
  | custom (type message : String) (number : Option Int) (cause : Error) :
      Wraps (.custom type message number (some cause)) cause
  | initialization (cause : Error) (followUps : List DropError) :
      Wraps (.drop (.initialization cause followUps)) cause
  | drop (cause : Error) : Wraps (.drop (.drop cause)) cause
  | dropChain (cause : Error) : Wraps (.drop (.dropChain cause)) cause
  | handler (cause : Error) : Wraps (.drop (.handler cause)) cause
  | interrupted (failures : List Error) (body : Error) :
      Wraps (.teardown (.mk failures (some body))) body
  | first (failure : Error) (later : List Error) :
      Wraps (.teardown (.mk (failure :: later) none)) failure
  /-- The teardown error inside is skipped. -/
  | teardown (error : TeardownError) (cause : Error) (inside : Wraps (.teardown error) cause) :
      Wraps (.drop (.teardown error)) cause

/-- The error, the error it wraps, the error that one wraps, and so on to one that wraps none. -/
inductive Error.Trail : Error → List Error → Prop where
  | last (error : Error) (bare : ∀ cause, ¬ error.Wraps cause) : Trail error [error]
  | behind (error cause : Error) (path : List Error) (wraps : error.Wraps cause)
      (rest : Trail cause path) : Trail error (error :: path)

theorem Error.teardown_wraps_iff {error : TeardownError} {cause : Error} :
    (Error.teardown error).Wraps cause ↔ error.source = some cause := by
  obtain ⟨failures, interrupted⟩ := error
  constructor
  · intro wraps
    cases wraps <;> rfl
  · intro source
    cases interrupted with
    | some body =>
        obtain rfl : body = cause := Option.some.inj source
        exact .interrupted failures body
    | none =>
        cases failures with
        | nil => nomatch source
        | cons failure later =>
            obtain rfl : failure = cause := Option.some.inj source
            exact .first failure later

theorem Error.drop_wraps_iff {error : DropError} {cause : Error} :
    (Error.drop error).Wraps cause ↔ error.source = some cause := by
  constructor
  · intro wraps
    cases wraps with
    | teardown inner cause inside => exact teardown_wraps_iff.mp inside
    | _ => rfl
  · intro source
    cases error with
    | initialization _ followUps =>
        obtain rfl := Option.some.inj source
        exact .initialization _ followUps
    | drop => obtain rfl := Option.some.inj source; exact .drop _
    | dropChain => obtain rfl := Option.some.inj source; exact .dropChain _
    | handler => obtain rfl := Option.some.inj source; exact .handler _
    | teardown inner => exact .teardown inner cause (teardown_wraps_iff.mpr source)
    | dropped | reentrant | panicked => nomatch source

theorem Error.wraps_iff {error cause : Error} : error.Wraps cause ↔ error.source = some cause := by
  cases error with
  | text | config =>
      constructor
      · intro wraps
        cases wraps
      · intro source
        nomatch source
  | custom type message number inner =>
      constructor
      · intro wraps
        cases wraps
        rfl
      · intro source
        obtain rfl : inner = some cause := source
        exact .custom type message number cause
  | teardown error => exact teardown_wraps_iff
  | drop error => exact drop_wraps_iff

theorem Error.Wraps.unique {error first second : Error} (one : error.Wraps first)
    (other : error.Wraps second) : first = second := by
  have := wraps_iff.mp one
  have := wraps_iff.mp other
  simp_all

theorem Error.trail_path (error : Error) : error.Trail error.path := by
  rw [path, causes_eq]
  cases found : error.source with
  | none =>
      apply Trail.last
      intro cause wraps
      simp [wraps_iff.mp wraps] at found
  | some cause => exact .behind error cause cause.path (wraps_iff.mpr found) cause.trail_path
termination_by sizeOf error
decreasing_by exact sizeOf_source_lt found

namespace Error.Trail

variable {error : Error} {path : List Error}

theorem eq_path (trail : error.Trail path) : path = error.path := by
  induction trail with
  | last error bare =>
      have none : error.source = none := by
        refine Option.eq_none_iff_forall_not_mem.mpr fun cause source => ?_
        exact bare cause (wraps_iff.mpr source)
      simp [Error.path, causes_eq, none]
  | behind error cause path wraps rest ih =>
      simp [Error.path, causes_eq error, wraps_iff.mp wraps, ih]

theorem find (trail : error.Trail path) (type : ErrorType) :
    error.find type = path.find? (·.isA type) := by
  induction trail with
  | last error bare =>
      rw [Error.find]
      cases own : error.isA type with
      | true => simp [own]
      | false =>
          simp only [Bool.false_eq_true, ↓reduceIte, List.find?_cons, own, List.find?_nil]
          split
          · rfl
          · next cause source => exact absurd (wraps_iff.mpr source) (bare cause)
  | behind error cause path wraps rest ih =>
      rw [Error.find]
      cases own : error.isA type with
      | true => simp [own]
      | false =>
          simp only [Bool.false_eq_true, ↓reduceIte, List.find?_cons, own]
          split
          · next none => simp [wraps_iff.mp wraps] at none
          · next other source =>
              obtain rfl := wraps.unique (wraps_iff.mpr source)
              exact ih

end Error.Trail

theorem Error.trail_iff {error : Error} {path : List Error} :
    error.Trail path ↔ path = error.path :=
  ⟨Trail.eq_path, fun same => same ▸ error.trail_path⟩

theorem Error.find_eq (error : Error) (type : ErrorType) :
    error.find type = error.path.find? (·.isA type) :=
  error.trail_path.find type

/-- A teardown error inside another error of the library is passed over. -/
example : (Error.drop (.teardown (.mk [.text "late"] none))).find .teardown = none := by
  rw [Error.find_eq]
  rfl

theorem Error.find_isSome_iff {error : Error} {type : ErrorType} :
    (error.find type).isSome ↔ ∃ cause ∈ error.path, cause.isA type := by
  rw [find_eq, List.find?_isSome]

theorem Kind.of_judges_true_iff {error : Error} {type : ErrorType} :
    (Kind.of type : Kind σ ν).judge error = .inl true ↔ ∃ cause ∈ error.path, cause.isA type := by
  rw [← Error.find_isSome_iff]
  exact ⟨Sum.inl.inj, congrArg Sum.inl⟩

theorem Kind.exact_judges_true_iff {error : Error} {type : ErrorType} :
    (Kind.exact type : Kind σ ν).judge error = .inl true ↔ error.isA type :=
  ⟨Sum.inl.inj, congrArg Sum.inl⟩

theorem Kind.of_judges_of_exact {error : Error} {type : ErrorType}
    (exact : (Kind.exact type : Kind σ ν).judge error = .inl true) :
    (Kind.of type : Kind σ ν).judge error = .inl true :=
  of_judges_true_iff.mpr ⟨error, List.mem_cons_self, exact_judges_true_iff.mp exact⟩

/-- Every error has one trail, and both the search for a cause and the kinds go by it: a search
finds the first error of its type on the trail. -/
theorem Error.causes_looked_up (error : Error) (type : ErrorType) :
    ∃ path, (∀ other, error.Trail other ↔ other = path) ∧
      error.find type = path.find? (·.isA type) ∧
      ((Kind.of type : Kind σ ν).judge error = .inl true ↔ ∃ cause ∈ path, cause.isA type) ∧
      ((Kind.exact type : Kind σ ν).judge error = .inl true ↔ error.isA type) ∧
      ((Kind.exact type : Kind σ ν).judge error = .inl true →
        (Kind.of type : Kind σ ν).judge error = .inl true) ∧
      ((Kind.of type : Kind σ ν).judge error = .inl true →
        (Kind.any : Kind σ ν).judge error = .inl true) ∧
      ∀ inner, error = .drop inner → inner.findCause type = path.find? (·.isA type) := by
  refine ⟨error.path, fun other => trail_iff, error.find_eq type, Kind.of_judges_true_iff,
    Kind.exact_judges_true_iff, Kind.of_judges_of_exact, fun _ => rfl, ?_⟩
  rintro inner rfl
  exact Error.find_eq (.drop inner) type

end Relinquish
