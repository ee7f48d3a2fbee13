import Relinquish.Proofs.Reactions
import Mathlib.Data.List.TakeWhile

/-!
Settings. A policy is asked for by name, whatever blanks stand around the name and in whatever case
its letters are; and the settings are read by asking for one variable, once.
-/

namespace Relinquish

/-! ## Letters and blanks -/

namespace Text

theorem capital_rule {motive : Char → Prop} (each : ∀ i < 26, motive (Char.ofNat (65 + i))) {c : Char}
    (capital : 'A' ≤ c ∧ c ≤ 'Z') : motive c := by
  have low : 65 ≤ c.toNat := capital.1
  have high : c.toNat ≤ 90 := capital.2
  have letter := each (c.toNat - 65) (by omega)
  rwa [Nat.add_sub_cancel' low, Char.ofNat_toNat] at letter

theorem isBlank_lower (c : Char) : isBlank (lower c) = isBlank c := by
  by_cases capital : 'A' ≤ c ∧ c ≤ 'Z'
  · exact capital_rule (motive := fun c => isBlank (lower c) = isBlank c) (by decide) capital
  · rw [lower, if_neg capital]

theorem lower_lower (c : Char) : lower (lower c) = lower c := by
  by_cases capital : 'A' ≤ c ∧ c ≤ 'Z'
  · exact capital_rule (motive := fun c => lower (lower c) = lower c) (by decide) capital
  · have same : lower c = c := if_neg capital
    rw [same, same]

/-- The two are the same character, or one is a capital letter and the other one its small form. -/
def SameLetter (c d : Char) : Prop :=
  c = d ∨ ∃ i < 26,
    (c = Char.ofNat (65 + i) ∧ d = Char.ofNat (97 + i)) ∨
    (c = Char.ofNat (97 + i) ∧ d = Char.ofNat (65 + i))

theorem SameLetter.lower {c d : Char} (same : SameLetter c d) : lower d = lower c := by
  have letters : ∀ i < 26, Text.lower (Char.ofNat (97 + i)) = Text.lower (Char.ofNat (65 + i)) := by
    decide
  obtain rfl | ⟨i, small, ⟨rfl, rfl⟩ | ⟨rfl, rfl⟩⟩ := same
  · rfl
  · exact letters i small
  · exact (letters i small).symm

theorem map_lower_of_sameLetter {cs ds : List Char} (same : List.Forall₂ SameLetter cs ds) :
    ds.map lower = cs.map lower := by
  induction same with
  | nil => rfl
  | cons first _ ih => rw [List.map_cons, List.map_cons, first.lower, ih]

/-! ## Trimming -/

/-- What is left of a text without the blanks at its start and at its end. -/
structure Trimmed (cs core : List Char) : Prop where
  around : ∃ before after, (∀ c ∈ before, isBlank c) ∧ (∀ c ∈ after, isBlank c) ∧
    cs = before ++ core ++ after
  starts : ∀ c ∈ core.head?, ¬ isBlank c
  ends : ∀ c ∈ core.getLast?, ¬ isBlank c

theorem dropWhile_of_head? {cs : List Char} (starts : ∀ c ∈ cs.head?, ¬ isBlank c) :
    cs.dropWhile isBlank = cs := by
  cases cs with
  | nil => rfl
  | cons c cs => exact List.dropWhile_cons_of_neg (starts c rfl)

theorem trimmed_trim (cs : List Char) : Trimmed cs (trim cs) := by
  obtain ⟨middle, front⟩ : ∃ middle, middle = cs.dropWhile isBlank := ⟨_, rfl⟩
  have before := List.takeWhile_append_dropWhile (p := isBlank) (l := cs)
  have after := List.takeWhile_append_dropWhile (p := isBlank) (l := middle.reverse)
  have parts : middle = trim cs ++ (middle.reverse.takeWhile isBlank).reverse := by
    rw [trim, ← front, ← List.reverse_append, after, List.reverse_reverse]
  constructor
  case around =>
    refine ⟨cs.takeWhile isBlank, (middle.reverse.takeWhile isBlank).reverse,
      fun _ => List.mem_takeWhile_imp, fun c within => ?_, ?_⟩
    · exact List.mem_takeWhile_imp (List.mem_reverse.mp within)
    · rw [List.append_assoc, ← parts, front, before]
  case starts =>
    -- The second trimming leaves the start alone, if it leaves anything.
    intro c first
    have first : c ∈ (cs.dropWhile isBlank).head? := by
      rw [← front, parts]
      exact List.mem_head?_append_of_mem_head? first
    have solid := List.head?_dropWhile_not isBlank cs
    rw [first] at solid
    simpa using solid
  case ends =>
    intro c last
    rw [trim, ← front, List.getLast?_reverse] at last
    have solid := List.head?_dropWhile_not isBlank middle.reverse
    rw [last] at solid
    simpa using solid

theorem trim_eq_iff {cs core : List Char} : trim cs = core ↔ Trimmed cs core := by
  constructor
  · rintro rfl
    exact trimmed_trim cs
  · rintro ⟨⟨before, after, blank, trailing, rfl⟩, starts, ends⟩
    have trailing : ∀ c ∈ after.reverse, isBlank c := fun c within =>
      trailing c (List.mem_reverse.mp within)
    rw [trim, List.append_assoc, List.dropWhile_append_of_pos blank]
    cases core with
    | nil =>
        have none : after.dropWhile isBlank = [] := by
          rw [List.dropWhile_eq_nil_iff]
          exact fun c within => trailing c (List.mem_reverse.mpr within)
        rw [List.nil_append, none]
        rfl
    | cons c core =>
        rw [List.cons_append, List.dropWhile_cons_of_neg (starts c rfl), ← List.cons_append,
          List.reverse_append, List.dropWhile_append_of_pos trailing, dropWhile_of_head?,
          List.reverse_reverse]
        rwa [List.head?_reverse]

theorem trim_trim (cs : List Char) : trim (trim cs) = trim cs := by
  rw [trim_eq_iff]
  exact ⟨⟨[], [], by simp⟩, (trimmed_trim cs).starts, (trimmed_trim cs).ends⟩

theorem trim_padded {before after : List Char} (cs : List Char) (blank : ∀ c ∈ before, isBlank c)
    (trailing : ∀ c ∈ after, isBlank c) : trim (before ++ cs ++ after) = trim cs := by
  have inner := trimmed_trim cs
  obtain ⟨start, stop, leading, closing, parts⟩ := inner.around
  rw [trim_eq_iff]
  refine ⟨⟨before ++ start, stop ++ after, ?_, ?_, ?_⟩, inner.starts, inner.ends⟩
  · exact List.forall_mem_append.mpr ⟨blank, leading⟩
  · exact List.forall_mem_append.mpr ⟨closing, trailing⟩
  · conv_lhs => rw [parts]
    simp only [List.append_assoc]

theorem trim_map_lower (cs : List Char) : trim (cs.map lower) = (trim cs).map lower := by
  have same : isBlank ∘ lower = isBlank := funext isBlank_lower
  simp only [trim, List.dropWhile_map, same, ← List.map_reverse]

end Text

/-! ## Names of policies -/

namespace TeardownPolicy

/-- A name is a text without the blanks around it and with its capital letters made small. -/
def Norm (text name : String) : Prop :=
  ∃ core, Text.Trimmed text.toList core ∧ name = String.ofList (core.map Text.lower)

theorem normalize_eq_iff {text name : String} : normalize text = name ↔ Norm text name := by
  constructor
  · rintro rfl
    exact ⟨_, Text.trimmed_trim _, rfl⟩
  · rintro ⟨core, trimmed, rfl⟩
    rw [normalize, Text.trim_eq_iff.mpr trimmed]

theorem normalize_normalize (text : String) : normalize (normalize text) = normalize text := by
  simp only [normalize, String.toList_ofList, Text.trim_map_lower, Text.trim_trim, List.map_map]
  congr 2
  exact funext Text.lower_lower

/-- A text with blanks put around it and with some of its letters in the other case. -/
def Restyled (text other : String) : Prop :=
  ∃ before core after, (∀ c ∈ before, Text.isBlank c) ∧ (∀ c ∈ after, Text.isBlank c) ∧
    List.Forall₂ Text.SameLetter text.toList core ∧ other = String.ofList (before ++ core ++ after)

theorem Restyled.normalize {text other : String} (restyled : Restyled text other) :
    normalize other = normalize text := by
  obtain ⟨before, core, after, blank, trailing, same, rfl⟩ := restyled
  simp only [TeardownPolicy.normalize, String.toList_ofList, Text.trim_padded core blank trailing,
    ← Text.trim_map_lower, Text.map_lower_of_sameLetter same]

def spellings : TeardownPolicy → List String
  | collectAll => ["collect", "collect-all", "all"]
  | firstFailure => ["first", "first-failure"]

theorem parse_of_spelling {text : String} {policy : TeardownPolicy}
    (spelled : normalize text ∈ policy.spellings) : parse text = .ok policy := by
  cases policy <;> simp only [spellings, List.mem_cons, List.not_mem_nil, or_false] at spelled
  · rw [parse, if_pos spelled]
  · have other : ¬ (normalize text = "collect" ∨ normalize text = "collect-all" ∨
        normalize text = "all") := by
      obtain named | named := spelled <;> rw [named] <;> decide
    rw [parse, if_neg other, if_pos spelled]

theorem parse_of_unspelled {text : String}
    (unspelled : ∀ policy : TeardownPolicy, normalize text ∉ policy.spellings) :
    parse text = .error (.unknownPolicy (normalize text)) := by
  have collects := unspelled .collectAll
  have first := unspelled .firstFailure
  simp only [spellings, List.mem_cons, List.not_mem_nil, or_false] at collects first
  rw [parse, if_neg collects, if_neg first]

theorem parse_cases (text : String) :
    (∃ policy : TeardownPolicy, normalize text ∈ policy.spellings ∧ parse text = .ok policy) ∨
    ((∀ policy : TeardownPolicy, normalize text ∉ policy.spellings) ∧
      parse text = .error (.unknownPolicy (normalize text))) := by
  by_cases spelled : ∃ policy : TeardownPolicy, normalize text ∈ policy.spellings
  · obtain ⟨policy, spelled⟩ := spelled
    exact .inl ⟨policy, spelled, parse_of_spelling spelled⟩
  · have unspelled : ∀ policy : TeardownPolicy, normalize text ∉ policy.spellings :=
      fun policy among => spelled ⟨policy, among⟩
    exact .inr ⟨unspelled, parse_of_unspelled unspelled⟩

theorem parse_eq_ok_iff {text : String} {policy : TeardownPolicy} :
    parse text = .ok policy ↔ normalize text ∈ policy.spellings := by
  refine ⟨fun parsed => ?_, parse_of_spelling⟩
  obtain ⟨other, spelled, result⟩ | ⟨_, result⟩ := parse_cases text
  · rw [parsed, Except.ok.injEq] at result
    rwa [result]
  · rw [parsed] at result
    contradiction

theorem parse_eq_error_iff {text : String} {error : ConfigError} :
    parse text = .error error ↔
      (∀ policy : TeardownPolicy, normalize text ∉ policy.spellings) ∧
        error = .unknownPolicy (normalize text) := by
  constructor
  · intro failed
    obtain ⟨other, spelled, result⟩ | ⟨unspelled, result⟩ := parse_cases text
    · rw [failed] at result
      contradiction
    · rw [failed, Except.error.injEq] at result
      exact ⟨unspelled, result⟩
  · rintro ⟨unspelled, rfl⟩
    exact parse_of_unspelled unspelled

/-- A text is read by its norm alone: whether it names a policy, which one, and as what it is refused. -/
structure ReadByNorm (text : String) : Prop where
  norm : ∀ name, normalize text = name ↔ Norm text name
  idempotent : normalize (normalize text) = normalize text
  accepts : ∀ policy : TeardownPolicy, parse text = .ok policy ↔ normalize text ∈ policy.spellings
  refuses : ∀ error, parse text = .error error ↔
    (∀ policy : TeardownPolicy, normalize text ∉ policy.spellings) ∧
      error = .unknownPolicy (normalize text)
  restyled : ∀ other, Restyled text other → parse other = parse text
  again : ∀ unknown, parse text = .error (.unknownPolicy unknown) →
    parse unknown = .error (.unknownPolicy unknown)

theorem readByNorm (text : String) : ReadByNorm text where
  norm _ := normalize_eq_iff
  idempotent := normalize_normalize text
  accepts _ := parse_eq_ok_iff
  refuses _ := parse_eq_error_iff
  restyled other restyled := by rw [parse, parse, restyled.normalize]
  again unknown refused := by
    obtain ⟨unspelled, same⟩ := parse_eq_error_iff.mp refused
    obtain rfl := ConfigError.unknownPolicy.inj same
    rw [parse_eq_error_iff, normalize_normalize]
    exact ⟨unspelled, rfl⟩

end TeardownPolicy

/-! ## Reading the settings -/

/-- What the settings are, and which warnings are given, once the variable has been asked for. -/
inductive ScopeConfig.Settled : Option String → ScopeConfig → List Event → Prop
  | unset : Settled none {} []
  | chosen {text : String} {policy : TeardownPolicy} (known : TeardownPolicy.parse text = .ok policy) :
      Settled (some text) { policy } []
  | ignored {text : String} {error : ConfigError}
      (unknown : TeardownPolicy.parse text = .error error) :
      Settled (some text) {} [.policyIgnored (.config error)]

def ScopeConfig.announcement (config : ScopeConfig) (announced : Bool) : List Event :=
  if announced then [.configLoaded config.policy] else []

variable {σ ν : Type}

theorem World.configRead_settles (world : World σ ν) (announced : Bool) (raw : Option String) :
    ∃ config warnings, ScopeConfig.Settled raw config warnings ∧
      world.configRead announced raw =
        (world.emitAll (warnings ++ config.announcement announced)).answer (.config config) := by
  have announce (world : World σ ν) (config : ScopeConfig) :
      (if announced then world.emit (.configLoaded config.policy) else world) =
        world.emitAll (config.announcement announced) := by
    unfold ScopeConfig.announcement
    split <;> rfl
  cases raw with
  | none =>
      refine ⟨{}, [], .unset, ?_⟩
      simp only [configRead, ScopeConfig.read, announce, List.nil_append]
  | some text =>
      cases result : TeardownPolicy.parse text with
      | ok policy =>
          refine ⟨{ policy }, [], .chosen result, ?_⟩
          simp only [configRead, ScopeConfig.read, result, Except.map, announce, List.nil_append]
      | error error =>
          refine ⟨{}, [.policyIgnored (.config error)], .ignored result, ?_⟩
          simp only [configRead, ScopeConfig.read, result, Except.map, announce]
          rfl

theorem Thread.advance_above_first {world : World σ ν} {thread : Thread σ ν} {steps : Nat}
    (base : List (Frame σ ν))
    (unfinished : ∀ fewer < steps, (advance fewer world thread).2.exit? = none) :
    advance steps world (thread.above base) =
      ((advance steps world thread).1, (advance steps world thread).2.above base) := by
  cases steps with
  | zero => rfl
  | succ steps =>
      have running := unfinished steps (Nat.lt_succ_self _)
      rw [advance_add, advance_above base running, advance_one_above base running, ← advance_add]

open Thread

/-- The settings are read by running the code of one lookup, once: from the next step on the thread does
what that code does, and when it has come to its end, one more step gives the answer. -/
structure World.ReadsSettings (world : World σ ν) (start : Thread σ ν) (asked : Code σ ν)
    (announced : Bool) : Prop where
  asks : start.step world =
    some (world, Thread.above (.ofCode start.id asked) (.reading announced :: start.stack))
  once : ∀ steps,
    (∀ fewer < steps, (advance fewer world (.ofCode start.id asked)).2.exit? = none) →
    advance (steps + 1) world start =
      ((advance steps world (.ofCode start.id asked)).1,
        (advance steps world (.ofCode start.id asked)).2.above (.reading announced :: start.stack))
  settles : ∀ next reply, Ends start.id world (.code asked) (.returned reply) next →
    ∃ config warnings, ScopeConfig.Settled reply.text? config warnings ∧
      Thread.step next
          ⟨start.id, .task (.finish (.returned reply)), .reading announced :: start.stack⟩ =
        some (next.emitAll (warnings ++ config.announcement announced),
          ⟨start.id, .task (.finish (.returned (.config config))), start.stack⟩)
  panics : ∀ next payload, Ends start.id world (.code asked) (.panicked payload) next →
    Thread.step next
        ⟨start.id, .task (.finish (.panicked payload)), .reading announced :: start.stack⟩ =
      some (next, ⟨start.id, .task (.finish (.panicked payload)), start.stack⟩)

theorem World.readsSettings (world : World σ ν) (id : ThreadId) (stack : List (Frame σ ν))
    (lookup : String → Code σ ν) (announced : Bool) :
    world.ReadsSettings ⟨id, .task (.start (.loadConfig lookup announced)), stack⟩
      (lookup "RAKII_TEARDOWN_POLICY") announced := by
  have asks : Thread.step world ⟨id, .task (.start (.loadConfig lookup announced)), stack⟩ =
      some (world, Thread.above (.ofCode id (lookup "RAKII_TEARDOWN_POLICY"))
        (.reading announced :: stack)) := rfl
  constructor
  case asks => exact asks
  case once =>
    intro steps unfinished
    simp only [advance, asks]
    exact advance_above_first _ unfinished
  case settles =>
    intro next reply _
    obtain ⟨config, warnings, settled, answers⟩ := next.configRead_settles announced reply.text?
    refine ⟨config, warnings, settled, ?_⟩
    simp only [Thread.step, Frame.resume, answers]
    rfl
  case panics => exact fun _ _ _ => rfl

/-- Every text is read as a policy by its norm, every policy is read back from its name, and the
settings are what the one variable says, read in this way. -/
theorem ScopeConfig.policies_read (world : World σ ν) (id : ThreadId) (stack : List (Frame σ ν))
    (lookup : String → Code σ ν) (announced : Bool) :
    (∀ text, TeardownPolicy.ReadByNorm text) ∧
    (∀ policy : TeardownPolicy, TeardownPolicy.parse policy.name = .ok policy) ∧
    world.ReadsSettings ⟨id, .task (.start (.loadConfig lookup announced)), stack⟩
      (lookup "RAKII_TEARDOWN_POLICY") announced :=
  ⟨TeardownPolicy.readByNorm, TeardownPolicy.parse_name,
    world.readsSettings id stack lookup announced⟩

/-- The variable is set, but to the name of no policy. -/
theorem ScopeConfig.policies_read_sometimes :
    let lookup : String → Code Unit Unit := fun _ => .ret (.text " Sometimes")
    let world : World Unit Unit := { memory := () }
    let ignored : Event := .policyIgnored (.config (.unknownPolicy "sometimes"))
    TeardownPolicy.parse "sometimes" = .error (.unknownPolicy "sometimes") ∧
    advance 3 world ⟨0, .task (.start (.loadConfig lookup true)), []⟩ =
      (world.emitAll [ignored, .configLoaded .collectAll],
        ⟨0, .task (.finish (.returned (.config {}))), []⟩) := by
  intro lookup world ignored
  obtain ⟨texts, _, reads⟩ := policies_read world 0 [] lookup true
  have refused : TeardownPolicy.parse " Sometimes" = .error (.unknownPolicy "sometimes") := by
    have norm : TeardownPolicy.normalize " Sometimes" = "sometimes" := rfl
    rw [(texts " Sometimes").refuses, norm]
    refine ⟨fun policy => ?_, rfl⟩
    cases policy <;> decide
  refine ⟨(texts " Sometimes").again _ refused, ?_⟩
  have ended : Ends 0 world (.code (lookup "RAKII_TEARDOWN_POLICY"))
      (.returned (.text " Sometimes")) world := ⟨1, rfl⟩
  obtain ⟨config, warnings, settled, answers⟩ := reads.settles world _ ended
  cases settled with
  | chosen known =>
      rw [refused] at known
      contradiction
  | ignored unknown =>
      rw [refused, Except.error.injEq] at unknown
      subst unknown
      have asked : advance 2 world ⟨0, .task (.start (.loadConfig lookup true)), []⟩ =
          (world, ⟨0, .task (.finish (.returned (.text " Sometimes"))), [.reading true]⟩) :=
        reads.once 1 fun fewer first => by
          obtain rfl := Nat.lt_one_iff.mp first
          rfl
      rw [advance_add 2 1, asked]
      simp only [advance, answers]
      rfl

end Relinquish
