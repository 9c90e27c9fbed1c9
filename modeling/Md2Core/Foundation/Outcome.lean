import Mathlib.Logic.Basic

/-!
# Inverting successful computations

A computation that may fail is a value of `Except`; one that may fail and
mutates a state is a value of `EStateM`, whose failures keep the state reached.
A successful bind splits into two successful computations. These equivalences
take a monadic function apart one statement at a time.
-/

namespace Foundation

/-- A successful bind consists of two successes. -/
theorem bind_eq_ok
    {first : Except ε α}
    {next : α → Except ε β}
    {result : β} :
    (first >>= next) = .ok result ↔
      ∃ value, first = .ok value ∧ next value = .ok result := by
  cases first with
  | error failure => simp [bind, Except.bind]
  | ok value => simp [bind, Except.bind]

theorem pure_eq_ok {value result : α} :
    (pure value : Except ε α) = .ok result ↔ value = result := by
  simp [pure, Except.pure]

theorem map_eq_ok
    {change : α → β}
    {computation : Except ε α}
    {result : β} :
    computation.map change = .ok result ↔
      ∃ value, computation = .ok value ∧ change value = result := by
  cases computation <;> simp [Except.map]

theorem throw_ne_ok (failure : ε) (result : α) :
    (throw failure : Except ε α) ≠ .ok result := by
  simp [throw, throwThe, MonadExceptOf.throw]

/-- `Option::ok_or`: an absent value becomes the given failure. -/
def okOr (value : Option α) (failure : ε) : Except ε α :=
  match value with
  | some present => .ok present
  | none => .error failure

theorem okOr_eq_ok {value : Option α} {failure : ε} {result : α} :
    okOr value failure = .ok result ↔ value = some result := by
  cases value <;> simp [okOr]

theorem okOr_eq_error {value : Option α} {failure reason : ε} :
    okOr value failure = .error reason ↔ value = none ∧ failure = reason := by
  cases value <;> simp [okOr]

/-- A failing bind fails in its first part, or in what follows a success. -/
theorem bind_eq_error
    {first : Except ε α}
    {next : α → Except ε β}
    {failure : ε} :
    (first >>= next) = .error failure ↔
      first = .error failure ∨
        ∃ value, first = .ok value ∧ next value = .error failure := by
  cases first with
  | error reason => simp [bind, Except.bind]
  | ok value => simp [bind, Except.bind]

theorem pure_ne_error (value : α) (failure : ε) :
    (pure value : Except ε α) ≠ .error failure := by
  simp [pure, Except.pure]

theorem throw_eq_error {failure reason : ε} :
    (throw failure : Except ε α) = .error reason ↔ failure = reason := by
  simp [throw, throwThe, MonadExceptOf.throw]

/-- What follows a computation matters only where the computation succeeds. -/
theorem bind_congr_ok
    {first : Except ε α}
    {next other : α → Except ε β}
    (same : ∀ value, first = .ok value → next value = other value) :
    (first >>= next) = (first >>= other) := by
  cases first with
  | error failure => rfl
  | ok value => exact same value rfl

/-- A traversal depends on its step at the members only. -/
theorem mapM_congr
    {items : List α}
    {step other : α → Except ε β}
    (same : ∀ item ∈ items, step item = other item) :
    items.mapM step = items.mapM other := by
  induction items with
  | nil => rfl
  | cons item rest inductionHypothesis =>
      obtain ⟨first, others⟩ := List.forall_mem_cons.mp same
      rw [List.mapM_cons, List.mapM_cons, first, inductionHypothesis others]

@[simp] theorem ok_bind (value : α) (next : α → Except ε β) :
    (Except.ok value >>= next) = next value := rfl

/-- What is observed of every result of a traversal is observed of all. -/
theorem map_of_mapM_eq_ok
    {γ : Type*}
    {items : List α}
    {step : α → Except ε β}
    {results : List β}
    {observe : β → γ}
    {expected : α → γ}
    (each : ∀ item ∈ items, ∀ result,
      step item = .ok result → observe result = expected item)
    (ran : items.mapM step = .ok results) :
    results.map observe = items.map expected := by
  induction items generalizing results with
  | nil =>
      rw [List.mapM_nil] at ran
      rw [← pure_eq_ok.mp ran]
      rfl
  | cons item rest inductionHypothesis =>
      obtain ⟨first, others⟩ := List.forall_mem_cons.mp each
      simp only [List.mapM_cons, bind_eq_ok, pure_eq_ok] at ran
      obtain ⟨result, stepOk, remaining, restOk, rfl⟩ := ran
      rw [List.map_cons, List.map_cons, first result stepOk,
        inductionHypothesis others restOk]

/-- A bind has a result when its first part has one and so does what follows. -/
theorem exists_bind_eq_ok
    {first : Except ε α}
    {next : α → Except ε β}
    {value : α}
    (firstOk : first = .ok value)
    (nextOk : ∃ result, next value = .ok result) :
    ∃ result, (first >>= next) = .ok result := by
  obtain ⟨result, rest⟩ := nextOk
  exact ⟨result, bind_eq_ok.mpr ⟨value, firstOk, rest⟩⟩

/-- A computation that is known not to fail has a result. -/
theorem exists_ok_of_isOk
    {computation : Except ε α}
    (succeeds : computation.isOk = true) :
    ∃ result, computation = .ok result := by
  cases computation with
  | error failure => simp [Except.isOk, Except.toBool] at succeeds
  | ok result => exact ⟨result, rfl⟩

/-! ## Computations that may find nothing -/

/-- An optional value as a computation that does not fail. -/
def present (value : Option α) : OptionT (Except ε) α :=
  OptionT.mk (.ok value)

theorem present_eq_some {value : Option α} {result : α} :
    (present value : OptionT (Except ε) α).run = .ok (some result) ↔
      value = some result := by
  simp [present, OptionT.run, OptionT.mk]

/-- A bind finds a value when its two parts do. -/
theorem attemptBind_eq_some
    {first : OptionT (Except ε) α}
    {next : α → OptionT (Except ε) β}
    {result : β} :
    (first >>= next).run = .ok (some result) ↔
      ∃ value, first.run = .ok (some value) ∧
        (next value).run = .ok (some result) := by
  rw [OptionT.run_bind, Option.elimM, bind_eq_ok]
  constructor
  · rintro ⟨value | value, found, continued⟩
    · exact absurd (Except.ok.inj continued) (Option.some_ne_none _).symm
    · exact ⟨value, found, continued⟩
  · rintro ⟨value, found, continued⟩
    exact ⟨some value, found, continued⟩

theorem attemptPure_eq_some {value result : α} :
    (pure value : OptionT (Except ε) α).run = .ok (some result) ↔
      value = result := by
  simp [OptionT.run_pure, pure_eq_ok]

theorem attemptMap_eq_some
    {change : α → β}
    {computation : OptionT (Except ε) α}
    {result : β} :
    (change <$> computation).run = .ok (some result) ↔
      ∃ value, computation.run = .ok (some value) ∧ change value = result := by
  rw [← bind_pure_comp, attemptBind_eq_some]
  simp only [attemptPure_eq_some]

/-- A computation that cannot come out empty. -/
theorem attemptLift_eq_some {computation : Except ε α} {result : α} :
    (liftM computation : OptionT (Except ε) α).run = .ok (some result) ↔
      computation = .ok result := by
  cases computation with
  | error failure => exact ⟨nofun, nofun⟩
  | ok value =>
      change (Except.ok (some value) : Except ε (Option α)) = _ ↔ _
      simp

theorem attemptGuard_eq_some
    {condition : Prop}
    [Decidable condition]
    {result : Unit} :
    (guard condition : OptionT (Except ε) Unit).run = .ok (some result) ↔
      condition := by
  unfold guard
  split
  · next holds => exact ⟨fun _ => holds, fun _ => rfl⟩
  · next fails =>
    change (Except.ok none : Except ε (Option Unit)) = _ ↔ _
    simp [fails]

/-- A computation that finds a value or nothing, and does not fail. -/
def Returns (computation : OptionT (Except ε) α) : Prop :=
  ∃ found, computation.run = .ok found

/-- A bind returns when its first part does and what follows a value does. -/
theorem returns_bind_iff
    {first : OptionT (Except ε) α}
    {next : α → OptionT (Except ε) β} :
    Returns (first >>= next) ↔
      Returns first ∧
        ∀ value, first.run = .ok (some value) → Returns (next value) := by
  unfold Returns
  rw [OptionT.run_bind, Option.elimM]
  cases run : first.run with
  | error failure => exact ⟨nofun, nofun⟩
  | ok found =>
      cases found with
      | none =>
          simp only [bind_eq_ok, Except.ok.injEq, exists_eq_left',
            exists_eq', reduceCtorEq, false_implies, implies_true, and_true]
          exact ⟨fun _ => trivial, fun _ => ⟨none, rfl⟩⟩
      | some value =>
          simp only [bind_eq_ok, Except.ok.injEq, exists_eq_left',
            exists_eq', Option.some.injEq, forall_eq', true_and]
          rfl

theorem returns_present (value : Option α) :
    Returns (present value : OptionT (Except ε) α) :=
  ⟨value, rfl⟩

theorem returns_pure (value : α) :
    Returns (pure value : OptionT (Except ε) α) :=
  ⟨some value, rfl⟩

theorem returns_guard (condition : Prop) [Decidable condition] :
    Returns (guard condition : OptionT (Except ε) Unit) := by
  unfold guard
  split
  · exact ⟨some (), rfl⟩
  · exact ⟨none, rfl⟩

theorem returns_map_iff
    {change : α → β}
    {computation : OptionT (Except ε) α} :
    Returns (change <$> computation) ↔ Returns computation := by
  rw [← bind_pure_comp, returns_bind_iff]
  exact and_iff_left fun value _ => returns_pure (change value)

theorem returns_lift_iff {computation : Except ε α} :
    Returns (liftM computation : OptionT (Except ε) α) ↔
      ∃ value, computation = .ok value := by
  cases computation with
  | error failure => exact ⟨nofun, nofun⟩
  | ok value => exact ⟨fun _ => ⟨value, rfl⟩, fun _ => ⟨some value, rfl⟩⟩

/-- Evaluating a computation shows that it finds a value. -/
theorem exists_some_of_finds
    {computation : OptionT (Except ε) α}
    (finds : (match computation.run with
      | .ok found => found.isSome
      | .error _ => false) = true) :
    ∃ result, computation.run = .ok (some result) := by
  cases run : computation.run with
  | error failure =>
      rw [run] at finds
      contradiction
  | ok found =>
      rw [run] at finds
      obtain ⟨result, rfl⟩ := Option.isSome_iff_exists.mp finds
      exact ⟨result, rfl⟩

/-! ## Properties of results -/

section Results

variable {σ : Type*}

/-- A property of the result, if there is one, is decided by computing it. -/
instance decidableForallOk
    {property : α → Prop}
    [DecidablePred property]
    (computation : Except ε α) :
    Decidable (∀ value, computation = .ok value → property value) :=
  match computation with
  | .ok value => decidable_of_iff (property value) (by simp)
  | .error _ => isTrue (by simp)

/-- A property of the state that is reached is decided by computing it. -/
instance decidableForallReached
    {property : σ → Prop}
    [DecidablePred property]
    (outcome : EStateM.Result ε σ PUnit) :
    Decidable (∀ state, outcome = .ok ⟨⟩ state → property state) :=
  match outcome with
  | .ok ⟨⟩ state => decidable_of_iff (property state) (by simp)
  | .error _ _ => isTrue (by simp)

end Results

/-! ## Which failures are possible -/

/-- Every failure of a computation is of an allowed kind. -/
def FailsOnly (allowed : ε → Prop) (computation : Except ε α) : Prop :=
  ∀ failure, computation = .error failure → allowed failure

section FailsOnly

variable {allowed : ε → Prop}

theorem failsOnly_of_ok
    {computation : Except ε α}
    {value : α}
    (succeeds : computation = .ok value) :
    FailsOnly allowed computation := by
  intro failure failed
  rw [succeeds] at failed
  contradiction

theorem failsOnly_pure (value : α) :
    FailsOnly allowed (pure value : Except ε α) :=
  failsOnly_of_ok rfl

theorem failsOnly_throw
    {failure : ε}
    (fine : allowed failure) :
    FailsOnly allowed (throw failure : Except ε α) := by
  intro reason failed
  exact throw_eq_error.mp failed ▸ fine

theorem failsOnly_okOr
    (value : Option α)
    {failure : ε}
    (fine : allowed failure) :
    FailsOnly allowed (okOr value failure) := by
  intro reason failed
  exact (okOr_eq_error.mp failed).2 ▸ fine

theorem FailsOnly.bind
    {first : Except ε α}
    {next : α → Except ε β}
    (firstOnly : FailsOnly allowed first)
    (nextOnly : ∀ value, first = .ok value → FailsOnly allowed (next value)) :
    FailsOnly allowed (first >>= next) := by
  intro failure failed
  rcases bind_eq_error.mp failed with firstFailed | ⟨value, found, nextFailed⟩
  · exact firstOnly failure firstFailed
  · exact nextOnly value found failure nextFailed

/-- A traversal fails only as its steps do. -/
theorem FailsOnly.mapM
    {items : List α}
    {step : α → Except ε β}
    (each : ∀ item ∈ items, FailsOnly allowed (step item)) :
    FailsOnly allowed (items.mapM step) := by
  induction items with
  | nil => exact failsOnly_pure []
  | cons item rest inductionHypothesis =>
      obtain ⟨first, others⟩ := List.forall_mem_cons.mp each
      rw [List.mapM_cons]
      exact first.bind fun _ _ =>
        (inductionHypothesis others).bind fun _ _ => failsOnly_pure _

end FailsOnly

/-! ## Computations with a state -/

/-- Run a stateless computation inside a stateful one. -/
def liftState (computation : Except ε α) : EStateM ε σ α := fun state =>
  match computation with
  | .ok result => .ok result state
  | .error failure => .error failure state

instance monadLiftExcept : MonadLift (Except ε) (EStateM ε σ) := ⟨liftState⟩

theorem stateBind_eq_ok
    {first : EStateM ε σ α}
    {next : α → EStateM ε σ β}
    {before after : σ}
    {result : β} :
    (first >>= next) before = .ok result after ↔
      ∃ value between, first before = .ok value between ∧
        next value between = .ok result after := by
  simp only [bind, EStateM.bind]
  cases first before with
  | error failure between => simp
  | ok value between =>
      constructor
      · intro continued
        exact ⟨value, between, rfl, continued⟩
      · rintro ⟨_, _, equal, continued⟩
        cases equal
        exact continued

theorem stateBind_eq_error
    {first : EStateM ε σ α}
    {next : α → EStateM ε σ β}
    {before after : σ}
    {failure : ε} :
    (first >>= next) before = .error failure after ↔
      first before = .error failure after ∨
        ∃ value between, first before = .ok value between ∧
          next value between = .error failure after := by
  simp only [bind, EStateM.bind]
  cases first before with
  | error reason between => simp
  | ok value between =>
      constructor
      · intro continued
        exact Or.inr ⟨value, between, rfl, continued⟩
      · rintro (impossible | ⟨_, _, equal, continued⟩)
        · cases impossible
        · cases equal
          exact continued

theorem statePure_eq_ok {value result : α} {before after : σ} :
    (pure value : EStateM ε σ α) before = .ok result after ↔
      value = result ∧ before = after := by
  simp [pure, EStateM.pure]

theorem liftState_eq_ok
    {computation : Except ε α}
    {before after : σ}
    {result : α} :
    (liftM computation : EStateM ε σ α) before = .ok result after ↔
      computation = .ok result ∧ before = after := by
  change liftState computation before = _ ↔ _
  cases computation <;> simp [liftState]

theorem liftState_eq_error
    {computation : Except ε α}
    {before after : σ}
    {failure : ε} :
    (liftM computation : EStateM ε σ α) before = .error failure after ↔
      computation = .error failure ∧ before = after := by
  change liftState computation before = _ ↔ _
  cases computation <;> simp [liftState]

theorem modify_ne_error
    {change : σ → σ}
    {before after : σ}
    {failure : ε} :
    (modify change : EStateM ε σ PUnit) before ≠ .error failure after := by
  rw [show (modify change : EStateM ε σ PUnit) before =
    .ok PUnit.unit (change before) from rfl]
  simp

theorem modify_eq_ok {change : σ → σ} {before after : σ} {result : PUnit} :
    (modify change : EStateM ε σ PUnit) before = .ok result after ↔
      change before = after := by
  rw [show (modify change : EStateM ε σ PUnit) before =
    .ok PUnit.unit (change before) from rfl]
  simp

/-- Evaluating a state-passing computation and a check of the state it leaves
shows that it succeeds. -/
theorem exists_ok_of_check
    {computation : EStateM ε σ α}
    {initial : σ}
    {check : σ → Bool}
    (checked : (match computation initial with
      | .ok _ state => check state
      | .error _ _ => false) = true) :
    ∃ value state, computation initial = .ok value state ∧
      check state = true := by
  cases run : computation initial with
  | error failure state =>
      rw [run] at checked
      contradiction
  | ok value state =>
      rw [run] at checked
      exact ⟨value, state, rfl, checked⟩

/-- Evaluating a state-passing computation and a check of the failure and the
state it leaves shows that it fails. -/
theorem exists_error_of_check
    {computation : EStateM ε σ α}
    {initial : σ}
    {check : ε → σ → Bool}
    (checked : (match computation initial with
      | .ok _ _ => false
      | .error failure state => check failure state) = true) :
    ∃ failure state, computation initial = .error failure state ∧
      check failure state = true := by
  cases run : computation initial with
  | error failure state =>
      rw [run] at checked
      exact ⟨failure, state, rfl, checked⟩
  | ok value state =>
      rw [run] at checked
      contradiction

/-- Evaluating a state-passing computation shows that it succeeds. -/
theorem exists_ok_of_succeeds
    {computation : EStateM ε σ α}
    {initial : σ}
    (succeeds : (match computation initial with
      | .ok _ _ => true
      | .error _ _ => false) = true) :
    ∃ value state, computation initial = .ok value state := by
  cases run : computation initial with
  | error failure state =>
      rw [run] at succeeds
      contradiction
  | ok value state => exact ⟨value, state, rfl⟩

theorem get_ne_error {before after : σ} {failure : ε} :
    (get : EStateM ε σ σ) before ≠ .error failure after := by
  rw [show (get : EStateM ε σ σ) before = .ok before before from rfl]
  simp

theorem get_eq_ok {before after : σ} {result : σ} :
    (get : EStateM ε σ σ) before = .ok result after ↔
      before = result ∧ before = after := by
  rw [show (get : EStateM ε σ σ) before = .ok before before from rfl]
  simp

end Foundation
