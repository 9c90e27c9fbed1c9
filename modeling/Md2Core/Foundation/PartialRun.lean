import Mathlib.Data.List.Basic

/-!
# Runs of a partial step

A run pairs every input with the state it leads to. A condition that decides
for one step whether a property survives decides for a run whether the property
ever fails. What a step does to an observation of the state, a run does as a
fold over its inputs.
-/

namespace Foundation

variable {State Input : Type*}

/-- Consecutive successful steps from a state, each with the state after it. -/
def IsRun (step : State → Input → State → Prop) :
    State → List (Input × State) → Prop
  | _, [] => True
  | state, (input, next) :: rest =>
      step state input next ∧ IsRun step next rest

/-- Every step of a run meets a condition on its input and the state before. -/
def AllSteps (allowed : State → Input → Prop) :
    State → List (Input × State) → Prop
  | _, [] => True
  | state, (input, next) :: rest =>
      allowed state input ∧ AllSteps allowed next rest

/-- When a condition decides whether one step keeps a property, all states of a
run have the property exactly when all its steps meet the condition. -/
theorem IsRun.forall_iff_allSteps
    {step : State → Input → State → Prop}
    {property : State → Prop}
    {allowed : State → Input → Prop}
    (decides : ∀ state input next,
      property state → step state input next →
        (property next ↔ allowed state input))
    {state : State}
    {run : List (Input × State)}
    (holds : property state)
    (isRun : IsRun step state run) :
    (∀ entry ∈ run, property entry.2) ↔ AllSteps allowed state run := by
  induction run generalizing state with
  | nil => simp [AllSteps]
  | cons entry rest inductionHypothesis =>
      obtain ⟨input, next⟩ := entry
      obtain ⟨first, others⟩ := isRun
      have decided : property next ↔ allowed state input :=
        decides state input next holds first
      simp only [List.forall_mem_cons, AllSteps, decided]
      constructor
      · rintro ⟨met, remaining⟩
        exact ⟨met,
          (inductionHypothesis (decided.mpr met) others).mp remaining⟩
      · rintro ⟨met, remaining⟩
        exact ⟨met,
          (inductionHypothesis (decided.mpr met) others).mpr remaining⟩

/-! ## Runs between two states -/

/-- The inputs lead from the first state to the second. -/
def RunsTo (step : State → Input → State → Prop) :
    State → List Input → State → Prop
  | state, [], last => state = last
  | state, input :: rest, last =>
      ∃ next, step state input next ∧ RunsTo step next rest last

theorem RunsTo.single
    {step : State → Input → State → Prop}
    {state next : State}
    {input : Input}
    (once : step state input next) :
    RunsTo step state [input] next :=
  ⟨next, once, rfl⟩

theorem RunsTo.append
    {step : State → Input → State → Prop}
    {state between last : State}
    {front back : List Input}
    (first : RunsTo step state front between)
    (second : RunsTo step between back last) :
    RunsTo step state (front ++ back) last := by
  induction front generalizing state with
  | nil =>
      obtain rfl : state = between := first
      exact second
  | cons input rest inductionHypothesis =>
      obtain ⟨next, once, others⟩ := first
      exact ⟨next, once, inductionHypothesis others⟩

/-- Every input of a run was taken by a step. -/
theorem RunsTo.exists_step
    {step : State → Input → State → Prop}
    {state last : State}
    {inputs : List Input}
    (runs : RunsTo step state inputs last) :
    ∀ input ∈ inputs, ∃ before after, step before input after := by
  induction inputs generalizing state with
  | nil => exact fun _ member => absurd member List.not_mem_nil
  | cons input rest inductionHypothesis =>
      obtain ⟨next, once, others⟩ := runs
      exact List.forall_mem_cons.mpr
        ⟨⟨state, next, once⟩, inductionHypothesis others⟩

/-- What every step preserves, a run preserves. -/
theorem RunsTo.preserves
    {step : State → Input → State → Prop}
    {property : State → Prop}
    (kept : ∀ state input next, property state → step state input next →
      property next)
    {state last : State}
    {inputs : List Input}
    (holds : property state)
    (runs : RunsTo step state inputs last) :
    property last := by
  induction inputs generalizing state with
  | nil =>
      obtain rfl : state = last := runs
      exact holds
  | cons input rest inductionHypothesis =>
      obtain ⟨next, once, others⟩ := runs
      exact inductionHypothesis (kept state input next holds once) others

/-- When every step acts on an observation of the state as an operation does, a
run acts on it as the fold of the operation. -/
theorem RunsTo.observe_eq_foldl
    {Observation : Type*}
    {step : State → Input → State → Prop}
    {observe : State → Observation}
    {operation : Observation → Input → Observation}
    (acts : ∀ state input next, step state input next →
      observe next = operation (observe state) input)
    {state last : State}
    {inputs : List Input}
    (runs : RunsTo step state inputs last) :
    observe last = inputs.foldl operation (observe state) := by
  induction inputs generalizing state with
  | nil =>
      obtain rfl : state = last := runs
      rfl
  | cons input rest inductionHypothesis =>
      obtain ⟨next, once, others⟩ := runs
      rw [List.foldl_cons, ← acts state input next once,
        inductionHypothesis others]

end Foundation
