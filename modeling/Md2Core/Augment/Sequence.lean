import Md2Core.Augment.Failure
import Md2Core.Augment.Process

/-!
# The pass as a sequence of injections

The augmentation pass computes blobs between its injections. What it does to a
process is the injection of a list of blobs, one after the other, and behind them the
failure to compute a further blob, if there is one. A pass that fails leaves the
injections before its failure.
-/

namespace Md2Core

open Foundation

/-- Inject blobs one after the other. -/
def injectAll : List Injection → EStateM Fault CrashedProcess Unit
  | [] => return ()
  | injection :: rest => do
      onMappings (addDataToMapping injection.data injection.address defaultPageSize)
      injectAll rest

/-- Blobs to inject, and the failure to compute a further one. -/
structure Attempts where
  blobs : List Injection
  failure : Option Fault

/-- Inject the blobs, then fail if a further one could not be computed. -/
def Attempts.perform (attempts : Attempts) : EStateM Fault CrashedProcess Unit := do
  injectAll attempts.blobs
  match attempts.failure with
  | none => return ()
  | some failure => throw failure

/-- The link-map blob and the patched `_DYNAMIC` block, as far as they are
computed. -/
def dsoAttempts
    (architecture : Architecture)
    (dso : DsoDebug)
    (signatures : Signatures) : Attempts :=
  if dso.version ≠ 0 || !dso.linkMap.isEmpty || !dso.dynamicData.isEmpty then
    match buildLinkMapBlob architecture dso signatures with
    | .error failure => ⟨[], some failure⟩
    | .ok blob =>
        if !dso.dynamicData.isEmpty && dso.dynamic ≠ 0 then
          match patchDtDebug architecture dso.dynamicData linkMapAddr with
          | .error failure => ⟨[⟨blob, linkMapAddr⟩], some failure⟩
          | .ok dynData => ⟨[⟨blob, linkMapAddr⟩, ⟨dynData, dso.dynamic⟩], none⟩
        else
          ⟨[⟨blob, linkMapAddr⟩], none⟩
  else
    ⟨[], none⟩

/-- The blobs of the pass in their order: the stacks, then those of the dynamic
linker. -/
def CrashedProcess.attempts (process : CrashedProcess) : Attempts :=
  let dso := dsoAttempts process.architecture process.dsoDebug process.signatures
  ⟨process.stackCaptures ++ dso.blobs, dso.failure⟩

/-! ## The pass performs its attempts -/

theorem injectAll_append (first second : List Injection) :
    injectAll (first ++ second) = (do injectAll first; injectAll second) := by
  induction first with
  | nil => rfl
  | cons injection rest inductionHypothesis =>
      rw [List.cons_append, injectAll, injectAll, inductionHypothesis, bind_assoc]

theorem injectStacks_eq (threads : List ThreadSnapshot) :
    injectStacks (threads.map fun thread => (thread.stackAddress, thread.stack)) =
      injectAll ((threads.filter (!·.stack.isEmpty)).map fun thread =>
        ⟨thread.stack, thread.stackAddress⟩) := by
  induction threads with
  | nil => rfl
  | cons thread rest inductionHypothesis =>
      rw [List.map_cons, injectStacks, inductionHypothesis]
      cases empty : thread.stack.isEmpty with
      | true =>
          rw [List.filter_cons_of_neg (by simp [empty])]
          rfl
      | false =>
          rw [List.filter_cons_of_pos (by simp [empty])]
          rfl

theorem injectDsoDebug_eq
    (architecture : Architecture)
    (dso : DsoDebug)
    (signatures : Signatures) :
    injectDsoDebug architecture dso signatures =
      (dsoAttempts architecture dso signatures).perform := by
  unfold injectDsoDebug dsoAttempts
  split
  · cases buildLinkMapBlob architecture dso signatures with
    | error failure => rfl
    | ok blob =>
        split
        · cases patched : patchDtDebug architecture dso.dynamicData linkMapAddr with
          | error failure =>
              simp only [Attempts.perform, injectAll, bind_assoc, pure_bind]
              rfl
          | ok dynData =>
              simp only [Attempts.perform, injectAll, bind_assoc, bind_pure_unit]
              rfl
        · simp only [Attempts.perform, injectAll, bind_assoc, pure_bind]
          rfl
  · rfl

theorem onMappings_eq_error
    {change : EStateM Fault MappingTable Unit}
    {before after : CrashedProcess}
    {failure : Fault} :
    onMappings change before = .error failure after ↔
      ∃ mappings, change before.mappings = .error failure mappings ∧
        after = { before with mappings } := by
  unfold onMappings
  cases change before.mappings with
  | ok value mappings => simp
  | error reason mappings =>
      constructor
      · intro equal
        cases equal
        exact ⟨mappings, rfl, rfl⟩
      · rintro ⟨_, equal, rfl⟩
        cases equal
        rfl

/-- Injections that all succeed. -/
theorem injectAll_ok
    {injections : List Injection}
    {before after : CrashedProcess}
    (nonempty : ∀ injection ∈ injections, injection.data ≠ [])
    (succeeded : injectAll injections before = .ok () after) :
    Augments before injections after := by
  induction injections generalizing before with
  | nil =>
      obtain ⟨_, rfl⟩ := statePure_eq_ok.mp succeeded
      exact .refl before
  | cons injection rest inductionHypothesis =>
      obtain ⟨first, others⟩ := List.forall_mem_cons.mp nonempty
      obtain ⟨_, between, injected, continued⟩ := stateBind_eq_ok.mp succeeded
      exact (Augments.of_onMappings first injected).append
        (inductionHypothesis others continued)

/-- Injections fail at one of the blobs, after those before it were injected. -/
inductive StopsAt
    (before : CrashedProcess)
    (injections : List Injection)
    (failure : Fault)
    (left : CrashedProcess) : Prop
  | intro
      (front rest : List Injection)
      (capture : Injection)
      (between : CrashedProcess)
      (parts : injections = front ++ capture :: rest)
      (done : Augments before front between)
      (failed : addDataToMapping capture.data capture.address defaultPageSize
        between.mappings = .error failure left.mappings)
      (others : left = { between with mappings := left.mappings })

/-- Injections of which one fails. -/
theorem injectAll_error
    {injections : List Injection}
    {before left : CrashedProcess}
    {failure : Fault}
    (nonempty : ∀ injection ∈ injections, injection.data ≠ [])
    (failed : injectAll injections before = .error failure left) :
    StopsAt before injections failure left := by
  induction injections generalizing before with
  | nil => exact absurd failed (by simp [injectAll, pure, EStateM.pure])
  | cons injection rest inductionHypothesis =>
      obtain ⟨first, others⟩ := List.forall_mem_cons.mp nonempty
      rw [injectAll, stateBind_eq_error] at failed
      rcases failed with here | ⟨_, between, injected, later⟩
      · obtain ⟨mappings, stopped, rfl⟩ := onMappings_eq_error.mp here
        exact ⟨[], rest, injection, before, rfl, .refl before, stopped, rfl⟩
      · obtain ⟨front, behind, capture, middle, rfl, done, stopped, kept⟩ :=
          inductionHypothesis others later
        exact ⟨injection :: front, behind, capture, middle, rfl,
          (Augments.of_onMappings first injected).append done, stopped, kept⟩

/-- No blob of the pass is empty. -/
theorem CrashedProcess.blobs_ne_nil (process : CrashedProcess) :
    ∀ injection ∈ process.attempts.blobs, injection.data ≠ [] := by
  have stackBlobs : ∀ injection ∈ process.stackCaptures, injection.data ≠ [] := by
    intro injection member
    obtain ⟨thread, kept, rfl⟩ := List.mem_map.mp member
    simpa using (List.mem_filter.mp kept).2
  refine List.forall_mem_append.mpr ⟨stackBlobs, ?_⟩
  unfold dsoAttempts
  split
  · cases built : buildLinkMapBlob process.architecture process.dsoDebug
        process.signatures with
    | error failure => simp
    | ok blob =>
        have blobNonempty := buildLinkMapBlob_ne_nil built
        dsimp only
        split
        · next captured =>
          cases patched : patchDtDebug process.architecture
              process.dsoDebug.dynamicData linkMapAddr with
          | error failure => simpa using blobNonempty
          | ok dynData =>
              have dynNonempty : dynData ≠ [] := by
                rw [← List.length_pos_iff, length_patchDtDebugFrom patched,
                  List.length_pos_iff]
                intro empty
                simp [empty] at captured
              simpa using ⟨blobNonempty, dynNonempty⟩
        · simpa using blobNonempty
  · simp

/-- The pass injects its blobs one after the other and then fails if a further one
could not be computed. -/
theorem augmentProcess_eq (process : CrashedProcess) :
    augmentProcess process = process.attempts.perform process := by
  have parts : process.attempts.perform = (do
      injectAll process.stackCaptures
      (dsoAttempts process.architecture process.dsoDebug
        process.signatures).perform) := by
    rw [Attempts.perform, CrashedProcess.attempts, injectAll_append, bind_assoc]
    rfl
  have pass : augmentProcess process = (do
      injectAll process.stackCaptures
      let stacked ← get
      injectDsoDebug process.architecture stacked.dsoDebug stacked.signatures :
        EStateM Fault CrashedProcess Unit) process := by
    rw [CrashedProcess.stackCaptures, ← injectStacks_eq]
    rfl
  rw [parts, pass]
  have nonempty := fun injection member => process.blobs_ne_nil injection
    (List.mem_append_left _ member)
  simp only [bind, EStateM.bind]
  cases stacked : injectAll process.stackCaptures process with
  | error failure left => rfl
  | ok value between =>
      obtain ⟨mappings, _, rfl⟩ := injectAll_ok nonempty stacked
      dsimp only
      rw [← injectDsoDebug_eq]
      rfl

/-- A pass that fails has injected all blobs that could be computed, or stops at one of
them. -/
theorem augmentProcess_error
    {process left : CrashedProcess}
    {failure : Fault}
    (failed : augmentProcess process = .error failure left) :
    process.attempts.failure = some failure ∧
        Augments process process.attempts.blobs left ∨
      StopsAt process process.attempts.blobs failure left := by
  rw [augmentProcess_eq, Attempts.perform, stateBind_eq_error] at failed
  rcases failed with stopped | ⟨_, between, injected, thrown⟩
  · exact .inr (injectAll_error process.blobs_ne_nil stopped)
  · left
    have augments := injectAll_ok process.blobs_ne_nil injected
    cases uncomputed : process.attempts.failure with
    | none =>
        rw [uncomputed] at thrown
        exact absurd thrown (by simp [pure, EStateM.pure])
    | some cause =>
        rw [uncomputed] at thrown
        cases thrown
        exact ⟨rfl, augments⟩

/-- A pass that fails leaves exactly the injections before its failure: the blobs in
front of the one that fails, the table as the failing injection leaves it, and nothing
else of the process changed. -/
theorem augmentProcess_stops
    (process left : CrashedProcess)
    (failure : Fault)
    (failed : augmentProcess process = .error failure left) :
    ∃ front rest between,
      process.attempts.blobs = front ++ rest ∧
      Augments process front between ∧
      left = { between with mappings := left.mappings } ∧
      match rest with
      | [] => process.attempts.failure = some failure ∧ left = between
      | capture :: _ => InjectionFailed between.mappings capture.data
          capture.address defaultPageSize failure left.mappings := by
  rcases augmentProcess_error failed with ⟨uncomputed, augments⟩ | stops
  · obtain ⟨mappings, runs, rfl⟩ := augments
    exact ⟨process.attempts.blobs, [], _, (List.append_nil _).symm,
      ⟨mappings, runs, rfl⟩, rfl, uncomputed, rfl⟩
  · obtain ⟨front, rest, capture, between, parts, done, stopped, kept⟩ := stops
    exact ⟨front, capture :: rest, between, parts, done, kept,
      addDataToMapping_error stopped⟩

/-- A process whose second stack lies in a part of a file that has no offset. -/
def sampleStopping : CrashedProcess :=
  { CrashedProcess.new .x86_64 with
    mappings := .single sampleUnshiftable
    threads := [⟨7, 0x8010, [1, 2, 3], none⟩, ⟨8, 0x2010, [4], none⟩] }

/-- Something of the two stacks is left behind. -/
theorem augmentProcess_stops_sample :
    ∃ failure left front rest between,
      augmentProcess sampleStopping = .error failure left ∧
      [⟨[1, 2, 3], 0x8010⟩, ⟨[4], 0x2010⟩] = front ++ rest ∧
      Augments sampleStopping front between ∧
      left = { between with mappings := left.mappings } := by
  obtain ⟨failure, left, failed, _⟩ : ∃ failure left,
      augmentProcess sampleStopping = .error failure left ∧ true = true :=
    @exists_error_of_check _ _ _ _ _ (fun _ _ => true) (by decide +kernel)
  obtain ⟨front, rest, between, parts, done, kept, _⟩ :=
    augmentProcess_stops sampleStopping left failure failed
  exact ⟨failure, left, front, rest, between, failed, parts, done, kept⟩

end Md2Core
