import Md2Core.Augment.Captures
import Md2Core.Augment.LinkMap

/-!
# The augmentation pass

`augmentProcess` injects the stacks of all threads, then the link-map blob, then
the `_DYNAMIC` block with its `DT_DEBUG` entry patched. A successful pass is a
run of injections of these captures, in this order, and changes nothing but the
mappings.
-/

namespace Md2Core

open Foundation

/-! ## Patching `DT_DEBUG` -/

def dtNull : UInt64 := 0

def dtDebug : UInt64 := 21

/-- The tag and the value of a dynamic-section entry. -/
def readWordPair (architecture : Architecture) (bytes : List UInt8) :
    UInt64 × UInt64 :=
  if architecture.is64bit then
    (UInt64.ofNat (leNat (slice bytes 0 8)), UInt64.ofNat (leNat (slice bytes 8 8)))
  else
    (UInt64.ofNat (leNat (slice bytes 0 4)), UInt64.ofNat (leNat (slice bytes 4 4)))

/-- The bytes written into a value slot of the dynamic section. -/
def writeWord (architecture : Architecture) (value : UInt64) :
    Result (List UInt8) :=
  if architecture.is64bit then
    return leBytes 8 value.toNat
  else do
    let value ← okOr (u32TryFrom value.toNat)
      (integerOverflow "32-bit dynamic word")
    return leBytes 4 value.toNat

/-- The scan for the first `DT_DEBUG` entry, from an offset on. Every entry is
at least one byte long, so the length of the data is enough fuel. -/
def patchDtDebugFrom
    (architecture : Architecture)
    (linkMapAddress : UInt64) :
    Nat → Nat → List UInt8 → Result (List UInt8)
  | 0, _, dynamicData => return dynamicData
  | fuel + 1, offset, dynamicData => do
      let entry := if architecture.is64bit then 16 else 8
      if offset + entry ≤ dynamicData.length then
        let (tag, _) := readWordPair architecture (slice dynamicData offset entry)
        if tag = dtDebug then
          let valueOff := offset + entry / 2
          let word ← writeWord architecture linkMapAddress
          return splice dynamicData valueOff word
        else if tag = dtNull then
          return dynamicData
        else
          patchDtDebugFrom architecture linkMapAddress fuel (offset + entry)
            dynamicData
      else
        return dynamicData

/-- Patch the first `DT_DEBUG` entry so that its pointer is the given address. -/
def patchDtDebug
    (architecture : Architecture)
    (dynamicData : List UInt8)
    (linkMapAddress : UInt64) : Result (List UInt8) :=
  patchDtDebugFrom architecture linkMapAddress dynamicData.length 0 dynamicData

/-! ## The pass -/

/-- Mutate the mappings of a process. -/
def onMappings (change : EStateM Fault MappingTable Unit) :
    EStateM Fault CrashedProcess Unit := fun process =>
  match change process.mappings with
  | .ok value mappings => .ok value { process with mappings }
  | .error failure mappings => .error failure { process with mappings }

/-- Inject the stacks that are not empty. -/
def injectStacks :
    List (UInt64 × List UInt8) → EStateM Fault CrashedProcess Unit
  | [] => return ()
  | (addr, stack) :: rest => do
      if !stack.isEmpty then
        onMappings (addDataToMapping stack addr defaultPageSize)
      injectStacks rest

/-- Inject the rebuilt link map and the patched `_DYNAMIC` data, if there is any
dynamic-linker data. -/
def injectDsoDebug
    (architecture : Architecture)
    (dso : DsoDebug)
    (signatures : Signatures) : EStateM Fault CrashedProcess Unit := do
  if dso.version ≠ 0 || !dso.linkMap.isEmpty || !dso.dynamicData.isEmpty then
    let blob ← liftM (buildLinkMapBlob architecture dso signatures)
    onMappings (addDataToMapping blob linkMapAddr defaultPageSize)
    if !dso.dynamicData.isEmpty && dso.dynamic ≠ 0 then
      let dynData ← liftM
        (patchDtDebug architecture dso.dynamicData linkMapAddr)
      onMappings (addDataToMapping dynData dso.dynamic defaultPageSize)

/-- Inject thread stacks, the rebuilt link map and the patched `_DYNAMIC` data
into the mapping table. -/
def augmentProcess : EStateM Fault CrashedProcess Unit := do
  let process ← get
  let architecture := process.architecture
  injectStacks (process.threads.map fun thread =>
    (thread.stackAddress, thread.stack))
  let process ← get
  injectDsoDebug architecture process.dsoDebug process.signatures

/-! ## What the pass captures -/

/-- The link-map blob when there is any dynamic-linker data, then the patched
`_DYNAMIC` block when it was captured at a known address. -/
def dsoCaptures
    (architecture : Architecture)
    (dso : DsoDebug)
    (signatures : Signatures) : Result (List Injection) :=
  if dso.version ≠ 0 || !dso.linkMap.isEmpty || !dso.dynamicData.isEmpty then do
    let blob ← buildLinkMapBlob architecture dso signatures
    if !dso.dynamicData.isEmpty && dso.dynamic ≠ 0 then
      let dynData ← patchDtDebug architecture dso.dynamicData linkMapAddr
      return [⟨blob, linkMapAddr⟩, ⟨dynData, dso.dynamic⟩]
    else
      return [⟨blob, linkMapAddr⟩]
  else
    return []

namespace CrashedProcess

/-- The nonempty stacks, in thread order. -/
def stackCaptures (process : CrashedProcess) : List Injection :=
  (process.threads.filter (!·.stack.isEmpty)).map fun thread =>
    ⟨thread.stack, thread.stackAddress⟩

/-- Every byte blob that the pass injects, with its address. -/
def captures (process : CrashedProcess) : Result (List Injection) := do
  let dso ← dsoCaptures process.architecture process.dsoDebug process.signatures
  return process.stackCaptures ++ dso

end CrashedProcess

/-- Two processes differ only in their mappings, by a run of injections. -/
def Augments
    (before : CrashedProcess)
    (injections : List Injection)
    (after : CrashedProcess) : Prop :=
  ∃ mappings, RunsTo InjectionStep before.mappings injections mappings ∧
    after = { before with mappings }

theorem Augments.refl (process : CrashedProcess) : Augments process [] process :=
  ⟨process.mappings, rfl, rfl⟩

theorem Augments.append
    {before between after : CrashedProcess}
    {front back : List Injection}
    (first : Augments before front between)
    (second : Augments between back after) :
    Augments before (front ++ back) after := by
  obtain ⟨_, firstRun, rfl⟩ := first
  obtain ⟨mappings, secondRun, rfl⟩ := second
  exact ⟨mappings, firstRun.append secondRun, rfl⟩

theorem onMappings_eq_ok
    {change : EStateM Fault MappingTable Unit}
    {before after : CrashedProcess} :
    onMappings change before = .ok () after ↔
      ∃ mappings, change before.mappings = .ok () mappings ∧
        after = { before with mappings } := by
  unfold onMappings
  cases change before.mappings with
  | error failure mappings => simp
  | ok value mappings =>
      constructor
      · intro equal
        cases equal
        exact ⟨mappings, rfl, rfl⟩
      · rintro ⟨_, equal, rfl⟩
        cases equal
        rfl

/-- Injecting one nonempty blob. -/
theorem Augments.of_onMappings
    {data : List UInt8}
    {address : UInt64}
    {before after : CrashedProcess}
    (nonempty : data ≠ [])
    (succeeded : onMappings (addDataToMapping data address defaultPageSize)
      before = .ok () after) :
    Augments before [⟨data, address⟩] after := by
  obtain ⟨mappings, injected, rfl⟩ := onMappings_eq_ok.mp succeeded
  exact ⟨mappings, .single ⟨nonempty, injected⟩, rfl⟩

/-- Injecting all stacks. -/
theorem Augments.of_injectStacks
    {threads : List ThreadSnapshot}
    {before after : CrashedProcess}
    (succeeded : injectStacks (threads.map fun thread =>
      (thread.stackAddress, thread.stack)) before = .ok () after) :
    Augments before ((threads.filter (!·.stack.isEmpty)).map fun thread =>
      ⟨thread.stack, thread.stackAddress⟩) after := by
  induction threads generalizing before with
  | nil =>
      obtain ⟨_, rfl⟩ := statePure_eq_ok.mp succeeded
      exact .refl before
  | cons thread rest inductionHypothesis =>
      rw [List.map_cons, injectStacks] at succeeded
      cases empty : thread.stack.isEmpty with
      | true =>
          simp only [empty, Bool.not_true, Bool.false_eq_true, if_false]
            at succeeded
          rw [List.filter_cons_of_neg (by simp [empty])]
          exact inductionHypothesis succeeded
      | false =>
          simp only [empty, Bool.not_false, if_true, stateBind_eq_ok]
            at succeeded
          obtain ⟨_, between, first, others⟩ := succeeded
          rw [List.filter_cons_of_pos (by simp [empty])]
          exact (Augments.of_onMappings (by simpa using empty) first).append
            (inductionHypothesis others)

/-- The written word has the size of the slot. -/
theorem length_of_writeWord
    {architecture : Architecture}
    {value : UInt64}
    {word : List UInt8}
    (succeeded : writeWord architecture value = .ok word) :
    word.length = architecture.longSize := by
  unfold writeWord at succeeded
  unfold Architecture.longSize
  by_cases wide : architecture.is64bit = true
  · rw [if_pos wide, pure_eq_ok] at succeeded
    rw [if_pos wide, ← succeeded, length_leBytes]
  · rw [if_neg wide] at succeeded
    simp only [bind_eq_ok, okOr_eq_ok, pure_eq_ok] at succeeded
    obtain ⟨narrow, _, rfl⟩ := succeeded
    rw [if_neg wide, length_leBytes]

/-- Patching keeps the length of the `_DYNAMIC` data. -/
theorem length_patchDtDebugFrom
    {architecture : Architecture}
    {linkMapAddress : UInt64}
    {fuel offset : Nat}
    {dynamicData patched : List UInt8}
    (succeeded : patchDtDebugFrom architecture linkMapAddress fuel offset
      dynamicData = .ok patched) :
    patched.length = dynamicData.length := by
  induction fuel generalizing offset with
  | zero =>
      obtain rfl := pure_eq_ok.mp succeeded
      rfl
  | succ fuel inductionHypothesis =>
      unfold patchDtDebugFrom at succeeded
      have entrySize : (if architecture.is64bit then 16 else 8) =
          2 * architecture.longSize := by
        cases architecture <;> rfl
      simp only [entrySize] at succeeded
      split at succeeded
      · next fits =>
        split at succeeded
        · obtain ⟨word, written, spliced⟩ := bind_eq_ok.mp succeeded
          obtain rfl := pure_eq_ok.mp spliced
          rw [length_splice (by rw [length_of_writeWord written]; omega)]
        · split at succeeded
          · obtain rfl := pure_eq_ok.mp succeeded
            rfl
          · exact inductionHypothesis succeeded
      · obtain rfl := pure_eq_ok.mp succeeded
        rfl

/-- Injecting the dynamic-linker data. -/
theorem Augments.of_injectDsoDebug
    {architecture : Architecture}
    {dso : DsoDebug}
    {signatures : Signatures}
    {before after : CrashedProcess}
    (succeeded : injectDsoDebug architecture dso signatures before =
      .ok () after) :
    ∃ injections, dsoCaptures architecture dso signatures = .ok injections ∧
      Augments before injections after := by
  unfold injectDsoDebug at succeeded
  unfold dsoCaptures
  split at succeeded
  · next present =>
    rw [if_pos present]
    simp only [stateBind_eq_ok, liftState_eq_ok] at succeeded
    obtain ⟨blob, _, ⟨built, rfl⟩, _, between, blobOk, dynamicOk⟩ := succeeded
    have blobDone := Augments.of_onMappings (buildLinkMapBlob_ne_nil built)
      blobOk
    simp only [bind_eq_ok, built, Except.ok.injEq, exists_eq_left']
    split at dynamicOk
    · next captured =>
      rw [if_pos captured]
      simp only [stateBind_eq_ok, liftState_eq_ok] at dynamicOk
      obtain ⟨dynData, _, ⟨patched, rfl⟩, dynOk⟩ := dynamicOk
      have nonempty : dynData ≠ [] := by
        rw [← List.length_pos_iff, length_patchDtDebugFrom patched,
          List.length_pos_iff]
        intro empty
        simp [empty] at captured
      refine ⟨_, bind_eq_ok.mpr ⟨dynData, patched, rfl⟩, ?_⟩
      exact blobDone.append (Augments.of_onMappings nonempty dynOk)
    · next absent =>
      rw [if_neg absent]
      obtain ⟨_, rfl⟩ := statePure_eq_ok.mp dynamicOk
      exact ⟨_, rfl, blobDone⟩
  · next absent =>
    rw [if_neg absent]
    obtain ⟨_, rfl⟩ := statePure_eq_ok.mp succeeded
    exact ⟨[], rfl, .refl before⟩

/-- A successful pass injects its captures in order. -/
theorem augmentProcess_ok
    {before after : CrashedProcess}
    (succeeded : augmentProcess before = .ok () after) :
    ∃ injections, before.captures = .ok injections ∧
      Augments before injections after := by
  unfold augmentProcess at succeeded
  simp only [stateBind_eq_ok, get_eq_ok] at succeeded
  obtain ⟨_, _, ⟨rfl, rfl⟩, _, stacked, stacksOk, _, _, ⟨rfl, rfl⟩, dsoOk⟩ :=
    succeeded
  have stacksDone := Augments.of_injectStacks stacksOk
  obtain ⟨injections, captured, dsoDone⟩ := Augments.of_injectDsoDebug dsoOk
  refine ⟨before.stackCaptures ++ injections, ?_, stacksDone.append dsoDone⟩
  obtain ⟨mappings, _, rfl⟩ := stacksDone
  exact bind_eq_ok.mpr ⟨injections, captured, rfl⟩

end Md2Core
