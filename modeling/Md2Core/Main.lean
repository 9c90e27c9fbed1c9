import Md2Core.Pipeline.AddressSpace
import Md2Core.Pipeline.Debugger
import Md2Core.RustMinidump.SyntheticDso

/-!
# The conversion

`run` reads a minidump, augments the process and writes the core image. The
memory that the image gives a debugger is the memory that the minidump captured,
and the link map in it leads to the modules. The notes and segments decode to what
the minidump says of the process, and each address keeps its file and permissions.
-/

namespace Md2Core

open Foundation

/-- Convert a minidump to a core image. -/
def run
    (reader : MinidumpReader)
    (files : FileSystem)
    (dump : Minidump)
    (fullFile : List UInt8)
    (options : ConvertOptions) : Result (List UInt8) := do
  let process ← readProcessFromMinidump reader files dump fullFile options
  match augmentProcess process with
  | .error failure _ => throw failure
  | .ok _ augmented => writeCore augmented

section Run

variable
  {reader : MinidumpReader}
  {files : FileSystem}
  {dump : Minidump}
  {fullFile image : List UInt8}
  {options : ConvertOptions}

/-- A conversion succeeds when its three stages do. -/
theorem run_eq_ok :
    run reader files dump fullFile options = .ok image ↔
      ∃ process augmented,
        readProcessFromMinidump reader files dump fullFile options =
          .ok process ∧
        augmentProcess process = .ok () augmented ∧
        writeCore augmented = .ok image := by
  unfold run
  rw [bind_eq_ok]
  apply exists_congr
  intro process
  cases augmentProcess process with
  | error failure left =>
      simp only [throw_ne_ok, and_false, reduceCtorEq, false_and, exists_false]
  | ok value augmented =>
      constructor
      · rintro ⟨read, written⟩
        exact ⟨augmented, read, rfl, written⟩
      · rintro ⟨_, read, same, written⟩
        cases same
        exact ⟨read, written⟩

/-- The tables of processes that are read carry no data. -/
theorem MappingTable.FilesOnly.dataless
    {mappings : MappingTable}
    (filesOnly : mappings.FilesOnly) :
    mappings.Dataless :=
  fun key mapping found => (filesOnly key mapping found).2.dataless

/-- The stages of a successful conversion. -/
theorem stages_of_run
    (converted : run reader files dump fullFile options = .ok image) :
    ∃ process captures augmented auxv,
      readProcessFromMinidump reader files dump fullFile options =
        .ok process ∧
      dump.Assembles reader options auxv process ∧
      dump.Completes reader files fullFile auxv process ∧
      process.captures = .ok captures ∧
      Augments process captures augmented ∧
      writeCore augmented = .ok image := by
  obtain ⟨process, augmented, read, injected, written⟩ := run_eq_ok.mp converted
  obtain ⟨auxv, assembles, completes⟩ := readProcessFromMinidump_ok read
  obtain ⟨captures, captured, augments⟩ := augmentProcess_ok injected
  exact ⟨process, captures, augmented, auxv, read, assembles, completes, captured,
    augments, written⟩

/-- What is computed from the process that is read and from its captures. -/
theorem eq_of_evaluated
    {α : Type}
    {process : CrashedProcess}
    {captures : List Injection}
    {observe : CrashedProcess → List Injection → α}
    {value : α}
    (evaluated : (readProcessFromMinidump reader files dump fullFile options >>=
      fun process => process.captures.map (observe process)) = .ok value)
    (read : readProcessFromMinidump reader files dump fullFile options = .ok process)
    (captured : process.captures = .ok captures) :
    observe process captures = value := by
  rw [read] at evaluated
  obtain ⟨_, same, result⟩ := bind_eq_ok.mp evaluated
  rw [← Except.ok.inj same, captured] at result
  exact Except.ok.inj result

end Run

/-! ## Memory -/

/-- The reports do not depend on the mappings. -/
theorem reportsFrom_mappings
    (process : CrashedProcess)
    (mappings : MappingTable)
    (index : Nat)
    (threads : List ThreadSnapshot) :
    reportsFrom { process with mappings } index threads =
      reportsFrom process index threads := by
  induction threads generalizing index with
  | nil => rfl
  | cons thread rest inductionHypothesis =>
      rw [reportsFrom, reportsFrom, inductionHypothesis]

/-- An augmented process is decoded from its core, with all but the files and the
memory as before the augmentation. The files are those of the augmented process, if
their names have no NUL. -/
theorem Augments.exists_decodeCore
    {process augmented : CrashedProcess}
    {captures : List Injection}
    {image : List UInt8}
    (augments : Augments process captures augmented)
    (written : writeCore augmented = .ok image) :
    ∃ files, decodeCore image = some { process.coreFile with
        files
        memory := augmented.mappings.values.map Mapping.memoryRange } ∧
      (process.mappings.ZeroFree → files = fileEntries augmented.mappings) := by
  obtain ⟨mappings, runs, rfl⟩ := augments
  obtain ⟨files, decoded, listed⟩ := exists_decodeCore_of_writeCore written
  refine ⟨files, ?_, fun zeroFree => listed ?_⟩
  · rw [decoded]
    unfold CrashedProcess.coreFile CrashedProcess.reports
    rw [reportsFrom_mappings]
  · have named := filename_of_runsTo runs fun key mapping found =>
      zeroFree mapping (MappingTable.mem_values.mpr ⟨key, found⟩)
    intro mapping member
    obtain ⟨key, found⟩ := MappingTable.mem_values.mp member
    exact named key mapping found

/-- In the core of an augmented process every address has the file, the file position
and the permissions that the mappings before the augmentation give it. Only the pages
of captures outside all mappings are new, as memory that can be read and written. -/
theorem Augments.exists_addresses
    {process augmented : CrashedProcess}
    {captures : List Injection}
    {image : List UInt8}
    (augments : Augments process captures augmented)
    (written : writeCore augmented = .ok image)
    (zeroFree : process.mappings.ZeroFree)
    (space : process.mappings.AddressSpace)
    (apart : OnDisjointPages captures)
    (lands : ∀ capture ∈ captures, Lands process.mappings capture) :
    ∃ core, decodeCore image = some core ∧
      ∀ address : UInt64,
        (∀ name position,
          fileAt core.files address.toNat = some (name, position) ↔
            ∃ permissions, process.mappings.Means address
              ⟨permissions, some name, some position⟩) ∧
        (∀ flags,
          flagsAt core.memory address.toNat = some flags ↔
            (∃ meaning, process.mappings.Means address meaning ∧
              permissionFlags meaning.permissions = flags) ∨
            flags = permissionFlags .readWrite ∧ ∃ capture ∈ captures,
              ¬process.mappings.Maps capture.address ∧
                capture.OnPages address) := by
  obtain ⟨files, decoded, listed⟩ := augments.exists_decodeCore written
  rw [listed zeroFree] at decoded
  refine ⟨_, decoded, fun address => ?_⟩
  obtain ⟨mappings, runs, rfl⟩ := augments
  obtain ⟨kept, means⟩ := addressSpace_of_runsTo runs space apart lands
  constructor
  · intro name position
    rw [fileAt_fileEntries_iff kept]
    simp only [means, Meaning.anonymous, Meaning.mk.injEq, reduceCtorEq, false_and,
      and_false, or_false]
  · intro flags
    rw [flagsAt_memory_iff kept.wellFormed]
    simp only [means, or_and_right, exists_or]
    refine or_congr_right ?_
    constructor
    · rintro ⟨_, ⟨rfl, fresh⟩, rfl⟩
      exact ⟨rfl, fresh⟩
    · rintro ⟨rfl, fresh⟩
      exact ⟨_, ⟨rfl, fresh⟩, rfl⟩

/-- Whatever the dynamic-linker data of the process comes from, a debugger that
starts at `_DYNAMIC` in the memory of the converted core finds its `r_debug` and
its entries in order, when the captured `_DYNAMIC` has a `DT_DEBUG` and no other
capture shares a page with the two blobs of the dynamic linker. -/
theorem run_listModules
    (reader : MinidumpReader)
    (files : FileSystem)
    (dump : Minidump)
    (fullFile : List UInt8)
    (options : ConvertOptions)
    (image : List UInt8)
    (converted : run reader files dump fullFile options = .ok image) :
    ∃ process captures,
      readProcessFromMinidump reader files dump fullFile options =
        .ok process ∧
      process.captures = .ok captures ∧
      (process.Debuggable → LinkerIsolated process captures →
        ∃ map nodes enough, nodes.map Node.content =
            process.dsoDebug.linkMap.map (·.content process.signatures) ∧
          ∀ limit, enough ≤ limit →
            listModules (imageMemory image) process.architecture.longSize
                process.dsoDebug.dynamic.toNat limit =
              some (⟨process.dsoDebug.version.toNat, map,
                process.dsoDebug.brk.toNat, 0, process.dsoDebug.ldbase.toNat⟩,
                nodes)) := by
  obtain ⟨process, captures, augmented, _, read, assembles, _, captured, augments,
    written⟩ := stages_of_run converted
  refine ⟨process, captures, read, captured, ?_⟩
  exact augments.listModules_imageMemory captured assembles.filesOnly.dataless
    written

/-- A 32-bit ELF file with a `PT_LOAD` segment at its start and a `PT_DYNAMIC`
segment that holds a `DT_DEBUG`. -/
def debuggedElf : List UInt8 :=
  [0x7f, 0x45, 0x4c, 0x46, 1, 1, 1] ++ List.replicate 9 0 ++
    encodeFields [(2, 3), (2, 40), (4, 1), (4, 52), (4, 52), (4, 0), (4, 0),
      (2, 52), (2, 32), (2, 2), (2, 0), (2, 0), (2, 0)] ++
    encodeWords 4 [1, 0, 0, 0, 132, 132, 5, 4096] ++
    encodeWords 4 [2, 116, 116, 116, 16, 16, 6, 4] ++
    encodeWords 4 [21, 0, 0, 0]

/-- A disk with this file as the executable of the sample minidump. -/
def debuggedDisk : FileSystem := fun path =>
  if path = "/bin/app" then some (.file debuggedElf) else none

/-- The sample minidump is converted with this disk, and its blobs lie on
disjoint pages. -/
theorem exists_run_debuggedDisk :
    ∃ image, run sampleReader debuggedDisk sampleDump [] plainOptions =
        .ok image ∧
      ∀ process captures,
        readProcessFromMinidump sampleReader debuggedDisk sampleDump []
          plainOptions = .ok process →
        process.captures = .ok captures → OnDisjointPages captures := by
  obtain ⟨image, converted⟩ : ∃ image,
      run sampleReader debuggedDisk sampleDump [] plainOptions = .ok image :=
    exists_ok_of_isOk (by decide +kernel)
  refine ⟨image, converted, ?_⟩
  intro process captures read captured
  have evaluated : (readProcessFromMinidump sampleReader debuggedDisk sampleDump
      [] plainOptions >>= fun process => process.captures.map captureRanges) =
        .ok [(0x30010, 3), (4096, 92), (0x10074, 16)] := by
    decide +kernel
  exact onDisjointPages_of_ranges (eq_of_evaluated evaluated read captured)
    (by decide) (by decide)

/-- The first entry of the `_DYNAMIC` of the file is its `DT_DEBUG`. -/
theorem debugEntryAt_debuggedElf :
    DebugEntryAt .arm (encodeWords 4 [21, 0, 0, 0]) 0 :=
  ⟨⟨0, by decide⟩, by simp⟩

/-- The link map of the sample minidump is found. -/
theorem run_listModules_sample :
    ∃ image process debug nodes limit,
      run sampleReader debuggedDisk sampleDump [] plainOptions = .ok image ∧
      readProcessFromMinidump sampleReader debuggedDisk sampleDump []
        plainOptions = .ok process ∧
      nodes.map Node.content =
        process.dsoDebug.linkMap.map (·.content process.signatures) ∧
      listModules (imageMemory image) 4 0x10074 limit = some (debug, nodes) := by
  obtain ⟨image, converted, apart⟩ := exists_run_debuggedDisk
  obtain ⟨process, captures, read, captured, walk⟩ :=
    run_listModules _ _ _ _ _ _ converted
  have evaluated : (readProcessFromMinidump sampleReader debuggedDisk sampleDump
      [] plainOptions).map (fun process => (process.architecture,
        process.dsoDebug.dynamic, process.dsoDebug.dynamicData,
        process.dsoDebug.linkMap.all fun entry =>
          decide (0 ∉ asBytes (entry.nameFor process.signatures)))) =
        .ok (.arm, 0x10074, encodeWords 4 [21, 0, 0, 0], true) := by
    decide +kernel
  simp only [read, Except.map, Except.ok.injEq, Prod.mk.injEq,
    List.all_eq_true, decide_eq_true_eq] at evaluated
  obtain ⟨architecture, dynamic, data, zeroFree⟩ := evaluated
  have debuggable : process.Debuggable := by
    refine ⟨by rw [dynamic]; decide, ⟨0, ?_⟩, zeroFree⟩
    rw [architecture, data]
    exact debugEntryAt_debuggedElf
  obtain ⟨map, nodes, enough, contents, lists⟩ := walk debuggable
    ((apart process captures read captured).linkerIsolated process)
  rw [architecture, dynamic] at lists
  exact ⟨image, process, _, nodes, enough, converted, read, contents,
    lists enough (Nat.le_refl enough)⟩

end Md2Core
