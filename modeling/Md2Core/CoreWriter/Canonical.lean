import Md2Core.CoreWriter.Decoding

/-!
# Equal cores

What a reader learns from a core is all that the core depends on. Processes that a
reader cannot tell apart have the same core, byte for byte, and processes that it can
tell apart have different ones.
-/

namespace Md2Core

open Foundation

/-- A concatenation depends on no more than a property of the items that determines
the parts. -/
theorem flatMap_eq_of_map_eq
    {α β γ : Type}
    {property : α → γ}
    {part : α → List β}
    (determined : ∀ item other, property item = property other →
      part item = part other)
    {items others : List α}
    (same : items.map property = others.map property) :
    items.flatMap part = others.flatMap part := by
  induction items generalizing others with
  | nil =>
      obtain rfl := List.map_eq_nil_iff.mp same.symm
      rfl
  | cons item rest inductionHypothesis =>
      cases others with
      | nil => exact absurd same (List.cons_ne_nil _ _)
      | cons other remaining =>
          obtain ⟨first, behind⟩ := List.cons_eq_cons.mp same
          rw [List.flatMap_cons, List.flatMap_cons, determined item other first,
            inductionHypothesis behind]

/-! ## Notes -/

/-- The notes of a report depend on its status. -/
theorem ThreadReport.notes_of_status
    {architecture : Architecture}
    {report other : ThreadReport}
    (same : report.status architecture = other.status architecture) :
    report.notes architecture = other.notes architecture := by
  simp only [ThreadReport.status, ThreadStatus.mk.injEq, Prstatus.mk.injEq] at same
  obtain ⟨⟨signal, _, tid, regs, _⟩, fpregset, prxfpreg⟩ := same
  have sameSignal : report.signal = other.signal :=
    congrArg Int32.ofUInt32 (UInt32.toNat_inj.mp signal)
  unfold ThreadReport.notes ThreadReport.prstatus ThreadReport.floatNotes
  rw [UInt32.toNat_inj.mp tid, sameSignal, regs, fpregset, prxfpreg]

theorem ProcessInfo.psInfo_injective :
    Function.Injective ProcessInfo.psInfo := by
  intro info other same
  simp only [ProcessInfo.psInfo, PsInfo.mk.injEq] at same
  obtain ⟨pid, filename, arguments⟩ := same
  obtain ⟨_, _, _⟩ := info
  obtain ⟨_, _, _⟩ := other
  simp only [ProcessInfo.mk.injEq]
  exact ⟨Vector.toList_inj.mp filename, Vector.toList_inj.mp arguments,
    UInt32.toNat_inj.mp pid⟩

theorem FileRecord.entry_injective : Function.Injective FileRecord.entry := by
  intro record other same
  obtain ⟨_, _, _, _⟩ := record
  obtain ⟨_, _, _, _⟩ := other
  simp only [FileRecord.entry, FileEntry.mk.injEq, UInt64.toNat_inj] at same
  simp only [FileRecord.mk.injEq]
  exact same

/-- The bytes of the note segment. -/
theorem buildNoteSegment_bytes
    {process : CrashedProcess}
    {bytes : List UInt8}
    (succeeded : buildNoteSegment process = .ok bytes) :
    bytes = (processNotes process (encodeFileRecords process.architecture.longSize
        (fileRecords process.mappings)) ++
      process.reports.flatMap (·.notes process.architecture)).flatMap
        ElfNote.encode := by
  unfold buildNoteSegment at succeeded
  simp only [bind_eq_ok] at succeeded
  obtain ⟨_, prpsinfoOk, _, auxvOk, payload, payloadOk, _, fileOk, threadsOk⟩ :=
    succeeded
  obtain ⟨_, rfl⟩ := buildNtFilePayload_eq_ok.mp payloadOk
  exact ((((pushNote_ok rfl prpsinfoOk).append (pushNote_ok rfl auxvOk)).append
    (pushNote_ok rfl fileOk)).append (pushThreads_ok threadsOk).1).written

section Congruence

variable {process other : CrashedProcess}

/-- The note segment depends on what a reader learns. -/
theorem buildNoteSegment_of_coreFile
    {bytes otherBytes : List UInt8}
    (same : process.coreFile = other.coreFile)
    (succeeded : buildNoteSegment process = .ok bytes)
    (otherSucceeded : buildNoteSegment other = .ok otherBytes) :
    bytes = otherBytes := by
  simp only [CrashedProcess.coreFile, CoreFile.mk.injEq] at same
  obtain ⟨architecture, info, auxv, files, threads, _⟩ := same
  rw [← map_entry_fileRecords, ← map_entry_fileRecords] at files
  rw [buildNoteSegment_bytes succeeded, buildNoteSegment_bytes otherSucceeded]
  unfold processNotes
  rw [architecture] at threads
  rw [architecture, auxv, ProcessInfo.psInfo_injective info,
    FileRecord.entry_injective.list_map files,
    flatMap_eq_of_map_eq (fun _ _ => ThreadReport.notes_of_status) threads]

/-- The load segments depend on the ranges of memory. -/
theorem loadSegments_of_memoryRange
    {mappings others : List Mapping}
    (same : mappings.map Mapping.memoryRange = others.map Mapping.memoryRange)
    (emptyOffset offset : Nat) :
    loadSegments emptyOffset offset mappings =
      loadSegments emptyOffset offset others := by
  induction mappings generalizing others offset with
  | nil =>
      obtain rfl := List.map_eq_nil_iff.mp same.symm
      rfl
  | cons mapping rest inductionHypothesis =>
      cases others with
      | nil => exact absurd same (List.cons_ne_nil _ _)
      | cons other remaining =>
          obtain ⟨first, behind⟩ := List.cons_eq_cons.mp same
          simp only [Mapping.memoryRange, MemoryRange.mk.injEq] at first
          obtain ⟨start, size, flags, data⟩ := first
          rw [loadSegments, loadSegments, size, start, flags, data,
            inductionHypothesis behind]

/-- The image depends on what a reader learns. -/
theorem writeCore_of_coreFile
    {image otherImage : List UInt8}
    (same : process.coreFile = other.coreFile)
    (succeeded : writeCore process = .ok image)
    (otherSucceeded : writeCore other = .ok otherImage) :
    image = otherImage := by
  have memory : process.mappings.values.map Mapping.memoryRange =
      other.mappings.values.map Mapping.memoryRange := congrArg CoreFile.memory same
  have architecture : process.architecture = other.architecture :=
    congrArg CoreFile.architecture same
  have size : process.mappings.size = other.mappings.size := by
    have lengths := congrArg List.length memory
    rwa [List.length_map, List.length_map, MappingTable.length_values,
      MappingTable.length_values] at lengths
  have data : process.mappings.values.flatMap (·.data) =
      other.mappings.values.flatMap (·.data) :=
    flatMap_eq_of_map_eq (fun _ _ => congrArg MemoryRange.data) memory
  unfold writeCore at succeeded otherSucceeded
  obtain ⟨notes, notesOk, succeeded⟩ := bind_eq_ok.mp succeeded
  obtain ⟨otherNotes, otherNotesOk, otherSucceeded⟩ := bind_eq_ok.mp otherSucceeded
  obtain rfl := buildNoteSegment_of_coreFile same notesOk otherNotesOk
  rw [architecture, size, data, ← List.length_flatMap, data, List.length_flatMap]
    at succeeded
  simp only [bind_eq_ok, pure_eq_ok] at succeeded
  obtain ⟨phnum, counted, tableSize, sized, noteOffset, located, filesz, measured,
    noteEnd, ended, loadOffset, aligned, totalData, summed, emptyOffset, behind,
    noteHeader, noteWritten, headers, written, rfl⟩ := succeeded
  simp only [counted, sized, located, measured, ended, aligned, summed, behind,
    noteWritten, ok_bind, bind_eq_ok, pure_eq_ok] at otherSucceeded
  obtain ⟨otherHeaders, otherWritten, rfl⟩ := otherSucceeded
  rw [(writeLoadHeaders_ok written).1, (writeLoadHeaders_ok otherWritten).1,
    loadSegments_of_memoryRange memory]

end Congruence

/-- The sample process with other dynamic-linker data. -/
def sampleForgotten : CrashedProcess :=
  { sampleReported with
    dsoDebug := { sampleReported.dsoDebug with ldbase := 0x7000 }
    signatures := ∅ }

end Md2Core
