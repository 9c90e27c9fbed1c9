import Md2Core.CoreWriter

/-!
# Decoding a written core image

The program headers are computed by a running file offset before any data is
written. A reader of the image that locates them through the file header finds
one `PT_NOTE` whose file range is the note segment, and one `PT_LOAD` for each
mapping in key order whose file range is the data of the mapping.
-/

namespace Md2Core

open Foundation

/-! ## Load segments -/

/-- `p_flags` for a set of permissions, `PF_R` when none is set. -/
def permissionFlags (permissions : MappingPermissions) : Nat :=
  if !permissions.read && !permissions.write && !permissions.execute then
    4
  else
    (if permissions.read then 4 else 0) + (if permissions.write then 2 else 0) +
      (if permissions.execute then 1 else 0)

theorem toNat_loadFlags (permissions : MappingPermissions) :
    (loadFlags permissions).toNat = permissionFlags permissions := by
  obtain ⟨read, write, execute⟩ := permissions
  cases read <;> cases write <;> cases execute <;> rfl

/-- The segments of mappings whose data is written from an offset on. -/
def loadSegments (emptyOffset : Nat) : Nat → List Mapping → List Segment
  | _, [] => []
  | offset, mapping :: rest =>
      { type := ptLoad.toNat
        flags := permissionFlags mapping.permissions
        offset := if mapping.data.isEmpty then emptyOffset else offset
        vaddr := mapping.startAddress.toNat
        paddr := 0
        filesz := mapping.data.length
        memsz := mapping.endAddress.toNat - mapping.startAddress.toNat
        align := ptLoadAlignment.toNat } ::
        loadSegments emptyOffset (offset + mapping.data.length) rest

@[simp] theorem length_loadSegments
    (emptyOffset offset : Nat)
    (mappings : List Mapping) :
    (loadSegments emptyOffset offset mappings).length = mappings.length := by
  induction mappings generalizing offset with
  | nil => rfl
  | cons mapping rest inductionHypothesis =>
      rw [loadSegments, List.length_cons, List.length_cons,
        inductionHypothesis]

/-- The range of a mapping advances the running offset by its data. -/
theorem loadRange_eq_ok
    {emptyLoadOffset loadOffset pOffset pFilesz next : UInt64}
    {mapping : Mapping}
    (succeeded : loadRange emptyLoadOffset loadOffset mapping =
      .ok (pOffset, pFilesz, next)) :
    pOffset.toNat = (if mapping.data.isEmpty then emptyLoadOffset.toNat
        else loadOffset.toNat) ∧
      pFilesz.toNat = mapping.data.length ∧
      next.toNat = loadOffset.toNat + mapping.data.length := by
  unfold loadRange at succeeded
  cases empty : mapping.data.isEmpty with
  | true =>
      rw [if_pos empty, pure_eq_ok] at succeeded
      cases succeeded
      rw [List.isEmpty_iff.mp empty]
      exact ⟨rfl, rfl, rfl⟩
  | false =>
      rw [if_neg (by simp [empty])] at succeeded
      simp only [bind_eq_ok, lenU64_eq_ok, addU64_eq_ok, pure_eq_ok,
        Prod.mk.injEq] at succeeded
      obtain ⟨filesz, fileszValue, following, nextValue, rfl, rfl, rfl⟩ :=
        succeeded
      exact ⟨rfl, fileszValue, by rw [nextValue, fileszValue]⟩

/-- The written load headers encode the load segments. -/
theorem writeLoadHeaders_ok
    {elfClass : UInt8}
    {emptyLoadOffset loadOffset : UInt64}
    {mappings : List Mapping}
    {headers : List UInt8}
    (succeeded : writeLoadHeaders elfClass emptyLoadOffset loadOffset mappings =
      .ok headers) :
    headers = (loadSegments emptyLoadOffset.toNat loadOffset.toNat
        mappings).flatMap (·.encode (elfClass == 2)) ∧
      ∀ segment ∈ loadSegments emptyLoadOffset.toNat loadOffset.toNat mappings,
        segment.Fits (elfClass == 2) := by
  induction mappings generalizing loadOffset headers with
  | nil =>
      obtain rfl := pure_eq_ok.mp succeeded
      exact ⟨rfl, by simp [loadSegments]⟩
  | cons mapping rest inductionHypothesis =>
      unfold writeLoadHeaders at succeeded
      simp only [bind_eq_ok, subU64_eq_ok, pure_eq_ok, Prod.exists] at succeeded
      obtain ⟨memsz, memszValue, pOffset, pFilesz, next, range, header, written,
        others, othersOk, rfl⟩ := succeeded
      obtain ⟨offsetValue, fileszValue, nextValue⟩ := loadRange_eq_ok range
      obtain ⟨rfl, fits⟩ := ProgramHeader.write_eq_ok written
      obtain ⟨rfl, othersFit⟩ := inductionHypothesis othersOk
      rw [nextValue] at othersFit ⊢
      have segmentValue : ProgramHeader.segment {
          pType := ptLoad
          pFlags := loadFlags mapping.permissions
          pOffset
          pVaddr := mapping.startAddress
          pPaddr := 0
          pFilesz
          pMemsz := memsz
          pAlign := ptLoadAlignment } =
        { type := ptLoad.toNat
          flags := permissionFlags mapping.permissions
          offset := if mapping.data.isEmpty then emptyLoadOffset.toNat
            else loadOffset.toNat
          vaddr := mapping.startAddress.toNat
          paddr := 0
          filesz := mapping.data.length
          memsz := mapping.endAddress.toNat - mapping.startAddress.toNat
          align := ptLoadAlignment.toNat } := by
        rw [ProgramHeader.segment, offsetValue, fileszValue, toNat_loadFlags,
          memszValue, Nat.add_sub_cancel_left]
        rfl
      rw [segmentValue] at fits ⊢
      refine ⟨by rw [loadSegments, List.flatMap_cons], ?_⟩
      rw [loadSegments]
      exact List.forall_mem_cons.mpr ⟨fits, othersFit⟩

/-- A load segment that describes a mapping and whose file range in the image is
the data of the mapping. -/
structure LoadedAs (image : List UInt8) (mapping : Mapping) (load : Segment) :
    Prop where
  type : load.type = 1
  vaddr : load.vaddr = mapping.startAddress.toNat
  memsz : load.memsz = mapping.endAddress.toNat - mapping.startAddress.toNat
  filesz : load.filesz = mapping.data.length
  flags : load.flags = permissionFlags mapping.permissions
  content : slice image load.offset load.filesz = mapping.data
  empty : mapping.data = [] → load.filesz = 0 ∧ load.offset = image.length

/-- The running offset is the position of the data in the image. -/
theorem loadSegments_loadedAs
    {image front : List UInt8}
    {mappings : List Mapping}
    (written : image = front ++ mappings.flatMap (·.data)) :
    List.Forall₂ (LoadedAs image) mappings
      (loadSegments image.length front.length mappings) := by
  induction mappings generalizing front with
  | nil => exact .nil
  | cons mapping rest inductionHypothesis =>
      rw [List.flatMap_cons] at written
      have others := @inductionHypothesis (front ++ mapping.data)
        (by rw [written, List.append_assoc])
      rw [List.length_append] at others
      refine .cons ⟨rfl, rfl, rfl, rfl, rfl, ?_, ?_⟩ others
      · cases data : mapping.data with
        | nil => simp [slice]
        | cons byte bytes =>
            rw [written, ← data]
            simp only [data, List.isEmpty_cons, Bool.false_eq_true, if_false]
            exact slice_middle front (byte :: bytes) _
      · intro empty
        simp [empty]

/-! ## The whole image -/

/-- The padding behind the notes reaches the next page boundary. -/
theorem toNat_notePad (noteEnd : UInt64) :
    (if noteEnd % ptLoadAlignment = 0 then 0
      else ptLoadAlignment - noteEnd % ptLoadAlignment).toNat =
      roundUp 4096 noteEnd.toNat - noteEnd.toNat := by
  have alignment : ptLoadAlignment.toNat = 4096 := rfl
  have remainder : (noteEnd % ptLoadAlignment).toNat = noteEnd.toNat % 4096 := by
    rw [UInt64.toNat_mod, alignment]
  have remainderLt := Nat.mod_lt noteEnd.toNat (show 0 < 4096 by decide)
  unfold roundUp
  by_cases exact : noteEnd % ptLoadAlignment = 0
  · have zero : noteEnd.toNat % 4096 = 0 := by
      rw [← remainder, exact]
      rfl
    rw [if_pos exact, if_pos zero, Nat.sub_self]
    rfl
  · have nonzero : noteEnd.toNat % 4096 ≠ 0 := by
      rw [← remainder]
      exact fun zero => exact (UInt64.toNat_inj.mp zero)
    rw [if_neg exact, if_neg nonzero, UInt64.toNat_sub_of_le _ _
      (UInt64.le_iff_toNat_le.mpr (by omega)), remainder, alignment]
    omega

/-- An image that starts with its headers and the notes. The headers are read
back, and the range of the first one holds the notes. -/
theorem readProgramHeaders_image
    {header : ElfHeader}
    {note : Segment}
    {loads : List Segment}
    {table notes : List UInt8}
    (behind : List UInt8)
    (classValid : header.elfClass = 1 ∨ header.elfClass = 2)
    (count : header.phnum.toNat = (note :: loads).length)
    (fit : ∀ segment ∈ note :: loads, segment.Fits (header.elfClass == 2))
    (encoded : table =
      (note :: loads).flatMap (·.encode (header.elfClass == 2)))
    (located : note.offset = (header.write ++ table).length)
    (sized : note.filesz = notes.length) :
    readProgramHeaders (header.write ++ table ++ notes ++ behind) =
        some (note :: loads) ∧
      slice (header.write ++ table ++ notes ++ behind) note.offset
        note.filesz = notes := by
  constructor
  · have read := @readProgramHeaders_write header (note :: loads)
      (notes ++ behind) classValid count fit
    simpa only [encoded, List.append_assoc] using read
  · rw [located, sized, List.append_assoc]
    exact slice_middle (header.write ++ table) notes behind

/-- What a successful call has written: a file header that counts the segments,
their headers, the notes at the offset of the first segment, zeros up to the next
page boundary, and the data from there on. -/
theorem writeCore_parts
    {process : CrashedProcess}
    {image : List UInt8}
    (succeeded : writeCore process = .ok image) :
    ∃ (header : ElfHeader) (notes padding : List UInt8) (note : Segment)
      (emptyOffset loadOffset : Nat),
      let segments :=
        note :: loadSegments emptyOffset loadOffset process.mappings.values
      buildNoteSegment process = .ok notes ∧
      (header.elfClass = 1 ∨ header.elfClass = 2) ∧
      header.phnum.toNat = 1 + process.mappings.size ∧
      (∀ segment ∈ segments, segment.Fits (header.elfClass == 2)) ∧
      note.type = 4 ∧
      note.offset = header.write.length +
        (1 + process.mappings.size) * Segment.headerSize (header.elfClass == 2) ∧
      note.filesz = notes.length ∧
      loadOffset = note.offset + note.filesz + padding.length ∧
      loadOffset = roundUp 4096 (note.offset + note.filesz) ∧
      emptyOffset =
        loadOffset + (process.mappings.values.flatMap (·.data)).length ∧
      image = header.write ++ segments.flatMap (·.encode (header.elfClass == 2)) ++
        notes ++ padding ++ process.mappings.values.flatMap (·.data) := by
  unfold writeCore at succeeded
  simp only [bind_eq_ok, okOr_eq_ok, u16TryFrom_eq_some, exactU64_eq_ok,
    addU64_eq_ok, lenU64_eq_ok, pure_eq_ok] at succeeded
  obtain ⟨notes, notesOk, phnumU16, phnumValue, tableSize, tableSizeValue,
    noteOffset, noteOffsetValue, noteFilesz, noteFileszValue, noteEnd,
    noteEndValue, loadOffset, loadOffsetValue, totalData, totalDataValue,
    emptyLoadOffset, emptyValue, noteHeader, noteHeaderOk, loadHeaders,
    loadHeadersOk, imageValue⟩ := succeeded
  generalize headerValue : ElfHeader.mk process.architecture.elfClass
    process.architecture.elfMachine phnumU16 = header at *
  have classValue : process.architecture.elfClass = header.elfClass := by
    rw [← headerValue]
  have count : header.phnum.toNat = 1 + process.mappings.size := by
    rw [← headerValue]
    exact phnumValue
  rw [classValue] at noteHeaderOk loadHeadersOk
  obtain ⟨rfl, noteFits⟩ := ProgramHeader.write_eq_ok noteHeaderOk
  obtain ⟨rfl, loadsFit⟩ := writeLoadHeaders_ok loadHeadersOk
  have grows := le_roundUp 4096 noteEnd.toNat
  rw [toNat_notePad] at loadOffsetValue imageValue
  let note := ProgramHeader.segment {
    pType := ptNote
    pFlags := 0
    pOffset := noteOffset
    pVaddr := 0
    pPaddr := 0
    pFilesz := noteFilesz
    pMemsz := 0
    pAlign := 0 }
  let padding := List.replicate
    (roundUp 4096 noteEnd.toNat - noteEnd.toNat) (0 : UInt8)
  refine ⟨header, notes, padding, note, emptyLoadOffset.toNat, loadOffset.toNat,
    notesOk, classValue ▸ process.architecture.elfClass_eq_one_or_two, count,
    List.forall_mem_cons.mpr ⟨noteFits, loadsFit⟩, rfl, ?_, noteFileszValue, ?_,
    ?_, ?_, ?_⟩
  · change noteOffset.toNat = _
    rw [noteOffsetValue, tableSizeValue, header.length_write, Nat.mul_comm,
      ← header.toNat_phdrSize, ← headerValue]
    rfl
  · change loadOffset.toNat = noteOffset.toNat + noteFilesz.toNat + padding.length
    rw [loadOffsetValue, ← noteEndValue, List.length_replicate]
  · change loadOffset.toNat = roundUp 4096 (noteOffset.toNat + noteFilesz.toNat)
    rw [← noteEndValue, loadOffsetValue]
    omega
  · rw [emptyValue, totalDataValue, List.length_flatMap]
  · rw [← imageValue, List.flatMap_cons]
    simp only [List.append_assoc]
    rfl

/-- The parts of a written image, with the file offsets that the headers name. -/
theorem writeCore_ok
    {process : CrashedProcess}
    {image : List UInt8}
    (succeeded : writeCore process = .ok image) :
    ∃ (notes : List UInt8) (note : Segment) (front : List UInt8),
      buildNoteSegment process = .ok notes ∧
      readProgramHeaders image = some (note ::
        loadSegments image.length front.length process.mappings.values) ∧
      note.type = 4 ∧
      note.filesz = notes.length ∧
      slice image note.offset note.filesz = notes ∧
      front.length = roundUp 4096 (note.offset + note.filesz) ∧
      image = front ++ process.mappings.values.flatMap (·.data) := by
  obtain ⟨header, notes, padding, note, emptyOffset, loadOffset, notesOk,
    classValid, count, fits, type, offsetValue, filesz, loadOffsetValue,
    pageValue, emptyValue, imageValue⟩ := writeCore_parts succeeded
  let segments :=
    note :: loadSegments emptyOffset loadOffset process.mappings.values
  let table := segments.flatMap (·.encode (header.elfClass == 2))
  let front := header.write ++ table ++ notes ++ padding
  have segmentsLength : segments.length = 1 + process.mappings.size := by
    rw [List.length_cons, length_loadSegments, MappingTable.length_values,
      Nat.add_comm]
  have tableEnd : note.offset = (header.write ++ table).length := by
    rw [List.length_append, Segment.length_flatMap_encode, segmentsLength,
      offsetValue]
  have frontLength : front.length = loadOffset := by
    rw [List.length_append, List.length_append, ← tableEnd, ← filesz,
      loadOffsetValue]
  have imageLength : image.length = emptyOffset := by
    rw [emptyValue, ← frontLength, ← List.length_append]
    exact congrArg List.length imageValue
  obtain ⟨headersRead, notesRead⟩ :=
    readProgramHeaders_image (padding ++ process.mappings.values.flatMap (·.data))
      classValid (count.trans segmentsLength.symm) fits rfl tableEnd filesz
  rw [← List.append_assoc, ← imageValue] at headersRead notesRead
  refine ⟨notes, note, front, notesOk, ?_, type, filesz, notesRead,
    frontLength.trans pageValue, imageValue⟩
  rw [imageLength, frontLength, headersRead]

/-- Reading a written image back. Its program headers are one `PT_NOTE`, whose
file range holds the note segment, and one `PT_LOAD` for each mapping in key
order, with the range, permissions and data of the mapping. -/
theorem writeCore_decodes
    (process : CrashedProcess)
    (image : List UInt8)
    (succeeded : writeCore process = .ok image) :
    ∃ (notes : List UInt8) (note : Segment) (loads : List Segment),
      buildNoteSegment process = .ok notes ∧
      readProgramHeaders image = some (note :: loads) ∧
      note.type = 4 ∧
      note.filesz = notes.length ∧
      slice image note.offset note.filesz = notes ∧
      loads.length = process.mappings.size ∧
      List.Forall₂ (LoadedAs image) process.mappings.values loads := by
  obtain ⟨notes, note, front, notesOk, headers, type, filesz, content, _,
    imageParts⟩ := writeCore_ok succeeded
  have loaded := loadSegments_loadedAs imageParts
  refine ⟨notes, note, _, notesOk, headers, type, filesz, content, ?_, loaded⟩
  rw [length_loadSegments, MappingTable.length_values]

/-- A process with one mapping that carries data and one that does not. -/
def sampleProcess (architecture : Architecture) : CrashedProcess :=
  let mappings : MappingTable := (∅ : MappingTable).insert 0x1000
    ⟨0x1000, 0x2000, 0, ⟨true, false, true⟩, some "/bin/app", []⟩
  let mappings := mappings.insert 0x3000
    ⟨0x3000, 0x4000, 0, .readWrite, none, [1, 2, 3]⟩
  { CrashedProcess.new architecture with mappings }

/-- The sample process is written and decoded in the 32-bit class. -/
theorem writeCore_decodes_sample :
    ∃ (image notes : List UInt8) (note : Segment) (loads : List Segment),
      writeCore (sampleProcess .arm) = .ok image ∧
      buildNoteSegment (sampleProcess .arm) = .ok notes ∧
      readProgramHeaders image = some (note :: loads) ∧
      note.type = 4 ∧
      note.filesz = notes.length ∧
      slice image note.offset note.filesz = notes ∧
      loads.length = (sampleProcess .arm).mappings.size ∧
      List.Forall₂ (LoadedAs image) (sampleProcess .arm).mappings.values
        loads := by
  obtain ⟨image, succeeded⟩ : ∃ image,
      writeCore (sampleProcess .arm) = .ok image :=
    exists_ok_of_isOk (by decide +kernel)
  obtain ⟨notes, note, loads, decoded⟩ :=
    writeCore_decodes (sampleProcess .arm) image succeeded
  exact ⟨image, notes, note, loads, succeeded, decoded⟩

end Md2Core
