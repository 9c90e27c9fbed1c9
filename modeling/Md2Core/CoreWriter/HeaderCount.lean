import Md2Core.CoreWriter.Layout

/-!
# The number of program headers

`writeCore` rejects a count that is no 16-bit number. The largest 16-bit number
is no count: it sends a reader to the section headers, and the image has none.
The image of a process with that many mappings less one is written and not
readable; every other image is.
-/

namespace Md2Core

open Foundation

/-! ## Reading the count -/

/-- A reader of a written file header takes `e_phnum` for the count, unless it is
the reserved value. -/
theorem readExtendedProgramHeaders_write
    (header : ElfHeader)
    (back : List UInt8)
    (classValid : header.elfClass = 1 ∨ header.elfClass = 2) :
    readExtendedProgramHeaders (header.write ++ back) =
      if header.phnum.toNat = 0xFFFF then none
      else readProgramHeaders (header.write ++ back) := by
  have located : ∀ wide : Bool, header.elfClass = (if wide then 2 else 1) →
      readExtendedProgramHeaders (header.write ++ back) =
        if header.phnum.toNat = 0xFFFF then none
        else readProgramHeaders (header.write ++ back) := by
    intro wide classValue
    have readClass := (header.readLe_ident back).2
    obtain ⟨_, _, phnum⟩ := header.readLe_locations back wide classValue
    have shoff : readLe (header.write ++ back) (if wide then 40 else 32)
        (if wide then 8 else 4) = some 0 := by
      obtain ⟨elfClass, machine, count⟩ := header
      subst classValue
      exact @ElfHeader.readLe_write _ back 5 _ _ _ (by cases wide <;> rfl)
        (by cases wide <;> rfl) (by cases wide <;> decide)
    have wideValue : decide (header.elfClass.toNat = 2) = wide := by
      rw [classValue]
      cases wide <;> rfl
    rw [readExtendedProgramHeaders, readClass]
    simp only [Option.bind_eq_bind, Option.bind_some, wideValue, phnum, shoff]
    rfl
  rcases classValid with narrow | wide
  · exact located false narrow
  · exact located true wide

/-- A written image starts with a file header that counts the note and the
mappings. -/
theorem exists_header_of_writeCore
    {process : CrashedProcess}
    {image : List UInt8}
    (succeeded : writeCore process = .ok image) :
    ∃ (header : ElfHeader) (behind : List UInt8),
      image = header.write ++ behind ∧
        (header.elfClass = 1 ∨ header.elfClass = 2) ∧
        header.phnum.toNat = 1 + process.mappings.size := by
  obtain ⟨header, notes, padding, note, emptyOffset, loadOffset, _, classValid, count,
    _, _, _, _, _, _, _, imageValue⟩ := writeCore_parts succeeded
  simp only [List.append_assoc] at imageValue
  exact ⟨header, _, imageValue, classValid, count⟩

/-- A reader finds the headers of the note and of every mapping. -/
def FindsAllHeaders (process : CrashedProcess) (image : List UInt8) : Prop :=
  ∃ segments,
    readExtendedProgramHeaders image = some segments ∧
      segments.length = 1 + process.mappings.size

theorem findsAllHeaders_of_ne
    {process : CrashedProcess}
    {image : List UInt8}
    (succeeded : writeCore process = .ok image)
    (countable : process.mappings.size ≠ 65534) :
    FindsAllHeaders process image := by
  obtain ⟨header, behind, rfl, classValid, count⟩ := exists_header_of_writeCore succeeded
  obtain ⟨_, note, front, _, found, _⟩ := writeCore_ok succeeded
  have read := readExtendedProgramHeaders_write header behind classValid
  rw [if_neg (by omega), found] at read
  refine ⟨_, read, ?_⟩
  rw [List.length_cons, length_loadSegments, MappingTable.length_values,
    Nat.add_comm]

/-- With 65534 mappings `e_phnum` is the reserved value, and no header is found. -/
theorem not_findsAllHeaders
    {process : CrashedProcess}
    {image : List UInt8}
    (succeeded : writeCore process = .ok image)
    (crowded : process.mappings.size = 65534) :
    ¬FindsAllHeaders process image := by
  obtain ⟨header, behind, rfl, classValid, count⟩ := exists_header_of_writeCore succeeded
  rintro ⟨segments, found, _⟩
  rw [readExtendedProgramHeaders_write header behind classValid,
    if_pos (by omega)] at found
  contradiction

/-! ## A process with as many mappings -/

/-- A mapping without a name and without data. -/
structure Mapping.IsBare (mapping : Mapping) : Prop where
  filename : mapping.filename = none
  data : mapping.data = []
  ordered : mapping.startAddress ≤ mapping.endAddress

/-- One page of anonymous memory. -/
def crowdedMapping (index : Nat) : Mapping where
  startAddress := UInt64.ofNat (4096 * index)
  endAddress := UInt64.ofNat (4096 * index + 4096)
  offset := 0
  permissions := .readWrite
  filename := none
  data := []

/-- Adjacent pages of anonymous memory. -/
def crowdedMappings : Nat → MappingTable
  | 0 => ∅
  | count + 1 =>
      (crowdedMappings count).insert (crowdedMapping count).startAddress
        (crowdedMapping count)

/-- A process with adjacent pages of anonymous memory. -/
def crowdedProcess (count : Nat) : CrashedProcess :=
  { CrashedProcess.new .x86_64 with mappings := crowdedMappings count }

theorem toNat_crowdedMapping
    {index : Nat}
    (small : index < 2 ^ 16) :
    (crowdedMapping index).startAddress.toNat = 4096 * index ∧
      (crowdedMapping index).endAddress.toNat = 4096 * index + 4096 := by
  have endFits : 4096 * index + 4096 < 2 ^ 64 := by omega
  have startFits : 4096 * index < 2 ^ 64 := by omega
  exact ⟨UInt64.toNat_ofNat_of_lt' startFits, UInt64.toNat_ofNat_of_lt' endFits⟩

theorem isBare_crowdedMapping
    {index : Nat}
    (small : index < 2 ^ 16) :
    (crowdedMapping index).IsBare := by
  obtain ⟨startValue, endValue⟩ := toNat_crowdedMapping small
  refine ⟨rfl, rfl, ?_⟩
  rw [UInt64.le_iff_toNat_le]
  omega

/-- Every page of the table lies below the next one. -/
theorem crowdedMappings_below
    {count : Nat}
    (small : count ≤ 2 ^ 16)
    (key : UInt64)
    (mapping : Mapping)
    (found : (crowdedMappings count)[key]? = some mapping) :
    key.toNat < 4096 * count ∧ mapping.IsBare := by
  induction count with
  | zero =>
      rw [crowdedMappings, Std.ExtTreeMap.getElem?_empty] at found
      contradiction
  | succ count inductionHypothesis =>
      rw [crowdedMappings, MappingTable.getElem?_insert] at found
      split at found
      · next here =>
        obtain rfl := Option.some.inj found
        rw [← here, (toNat_crowdedMapping small).1]
        exact ⟨by omega, isBare_crowdedMapping small⟩
      · obtain ⟨below, bare⟩ := inductionHypothesis (by omega) found
        exact ⟨by omega, bare⟩

theorem size_crowdedMappings
    {count : Nat}
    (small : count ≤ 2 ^ 16) :
    (crowdedMappings count).size = count := by
  induction count with
  | zero => rw [crowdedMappings, Std.ExtTreeMap.size_empty]
  | succ count inductionHypothesis =>
      have absent :
          (crowdedMappings count).contains (crowdedMapping count).startAddress = false := by
        rw [Std.ExtTreeMap.contains_eq_isSome_getElem?]
        cases found : (crowdedMappings count)[(crowdedMapping count).startAddress]? with
        | none => rfl
        | some mapping =>
            have below := (crowdedMappings_below (by omega) _ mapping found).1
            rw [(toNat_crowdedMapping small).1] at below
            omega
      rw [crowdedMappings, Std.ExtTreeMap.size_insert, absent,
        inductionHypothesis (by omega)]
      rfl

theorem isBare_of_mem_values
    {count : Nat}
    (small : count ≤ 2 ^ 16) :
    ∀ mapping ∈ (crowdedMappings count).values, mapping.IsBare := by
  intro mapping member
  obtain ⟨key, found⟩ := MappingTable.mem_values.mp member
  exact (crowdedMappings_below small key mapping found).2

/-! ## Writing its image -/

/-- Bare mappings leave no trace in the notes. -/
theorem buildNoteSegment_of_isBare
    {mappings : MappingTable}
    (bare : ∀ mapping ∈ mappings.values, mapping.IsBare) :
    buildNoteSegment { CrashedProcess.new .x86_64 with mappings } =
      buildNoteSegment (CrashedProcess.new .x86_64) := by
  have unnamed :
      (mappings.values.filterMap fun mapping =>
        mapping.filename.map fun filename => (mapping, filename)) = [] := by
    rw [List.filterMap_eq_nil_iff]
    intro mapping member
    rw [(bare mapping member).filename]
    rfl
  have payload :
      buildNtFilePayload .x86_64 mappings = buildNtFilePayload .x86_64 ∅ := by
    rw [buildNtFilePayload, unnamed]
    rfl
  unfold buildNoteSegment
  simp only [CrashedProcess.new, payload]
  rfl

theorem exists_buildNoteSegment_new :
    ∃ notes,
      buildNoteSegment (CrashedProcess.new .x86_64) = .ok notes ∧
        notes.length < 2 ^ 16 := by
  have short :
      (match buildNoteSegment (CrashedProcess.new .x86_64) with
        | .ok notes => decide (notes.length < 2 ^ 16)
        | .error _ => false) = true := by
    decide +kernel
  cases built : buildNoteSegment (CrashedProcess.new .x86_64) with
  | error fault => simp [built] at short
  | ok notes => exact ⟨notes, rfl, by simpa [built] using short⟩

/-- The headers of bare mappings are written in the 64-bit class. -/
theorem exists_writeLoadHeaders
    {mappings : List Mapping}
    (bare : ∀ mapping ∈ mappings, mapping.IsBare)
    (emptyLoadOffset loadOffset : UInt64) :
    ∃ headers,
      writeLoadHeaders 2 emptyLoadOffset loadOffset mappings = .ok headers := by
  induction mappings with
  | nil => exact ⟨[], rfl⟩
  | cons mapping rest inductionHypothesis =>
      obtain ⟨bareHere, bareRest⟩ := List.forall_mem_cons.mp bare
      have range :
          loadRange emptyLoadOffset loadOffset mapping =
            .ok (emptyLoadOffset, 0, loadOffset) := by
        rw [loadRange, bareHere.data]
        rfl
      rw [writeLoadHeaders]
      apply exists_bind_eq_ok
      · rw [subU64, if_pos bareHere.ordered]
      apply exists_bind_eq_ok range
      apply exists_bind_eq_ok
      · rw [ProgramHeader.write, if_pos rfl]
        rfl
      obtain ⟨headers, headersOk⟩ := inductionHypothesis bareRest
      apply exists_bind_eq_ok headersOk
      exact ⟨_, rfl⟩

/-- The image of a 64-bit process with bare mappings is written when their number
and one is a 16-bit number. -/
theorem exists_writeCore_of_isBare
    {mappings : MappingTable}
    (counted : 1 + mappings.size < 2 ^ 16)
    (bare : ∀ mapping ∈ mappings.values, mapping.IsBare) :
    ∃ image, writeCore { CrashedProcess.new .x86_64 with mappings } = .ok image := by
  obtain ⟨notes, notesOk, notesSmall⟩ := exists_buildNoteSegment_new
  obtain ⟨tableSize, tableOk, tableValue⟩ :=
    @exists_exactU64 (56 * (1 + mappings.size)) (by omega)
  obtain ⟨noteOffset, offsetOk, offsetValue⟩ :=
    @exists_exactU64 (64 + tableSize.toNat) (by omega)
  obtain ⟨noteFilesz, fileszOk, fileszValue⟩ : ∃ length,
      lenU64 notes = .ok length ∧ length.toNat = notes.length := by
    have fits : notes.length < 2 ^ 64 := by omega
    have value := UInt64.toNat_ofNat_of_lt' fits
    exact ⟨_, lenU64_eq_ok.mpr value, value⟩
  obtain ⟨noteEnd, endOk, endValue⟩ :=
    @exists_exactU64 (noteOffset.toNat + noteFilesz.toNat) (by omega)
  have padBound := roundUp_sub_lt (show 0 < 4096 by decide) noteEnd.toNat
  rw [← toNat_notePad] at padBound
  obtain ⟨loadOffset, loadOk, loadValue⟩ :=
    @exists_exactU64 (noteEnd.toNat +
      (if noteEnd % ptLoadAlignment = 0 then 0
        else ptLoadAlignment - noteEnd % ptLoadAlignment).toNat) (by omega)
  have noData : (mappings.values.map fun mapping => mapping.data.length).sum = 0 := by
    have empty :
        (mappings.values.map fun mapping => mapping.data.length) =
          mappings.values.map fun _ => 0 := by
      apply List.map_congr_left
      intro mapping inTable
      rw [(bare mapping inTable).data, List.length_nil]
    rw [empty, List.map_const', List.sum_replicate_nat, Nat.mul_zero]
  obtain ⟨totalData, totalOk, totalValue⟩ :=
    @exists_exactU64 (mappings.values.map fun mapping => mapping.data.length).sum
      (by omega)
  obtain ⟨emptyLoadOffset, emptyOk, -⟩ :=
    @exists_exactU64 (loadOffset.toNat + totalData.toNat) (by omega)
  obtain ⟨headers, headersOk⟩ := exists_writeLoadHeaders bare emptyLoadOffset loadOffset
  unfold writeCore
  apply exists_bind_eq_ok ((buildNoteSegment_of_isBare bare).trans notesOk)
  apply exists_bind_eq_ok
  · rw [okOr_eq_ok, u16TryFrom_eq_some]
    exact UInt16.toNat_ofNat_of_lt' counted
  apply exists_bind_eq_ok tableOk
  apply exists_bind_eq_ok offsetOk
  apply exists_bind_eq_ok fileszOk
  apply exists_bind_eq_ok endOk
  apply exists_bind_eq_ok loadOk
  apply exists_bind_eq_ok totalOk
  apply exists_bind_eq_ok emptyOk
  apply exists_bind_eq_ok
  · rfl
  apply exists_bind_eq_ok headersOk
  exact ⟨_, rfl⟩

/-! ## Which images are readable -/

/-- A written image has a readable number of program headers exactly when the
process does not have 65534 mappings. -/
theorem writeCore_findsAllHeaders_iff
    (process : CrashedProcess)
    (image : List UInt8)
    (succeeded : writeCore process = .ok image) :
    FindsAllHeaders process image ↔ process.mappings.size ≠ 65534 := by
  constructor
  · intro findsAll crowded
    exact not_findsAllHeaders succeeded crowded findsAll
  · exact findsAllHeaders_of_ne succeeded

/-- The image of a process with two mappings is readable. -/
theorem writeCore_findsAllHeaders_iff_sample :
    ∃ image,
      writeCore (sampleProcess .arm) = .ok image ∧
        FindsAllHeaders (sampleProcess .arm) image := by
  obtain ⟨image, succeeded⟩ : ∃ image, writeCore (sampleProcess .arm) = .ok image :=
    exists_ok_of_isOk (by decide +kernel)
  refine ⟨image, succeeded, ?_⟩
  exact (writeCore_findsAllHeaders_iff _ image succeeded).mpr (by decide +kernel)

theorem exists_writeCore_crowdedProcess
    {count : Nat}
    (small : 1 + count < 2 ^ 16) :
    ∃ image, writeCore (crowdedProcess count) = .ok image := by
  apply exists_writeCore_of_isBare
  · rwa [size_crowdedMappings (by omega)]
  · exact isBare_of_mem_values (by omega)

/-- The image of a process with 65534 mappings is written, and a reader does not
find its program headers. -/
theorem exists_core_unreadable :
    ∃ image,
      writeCore (crowdedProcess 65534) = .ok image ∧
        ¬FindsAllHeaders (crowdedProcess 65534) image := by
  obtain ⟨image, succeeded⟩ := @exists_writeCore_crowdedProcess 65534 (by decide)
  refine ⟨image, succeeded, ?_⟩
  apply not_findsAllHeaders succeeded
  exact size_crowdedMappings (by decide)

end Md2Core
