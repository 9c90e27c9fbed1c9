import Md2Core.Foundation.RecordStream
import Md2Core.LinuxMaps
import Md2Core.Notes.FileRecords

/-!
# Reading `NT_FILE` back

A reader takes the count and the page size, then the words of each file, then
the names. On a payload that was built it finds a name for each file. When no name
has a NUL it recovers the files of the mapping table and uses the payload up.
-/

namespace Md2Core

open Foundation

/-- One file as a reader of `NT_FILE` sees it, with the offset in pages. -/
structure FileEntry where
  startAddress : Nat
  endAddress : Nat
  pageOffset : Nat
  name : String
  deriving DecidableEq, Repr

/-- Take the three words of a file. -/
def takeFileRange
    (word : Nat)
    (bytes : List UInt8) : Option ((Nat × Nat × Nat) × List UInt8) := do
  let (startAddress, rest) ← takeLe word bytes
  let (endAddress, rest) ← takeLe word rest
  let (pageOffset, rest) ← takeLe word rest
  return ((startAddress, endAddress, pageOffset), rest)

/-- Take a name with its NUL. -/
def takeFileName (bytes : List UInt8) : Option (String × List UInt8) := do
  let (text, rest) ← takeCString bytes
  let name ← fromUtf8 text
  return (name, rest)

/-- The page size, the files and the rest of the payload. -/
def readNtFile
    (word : Nat)
    (payload : List UInt8) : Option (Nat × List FileEntry × List UInt8) := do
  let (count, rest) ← takeLe word payload
  let (pageSize, rest) ← takeLe word rest
  let (ranges, rest) ← readMany (takeFileRange word) count rest
  let (names, rest) ← readMany takeFileName count rest
  let entries := ranges.zipWith
    (fun range name => ⟨range.1, range.2.1, range.2.2, name⟩) names
  return (pageSize, entries, rest)

/-- What a reader should see of a mapping that has a file name. -/
def Mapping.fileEntry (mapping : Mapping) : Option FileEntry :=
  mapping.filename.map fun filename =>
    ⟨mapping.startAddress.toNat, mapping.endAddress.toNat,
      mapping.offset.toNat / 4096, filename⟩

/-- The file entries of a table in ascending key order. -/
def fileEntries (mappings : MappingTable) : List FileEntry :=
  mappings.values.filterMap Mapping.fileEntry

namespace FileRecord

/-- The three words of a file as a reader sees them. -/
def range (record : FileRecord) : Nat × Nat × Nat :=
  (record.startAddress.toNat, record.endAddress.toNat, record.pageOffset.toNat)

/-- A file as a reader sees it. -/
def entry (record : FileRecord) : FileEntry :=
  ⟨record.startAddress.toNat, record.endAddress.toNat,
    record.pageOffset.toNat, record.name⟩

end FileRecord

theorem map_entry_fileRecords (mappings : MappingTable) :
    (fileRecords mappings).map FileRecord.entry = fileEntries mappings := by
  unfold fileRecords fileEntries
  rw [List.map_filterMap]
  congr 1
  funext mapping
  unfold Mapping.fileRecord Mapping.fileEntry
  rw [Option.map_map]
  rfl

/-- The words of a file are taken off the front of the table. -/
theorem takeFileRange_append
    {word : Nat}
    {record : FileRecord}
    (fit : ∀ value ∈ record.words, value < 256 ^ word)
    (rest : List UInt8) :
    takeFileRange word (encodeWords word record.words ++ rest) =
      some (record.range, rest) := by
  simp only [FileRecord.words, List.forall_mem_cons] at fit
  obtain ⟨startFits, endFits, offsetFits, _⟩ := fit
  unfold takeFileRange FileRecord.words
  simp only [encodeWords_cons, encodeWords_nil, List.append_nil,
    List.append_assoc, takeLe_append startFits, takeLe_append endFits,
    takeLe_append offsetFits, Option.bind_eq_bind, Option.bind_some]
  rfl

/-- A name is taken off the front of the name area. -/
theorem takeFileName_append
    {name : String}
    (zeroFree : 0 ∉ asBytes name)
    (rest : List UInt8) :
    takeFileName (asBytes name ++ 0 :: rest) = some (name, rest) := by
  unfold takeFileName
  rw [takeCString_append zeroFree]
  simp only [Option.bind_eq_bind, Option.bind_some, fromUtf8_asBytes]
  rfl

/-! ## The name area -/

/-- Names without a NUL are read as they are. -/
theorem readMany_takeFileName
    {records : List FileRecord}
    (zeroFree : ∀ record ∈ records, 0 ∉ asBytes record.name) :
    readMany takeFileName records.length (records.flatMap FileRecord.nameBytes) =
      some (records.map FileRecord.name, []) := by
  have names := @readMany_flatMap _ _ _ takeFileName FileRecord.nameBytes
    FileRecord.name records (by
      intro record member rest
      rw [FileRecord.nameBytes, List.append_assoc, List.singleton_append]
      exact takeFileName_append (zeroFree record member) rest) []
  rwa [List.append_nil] at names

/-- Only the character NUL has a zero byte. -/
theorem eq_nul_of_zero_mem_utf8EncodeChar
    {char : Char}
    (member : 0 ∈ String.utf8EncodeChar char) :
    char = '\x00' := by
  apply Char.toNat_inj.mp
  change char.val.toNat = 0
  unfold String.utf8EncodeChar at member
  dsimp only at member
  repeat' split at member
  all_goals
    simp only [List.mem_cons, List.not_mem_nil, or_false, ← UInt8.toNat_inj,
      UInt8.toNat_ofNat', UInt8.toNat_zero] at member
    omega

/-- A text with enough NULs begins with that many names, whatever they are. -/
theorem exists_readMany_takeFileName
    {count : Nat}
    {text : List Char}
    (enough : count ≤ text.count '\x00') :
    ∃ names, readMany takeFileName count (asBytes (String.ofList text)) =
      some names := by
  induction count generalizing text with
  | zero => exact ⟨_, rfl⟩
  | succ count inductionHypothesis =>
      obtain ⟨front, back, rfl, free⟩ := List.eq_append_cons_of_mem
        (List.count_pos_iff.mp (Nat.lt_of_lt_of_le count.succ_pos enough))
      rw [List.count_append, List.count_eq_zero.mpr free, List.count_cons_self,
        Nat.zero_add, Nat.add_le_add_iff_right] at enough
      obtain ⟨⟨names, rest⟩, namesRead⟩ := inductionHypothesis enough
      have zeroFree : 0 ∉ asBytes (String.ofList front) := by
        rw [asBytes_ofList, List.mem_flatMap]
        rintro ⟨char, inFront, zero⟩
        exact free (eq_nul_of_zero_mem_utf8EncodeChar zero ▸ inFront)
      have parts : asBytes (String.ofList (front ++ '\x00' :: back)) =
          asBytes (String.ofList front) ++ 0 :: asBytes (String.ofList back) := by
        simp only [asBytes_ofList, List.flatMap_append, List.flatMap_cons]
        rfl
      rw [parts, readMany, takeFileName_append zeroFree]
      simp only [Option.bind_eq_bind, Option.bind_some, namesRead]
      exact ⟨_, rfl⟩

/-- The name area of some files as text. -/
def nameText (records : List FileRecord) : List Char :=
  records.flatMap fun record => record.name.toList ++ ['\x00']

theorem asBytes_nameText (records : List FileRecord) :
    asBytes (String.ofList (nameText records)) =
      records.flatMap FileRecord.nameBytes := by
  rw [asBytes_ofList, nameText, List.flatMap_assoc]
  congr 1
  funext record
  rw [List.flatMap_append, ← asBytes_ofList, String.ofList_toList]
  rfl

/-- The name area has a NUL for each file. -/
theorem length_le_count_nameText (records : List FileRecord) :
    records.length ≤ (nameText records).count '\x00' := by
  induction records with
  | nil => exact Nat.le_refl 0
  | cons record rest inductionHypothesis =>
      rw [nameText, List.flatMap_cons, List.count_append, List.count_append,
        List.length_cons]
      unfold nameText at inductionHypothesis
      have own : List.count '\x00' ['\x00'] = 1 := rfl
      omega

/-! ## Whole payloads -/

/-- Encoded files are read with the names that are read of the name area. -/
theorem readNtFile_encodeFileRecords
    {word : Nat}
    {records : List FileRecord}
    {names : List String}
    {rest : List UInt8}
    (page : defaultPageSize.toNat < 256 ^ word)
    (fit : FileRecordsFit word records)
    (named : readMany takeFileName records.length
      (records.flatMap FileRecord.nameBytes) = some (names, rest)) :
    readNtFile word (encodeFileRecords word records) =
      some (defaultPageSize.toNat,
        (records.map FileRecord.range).zipWith
          (fun range name => ⟨range.1, range.2.1, range.2.2, name⟩) names,
        rest) := by
  obtain ⟨_, countFits, wordsFit⟩ := fit
  have ranges := @readMany_flatMap _ _ _ (takeFileRange word) _
    FileRecord.range records
    (fun record member => takeFileRange_append (wordsFit record member))
  unfold readNtFile encodeFileRecords
  simp only [encodeWords_cons, encodeWords_nil, List.append_nil,
    List.append_assoc, takeLe_append countFits, takeLe_append page, ranges,
    named, Option.bind_eq_bind, Option.bind_some]
  rfl

/-- A built payload can be read. -/
theorem exists_readNtFile
    {architecture : Architecture}
    {mappings : MappingTable}
    {payload : List UInt8}
    (built : buildNtFilePayload architecture mappings = .ok payload) :
    ∃ files rest, readNtFile architecture.longSize payload =
      some (4096, files, rest) := by
  obtain ⟨fit, rfl⟩ := buildNtFilePayload_eq_ok.mp built
  obtain ⟨⟨names, rest⟩, named⟩ := exists_readMany_takeFileName
    (length_le_count_nameText (fileRecords mappings))
  rw [asBytes_nameText] at named
  exact ⟨_, _, readNtFile_encodeFileRecords (defaultPageSize_fits architecture) fit
    named⟩

/-- A built payload is read as the files of the table, if no name has a NUL. -/
theorem readNtFile_of_zeroFree
    {architecture : Architecture}
    {mappings : MappingTable}
    {payload : List UInt8}
    (zeroFree : ∀ mapping ∈ mappings.values, ∀ filename,
      mapping.filename = some filename → 0 ∉ asBytes filename)
    (built : buildNtFilePayload architecture mappings = .ok payload) :
    readNtFile architecture.longSize payload =
      some (4096, fileEntries mappings, []) := by
  obtain ⟨fit, rfl⟩ := buildNtFilePayload_eq_ok.mp built
  have named := @readMany_takeFileName (fileRecords mappings) (by
    intro record member
    obtain ⟨mapping, inTable, made⟩ := List.mem_filterMap.mp member
    obtain ⟨filename, named, rfl⟩ := Option.map_eq_some_iff.mp made
    exact zeroFree mapping inTable filename named)
  rw [readNtFile_encodeFileRecords (defaultPageSize_fits architecture) fit named,
    ← map_entry_fileRecords, List.zipWith_map, List.zipWith_self]
  rfl

/-- The files fit exactly when their count and all their words do. -/
theorem fileRecordsFit_iff
    {word : Nat}
    {mappings : MappingTable} :
    FileRecordsFit word (fileRecords mappings) ↔
      (fileEntries mappings).length < 2 ^ 64 ∧
        (fileEntries mappings).length < 256 ^ word ∧
        ∀ entry ∈ fileEntries mappings, entry.startAddress < 256 ^ word ∧
          entry.endAddress < 256 ^ word ∧ entry.pageOffset < 256 ^ word := by
  unfold FileRecordsFit
  rw [← map_entry_fileRecords, List.length_map, List.forall_mem_map]
  simp only [FileRecord.words, List.forall_mem_cons, List.not_mem_nil,
    false_implies, implies_true, and_true, FileRecord.entry]

/-- Every listed word fits 64 bits. -/
theorem lt_of_mem_fileEntries
    {mappings : MappingTable}
    {entry : FileEntry}
    (member : entry ∈ fileEntries mappings) :
    entry.startAddress < 2 ^ 64 ∧ entry.endAddress < 2 ^ 64 ∧
      entry.pageOffset < 2 ^ 64 := by
  rw [← map_entry_fileRecords] at member
  obtain ⟨record, _, rfl⟩ := List.mem_map.mp member
  exact ⟨record.startAddress.toNat_lt, record.endAddress.toNat_lt,
    record.pageOffset.toNat_lt⟩

/-- A built payload decodes to the files of the table. It is always built for a
64-bit target, the number of mappings being a `usize`, and for a 32-bit target
exactly when the count and all words of the listed files fit 32 bits. -/
theorem buildNtFilePayload_decodes
    (architecture : Architecture)
    (mappings : MappingTable)
    (zeroFree : ∀ mapping ∈ mappings.values, ∀ filename,
      mapping.filename = some filename → 0 ∉ asBytes filename) :
    (∀ payload, buildNtFilePayload architecture mappings = .ok payload →
      readNtFile architecture.longSize payload =
        some (4096, fileEntries mappings, [])) ∧
    (architecture.is64bit = true → mappings.size < 2 ^ 64 →
      ∃ payload, buildNtFilePayload architecture mappings = .ok payload) ∧
    (architecture.is64bit = false →
      ((∃ payload, buildNtFilePayload architecture mappings = .ok payload) ↔
        (fileEntries mappings).length < 2 ^ 32 ∧
          ∀ entry ∈ fileEntries mappings, entry.startAddress < 2 ^ 32 ∧
            entry.endAddress < 2 ^ 32 ∧ entry.pageOffset < 2 ^ 32)) := by
  have built : (∃ payload,
      buildNtFilePayload architecture mappings = .ok payload) ↔
        FileRecordsFit architecture.longSize (fileRecords mappings) := by
    simp only [buildNtFilePayload_eq_ok, exists_and_left, exists_eq, and_true]
  rw [built, fileRecordsFit_iff]
  unfold Architecture.longSize
  refine ⟨?_, ?_, ?_⟩
  · intro payload succeeded
    have decoded := readNtFile_of_zeroFree zeroFree succeeded
    unfold Architecture.longSize at decoded
    exact decoded
  · intro wide counted
    have length : (fileEntries mappings).length ≤ mappings.size := by
      rw [← mappings.length_values]
      exact List.length_filterMap_le _ _
    rw [if_pos wide]
    exact ⟨by omega, by omega, fun entry member => lt_of_mem_fileEntries member⟩
  · intro narrow
    rw [if_neg (by simp [narrow])]
    constructor
    · rintro ⟨_, count, words⟩
      exact ⟨count, words⟩
    · rintro ⟨count, words⟩
      exact ⟨by omega, count, words⟩

/-- A table with one file and one anonymous mapping. -/
def sampleFileTable : MappingTable :=
  ((∅ : MappingTable).insert 0x1000
      ⟨0x1000, 0x3000, 0x2345, ⟨true, false, true⟩, some "/a", []⟩).insert 0x4000
    ⟨0x4000, 0x5000, 0, ⟨true, true, false⟩, none, []⟩

/-- The file is listed for a 32-bit target, with its offset in pages. -/
theorem buildNtFilePayload_decodes_sample :
    ∃ payload, buildNtFilePayload .x86 sampleFileTable = .ok payload ∧
      readNtFile 4 payload = some (4096, [⟨0x1000, 0x3000, 2, "/a"⟩], []) := by
  have named : sampleFileTable.values.all (fun mapping =>
      mapping.filename.all fun filename => !(asBytes filename).contains 0) =
        true := by decide +kernel
  have listed : fileEntries sampleFileTable = [⟨0x1000, 0x3000, 2, "/a"⟩] := by
    decide +kernel
  obtain ⟨decodes, _, built⟩ := buildNtFilePayload_decodes .x86 sampleFileTable
    (by
      intro mapping member filename known
      have checked := List.all_eq_true.mp named mapping member
      rw [known] at checked
      simpa using checked)
  rw [listed] at decodes built
  obtain ⟨payload, succeeded⟩ := (built (by decide)).mpr
    ⟨by decide, by simp⟩
  exact ⟨payload, succeeded, decodes payload succeeded⟩

end Md2Core
