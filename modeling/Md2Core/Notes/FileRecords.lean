import Md2Core.Notes

/-!
# The layout of `NT_FILE`

The payload is a count, the page size, three words for each file-backed mapping
in key order, and then their names, each with a NUL. It can be built exactly when
every word fits the size of a `long`.
-/

namespace Md2Core

open Foundation

/-- One file of `NT_FILE`, with the offset in pages. -/
structure FileRecord where
  startAddress : UInt64
  endAddress : UInt64
  pageOffset : UInt64
  name : String
  deriving DecidableEq, Repr

namespace FileRecord

/-- The three words of a file. -/
def words (record : FileRecord) : List Nat :=
  [record.startAddress.toNat, record.endAddress.toNat, record.pageOffset.toNat]

/-- The name of a file with its NUL. -/
def nameBytes (record : FileRecord) : List UInt8 :=
  asBytes record.name ++ [0]

end FileRecord

/-- The file of a mapping that has one. -/
def Mapping.fileRecord (mapping : Mapping) : Option FileRecord :=
  mapping.filename.map fun filename =>
    ⟨mapping.startAddress, mapping.endAddress,
      mapping.offset / defaultPageSize, filename⟩

/-- The files of a table in key order. -/
def fileRecords (mappings : MappingTable) : List FileRecord :=
  mappings.values.filterMap Mapping.fileRecord

/-- The files of a table are those of its mappings. -/
theorem mem_fileRecords_iff {mappings : MappingTable} {record : FileRecord} :
    record ∈ fileRecords mappings ↔
      ∃ (key : UInt64) (mapping : Mapping), mappings[key]? = some mapping ∧
        mapping.fileRecord = some record := by
  rw [fileRecords, List.mem_filterMap]
  constructor
  · rintro ⟨mapping, member, made⟩
    obtain ⟨key, found⟩ := MappingTable.mem_values.mp member
    exact ⟨key, mapping, found, made⟩
  · rintro ⟨key, mapping, found, made⟩
    exact ⟨mapping, MappingTable.mem_values.mpr ⟨key, found⟩, made⟩

/-- The bytes of an `NT_FILE` payload. -/
def encodeFileRecords (word : Nat) (records : List FileRecord) : List UInt8 :=
  encodeWords word [records.length, defaultPageSize.toNat] ++
    records.flatMap (fun record => encodeWords word record.words) ++
    records.flatMap FileRecord.nameBytes

/-- The count and all words of the files fit. -/
def FileRecordsFit (word : Nat) (records : List FileRecord) : Prop :=
  records.length < 2 ^ 64 ∧ records.length < 256 ^ word ∧
    ∀ record ∈ records, ∀ value ∈ record.words, value < 256 ^ word

section Word

variable {word : Nat}

theorem tryPushLong_eq_ok
    {out bytes : List UInt8}
    {value : UInt64}
    {field : String}
    (size : word = 4 ∨ word = 8) :
    tryPushLong out value word field = .ok bytes ↔
      value.toNat < 256 ^ word ∧ bytes = out ++ leBytes word value.toNat := by
  have bound := value.toNat_lt
  unfold tryPushLong
  rcases size with rfl | rfl
  · simp only [show ¬(4 : Nat) = 8 by decide, if_false, bind_eq_ok, okOr_eq_ok,
      u32TryFrom_eq_some, pure_eq_ok]
    constructor
    · rintro ⟨narrow, narrowValue, rfl⟩
      rw [narrowValue]
      exact ⟨narrowValue ▸ narrow.toNat_lt, rfl⟩
    · rintro ⟨small, rfl⟩
      refine ⟨UInt32.ofNat value.toNat, ?_, ?_⟩
      · exact UInt32.toNat_ofNat_of_lt' small
      · rw [UInt32.toNat_ofNat_of_lt' small]
  · simp only [if_true, pure_eq_ok]
    exact ⟨fun equal => ⟨bound, equal.symm⟩, fun both => both.2.symm⟩

/-- A named mapping of `buildNtFilePayload` as a file. -/
def fileRecordOf (entry : Mapping × String) : FileRecord :=
  ⟨entry.1.startAddress, entry.1.endAddress,
    entry.1.offset / defaultPageSize, entry.2⟩

/-- The words of the files are appended in order. -/
theorem pushFileRanges_eq_ok
    {entries : List (Mapping × String)}
    {out bytes : List UInt8}
    (size : word = 4 ∨ word = 8) :
    pushFileRanges word entries out = .ok bytes ↔
      (∀ record ∈ entries.map fileRecordOf, ∀ value ∈ record.words,
        value < 256 ^ word) ∧
      bytes = out ++ (entries.map fileRecordOf).flatMap
        fun record => encodeWords word record.words := by
  induction entries generalizing out with
  | nil =>
      simp only [pushFileRanges, pure_eq_ok, List.map_nil, List.not_mem_nil,
        false_implies, implies_true, true_and, List.flatMap_nil, List.append_nil]
      exact eq_comm
  | cons entry rest inductionHypothesis =>
      obtain ⟨mapping, filename⟩ := entry
      simp only [pushFileRanges, bind_eq_ok, tryPushLong_eq_ok size,
        inductionHypothesis, List.map_cons, List.forall_mem_cons,
        List.flatMap_cons, fileRecordOf, FileRecord.words]
      constructor
      · rintro ⟨_, ⟨startFits, rfl⟩, _, ⟨endFits, rfl⟩, _, ⟨offsetFits, rfl⟩,
          others, rfl⟩
        refine ⟨⟨⟨startFits, endFits, offsetFits, by simp⟩, others⟩, ?_⟩
        simp only [encodeWords_cons, encodeWords_nil, List.append_assoc,
          List.nil_append]
      · rintro ⟨⟨⟨startFits, endFits, offsetFits, _⟩, others⟩, rfl⟩
        refine ⟨_, ⟨startFits, rfl⟩, _, ⟨endFits, rfl⟩, _, ⟨offsetFits, rfl⟩,
          others, ?_⟩
        simp only [encodeWords_cons, encodeWords_nil, List.append_assoc,
          List.nil_append]

end Word

/-- The named mappings of a table. -/
def namedMappings (mappings : MappingTable) : List (Mapping × String) :=
  mappings.values.filterMap fun mapping =>
    mapping.filename.map fun filename => (mapping, filename)

theorem map_fileRecordOf (mappings : MappingTable) :
    (namedMappings mappings).map fileRecordOf = fileRecords mappings := by
  unfold namedMappings fileRecords
  rw [List.map_filterMap]
  congr 1
  funext mapping
  unfold Mapping.fileRecord
  rw [Option.map_map]
  rfl

/-- The page size fits every target word. -/
theorem defaultPageSize_fits (architecture : Architecture) :
    defaultPageSize.toNat < 256 ^ architecture.longSize := by
  rcases architecture.longSize_eq_four_or_eight with four | eight
  · rw [four]
    decide
  · rw [eight]
    decide

/-- The payload is built exactly when the files fit, and it is their encoding. -/
theorem buildNtFilePayload_eq_ok
    {architecture : Architecture}
    {mappings : MappingTable}
    {payload : List UInt8} :
    buildNtFilePayload architecture mappings = .ok payload ↔
      FileRecordsFit architecture.longSize (fileRecords mappings) ∧
        payload =
          encodeFileRecords architecture.longSize (fileRecords mappings) := by
  have size := architecture.longSize_eq_four_or_eight
  have records := map_fileRecordOf mappings
  have count : (namedMappings mappings).length =
      (fileRecords mappings).length := by
    rw [← records, List.length_map]
  have names : ((namedMappings mappings).flatMap fun entry =>
      asBytes entry.2 ++ [0]) =
        (fileRecords mappings).flatMap FileRecord.nameBytes := by
    rw [← records, List.flatMap_map]
    rfl
  have page := defaultPageSize_fits architecture
  have unfolded : buildNtFilePayload architecture mappings = .ok payload ↔
      ∃ entryCount : UInt64,
        entryCount.toNat = (namedMappings mappings).length ∧
        ∃ counted, tryPushLong [] entryCount architecture.longSize
          "NT_FILE entry count" = .ok counted ∧
        ∃ paged, tryPushLong counted defaultPageSize architecture.longSize
          "NT_FILE page size" = .ok paged ∧
        ∃ ranges, pushFileRanges architecture.longSize
          (namedMappings mappings) paged = .ok ranges ∧
        ranges ++ ((namedMappings mappings).flatMap fun entry =>
          asBytes entry.2 ++ [0]) = payload := by
    unfold buildNtFilePayload
    simp only [bind_eq_ok, okOr_eq_ok, u64TryFrom_eq_some, pure_eq_ok]
    rfl
  simp only [unfolded, tryPushLong_eq_ok size, pushFileRanges_eq_ok size,
    records, names, count]
  unfold FileRecordsFit encodeFileRecords
  constructor
  · rintro ⟨entryCount, entryCountValue, _, ⟨countFits, rfl⟩, _, ⟨_, rfl⟩, _,
      ⟨wordsFit, rfl⟩, rfl⟩
    have bound := entryCount.toNat_lt
    rw [entryCountValue] at bound countFits ⊢
    refine ⟨⟨bound, countFits, wordsFit⟩, ?_⟩
    simp only [encodeWords_cons, encodeWords_nil, List.append_assoc,
      List.nil_append]
  · rintro ⟨⟨bound, countFits, wordsFit⟩, rfl⟩
    have entryCountValue := UInt64.toNat_ofNat_of_lt' bound
    refine ⟨UInt64.ofNat (fileRecords mappings).length, entryCountValue, _,
      ⟨by rwa [entryCountValue], rfl⟩, _, ⟨page, rfl⟩, _, ⟨wordsFit, rfl⟩, ?_⟩
    rw [entryCountValue]
    simp only [encodeWords_cons, encodeWords_nil, List.append_assoc,
      List.nil_append]

end Md2Core
