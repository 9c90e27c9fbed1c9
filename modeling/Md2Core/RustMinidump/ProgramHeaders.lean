import Mathlib.Data.List.Forall2
import Md2Core.RustMinidump.Executable

/-!
# The program headers that the scanners read

Three functions scan the program-header table of an untrusted file. Each keeps
the address of the first `PT_LOAD` and the fields of the last segment of one
further type. This module says what a finished scan read, in terms of the bytes
of the file, and when a scan returns at all.
-/

namespace Md2Core

open Foundation

/-! ## Fields -/

/-- The width of a word of an ELF file. -/
def elfWord (is64 : Bool) : Nat := if is64 then 8 else 4

variable
  {bytes : List UInt8}
  {is64 : Bool}
  {off width : Nat}

theorem readUnsignedLe_eq_some {value : Nat} :
    (readUnsignedLe bytes off width).run = .ok (some value) ↔
      off + width < 2 ^ 64 ∧ readLe bytes off width = some value := by
  unfold readUnsignedLe
  simp only [attemptBind_eq_some, attemptLift_eq_some, present_eq_some,
    exactU64_eq_ok]
  constructor
  · rintro ⟨word, value, found⟩
    exact ⟨value ▸ word.toNat_lt, found⟩
  · rintro ⟨fits, found⟩
    exact ⟨UInt64.ofNat (off + width), UInt64.toNat_ofNat_of_lt' fits, found⟩

theorem returns_readUnsignedLe_iff :
    Returns (readUnsignedLe bytes off width) ↔ off + width < 2 ^ 64 := by
  unfold readUnsignedLe
  rw [returns_bind_iff, returns_lift_iff]
  simp only [exactU64_eq_ok, returns_present, implies_true, and_true]
  constructor
  · rintro ⟨word, value⟩
    exact value ▸ word.toNat_lt
  · intro fits
    exact ⟨UInt64.ofNat (off + width), UInt64.toNat_ofNat_of_lt' fits⟩

theorem readU16Le_eq_some {value : UInt16} :
    (readU16Le bytes off).run = .ok (some value) ↔
      off + 2 < 2 ^ 64 ∧ readLe bytes off 2 = some value.toNat := by
  unfold readU16Le
  simp only [attemptMap_eq_some, readUnsignedLe_eq_some]
  constructor
  · rintro ⟨number, ⟨fits, found⟩, rfl⟩
    rw [UInt16.toNat_ofNat_of_lt' (readLe_lt found)]
    exact ⟨fits, found⟩
  · rintro ⟨fits, found⟩
    exact ⟨value.toNat, ⟨fits, found⟩, UInt16.ofNat_toNat⟩

theorem readU32Le_eq_some {value : UInt32} :
    (readU32Le bytes off).run = .ok (some value) ↔
      off + 4 < 2 ^ 64 ∧ readLe bytes off 4 = some value.toNat := by
  unfold readU32Le
  simp only [attemptMap_eq_some, readUnsignedLe_eq_some]
  constructor
  · rintro ⟨number, ⟨fits, found⟩, rfl⟩
    rw [UInt32.toNat_ofNat_of_lt' (readLe_lt found)]
    exact ⟨fits, found⟩
  · rintro ⟨fits, found⟩
    exact ⟨value.toNat, ⟨fits, found⟩, UInt32.ofNat_toNat⟩

/-- A word that was read is the number in the file. -/
theorem readElfWord_eq_some {off64 off32 : Nat} {value : UInt64} :
    (readElfWord bytes is64 off64 off32).run = .ok (some value) ↔
      (if is64 then off64 else off32) + elfWord is64 < 2 ^ 64 ∧
        readLe bytes (if is64 then off64 else off32) (elfWord is64) =
          some value.toNat := by
  unfold readElfWord readU64Le
  cases is64 with
  | true =>
      simp only [if_true, attemptMap_eq_some, readUnsignedLe_eq_some, elfWord]
      constructor
      · rintro ⟨number, ⟨fits, found⟩, rfl⟩
        rw [UInt64.toNat_ofNat_of_lt' (readLe_lt found)]
        exact ⟨fits, found⟩
      · rintro ⟨fits, found⟩
        exact ⟨value.toNat, ⟨fits, found⟩, UInt64.ofNat_toNat⟩
  | false =>
      simp only [Bool.false_eq_true, if_false, attemptMap_eq_some,
        readU32Le_eq_some, elfWord]
      constructor
      · rintro ⟨word, ⟨fits, found⟩, rfl⟩
        exact ⟨fits, found⟩
      · rintro ⟨fits, found⟩
        have narrow : value.toNat < 2 ^ 32 := readLe_lt found
        have same : (UInt32.ofNat value.toNat).toUInt64 = value := by
          apply UInt64.toNat_inj.mp
          rw [UInt32.toNat_toUInt64, UInt32.toNat_ofNat_of_lt' narrow]
        refine ⟨UInt32.ofNat value.toNat, ⟨fits, ?_⟩, same⟩
        rw [UInt32.toNat_ofNat_of_lt' narrow]
        exact found

theorem returns_readElfWord_iff {off64 off32 : Nat} :
    Returns (readElfWord bytes is64 off64 off32) ↔
      (if is64 then off64 else off32) + elfWord is64 < 2 ^ 64 := by
  unfold readElfWord
  cases is64 with
  | true => exact returns_map_iff.trans returns_readUnsignedLe_iff
  | false =>
      exact returns_map_iff.trans
        (returns_map_iff.trans returns_readUnsignedLe_iff)

/-- A word of the program header at an offset is read at the offset of its
field. -/
theorem readSegmentWord_eq_some {o field64 field32 : Nat} {value : UInt64} :
    (readSegmentWord bytes is64 o field64 field32).run = .ok (some value) ↔
      o + (if is64 then field64 else field32) + elfWord is64 < 2 ^ 64 ∧
        readLe bytes (o + if is64 then field64 else field32) (elfWord is64) =
          some value.toNat := by
  unfold readSegmentWord
  simp only [attemptBind_eq_some, attemptLift_eq_some, exactU64_eq_ok,
    readElfWord_eq_some, ite_self]
  constructor
  · rintro ⟨position, located, read⟩
    rw [located] at read
    exact read
  · rintro ⟨fits, read⟩
    obtain ⟨position, _, located⟩ := exists_exactU64
      (Nat.lt_of_le_of_lt (Nat.le_add_right _ (elfWord is64)) fits)
    refine ⟨position, located, ?_⟩
    rw [located]
    exact ⟨fits, read⟩

theorem returns_readSegmentWord
    {o field64 field32 : Nat}
    (fits : o + (if is64 then field64 else field32) + elfWord is64 < 2 ^ 64) :
    Returns (readSegmentWord bytes is64 o field64 field32) := by
  unfold readSegmentWord
  rw [returns_bind_iff, returns_lift_iff]
  constructor
  · obtain ⟨position, made, _⟩ := exists_exactU64
      (Nat.lt_of_le_of_lt (Nat.le_add_right _ (elfWord is64)) fits)
    exact ⟨position, made⟩
  · intro position located
    rw [attemptLift_eq_some, exactU64_eq_ok] at located
    rw [returns_readElfWord_iff, ite_self, located]
    exact fits

/-! ## The file header -/

/-- The class of an ELF file, which fits the architecture. -/
theorem readElfClass_eq_some {architecture : Architecture} :
    (readElfClass architecture bytes).run = .ok (some is64) ↔
      bytes.take 4 = [0x7f, 0x45, 0x4c, 0x46] ∧
        (∃ fileClass, bytes[4]? = some fileClass ∧ is64 = (fileClass == 2)) ∧
        is64 = architecture.is64bit := by
  unfold readElfClass
  simp only [attemptBind_eq_some, attemptPure_eq_some, attemptGuard_eq_some,
    present_eq_some]
  constructor
  · rintro ⟨_, magic, fileClass, found, _, fits, rfl⟩
    exact ⟨magic, ⟨fileClass, found, rfl⟩, fits⟩
  · rintro ⟨magic, ⟨fileClass, found, rfl⟩, fits⟩
    exact ⟨(), magic, fileClass, found, (), fits, rfl⟩

theorem returns_readElfClass (architecture : Architecture) :
    Returns (readElfClass architecture bytes) := by
  unfold readElfClass
  simp only [returns_bind_iff, returns_guard, returns_present, returns_pure,
    implies_true, and_true]

/-- The table that the file header describes. -/
structure HeaderTable.DescribedIn
    (table : HeaderTable)
    (bytes : List UInt8)
    (is64 : Bool) : Prop where
  phoff : readLe bytes (if is64 then 32 else 28) (elfWord is64) =
    some table.phoff
  phentsize : readLe bytes (if is64 then 54 else 42) 2 = some table.phentsize
  phnum : readLe bytes (if is64 then 56 else 44) 2 = some table.phnum

/-- A table that a file describes has fields of their widths. -/
theorem HeaderTable.DescribedIn.bounds
    {table : HeaderTable}
    (described : table.DescribedIn bytes is64) :
    table.phentsize < 2 ^ 16 ∧ table.phoff < 2 ^ 64 := by
  refine ⟨readLe_lt described.phentsize, ?_⟩
  have bound := readLe_lt described.phoff
  cases is64 with
  | true => exact bound
  | false => exact bound.trans (by norm_num [elfWord])

theorem readHeaderTable_eq_some {table : HeaderTable} :
    (readHeaderTable bytes is64).run = .ok (some table) ↔
      table.DescribedIn bytes is64 := by
  unfold readHeaderTable
  simp only [attemptBind_eq_some, attemptPure_eq_some, readElfWord_eq_some,
    readU16Le_eq_some]
  constructor
  · rintro ⟨phoff, ⟨_, phoffRead⟩, phentsize, ⟨_, phentsizeRead⟩, phnum,
      ⟨_, phnumRead⟩, rfl⟩
    exact ⟨phoffRead, phentsizeRead, phnumRead⟩
  · rintro ⟨phoffRead, phentsizeRead, phnumRead⟩
    have bounds := HeaderTable.DescribedIn.bounds
      ⟨phoffRead, phentsizeRead, phnumRead⟩
    have phoffValue := UInt64.toNat_ofNat_of_lt' bounds.2
    have phentsizeValue := UInt16.toNat_ofNat_of_lt' (readLe_lt phentsizeRead)
    have phnumValue := UInt16.toNat_ofNat_of_lt' (readLe_lt phnumRead)
    refine ⟨UInt64.ofNat table.phoff, ⟨?_, ?_⟩, UInt16.ofNat table.phentsize,
      ⟨?_, ?_⟩, UInt16.ofNat table.phnum, ⟨?_, ?_⟩, ?_⟩
    · cases is64 <;> simp [elfWord]
    · rw [phoffValue]
      exact phoffRead
    · cases is64 <;> simp
    · rw [phentsizeValue]
      exact phentsizeRead
    · cases is64 <;> simp
    · rw [phnumValue]
      exact phnumRead
    · rw [phoffValue, phentsizeValue, phnumValue]

theorem returns_readHeaderTable : Returns (readHeaderTable bytes is64) := by
  unfold readHeaderTable readU16Le
  simp only [returns_bind_iff, returns_readElfWord_iff, returns_map_iff,
    returns_readUnsignedLe_iff, returns_pure, implies_true, and_true]
  cases is64 <;> simp [elfWord]

/-! ## The scan -/

namespace HeaderTable

/-- Where the program header at an index starts. -/
def headerOffset (table : HeaderTable) (index : Nat) : Nat :=
  table.phoff + index * table.phentsize

/-- A word of the program header at an index. -/
def fieldAt
    (table : HeaderTable)
    (bytes : List UInt8)
    (is64 : Bool)
    (index field64 field32 : Nat) : Option Nat :=
  readLe bytes (table.headerOffset index + if is64 then field64 else field32)
    (elfWord is64)

def offsetAt
    (table : HeaderTable)
    (bytes : List UInt8)
    (is64 : Bool)
    (index : Nat) : Option Nat :=
  table.fieldAt bytes is64 index 8 4

def vaddrAt
    (table : HeaderTable)
    (bytes : List UInt8)
    (is64 : Bool)
    (index : Nat) : Option Nat :=
  table.fieldAt bytes is64 index 16 8

def fileszAt
    (table : HeaderTable)
    (bytes : List UInt8)
    (is64 : Bool)
    (index : Nat) : Option Nat :=
  table.fieldAt bytes is64 index 32 16

/-- The program header at an index has a type. -/
def TypeAt
    (table : HeaderTable)
    (bytes : List UInt8)
    (type index : Nat) : Prop :=
  index < table.phnum ∧ readLe bytes (table.headerOffset index) 4 = some type

/-- The first program header of a type. -/
def FirstOfType
    (table : HeaderTable)
    (bytes : List UInt8)
    (type index : Nat) : Prop :=
  table.TypeAt bytes type index ∧
    ∀ earlier < index, ¬table.TypeAt bytes type earlier

/-- The last program header of a type. -/
def LastOfType
    (table : HeaderTable)
    (bytes : List UInt8)
    (type index : Nat) : Prop :=
  table.TypeAt bytes type index ∧
    ∀ later > index, ¬table.TypeAt bytes type later

theorem FirstOfType.unique
    {table : HeaderTable}
    {type first second : Nat}
    (firstFound : table.FirstOfType bytes type first)
    (secondFound : table.FirstOfType bytes type second) :
    first = second := by
  rcases Nat.lt_trichotomy first second with before | same | behind
  · exact absurd firstFound.1 (secondFound.2 first before)
  · exact same
  · exact absurd secondFound.1 (firstFound.2 second behind)

/-- A file has one table. -/
theorem DescribedIn.unique
    {first second : HeaderTable}
    (firstDescribed : first.DescribedIn bytes is64)
    (secondDescribed : second.DescribedIn bytes is64) :
    first = second := by
  have phoff := firstDescribed.phoff.symm.trans secondDescribed.phoff
  have phentsize := firstDescribed.phentsize.symm.trans secondDescribed.phentsize
  have phnum := firstDescribed.phnum.symm.trans secondDescribed.phnum
  cases first
  cases second
  simp only [Option.some.injEq] at phoff phentsize phnum
  rw [phoff, phentsize, phnum]

end HeaderTable

section Scan

variable
  {Fields : Type}
  {readFields : Nat → Attempt Fields}
  {vaddr : Fields → UInt64}
  {wantedType : UInt32}
  {table : HeaderTable}

/-- What a scan reads of the program header at an index: its type and some
fields. -/
def HeaderRead
    (readFields : Nat → Attempt Fields)
    (bytes : List UInt8)
    (table : HeaderTable)
    (index : Nat)
    (header : UInt32 × Fields) : Prop :=
  table.headerOffset index + 4 < 2 ^ 64 ∧
    readLe bytes (table.headerOffset index) 4 = some header.1.toNat ∧
    (readFields (table.headerOffset index)).run = .ok (some header.2)

/-- Keep a header in a scan. -/
def SegmentScan.keep
    (vaddr : Fields → UInt64)
    (wantedType : UInt32)
    (scan : SegmentScan Fields)
    (header : UInt32 × Fields) : SegmentScan Fields :=
  scan.see vaddr wantedType header.1 header.2

/-- A finished scan has read every header of its range. -/
theorem scanSegmentsFrom_eq_some
    {remaining index : Nat}
    {scan final : SegmentScan Fields} :
    (scanSegmentsFrom readFields vaddr wantedType bytes table remaining index
        scan).run = .ok (some final) ↔
      ∃ headers,
        List.Forall₂ (HeaderRead readFields bytes table)
          (List.range' index remaining) headers ∧
        final = headers.foldl (SegmentScan.keep vaddr wantedType) scan := by
  induction remaining generalizing index scan with
  | zero =>
      rw [scanSegmentsFrom, attemptPure_eq_some, List.range'_zero]
      simp only [List.forall₂_nil_left_iff, exists_eq_left, List.foldl_nil]
      exact eq_comm
  | succ remaining inductionHypothesis =>
      rw [scanSegmentsFrom, List.range'_succ]
      simp only [attemptBind_eq_some, present_eq_some, u64TryFrom_eq_some,
        readU32Le_eq_some, inductionHypothesis]
      constructor
      · rintro ⟨distance, distanceValue, o, located, pType, ⟨fits, typeRead⟩,
          fields, fieldsRead, headers, others, rfl⟩
        rw [distanceValue] at located
        have position : o.toNat = table.headerOffset index := located
        rw [position] at fits typeRead fieldsRead
        exact ⟨(pType, fields) :: headers,
          .cons ⟨fits, typeRead, fieldsRead⟩ others, rfl⟩
      · rintro ⟨_, read, rfl⟩
        obtain ⟨⟨pType, fields⟩, headers, ⟨fits, typeRead, fieldsRead⟩, others,
          rfl⟩ := List.forall₂_cons_left_iff.mp read
        have positionFits : table.headerOffset index < 2 ^ 64 := by omega
        have distanceFits : index * table.phentsize < 2 ^ 64 :=
          Nat.lt_of_le_of_lt (Nat.le_add_left _ _) positionFits
        have distanceValue := UInt64.toNat_ofNat_of_lt' distanceFits
        have position := UInt64.toNat_ofNat_of_lt' positionFits
        refine ⟨_, distanceValue, UInt64.ofNat (table.headerOffset index), ?_,
          pType, ?_, fields, ?_, headers, others, rfl⟩
        · rw [position, distanceValue]
          rfl
        · rw [position]
          exact ⟨fits, typeRead⟩
        · rw [position]
          exact fieldsRead

/-- A scan keeps the address of the first `PT_LOAD` and the fields of the last
segment of the wanted type. -/
theorem foldl_keep
    (vaddr : Fields → UInt64)
    (different : wantedType ≠ 1)
    (headers : List (UInt32 × Fields))
    (scan : SegmentScan Fields) :
    headers.foldl (SegmentScan.keep vaddr wantedType) scan =
      ⟨scan.firstLoadVaddr.or
          ((firstUnder Prod.fst headers 1).map fun header => vaddr header.2),
        ((lastUnder Prod.fst headers wantedType).map Prod.snd).or
          scan.wanted⟩ := by
  induction headers generalizing scan with
  | nil => simp [firstUnder, lastUnder]
  | cons header rest inductionHypothesis =>
      obtain ⟨pType, fields⟩ := header
      rw [List.foldl_cons, inductionHypothesis, firstUnder_cons, lastUnder_cons]
      unfold SegmentScan.keep SegmentScan.see
      by_cases load : pType = 1
      · subst load
        rw [if_pos rfl, if_pos rfl, if_neg different.symm, Option.or_none,
          Option.some_or, Option.map_some]
        rw [Option.or_assoc, Option.some_or]
      · rw [if_neg load, if_neg load, Option.none_or]
        by_cases wanted : pType = wantedType
        · rw [if_pos wanted, if_pos wanted]
          cases lastUnder Prod.fst rest wantedType <;> rfl
        · rw [if_neg wanted, if_neg wanted, Option.or_none]

/-- A finished scan of the whole table. -/
theorem scanSegments_eq_some
    {final : SegmentScan Fields}
    (different : wantedType ≠ 1) :
    (scanSegments readFields vaddr wantedType bytes table).run =
        .ok (some final) ↔
      ∃ headers,
        List.Forall₂ (HeaderRead readFields bytes table)
          (List.range' 0 table.phnum) headers ∧
        final = ⟨(firstUnder Prod.fst headers 1).map fun header =>
            vaddr header.2,
          (lastUnder Prod.fst headers wantedType).map Prod.snd⟩ := by
  rw [scanSegments, scanSegmentsFrom_eq_some]
  simp only [foldl_keep vaddr different, Option.none_or, Option.or_none]

section Headers

variable {headers : List (UInt32 × Fields)}

/-- What was read of the header at an index. -/
theorem headerRead_of_getElem?
    {index : Nat}
    {header : UInt32 × Fields}
    (read : List.Forall₂ (HeaderRead readFields bytes table)
      (List.range' 0 table.phnum) headers)
    (found : headers[index]? = some header) :
    index < table.phnum ∧ HeaderRead readFields bytes table index header := by
  obtain ⟨lengths, reads⟩ := List.forall₂_iff_get.mp read
  obtain ⟨inside, rfl⟩ := List.getElem?_eq_some_iff.mp found
  have counted : index < (List.range' 0 table.phnum).length := lengths ▸ inside
  have headerRead := reads index counted inside
  rw [List.length_range'] at counted
  simp only [List.get_eq_getElem, List.getElem_range', Nat.zero_add,
    Nat.one_mul] at headerRead
  exact ⟨counted, headerRead⟩

/-- Every header of the table was read. -/
theorem exists_header_of_lt
    {index : Nat}
    (read : List.Forall₂ (HeaderRead readFields bytes table)
      (List.range' 0 table.phnum) headers)
    (inside : index < table.phnum) :
    ∃ header, headers[index]? = some header := by
  have lengths := read.length_eq
  rw [List.length_range'] at lengths
  exact ⟨_, List.getElem?_eq_getElem (lengths ▸ inside)⟩

/-- The type of a header that was read. -/
theorem typeAt_iff
    {index : Nat}
    {header : UInt32 × Fields}
    {type : UInt32}
    (read : List.Forall₂ (HeaderRead readFields bytes table)
      (List.range' 0 table.phnum) headers)
    (found : headers[index]? = some header) :
    table.TypeAt bytes type.toNat index ↔ header.1 = type := by
  obtain ⟨inside, _, typeRead, _⟩ := headerRead_of_getElem? read found
  unfold HeaderTable.TypeAt
  rw [typeRead, Option.some.injEq, UInt32.toNat_inj]
  exact and_iff_right inside

/-- The first header that a scan finds of a type is the first one in the
table. -/
theorem exists_firstOfType
    {type : UInt32}
    {header : UInt32 × Fields}
    (read : List.Forall₂ (HeaderRead readFields bytes table)
      (List.range' 0 table.phnum) headers)
    (found : firstUnder Prod.fst headers type = some header) :
    ∃ index, table.FirstOfType bytes type.toNat index ∧
      HeaderRead readFields bytes table index header := by
  obtain ⟨index, here, same, before⟩ := exists_index_of_firstUnder _ found
  refine ⟨index, ⟨(typeAt_iff read here).mpr same, ?_⟩,
    (headerRead_of_getElem? read here).2⟩
  intro earlier less typed
  obtain ⟨other, otherHere⟩ := exists_header_of_lt read typed.1
  exact before earlier less other otherHere
    ((typeAt_iff read otherHere).mp typed)

/-- The last header that a scan finds of a type is the last one in the table. -/
theorem exists_lastOfType
    {type : UInt32}
    {header : UInt32 × Fields}
    (read : List.Forall₂ (HeaderRead readFields bytes table)
      (List.range' 0 table.phnum) headers)
    (found : lastUnder Prod.fst headers type = some header) :
    ∃ index, table.LastOfType bytes type.toNat index ∧
      HeaderRead readFields bytes table index header := by
  obtain ⟨index, here, same, behind⟩ := exists_index_of_lastUnder _ found
  refine ⟨index, ⟨(typeAt_iff read here).mpr same, ?_⟩,
    (headerRead_of_getElem? read here).2⟩
  intro later less typed
  obtain ⟨other, otherHere⟩ := exists_header_of_lt read typed.1
  exact behind later less other otherHere
    ((typeAt_iff read otherHere).mp typed)

/-- When a scan finds no header of a type, there is none. -/
theorem not_typeAt_of_lastUnder_eq_none
    {type : UInt32}
    (read : List.Forall₂ (HeaderRead readFields bytes table)
      (List.range' 0 table.phnum) headers)
    (absent : lastUnder Prod.fst headers type = none)
    (index : Nat) :
    ¬table.TypeAt bytes type.toNat index := by
  intro typed
  obtain ⟨header, here⟩ := exists_header_of_lt read typed.1
  exact ne_of_firstUnder_eq_none _
    ((lastUnder_eq_none_iff _ headers type).mp absent) here
    ((typeAt_iff read here).mp typed)

end Headers

end Scan

end Md2Core
