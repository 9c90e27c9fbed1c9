import Md2Core.RustMinidump.DsoDebug

/-!
# Untrusted link-map arrays

The count and the RVA of a link-map array, and the RVA and the length of every
name, come from the file and need not fit it. Reading the array stops behind the
last record that lies in the file, and a name that does not lie in the file is
empty. But the room for all entries that are announced is reserved first, and the
process aborts when the allocator does not grant it.
-/

namespace Md2Core

open Foundation

/-! ## Names -/

/-- A unit of a name as a character: itself if it is ASCII. -/
def unitChar (unit : Nat) : Char :=
  if unit < 128 then Char.ofNat unit else '?'

/-- The 16-bit units of a byte string from a position on. -/
def unitsAt (bytes : List UInt8) (position count : Nat) : List Nat :=
  (List.range count).map fun index => leNat (slice bytes (position + 2 * index) 2)

/-- The text of the `MDString` at a position: its units up to the first zero, if
its length and its body lie in the file. -/
def mdStringText (fullFile : List UInt8) (position : Nat) : Option String :=
  let byteLen := leNat (slice fullFile position 4)
  if position + 4 + byteLen ≤ fullFile.length then
    some (String.ofList
      (((unitsAt fullFile (position + 4) (byteLen / 2)).takeWhile (· ≠ 0)).map unitChar))
  else
    none

theorem charFromU32_filter_getD (unit : Nat) :
    ((charFromU32 unit).filter fun c => decide (c.toNat < 128)).getD '?' =
      unitChar unit := by
  unfold charFromU32 unitChar
  by_cases valid : unit.isValidChar
  · have value : (Char.ofNat unit).toNat = unit := by
      rw [Char.ofNat, dif_pos valid]
      rfl
    rw [if_pos valid, Option.filter_some, value]
    by_cases ascii : unit < 128
    · simp [ascii]
    · simp [ascii]
  · have large : ¬unit < 128 := by
      intro small
      exact valid (Or.inl (by omega))
    rw [if_neg valid, if_neg large]
    rfl

theorem unitsAt_cons_cons
    (low high : UInt8)
    (rest : List UInt8)
    (count : Nat) :
    unitsAt (low :: high :: rest) 0 (count + 1) =
      leNat [low, high] :: unitsAt rest 0 count := by
  rw [unitsAt, List.range_succ_eq_map, List.map_cons, List.map_map]
  rfl

/-- The characters of a body are those of its units. -/
theorem asciiChars_eq (body : List UInt8) :
    asciiChars body =
      ((unitsAt body 0 (body.length / 2)).takeWhile (· ≠ 0)).map unitChar := by
  have halved : ∀ (low high : UInt8) (rest : List UInt8),
      (low :: high :: rest).length / 2 = rest.length / 2 + 1 := by
    intro low high rest
    rw [List.length_cons, List.length_cons]
    omega
  induction body using asciiChars.induct with
  | case1 low high rest unit zero =>
      have isZero : leNat [low, high] = 0 := zero
      rw [asciiChars, halved, unitsAt_cons_cons]
      simp [isZero]
  | case2 low high rest unit nonzero inductionHypothesis =>
      have notZero : leNat [low, high] ≠ 0 := nonzero
      rw [asciiChars, halved, unitsAt_cons_cons, inductionHypothesis,
        charFromU32_filter_getD, List.takeWhile_cons]
      simp only [ne_eq, notZero, not_false_eq_true, decide_true, if_true, if_false,
        List.map_cons]
  | case3 body short =>
      rcases body with _ | ⟨low, _ | ⟨high, rest⟩⟩
      · rfl
      · rw [asciiChars]
        · simp [unitsAt]
        · exact short
      · exact absurd rfl (short low high rest)

theorem unitsAt_slice
    {bytes : List UInt8}
    {position size : Nat} :
    unitsAt (slice bytes position size) 0 (size / 2) =
      unitsAt bytes position (size / 2) := by
  apply List.map_congr_left
  intro index member
  have bound := List.mem_range.mp member
  rw [slice_slice bytes position (by omega), Nat.zero_add]

/-- Reading a name always returns, and gives its text if it lies in the file. -/
theorem readMdAsciiString_eq
    {format : FormatTypes}
    (reads : format.ReadsU32)
    (fullFile : List UInt8)
    (rva : UInt32) :
    readMdAsciiString format fullFile rva = .ok (mdStringText fullFile rva.toNat) := by
  rw [readMdAsciiString, mdStringRange_eq reads, mdStringText]
  by_cases inside :
      rva.toNat + 4 + leNat (slice fullFile rva.toNat 4) ≤ fullFile.length
  · have body :
        sliceRange fullFile (rva.toNat + 4)
            (rva.toNat + 4 + leNat (slice fullFile rva.toNat 4)) =
          .ok (slice fullFile (rva.toNat + 4) (leNat (slice fullFile rva.toNat 4))) := by
      rw [sliceRange_eq_ok, Nat.add_sub_cancel_left]
      exact ⟨⟨by omega, inside⟩, rfl⟩
    simp only [if_pos inside, bind_eq_ok, pure_eq_ok]
    refine ⟨_, body, ?_⟩
    rw [asciiChars_eq, length_slice_of_le inside, unitsAt_slice]
  · simp only [if_neg inside]
    rfl

/-! ## Records -/

/-- A record type that takes memory, and whose decoder stays within the size of
a record. -/
structure RecordType.Bounded {Record : Type} (type : RecordType Record) : Prop where
  /-- A record takes at least one byte. -/
  positive : 0 < type.size
  /-- A size is an `isize`. -/
  size_lt : type.size < 2 ^ 63
  /-- A record that lies in the file is decoded. -/
  decodes : ∀ bytes offset, offset + type.size ≤ bytes.length →
    ∃ record, type.pread bytes offset = .ok record

section LinkMap

variable {Record : Type}
  (type : RecordType Record)
  (nameRva : Record → UInt32)
  (toEntry : Record → String → LinkMapEntry)
  (fullFile : List UInt8)

/-- Consecutive records from an offset on, with the names at their RVAs: as many
as are asked for and lie in the file. -/
def HasLinkEntries
    (start count : Nat)
    (entries : List LinkMapEntry) : Prop :=
  ∃ records : List Record,
    records.length = min count ((fullFile.length - start) / type.size) ∧
      (∀ index record, records[index]? = some record →
        type.pread fullFile (start + index * type.size) = .ok record) ∧
      entries = records.map fun record =>
        toEntry record ((mdStringText fullFile (nameRva record).toNat).getD "")

end LinkMap

section Reading

variable {format : FormatTypes}
  {Record : Type}
  {type : RecordType Record}
  {nameRva : Record → UInt32}
  {toEntry : Record → String → LinkMapEntry}
  {fullFile : List UInt8}
  {mapRva : UInt32}

theorem hasLinkEntries_nil
    {start count : Nat}
    (positive : 0 < type.size)
    (short : fullFile.length < start + type.size) :
    HasLinkEntries type nameRva toEntry fullFile start count [] := by
  refine ⟨[], ?_, by simp, rfl⟩
  rw [Nat.div_eq_of_lt (by omega), Nat.min_zero, List.length_nil]

theorem HasLinkEntries.cons
    {start count : Nat}
    {record : Record}
    {entries : List LinkMapEntry}
    (positive : 0 < type.size)
    (inside : start + type.size ≤ fullFile.length)
    (decoded : type.pread fullFile start = .ok record)
    (others :
      HasLinkEntries type nameRva toEntry fullFile (start + type.size) count entries) :
    HasLinkEntries type nameRva toEntry fullFile start (count + 1)
      (toEntry record ((mdStringText fullFile (nameRva record).toNat).getD "") ::
        entries) := by
  obtain ⟨records, counted, located, rfl⟩ := others
  refine ⟨record :: records, ?_, ?_, rfl⟩
  · have quotient :
        (fullFile.length - start) / type.size =
          (fullFile.length - (start + type.size)) / type.size + 1 := by
      rw [Nat.div_eq_sub_div positive (by omega), Nat.sub_sub]
    rw [List.length_cons, counted, quotient, Nat.add_min_add_right]
  · intro index other found
    cases index with
    | zero =>
        rw [List.getElem?_cons_zero, Option.some.injEq] at found
        rw [← found, Nat.zero_mul, Nat.add_zero]
        exact decoded
    | succ index =>
        rw [List.getElem?_cons_succ] at found
        rw [Nat.succ_mul, Nat.add_comm (index * _), ← Nat.add_assoc]
        exact located index other found

/-- From the first record on, or from one that begins in the file, the loop
returns the records that lie in the file. -/
theorem exists_readLinkEntries
    (reads : format.ReadsU32)
    (bounded : type.Bounded)
    (fileBound : fullFile.length < 2 ^ 63)
    (remaining index : Nat)
    (reached : index = 0 ∨ mapRva.toNat + index * type.size ≤ fullFile.length) :
    ∃ entries,
      readLinkEntries format type nameRva toEntry fullFile mapRva remaining index =
          .ok entries ∧
        HasLinkEntries type nameRva toEntry fullFile
          (mapRva.toNat + index * type.size) remaining entries := by
  induction remaining generalizing index with
  | zero =>
      refine ⟨[], rfl, [], ?_, by simp, rfl⟩
      rw [Nat.zero_min, List.length_nil]
  | succ remaining inductionHypothesis =>
      have rvaLt := mapRva.toNat_lt
      have sizeLt := bounded.size_lt
      have distanceLt : mapRva.toNat + index * type.size < 2 ^ 63 := by
        rcases reached with rfl | inFile
        · omega
        · omega
      rw [readLinkEntries_succ (by omega)]
      by_cases inside :
          mapRva.toNat + index * type.size + type.size ≤ fullFile.length
      · obtain ⟨record, decoded⟩ := bounded.decodes fullFile _ inside
        have next := inductionHypothesis (index + 1) (by
          right
          rw [Nat.succ_mul]
          omega)
        rw [Nat.succ_mul, ← Nat.add_assoc] at next
        obtain ⟨rest, restOk, others⟩ := next
        have recordRead :
            type.preadWith fullFile (mapRva.toNat + index * type.size) =
              .ok record := by
          rw [RecordType.preadWith, decoded]
          rfl
        refine ⟨_, ?_, HasLinkEntries.cons bounded.positive inside decoded others⟩
        rw [if_neg (by omega)]
        simp only [bind_eq_ok]
        exact ⟨record, recordRead, _, readMdAsciiString_eq reads fullFile (nameRva record),
          rest, restOk, rfl⟩
      · refine ⟨[], ?_, hasLinkEntries_nil bounded.positive (by omega)⟩
        rw [if_pos (by omega)]
        rfl

/-- A link map is read exactly when its room is reserved. -/
theorem exists_readLinkMapRecords_iff
    (reads : format.ReadsU32)
    (bounded : type.Bounded)
    (fileBound : fullFile.length < 2 ^ 63)
    (valid : mapRva ≠ invalidMdRva)
    (allocates : Allocator)
    (dsoCount : UInt32) :
    (∃ entries,
      readLinkMapRecords format type nameRva toEntry fullFile mapRva allocates dsoCount =
          .ok entries ∧
        HasLinkEntries type nameRva toEntry fullFile mapRva.toNat dsoCount.toNat
          entries) ↔
      Reserves allocates dsoCount.toNat := by
  simp only [readLinkMapRecords_eq_ok, valid, false_and, false_or, ne_eq,
    not_false_eq_true, true_and]
  constructor
  · rintro ⟨_, ⟨reserves, _⟩, _⟩
    exact reserves
  · intro reserves
    obtain ⟨entries, read, has⟩ :=
      @exists_readLinkEntries format _ type nameRva toEntry fullFile mapRva reads bounded
        fileBound dsoCount.toNat 0 (Or.inl rfl)
    rw [Nat.zero_mul, Nat.add_zero] at has
    exact ⟨entries, ⟨reserves, read⟩, has⟩

end Reading

/-! ## Consecutive fields -/

theorem exists_preadLe
    {width offset : Nat}
    {bytes : List UInt8}
    (positive : 0 < width)
    (inside : offset + width ≤ bytes.length) :
    ∃ value, preadLe width bytes offset = .ok value := by
  refine ⟨leNat (slice bytes offset width), ?_⟩
  rw [preadLe, if_neg (by omega), readLe, if_pos inside]
  rfl

theorem consecutiveFields_bounded64 : consecutiveFields.linkMap64.Bounded where
  positive := by decide
  size_lt := by decide
  decodes := by
    intro bytes offset inside
    change offset + 24 ≤ bytes.length at inside
    obtain ⟨addr, addrOk⟩ := @exists_preadLe 8 offset bytes (by decide) (by omega)
    obtain ⟨name, nameOk⟩ := @exists_preadLe 4 (offset + 8) bytes (by decide) (by omega)
    obtain ⟨ld, ldOk⟩ := @exists_preadLe 8 (offset + 12) bytes (by decide) (by omega)
    refine ⟨⟨UInt64.ofNat addr, UInt32.ofNat name, UInt64.ofNat ld⟩, ?_⟩
    simp only [consecutiveFields, preadU64, preadU32, addrOk, nameOk, ldOk]
    rfl

theorem consecutiveFields_bounded32 : consecutiveFields.linkMap32.Bounded where
  positive := by decide
  size_lt := by decide
  decodes := by
    intro bytes offset inside
    change offset + 12 ≤ bytes.length at inside
    obtain ⟨addr, addrOk⟩ := @exists_preadLe 4 offset bytes (by decide) (by omega)
    obtain ⟨name, nameOk⟩ := @exists_preadLe 4 (offset + 4) bytes (by decide) (by omega)
    obtain ⟨ld, ldOk⟩ := @exists_preadLe 4 (offset + 8) bytes (by decide) (by omega)
    refine ⟨⟨UInt32.ofNat addr, UInt32.ofNat name, UInt32.ofNat ld⟩, ?_⟩
    simp only [consecutiveFields, preadU32, addrOk, nameOk, ldOk]
    rfl

/-! ## The two arrays -/

/-- For every file, count and RVA of a link map both readers return exactly when the
room for the announced entries is reserved: with as many entries as are asked for and
lie in the file, each decoded at its place in the array and named by the text at its
name RVA. -/
theorem readLinkMap_returns_iff
    (format : FormatTypes)
    (allocates : Allocator)
    (fullFile : List UInt8)
    (mapRva dsoCount : UInt32)
    (reads : format.ReadsU32)
    (bounded64 : format.linkMap64.Bounded)
    (bounded32 : format.linkMap32.Bounded)
    (fileBound : fullFile.length < 2 ^ 63) :
    ((mapRva ≠ invalidMdRva → ∃ entries,
      readLinkMap64 format allocates fullFile mapRva dsoCount = .ok entries ∧
        HasLinkEntries format.linkMap64 LinkMap64.name
          (fun entry name => ⟨entry.addr, entry.ld, name⟩)
          fullFile mapRva.toNat dsoCount.toNat entries) ↔
      mapRva = invalidMdRva ∨ Reserves allocates dsoCount.toNat) ∧
    ((mapRva ≠ invalidMdRva → ∃ entries,
      readLinkMap32 format allocates fullFile mapRva dsoCount = .ok entries ∧
        HasLinkEntries format.linkMap32 LinkMap32.name
          (fun entry name => ⟨entry.addr.toUInt64, entry.ld.toUInt64, name⟩)
          fullFile mapRva.toNat dsoCount.toNat entries) ↔
      mapRva = invalidMdRva ∨ Reserves allocates dsoCount.toNat) := by
  by_cases valid : mapRva = invalidMdRva
  · simp [valid]
  · simp only [valid, ne_eq, not_false_eq_true, true_implies, false_or]
    exact ⟨exists_readLinkMapRecords_iff reads bounded64 fileBound valid allocates dsoCount,
      exists_readLinkMapRecords_iff reads bounded32 fileBound valid allocates dsoCount⟩

/-- A file with one record, of which a thousand are announced. -/
theorem readLinkMap_returns_iff_sample :
    ∃ entries,
      readLinkMap32 consecutiveFields sampleAllocator (sampleFile .arm) 6 1000 =
          .ok entries ∧
        entries.length = 1 := by
  obtain ⟨entries, read, records, counted, _, rfl⟩ :=
    (readLinkMap_returns_iff consecutiveFields sampleAllocator (sampleFile .arm) 6 1000
      consecutiveFields_readsU32 consecutiveFields_bounded64 consecutiveFields_bounded32
      (by decide)).2.mpr (Or.inr (by decide)) (by decide)
  refine ⟨_, read, ?_⟩
  rw [List.length_map, counted]
  decide

/-- The largest count asks for 160 GiB before any record is looked for, and the file
has none. -/
theorem exists_count_not_reserved :
    ¬∀ (format : FormatTypes) (allocates : Allocator) (fullFile : List UInt8)
      (mapRva dsoCount : UInt32),
      format.ReadsU32 → format.linkMap64.Bounded → format.linkMap32.Bounded →
        fullFile.length < 2 ^ 63 → mapRva ≠ invalidMdRva →
          (∃ entries,
            readLinkMap64 format allocates fullFile mapRva dsoCount = .ok entries ∧
              HasLinkEntries format.linkMap64 LinkMap64.name
                (fun entry name => ⟨entry.addr, entry.ld, name⟩)
                fullFile mapRva.toNat dsoCount.toNat entries) ∧
            ∃ entries,
              readLinkMap32 format allocates fullFile mapRva dsoCount = .ok entries ∧
                HasLinkEntries format.linkMap32 LinkMap32.name
                  (fun entry name => ⟨entry.addr.toUInt64, entry.ld.toUInt64, name⟩)
                  fullFile mapRva.toNat dsoCount.toNat entries := by
  intro always
  obtain ⟨⟨_, read, _⟩, _⟩ := always consecutiveFields sampleAllocator [] 0 0xFFFFFFFF
    consecutiveFields_readsU32 consecutiveFields_bounded64 consecutiveFields_bounded32
    (by decide) (by decide)
  have refused : ¬Reserves sampleAllocator (0xFFFFFFFF : UInt32).toNat := by decide
  rcases readLinkMapRecords_eq_ok.mp read with ⟨invalid, _⟩ | ⟨_, reserves, _⟩
  · exact absurd invalid (by decide)
  · exact refused reserves

end Md2Core
