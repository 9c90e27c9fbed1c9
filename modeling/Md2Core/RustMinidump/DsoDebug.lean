import Md2Core.Model
import Md2Core.Foundation.ByteString

/-!
# The `MD_LINUX_DSO_DEBUG` stream

The stream is a header, followed by the bytes of the executable's `_DYNAMIC`
array; the link-map records and their names lie elsewhere in the file. The
records of the format crate enter as a size in memory and a decoder, and the
allocator as what it grants. This module decides exactly which well-formed streams
`parseDsoDebug` decodes.
-/

namespace Md2Core

open Foundation

/-! ## Records of the format crate -/

/-- `DSO_DEBUG_64`. -/
structure DsoDebug64 where
  version : UInt32
  map : UInt32
  dsoCount : UInt32
  brk : UInt64
  ldbase : UInt64
  dynamic : UInt64
  deriving DecidableEq, Repr

/-- `DSO_DEBUG_32`. -/
structure DsoDebug32 where
  version : UInt32
  map : UInt32
  dsoCount : UInt32
  brk : UInt32
  ldbase : UInt32
  dynamic : UInt32
  deriving DecidableEq, Repr

/-- `LINK_MAP_64`. -/
structure LinkMap64 where
  addr : UInt64
  name : UInt32
  ld : UInt64
  deriving DecidableEq, Repr

/-- `LINK_MAP_32`. -/
structure LinkMap32 where
  addr : UInt32
  name : UInt32
  ld : UInt32
  deriving DecidableEq, Repr

/-- What the conversion uses of a record type: `size_of` and the little-endian
`Pread`. -/
structure RecordType (Record : Type) where
  size : Nat
  pread : List UInt8 → Nat → Except ScrollError Record

/-- The record types of the format crate, and `pread_with::<u32>`. -/
structure FormatTypes where
  dsoDebug64 : RecordType DsoDebug64
  dsoDebug32 : RecordType DsoDebug32
  linkMap64 : RecordType LinkMap64
  linkMap32 : RecordType LinkMap32
  preadU32 : List UInt8 → Nat → Except ScrollError UInt32

/-- `bytes.pread_with(offset, LE)?`. -/
def RecordType.preadWith
    {Record : Type}
    (type : RecordType Record)
    (bytes : List UInt8)
    (offset : Nat) : Result Record :=
  (type.pread bytes offset).mapError fun cause => .error (.serialize cause)

/-! ## Names -/

/-- `&bytes[start..end]`. -/
def sliceRange (bytes : List UInt8) (start finish : Nat) : Result (List UInt8) :=
  if start ≤ finish ∧ finish ≤ bytes.length then
    return slice bytes start (finish - start)
  else
    throw (.panic .indexOutOfRange)

/-- `char::from_u32`. -/
def charFromU32 (value : Nat) : Option Char :=
  if value.isValidChar then some (Char.ofNat value) else none

/-- The characters before the first zero unit. A unit that is not ASCII becomes
a question mark, and an odd last byte is dropped. -/
def asciiChars : List UInt8 → List Char
  | low :: high :: rest =>
      let unit := leNat [low, high]
      if unit = 0 then
        []
      else
        (((charFromU32 unit).filter fun c => decide (c.toNat < 128)).getD '?') ::
          asciiChars rest
  | _ => []

/-- The byte range of the text of an `MDString`, if it is not truncated. -/
def mdStringRange
    (format : FormatTypes)
    (fullFile : List UInt8)
    (rva : UInt32) : Option (Nat × Nat) := do
  let byteLen ← (format.preadU32 fullFile rva.toNat).toOption
  let start ← checkedAdd rva.toUInt64 4
  let finish ← checkedAdd start byteLen.toUInt64
  if finish.toNat > fullFile.length then
    none
  else
    return (start.toNat, finish.toNat)

/-- Read an ASCII `MDString` at an RVA. -/
def readMdAsciiString
    (format : FormatTypes)
    (fullFile : List UInt8)
    (rva : UInt32) : Result (Option String) :=
  match mdStringRange format fullFile rva with
  | none => return none
  | some (start, finish) => do
      let units ← sliceRange fullFile start finish
      return some (String.ofList (asciiChars units))

/-! ## The link map -/

/-- `MDRVA` sentinel that means "no link map present". -/
def invalidMdRva : UInt32 := 0xFFFFFFFF

/-- Whether the allocator grants a number of bytes. -/
abbrev Allocator := Nat → Bool

/-- The size of a `LinkMapEntry`: two addresses and a `String`. -/
def linkMapEntrySize : Nat := 40

/-- The allocator grants room for a number of link-map entries. None need no room. -/
def Reserves (allocates : Allocator) (count : Nat) : Prop :=
  count = 0 ∨ allocates (count * linkMapEntrySize) = true

instance (allocates : Allocator) (count : Nat) : Decidable (Reserves allocates count) :=
  inferInstanceAs (Decidable (_ ∨ _))

/-- `Vec::with_capacity` of link-map entries. -/
def withCapacity (allocates : Allocator) (count : Nat) : Result Unit :=
  if Reserves allocates count then
    return ()
  else
    throw (.panic (.allocationFailed (count * linkMapEntrySize)))

section LinkMap

variable {Record : Type}
  (format : FormatTypes)
  (type : RecordType Record)
  (nameRva : Record → UInt32)
  (toEntry : Record → String → LinkMapEntry)
  (fullFile : List UInt8)
  (mapRva : UInt32)

/-- The entries from a record index on, as far as the records lie in the file. -/
def readLinkEntries : Nat → Nat → Result (List LinkMapEntry)
  | 0, _ => return []
  | remaining + 1, index => do
      let distance ← exactU64 (index * type.size)
      match checkedAdd mapRva.toUInt64 distance with
      | none => return []
      | some off => do
          let recordEnd ← exactU64 (off.toNat + type.size)
          if recordEnd.toNat > fullFile.length then
            return []
          else do
            let entry ← type.preadWith fullFile off.toNat
            let name ← readMdAsciiString format fullFile (nameRva entry)
            let rest ← readLinkEntries remaining (index + 1)
            return toEntry entry (name.getD "") :: rest

/-- The entries of a link-map array, none for the invalid RVA. The room for all that
are announced is reserved before the first one is looked at. -/
def readLinkMapRecords
    (allocates : Allocator)
    (dsoCount : UInt32) : Result (List LinkMapEntry) :=
  if mapRva = invalidMdRva then
    return []
  else do
    withCapacity allocates dsoCount.toNat
    readLinkEntries format type nameRva toEntry fullFile mapRva dsoCount.toNat 0

end LinkMap

def readLinkMap64
    (format : FormatTypes)
    (allocates : Allocator)
    (fullFile : List UInt8)
    (mapRva dsoCount : UInt32) : Result (List LinkMapEntry) :=
  readLinkMapRecords format format.linkMap64 LinkMap64.name
    (fun entry name => ⟨entry.addr, entry.ld, name⟩) fullFile mapRva allocates dsoCount

def readLinkMap32
    (format : FormatTypes)
    (allocates : Allocator)
    (fullFile : List UInt8)
    (mapRva dsoCount : UInt32) : Result (List LinkMapEntry) :=
  readLinkMapRecords format format.linkMap32 LinkMap32.name
    (fun entry name => ⟨entry.addr.toUInt64, entry.ld.toUInt64, name⟩) fullFile
    mapRva allocates dsoCount

/-! ## The stream -/

/-- Parse an `MD_LINUX_DSO_DEBUG` stream. -/
def parseDsoDebug
    (format : FormatTypes)
    (allocates : Allocator)
    (architecture : Architecture)
    (bytes fullFile : List UInt8) : Result DsoDebug :=
  if architecture.is64bit then
    let headerSize := format.dsoDebug64.size
    if bytes.length < headerSize then
      return DsoDebug.default
    else do
      let header ← format.dsoDebug64.preadWith bytes 0
      let dynamicData ← sliceRange bytes headerSize bytes.length
      let linkMap ← readLinkMap64 format allocates fullFile header.map
        header.dsoCount
      return {
        version := header.version
        brk := header.brk
        ldbase := header.ldbase
        dynamic := header.dynamic
        linkMap
        dynamicData }
  else
    let headerSize := format.dsoDebug32.size
    if bytes.length < headerSize then
      return DsoDebug.default
    else do
      let header ← format.dsoDebug32.preadWith bytes 0
      let dynamicData ← sliceRange bytes headerSize bytes.length
      let linkMap ← readLinkMap32 format allocates fullFile header.map
        header.dsoCount
      return {
        version := header.version
        brk := header.brk.toUInt64
        ldbase := header.ldbase.toUInt64
        dynamic := header.dynamic.toUInt64
        linkMap
        dynamicData }

/-! ## Well-formed streams -/

/-- The widths and values of the fields in file order. -/
def DsoDebug64.fields (header : DsoDebug64) : List (Nat × Nat) :=
  [(4, header.version.toNat), (4, header.map.toNat), (4, header.dsoCount.toNat),
    (8, header.brk.toNat), (8, header.ldbase.toNat), (8, header.dynamic.toNat)]

def DsoDebug32.fields (header : DsoDebug32) : List (Nat × Nat) :=
  [(4, header.version.toNat), (4, header.map.toNat), (4, header.dsoCount.toNat),
    (4, header.brk.toNat), (4, header.ldbase.toNat), (4, header.dynamic.toNat)]

def LinkMap64.fields (record : LinkMap64) : List (Nat × Nat) :=
  [(8, record.addr.toNat), (4, record.name.toNat), (8, record.ld.toNat)]

def LinkMap32.fields (record : LinkMap32) : List (Nat × Nat) :=
  [(4, record.addr.toNat), (4, record.name.toNat), (4, record.ld.toNat)]

/-- A record type of a given size whose decoder reads consecutive little-endian
fields. -/
structure RecordType.Decodes
    {Record : Type}
    (type : RecordType Record)
    (size : Nat)
    (fields : Record → List (Nat × Nat)) : Prop where
  size_eq : type.size = size
  pread_eq : ∀ bytes offset record,
    HoldsAt bytes offset (encodeFields (fields record)) →
      type.pread bytes offset = .ok record

/-- A `u32` is read where four bytes are left, and not elsewhere. -/
structure FormatTypes.ReadsU32 (format : FormatTypes) : Prop where
  inside : ∀ bytes offset, offset + 4 ≤ bytes.length →
    format.preadU32 bytes offset = .ok (UInt32.ofNat (leNat (slice bytes offset 4)))
  outside : ∀ bytes offset, bytes.length < offset + 4 →
    ∃ cause, format.preadU32 bytes offset = .error cause

/-- The documented layouts: the 64-bit records are padded in memory, and their
decoders read the fields without padding. -/
structure FormatTypes.Documented (format : FormatTypes) : Prop where
  readsU32 : format.ReadsU32
  dsoDebug64 : format.dsoDebug64.Decodes 40 DsoDebug64.fields
  dsoDebug32 : format.dsoDebug32.Decodes 24 DsoDebug32.fields
  linkMap64 : format.linkMap64.Decodes 24 LinkMap64.fields
  linkMap32 : format.linkMap32.Decodes 12 LinkMap32.fields

/-- The header that announces dynamic-linker data with a link map at an RVA. -/
def headerBytes
    (architecture : Architecture)
    (dso : DsoDebug)
    (mapRva : UInt32) : List UInt8 :=
  if architecture.is64bit then
    encodeFields (DsoDebug64.fields ⟨dso.version, mapRva,
      UInt32.ofNat dso.linkMap.length, dso.brk, dso.ldbase, dso.dynamic⟩)
  else
    encodeFields (DsoDebug32.fields ⟨dso.version, mapRva,
      UInt32.ofNat dso.linkMap.length, dso.brk.toUInt32, dso.ldbase.toUInt32,
      dso.dynamic.toUInt32⟩)

/-- The link-map record of an entry whose name is at an RVA. -/
def recordBytes
    (architecture : Architecture) : LinkMapEntry × UInt32 → List UInt8
  | (entry, nameRva) =>
      if architecture.is64bit then
        encodeFields (LinkMap64.fields ⟨entry.addr, nameRva, entry.ld⟩)
      else
        encodeFields (LinkMap32.fields ⟨entry.addr.toUInt32, nameRva,
          entry.ld.toUInt32⟩)

/-- An `MDString`: the length in bytes, then UTF-16LE units, which for ASCII are
the characters. -/
def mdString (text : String) : List UInt8 :=
  leBytes 4 (2 * text.toList.length) ++
    text.toList.flatMap fun c => leBytes 2 c.toNat

/-- NUL-free ASCII text whose length in UTF-16 bytes fits 32 bits. -/
structure AsciiName (text : String) : Prop where
  ascii : ∀ c ∈ text.toList, c.toNat ≠ 0 ∧ c.toNat < 128
  sized : 2 * text.toList.length < 2 ^ 32

/-- Every address of dynamic-linker data fits 32 bits. -/
structure DsoDebug.Narrow (dso : DsoDebug) : Prop where
  brk : dso.brk.toNat < 2 ^ 32
  ldbase : dso.ldbase.toNat < 2 ^ 32
  dynamic : dso.dynamic.toNat < 2 ^ 32
  linkMap : ∀ entry ∈ dso.linkMap,
    entry.addr.toNat < 2 ^ 32 ∧ entry.ld.toNat < 2 ^ 32

/-- A stream and a file that hold dynamic-linker data: the stream is the header
and the `_DYNAMIC` bytes, the file holds the array of records at the RVA of the
header and every name at the RVA of its record. The entries are paired with the
RVAs of their names. -/
structure HoldsDso
    (architecture : Architecture)
    (dso : DsoDebug)
    (mapRva : UInt32)
    (entries : List (LinkMapEntry × UInt32))
    (stream fullFile : List UInt8) : Prop where
  linkMap : dso.linkMap = entries.map Prod.fst
  counted : dso.linkMap.length < 2 ^ 32
  narrow : architecture.is64bit = false → dso.Narrow
  stream : stream = headerBytes architecture dso mapRva ++ dso.dynamicData
  array : HoldsAt fullFile mapRva.toNat
    (entries.flatMap (recordBytes architecture))
  names : ∀ entry ∈ entries,
    HoldsAt fullFile entry.2.toNat (mdString entry.1.name)
  ascii : ∀ entry ∈ entries, AsciiName entry.1.name

/-! ## Reading names -/

/-- An ASCII character is decoded from its unit. -/
theorem asciiChars_append
    {c : Char}
    (rest : List UInt8)
    (nonzero : c.toNat ≠ 0)
    (small : c.toNat < 128) :
    asciiChars (leBytes 2 c.toNat ++ rest) = c :: asciiChars rest := by
  have value : leNat (leBytes 2 c.toNat) = c.toNat :=
    leNat_leBytes_of_lt (by omega)
  have units : leBytes 2 c.toNat =
      [UInt8.ofNat c.toNat, UInt8.ofNat (c.toNat / 256)] := rfl
  have decoded : charFromU32 c.toNat = some c := by
    have valid : c.toNat.isValidChar := c.valid
    rw [charFromU32, if_pos valid, Char.ofNat_toNat]
  rw [units] at value
  rw [units, List.cons_append, List.cons_append, List.nil_append, asciiChars]
  simp only [value, if_neg nonzero, decoded, Option.filter_some, small,
    decide_true, if_true, Option.getD_some]

/-- ASCII text is decoded from its units. -/
theorem asciiChars_flatMap
    {chars : List Char}
    (ascii : ∀ c ∈ chars, c.toNat ≠ 0 ∧ c.toNat < 128) :
    asciiChars (chars.flatMap fun c => leBytes 2 c.toNat) = chars := by
  induction chars with
  | nil => rfl
  | cons c chars inductionHypothesis =>
      obtain ⟨⟨nonzero, small⟩, others⟩ := List.forall_mem_cons.mp ascii
      rw [List.flatMap_cons, asciiChars_append _ nonzero small,
        inductionHypothesis others]

theorem length_asciiUnits (text : String) :
    (text.toList.flatMap fun c => leBytes 2 c.toNat).length =
      2 * text.toList.length := by
  simp [List.length_flatMap, Nat.mul_comm]

theorem length_mdString (text : String) :
    (mdString text).length = 4 + 2 * text.toList.length := by
  rw [mdString, List.length_append, length_leBytes, length_asciiUnits]

/-- A text in a file ends within the file. -/
theorem mdString_le_length
    {fullFile : List UInt8}
    {offset : Nat}
    {text : String}
    (held : HoldsAt fullFile offset (mdString text)) :
    offset + (4 + 2 * text.toList.length) ≤ fullFile.length := by
  rw [← length_mdString]
  apply held.le_length
  rw [mdString, ← List.length_pos_iff, List.length_append, length_leBytes]
  omega

theorem sliceRange_eq_ok
    {bytes piece : List UInt8}
    {start finish : Nat} :
    sliceRange bytes start finish = .ok piece ↔
      (start ≤ finish ∧ finish ≤ bytes.length) ∧
        slice bytes start (finish - start) = piece := by
  unfold sliceRange
  split
  · next inside => rw [pure_eq_ok, and_iff_right inside]
  · next outside => simp [throw_ne_ok, outside]

theorem FormatTypes.ReadsU32.preadU32_toOption
    {format : FormatTypes}
    (reads : format.ReadsU32)
    (bytes : List UInt8)
    (offset : Nat) :
    (format.preadU32 bytes offset).toOption =
      if offset + 4 ≤ bytes.length then
        some (UInt32.ofNat (leNat (slice bytes offset 4)))
      else
        none := by
  by_cases inside : offset + 4 ≤ bytes.length
  · rw [if_pos inside, reads.inside bytes offset inside]
    rfl
  · obtain ⟨cause, failed⟩ := reads.outside bytes offset (by omega)
    rw [if_neg inside, failed]
    rfl

/-- The text of a name lies behind its length, if it lies in the file. -/
theorem mdStringRange_eq
    {format : FormatTypes}
    (reads : format.ReadsU32)
    (fullFile : List UInt8)
    (rva : UInt32) :
    mdStringRange format fullFile rva =
      if rva.toNat + 4 + leNat (slice fullFile rva.toNat 4) ≤ fullFile.length then
        some (rva.toNat + 4, rva.toNat + 4 + leNat (slice fullFile rva.toNat 4))
      else
        none := by
  have rvaLt := rva.toNat_lt
  have lengthLt : leNat (slice fullFile rva.toNat 4) < 2 ^ 32 :=
    leNat_slice_lt fullFile rva.toNat 4
  have lengthValue := UInt32.toNat_ofNat_of_lt' lengthLt
  obtain ⟨start, startOk, startValue⟩ := @exists_checkedAdd rva.toUInt64 4 (by
    rw [UInt32.toNat_toUInt64]
    change _ + 4 < _
    omega)
  rw [UInt32.toNat_toUInt64] at startValue
  change start.toNat = rva.toNat + 4 at startValue
  obtain ⟨finish, finishOk, finishValue⟩ := @exists_checkedAdd start
    (UInt32.ofNat (leNat (slice fullFile rva.toNat 4))).toUInt64 (by
      rw [UInt32.toNat_toUInt64, lengthValue]
      omega)
  rw [UInt32.toNat_toUInt64, lengthValue, startValue] at finishValue
  rw [mdStringRange, reads.preadU32_toOption]
  by_cases inside : rva.toNat + 4 ≤ fullFile.length
  · rw [if_pos inside]
    simp only [Option.bind_eq_bind, Option.bind_some, startOk, finishOk, startValue,
      finishValue]
    rw [← ite_not]
    simp
  · rw [if_neg inside, if_neg (by omega)]
    rfl

/-- The text of an `MDString` lies behind its length. -/
theorem mdStringRange_eq_some
    {format : FormatTypes}
    {fullFile : List UInt8}
    {rva : UInt32}
    {text : String}
    (reads : format.ReadsU32)
    (held : HoldsAt fullFile rva.toNat (mdString text))
    (name : AsciiName text) :
    mdStringRange format fullFile rva =
      some (rva.toNat + 4, rva.toNat + 4 + 2 * text.toList.length) := by
  have inside := mdString_le_length held
  have lengthHeld := (holdsAt_append_iff.mp held).1
  rw [HoldsAt, length_leBytes] at lengthHeld
  rw [mdStringRange_eq reads, lengthHeld, leNat_leBytes_of_lt name.sized,
    if_pos (by omega)]

/-- A name is read at its RVA. -/
theorem readMdAsciiString_eq_ok
    {format : FormatTypes}
    {fullFile : List UInt8}
    {rva : UInt32}
    {text : String}
    (reads : format.ReadsU32)
    (held : HoldsAt fullFile rva.toNat (mdString text))
    (name : AsciiName text) :
    readMdAsciiString format fullFile rva = .ok (some text) := by
  let units := text.toList.flatMap fun c => leBytes 2 c.toNat
  have inside := mdString_le_length held
  have unitsHeld := (holdsAt_append_iff.mp held).2
  rw [length_leBytes] at unitsHeld
  have payload : sliceRange fullFile (rva.toNat + 4)
      (rva.toNat + 4 + 2 * text.toList.length) = .ok units := by
    rw [sliceRange_eq_ok]
    refine ⟨by omega, ?_⟩
    rw [Nat.add_sub_cancel_left, ← length_asciiUnits]
    exact unitsHeld
  simp only [readMdAsciiString, mdStringRange_eq_some reads held name]
  rw [bind_eq_ok]
  refine ⟨units, payload, pure_eq_ok.mpr ?_⟩
  rw [asciiChars_flatMap name.ascii, String.ofList_toList]

/-! ## Reading the link map -/

theorem RecordType.preadWith_eq_ok
    {Record : Type}
    {type : RecordType Record}
    {size : Nat}
    {fields : Record → List (Nat × Nat)}
    (decodes : type.Decodes size fields)
    {bytes : List UInt8}
    {offset : Nat}
    {record : Record}
    (held : HoldsAt bytes offset (encodeFields (fields record))) :
    type.preadWith bytes offset = .ok record := by
  rw [RecordType.preadWith, decodes.pread_eq bytes offset record held]
  rfl

/-- One turn of the loop, while the offsets are no wider than a `usize`. -/
theorem readLinkEntries_succ
    {format : FormatTypes}
    {Record : Type}
    {type : RecordType Record}
    {nameRva : Record → UInt32}
    {toEntry : Record → String → LinkMapEntry}
    {fullFile : List UInt8}
    {mapRva : UInt32}
    {remaining index : Nat}
    (fits : mapRva.toNat + index * type.size + type.size < 2 ^ 64) :
    readLinkEntries format type nameRva toEntry fullFile mapRva (remaining + 1) index =
      if mapRva.toNat + index * type.size + type.size > fullFile.length then
        return []
      else do
        let entry ← type.preadWith fullFile (mapRva.toNat + index * type.size)
        let name ← readMdAsciiString format fullFile (nameRva entry)
        let rest ← readLinkEntries format type nameRva toEntry fullFile mapRva
          remaining (index + 1)
        return toEntry entry (name.getD "") :: rest := by
  obtain ⟨distance, distanceOk, distanceValue⟩ :=
    @exists_exactU64 (index * type.size) (by omega)
  obtain ⟨off, offOk, offValue⟩ :=
    @exists_checkedAdd mapRva.toUInt64 distance (by
      rw [UInt32.toNat_toUInt64, distanceValue]
      omega)
  rw [UInt32.toNat_toUInt64, distanceValue] at offValue
  obtain ⟨recordEnd, endOk, endValue⟩ :=
    @exists_exactU64 (off.toNat + type.size) (by omega)
  rw [← offValue, ← endValue, readLinkEntries, distanceOk]
  change (match checkedAdd mapRva.toUInt64 distance with
    | none => _
    | some off => _) = _
  rw [offOk]
  change (exactU64 (off.toNat + type.size) >>= _) = _
  rw [endOk]
  rfl

/-- A contiguous array of records is read in order when the size in memory is
the size of the encoding. -/
theorem readLinkEntries_eq_ok
    {format : FormatTypes}
    {Record : Type}
    {type : RecordType Record}
    {size : Nat}
    {fields : Record → List (Nat × Nat)}
    {nameRva : Record → UInt32}
    {toEntry : Record → String → LinkMapEntry}
    {fullFile : List UInt8}
    {mapRva : UInt32}
    {index : Nat}
    {records : List (Record × String)}
    (reads : format.ReadsU32)
    (decodes : type.Decodes size fields)
    (positive : 0 < size)
    (unpadded : ∀ record, (encodeFields (fields record)).length = size)
    (fits : mapRva.toNat + (index + records.length) * size < 2 ^ 64)
    (held : HoldsAt fullFile (mapRva.toNat + index * size)
      (records.flatMap fun record => encodeFields (fields record.1)))
    (names : ∀ record ∈ records,
      HoldsAt fullFile (nameRva record.1).toNat (mdString record.2) ∧
        AsciiName record.2) :
    readLinkEntries format type nameRva toEntry fullFile mapRva records.length index =
      .ok (records.map fun record => toEntry record.1 record.2) := by
  induction records generalizing index with
  | nil => rfl
  | cons record records inductionHypothesis =>
      obtain ⟨⟨nameHeld, ascii⟩, otherNames⟩ := List.forall_mem_cons.mp names
      rw [List.flatMap_cons] at held
      obtain ⟨recordHeld, othersHeld⟩ := holdsAt_append_iff.mp held
      have inside := recordHeld.le_length
        (List.length_pos_iff.mp (by rwa [unpadded]))
      rw [unpadded] at inside othersHeld
      have total : (index + (record :: records).length) * size =
          index * size + size + records.length * size := by
        rw [List.length_cons]
        ring
      rw [total] at fits
      have others := @inductionHypothesis (index + 1)
        (by rw [show (index + 1 + records.length) * size =
              index * size + size + records.length * size by ring]
            exact fits)
        (by rwa [Nat.succ_mul, ← Nat.add_assoc])
        otherNames
      rw [List.length_cons, readLinkEntries_succ (by rw [decodes.size_eq]; omega),
        decodes.size_eq, if_neg (by omega)]
      simp only [bind_eq_ok]
      exact ⟨record.1, RecordType.preadWith_eq_ok decodes recordHeld,
        some record.2, readMdAsciiString_eq_ok reads nameHeld ascii, _, others, rfl⟩

theorem withCapacity_eq_ok {allocates : Allocator} {count : Nat} {value : Unit} :
    withCapacity allocates count = .ok value ↔ Reserves allocates count := by
  unfold withCapacity
  split
  · next reserves => exact iff_of_true rfl reserves
  · next refused => simp [throw_ne_ok, refused]

/-- A link map is read when there is none, or when its room is reserved and its loop
returns. -/
theorem readLinkMapRecords_eq_ok
    {format : FormatTypes}
    {Record : Type}
    {type : RecordType Record}
    {nameRva : Record → UInt32}
    {toEntry : Record → String → LinkMapEntry}
    {fullFile : List UInt8}
    {mapRva dsoCount : UInt32}
    {allocates : Allocator}
    {linkMap : List LinkMapEntry} :
    readLinkMapRecords format type nameRva toEntry fullFile mapRva allocates dsoCount =
        .ok linkMap ↔
      (mapRva = invalidMdRva ∧ linkMap = []) ∨
        (mapRva ≠ invalidMdRva ∧ Reserves allocates dsoCount.toNat ∧
          readLinkEntries format type nameRva toEntry fullFile mapRva dsoCount.toNat 0 =
            .ok linkMap) := by
  unfold readLinkMapRecords
  by_cases invalid : mapRva = invalidMdRva
  · rw [if_pos invalid, pure_eq_ok]
    simp [invalid, eq_comm]
  · rw [if_neg invalid, bind_eq_ok]
    simp only [withCapacity_eq_ok, invalid, false_and, false_or, ne_eq,
      not_false_eq_true, true_and]
    exact ⟨fun ⟨_, both⟩ => both, fun both => ⟨(), both⟩⟩

theorem widen_narrow {value : UInt64} (narrow : value.toNat < 2 ^ 32) :
    value.toUInt32.toUInt64 = value := by
  rw [← UInt64.toNat_inj, UInt32.toNat_toUInt64, UInt64.toNat_toUInt32,
    Nat.mod_eq_of_lt narrow]

section Decoding

variable {format : FormatTypes} {allocates : Allocator} {architecture : Architecture}
  {dso : DsoDebug} {mapRva : UInt32} {entries : List (LinkMapEntry × UInt32)}
  {stream fullFile : List UInt8}

/-- The 32-bit link map is read in order, when its room is reserved. -/
theorem readLinkMap32_eq_ok
    (documented : format.Documented)
    (holds : HoldsDso architecture dso mapRva entries stream fullFile)
    (is32bit : architecture.is64bit = false)
    {linkMap : List LinkMapEntry} :
    readLinkMap32 format allocates fullFile mapRva (UInt32.ofNat dso.linkMap.length) =
        .ok linkMap ↔
      (mapRva = invalidMdRva ∧ linkMap = []) ∨
        (mapRva ≠ invalidMdRva ∧ Reserves allocates dso.linkMap.length ∧
          linkMap = dso.linkMap) := by
  let records : List (LinkMap32 × String) := entries.map fun entry =>
    (⟨entry.1.addr.toUInt32, entry.2, entry.1.ld.toUInt32⟩, entry.1.name)
  have count : (UInt32.ofNat dso.linkMap.length).toNat = records.length := by
    rw [UInt32.toNat_ofNat_of_lt' holds.counted, holds.linkMap]
    simp [records]
  have counted := holds.counted
  rw [← UInt32.toNat_ofNat_of_lt' holds.counted, count] at counted
  have mapRvaLt := mapRva.toNat_lt
  have array : HoldsAt fullFile (mapRva.toNat + 0 * 12)
      (records.flatMap fun record => encodeFields record.1.fields) := by
    have held := holds.array
    have bytes : recordBytes architecture = fun entry : LinkMapEntry × UInt32 =>
        encodeFields (LinkMap32.fields ⟨entry.1.addr.toUInt32, entry.2,
          entry.1.ld.toUInt32⟩) := by
      funext entry
      rw [recordBytes, if_neg (by simp [is32bit])]
    rw [bytes] at held
    rw [Nat.zero_mul, Nat.add_zero, List.flatMap_map]
    exact held
  have names : ∀ record ∈ records,
      HoldsAt fullFile record.1.name.toNat (mdString record.2) ∧
        AsciiName record.2 := by
    intro record member
    obtain ⟨entry, entryMember, rfl⟩ := List.mem_map.mp member
    exact ⟨holds.names entry entryMember, holds.ascii entry entryMember⟩
  have entriesValue : (records.map fun record => (⟨record.1.addr.toUInt64,
      record.1.ld.toUInt64, record.2⟩ : LinkMapEntry)) = dso.linkMap := by
    rw [holds.linkMap, List.map_map]
    apply List.map_congr_left
    intro entry member
    obtain ⟨addr, ld⟩ := (holds.narrow is32bit).linkMap entry.1 (by
      rw [holds.linkMap]
      exact List.mem_map_of_mem member)
    simp only [Function.comp_apply, widen_narrow addr, widen_narrow ld]
  have sameLength : dso.linkMap.length = records.length := by
    rw [← entriesValue, List.length_map]
  rw [readLinkMap32, readLinkMapRecords_eq_ok, count, sameLength,
    readLinkEntries_eq_ok documented.readsU32 documented.linkMap32 (by decide) (fun _ => by
      rw [length_encodeFields]
      rfl) (by omega) array names, entriesValue, Except.ok.injEq]
  simp only [eq_comm]

/-- A 32-bit stream is decoded when the room for its link map is reserved. The link map
at the invalid RVA is empty. -/
theorem parseDsoDebug_of_is32bit
    (documented : format.Documented)
    (holds : HoldsDso architecture dso mapRva entries stream fullFile)
    (is32bit : architecture.is64bit = false)
    {parsed : DsoDebug} :
    parseDsoDebug format allocates architecture stream fullFile = .ok parsed ↔
      (mapRva = invalidMdRva ∧ parsed = { dso with linkMap := [] }) ∨
        (mapRva ≠ invalidMdRva ∧ Reserves allocates dso.linkMap.length ∧
          parsed = dso) := by
  let header : DsoDebug32 := ⟨dso.version, mapRva,
    UInt32.ofNat dso.linkMap.length, dso.brk.toUInt32, dso.ldbase.toUInt32,
    dso.dynamic.toUInt32⟩
  have streamValue : stream = encodeFields header.fields ++ dso.dynamicData := by
    rw [holds.stream, headerBytes, if_neg (by simp [is32bit])]
  have headerLength : (encodeFields header.fields).length = 24 := by
    rw [length_encodeFields]
    rfl
  have headerHeld : HoldsAt stream 0 (encodeFields header.fields) := by
    rw [streamValue]
    exact holdsAt_append _ _
  have streamLength : stream.length = 24 + dso.dynamicData.length := by
    rw [streamValue, List.length_append, headerLength]
  have dynamicData : sliceRange stream 24 stream.length =
      .ok dso.dynamicData := by
    rw [sliceRange_eq_ok]
    refine ⟨by omega, ?_⟩
    rw [streamValue, slice_append_of_le _ (by omega), headerLength,
      List.length_append, headerLength, Nat.sub_self, Nat.add_sub_cancel_left,
      slice, List.drop_zero, List.take_length]
  have linkMap := @readLinkMap32_eq_ok format allocates _ _ _ _ _ _ documented holds
    is32bit
  have narrow := holds.narrow is32bit
  have headerRead := RecordType.preadWith_eq_ok documented.dsoDebug32 headerHeld
  rw [parseDsoDebug, if_neg (by simp [is32bit])]
  simp only [documented.dsoDebug32.size_eq]
  rw [if_neg (by omega)]
  simp only [bind_eq_ok, pure_eq_ok, headerRead, dynamicData, Except.ok.injEq,
    exists_eq_left', header, linkMap, widen_narrow narrow.brk, widen_narrow narrow.ldbase,
    widen_narrow narrow.dynamic]
  constructor
  · rintro ⟨_, ⟨invalid, rfl⟩ | ⟨valid, reserves, rfl⟩, rfl⟩
    · exact Or.inl ⟨invalid, rfl⟩
    · exact Or.inr ⟨valid, reserves, rfl⟩
  · rintro (⟨invalid, rfl⟩ | ⟨valid, reserves, rfl⟩)
    · exact ⟨[], Or.inl ⟨invalid, rfl⟩, rfl⟩
    · exact ⟨_, Or.inr ⟨valid, reserves, rfl⟩, rfl⟩

/-- A 64-bit stream is decoded only when nothing is captured: a `_DYNAMIC` block
of fewer than four bytes is taken for a truncated header, and a longer one loses
its first four bytes. -/
theorem parseDsoDebug_of_is64bit
    (documented : format.Documented)
    (holds : HoldsDso architecture dso mapRva entries stream fullFile)
    (is64bit : architecture.is64bit = true) :
    parseDsoDebug format allocates architecture stream fullFile = .ok dso ↔
      dso = DsoDebug.default := by
  have streamLength : stream.length = 36 + dso.dynamicData.length := by
    rw [holds.stream, headerBytes, if_pos is64bit, List.length_append,
      length_encodeFields]
    rfl
  rw [parseDsoDebug, if_pos is64bit]
  simp only [documented.dsoDebug64.size_eq]
  by_cases short : stream.length < 40
  · rw [if_pos short, pure_eq_ok, eq_comm]
  · rw [if_neg short]
    constructor
    · intro parsed
      simp only [bind_eq_ok, pure_eq_ok, sliceRange_eq_ok] at parsed
      obtain ⟨_, _, dynamicData, ⟨_, sliced⟩, _, _, rfl⟩ := parsed
      have lengths := congrArg List.length sliced
      rw [slice, List.length_take, List.length_drop] at lengths
      change stream.length = 36 + dynamicData.length at streamLength
      omega
    · rintro rfl
      change stream.length = 36 + 0 at streamLength
      omega

end Decoding

/-! ## Consecutive fields -/

/-- `pread_with` of an unsigned integer of `width` bytes. -/
def preadLe (width : Nat) (bytes : List UInt8) (offset : Nat) :
    Except ScrollError Nat :=
  if offset ≥ bytes.length then
    .error (.badOffset offset)
  else
    okOr (readLe bytes offset width) (.tooBig width (bytes.length - offset))

/-- `pread_with::<u32>`. -/
def preadU32 (bytes : List UInt8) (offset : Nat) : Except ScrollError UInt32 :=
  (preadLe 4 bytes offset).map UInt32.ofNat

theorem preadLe_eq_ok
    {width offset value : Nat}
    {bytes : List UInt8}
    (held : HoldsAt bytes offset (leBytes width value))
    (positive : 0 < width)
    (fits : value < 256 ^ width) :
    preadLe width bytes offset = .ok value := by
  have inside := held.le_length
    (List.length_pos_iff.mp (by rwa [length_leBytes]))
  rw [length_leBytes] at inside
  rw [preadLe, if_neg (by omega), held.readLe_eq positive fits]
  rfl

theorem preadU32_eq_ok
    {bytes : List UInt8}
    {offset : Nat}
    {value : UInt32}
    (held : HoldsAt bytes offset (leBytes 4 value.toNat)) :
    preadU32 bytes offset = .ok value := by
  rw [preadU32, preadLe_eq_ok held (by decide) value.toNat_lt, Except.map,
    UInt32.ofNat_toNat]

/-- `pread_with::<u64>`. -/
def preadU64 (bytes : List UInt8) (offset : Nat) : Except ScrollError UInt64 :=
  (preadLe 8 bytes offset).map UInt64.ofNat

theorem preadU64_eq_ok
    {bytes : List UInt8}
    {offset : Nat}
    {value : UInt64}
    (held : HoldsAt bytes offset (leBytes 8 value.toNat)) :
    preadU64 bytes offset = .ok value := by
  rw [preadU64, preadLe_eq_ok held (by decide) value.toNat_lt, Except.map,
    UInt64.ofNat_toNat]

/-- The record types with decoders that read one field after the other. -/
def consecutiveFields : FormatTypes where
  dsoDebug64 := ⟨40, fun bytes offset => do
    let version ← preadU32 bytes offset
    let map ← preadU32 bytes (offset + 4)
    let dsoCount ← preadU32 bytes (offset + 8)
    let brk ← preadU64 bytes (offset + 12)
    let ldbase ← preadU64 bytes (offset + 20)
    let dynamic ← preadU64 bytes (offset + 28)
    return ⟨version, map, dsoCount, brk, ldbase, dynamic⟩⟩
  dsoDebug32 := ⟨24, fun bytes offset => do
    let version ← preadU32 bytes offset
    let map ← preadU32 bytes (offset + 4)
    let dsoCount ← preadU32 bytes (offset + 8)
    let brk ← preadU32 bytes (offset + 12)
    let ldbase ← preadU32 bytes (offset + 16)
    let dynamic ← preadU32 bytes (offset + 20)
    return ⟨version, map, dsoCount, brk, ldbase, dynamic⟩⟩
  linkMap64 := ⟨24, fun bytes offset => do
    let addr ← preadU64 bytes offset
    let name ← preadU32 bytes (offset + 8)
    let ld ← preadU64 bytes (offset + 12)
    return ⟨addr, name, ld⟩⟩
  linkMap32 := ⟨12, fun bytes offset => do
    let addr ← preadU32 bytes offset
    let name ← preadU32 bytes (offset + 4)
    let ld ← preadU32 bytes (offset + 8)
    return ⟨addr, name, ld⟩⟩
  preadU32

theorem consecutiveFields_readsU32 : consecutiveFields.ReadsU32 where
  inside := by
    intro bytes offset inside
    change preadU32 bytes offset = _
    rw [preadU32, preadLe, if_neg (by omega), readLe, if_pos inside]
    rfl
  outside := by
    intro bytes offset short
    change ∃ cause, preadU32 bytes offset = .error cause
    rw [preadU32, preadLe, readLe, if_neg (show ¬offset + 4 ≤ bytes.length by omega)]
    split <;> exact ⟨_, rfl⟩

theorem consecutiveFields_documented : consecutiveFields.Documented := by
  refine ⟨consecutiveFields_readsU32, ⟨rfl, ?_⟩, ⟨rfl, ?_⟩, ⟨rfl, ?_⟩, ⟨rfl, ?_⟩⟩
  · intro bytes offset record held
    simp only [encodeFields, DsoDebug64.fields, List.flatMap_cons,
      holdsAt_append_iff, length_leBytes, Nat.add_assoc] at held
    obtain ⟨version, map, dsoCount, brk, ldbase, dynamic, _⟩ := held
    simp only [consecutiveFields, preadU32_eq_ok version, preadU32_eq_ok map,
      preadU32_eq_ok dsoCount, preadU64_eq_ok brk, preadU64_eq_ok ldbase,
      preadU64_eq_ok dynamic]
    rfl
  · intro bytes offset record held
    simp only [encodeFields, DsoDebug32.fields, List.flatMap_cons,
      holdsAt_append_iff, length_leBytes, Nat.add_assoc] at held
    obtain ⟨version, map, dsoCount, brk, ldbase, dynamic, _⟩ := held
    simp only [consecutiveFields, preadU32_eq_ok version, preadU32_eq_ok map,
      preadU32_eq_ok dsoCount, preadU32_eq_ok brk, preadU32_eq_ok ldbase,
      preadU32_eq_ok dynamic]
    rfl
  · intro bytes offset record held
    simp only [encodeFields, LinkMap64.fields, List.flatMap_cons,
      holdsAt_append_iff, length_leBytes, Nat.add_assoc] at held
    obtain ⟨addr, name, ld, _⟩ := held
    simp only [consecutiveFields, preadU64_eq_ok addr, preadU32_eq_ok name,
      preadU64_eq_ok ld]
    rfl
  · intro bytes offset record held
    simp only [encodeFields, LinkMap32.fields, List.flatMap_cons,
      holdsAt_append_iff, length_leBytes, Nat.add_assoc] at held
    obtain ⟨addr, name, ld, _⟩ := held
    simp only [consecutiveFields, preadU32_eq_ok addr, preadU32_eq_ok name,
      preadU32_eq_ok ld]
    rfl

/-! ## When a stream is decoded -/

/-- For every well-formed stream, parsing returns exactly the data that it holds
when the target is 32-bit and the link map is empty, or not at the invalid RVA and
its room is reserved, or when the target is 64-bit and there is no data. -/
theorem parseDsoDebug_eq_ok_iff
    (format : FormatTypes)
    (allocates : Allocator)
    (architecture : Architecture)
    (dso : DsoDebug)
    (mapRva : UInt32)
    (entries : List (LinkMapEntry × UInt32))
    (stream fullFile : List UInt8)
    (documented : format.Documented)
    (holds : HoldsDso architecture dso mapRva entries stream fullFile) :
    parseDsoDebug format allocates architecture stream fullFile = .ok dso ↔
      (architecture.is64bit = true ∧ dso = DsoDebug.default) ∨
        (architecture.is64bit = false ∧
          (mapRva ≠ invalidMdRva ∧ Reserves allocates dso.linkMap.length ∨
            dso.linkMap = [])) := by
  cases width : architecture.is64bit with
  | true =>
      rw [parseDsoDebug_of_is64bit documented holds width]
      simp
  | false =>
      rw [parseDsoDebug_of_is32bit documented holds width]
      constructor
      · rintro (⟨_, equal⟩ | ⟨valid, reserves, _⟩)
        · refine Or.inr ⟨rfl, Or.inr ?_⟩
          rw [equal]
        · exact Or.inr ⟨rfl, Or.inl ⟨valid, reserves⟩⟩
      · rintro (⟨wide, _⟩ | ⟨_, ⟨valid, reserves⟩ | empty⟩)
        · contradiction
        · exact Or.inr ⟨valid, reserves, rfl⟩
        · by_cases invalid : mapRva = invalidMdRva
          · refine Or.inl ⟨invalid, ?_⟩
            rw [← empty]
          · refine Or.inr ⟨invalid, Or.inl ?_, rfl⟩
            rw [empty, List.length_nil]

/-- One link-map entry and a `_DYNAMIC` block of eight bytes. -/
def sampleDso : DsoDebug where
  version := 1
  brk := 0x7000
  ldbase := 0x8000
  dynamic := 0x3000
  linkMap := [⟨0x4000, 0x5000, "a"⟩]
  dynamicData := [21, 0, 0, 0, 0, 0, 0, 0]

/-- The name of the entry at RVA 0 and its record at RVA 6. -/
def sampleFile (architecture : Architecture) : List UInt8 :=
  mdString "a" ++ recordBytes architecture (⟨0x4000, 0x5000, "a"⟩, 0)

/-- An allocator that grants up to 64 GiB. -/
def sampleAllocator : Allocator := fun size => decide (size ≤ 2 ^ 36)

theorem sampleDso_holds (architecture : Architecture) :
    HoldsDso architecture sampleDso 6 [(⟨0x4000, 0x5000, "a"⟩, 0)]
      (headerBytes architecture sampleDso 6 ++ sampleDso.dynamicData)
      (sampleFile architecture) where
  linkMap := rfl
  counted := by decide
  narrow _ := ⟨by decide, by decide, by decide, by decide⟩
  stream := rfl
  array := by
    cases architecture <;> decide
  names := by
    cases architecture <;> decide
  ascii := by
    intro entry member
    obtain rfl := List.mem_singleton.mp member
    constructor
    · intro c inName
      obtain rfl : c = 'a' := by simpa using inName
      decide
    · decide

/-- A well-formed 64-bit stream whose `_DYNAMIC` block loses its first bytes. -/
theorem exists_stream_misread :
    ¬∀ (format : FormatTypes) (allocates : Allocator) (architecture : Architecture)
      (dso : DsoDebug) (mapRva : UInt32) (entries : List (LinkMapEntry × UInt32))
      (stream fullFile : List UInt8),
      format.Documented →
        HoldsDso architecture dso mapRva entries stream fullFile →
          parseDsoDebug format allocates architecture stream fullFile = .ok dso := by
  intro always
  have parsed := always consecutiveFields sampleAllocator .x86_64 sampleDso 6 _ _ _
    consecutiveFields_documented (sampleDso_holds .x86_64)
  exact absurd parsed (by decide +kernel)

/-- The same data in a 32-bit stream is decoded. -/
theorem parseDsoDebug_eq_ok_iff_sample :
    consecutiveFields.Documented ∧
      HoldsDso .arm sampleDso 6 [(⟨0x4000, 0x5000, "a"⟩, 0)]
        (headerBytes .arm sampleDso 6 ++ sampleDso.dynamicData)
        (sampleFile .arm) ∧
      parseDsoDebug consecutiveFields sampleAllocator .arm
        (headerBytes .arm sampleDso 6 ++ sampleDso.dynamicData)
        (sampleFile .arm) = .ok sampleDso := by
  refine ⟨consecutiveFields_documented, sampleDso_holds .arm, ?_⟩
  refine (parseDsoDebug_eq_ok_iff consecutiveFields sampleAllocator .arm sampleDso 6 _ _ _
    consecutiveFields_documented (sampleDso_holds .arm)).mpr ?_
  exact Or.inr ⟨by decide, Or.inl ⟨by decide, by decide⟩⟩

end Md2Core
