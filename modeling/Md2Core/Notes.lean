import Md2Core.Elf
import Md2Core.Regs

/-!
# Note serialization

The notes of the `PT_NOTE` segment: a 12-byte header, the name and the
descriptor, both padded to four bytes. The descriptors are those of
`NT_PRPSINFO`, `NT_PRSTATUS` and `NT_FILE`; a consumer finds the fields of
`NT_PRSTATUS` at offsets that only the word size decides.
-/

namespace Md2Core

open Foundation

def noteAlign : Nat := 4

/-- Zero bytes up to the next multiple of the alignment. -/
def padTo (out : List UInt8) (align : Nat) : List UInt8 :=
  let rem := out.length % align
  if rem ≠ 0 then resize out (out.length + (align - rem)) 0 else out

namespace Note

/-- A serialized note. A missing trailing NUL is added to the name. -/
def build (name : List UInt8) (nType : UInt32) (desc : List UInt8) :
    Result (List UInt8) := do
  let nameBytes := if name.getLast? ≠ some 0 then name ++ [0] else name
  let nNamesz ← okOr (u32TryFrom nameBytes.length)
    (.panic (.expected "note name too large") : Fault)
  let nDescsz ← okOr (u32TryFrom desc.length)
    (.panic (.expected "note descriptor too large") : Fault)
  let out := NoteHeader.write ⟨nNamesz, nDescsz, nType⟩
  let out := padTo (out ++ nameBytes) noteAlign
  return padTo (out ++ desc) noteAlign

end Note

/-- Append a value at the size of a `long`. -/
def pushLong (out : List UInt8) (value : UInt64) (size : Nat) : List UInt8 :=
  if size = 8 then
    out ++ leBytes 8 value.toNat
  else
    out ++ (leBytes 8 value.toNat).take 4

/-- Append a value at the size of a `long`, which must represent it. -/
def tryPushLong
    (out : List UInt8)
    (value : UInt64)
    (size : Nat)
    (field : String) : Result (List UInt8) :=
  if size = 8 then
    return out ++ leBytes 8 value.toNat
  else do
    let value ← okOr (u32TryFrom value.toNat) (integerOverflow field)
    return out ++ leBytes 4 value.toNat

/-- Padding to the size of a `long`. -/
def pad (out : List UInt8) (align : Nat) : List UInt8 := padTo out align

/-! ## Process information -/

/-- The `NT_PRPSINFO` descriptor. -/
def buildPrpsinfo (architecture : Architecture) (info : ProcessInfo) :
    List UInt8 :=
  let long := architecture.longSize
  let out : List UInt8 := [0, 0x52, 0, 0]
  let out := pad out long
  let out := pushLong out 0 long
  let out :=
    if architecture.prpsinfoUidIsU32 then
      out ++ leBytes 4 0 ++ leBytes 4 0
    else
      out ++ leBytes 2 0 ++ leBytes 2 0
  out ++
    leBytes 4 info.pid.toNat ++
    leBytes 4 0 ++
    leBytes 4 0 ++
    leBytes 4 0 ++
    info.filename.toList ++
    info.arguments.toList

/-! ## Thread status -/

/-- `i32::to_le_bytes`. -/
def i32LeBytes (value : Int32) : List UInt8 :=
  leBytes 4 value.toUInt32.toNat

/-- `i16::try_from`. -/
def i16TryFrom (value : Int32) : Option Int16 :=
  if -2 ^ 15 ≤ value.toInt ∧ value.toInt < 2 ^ 15 then
    some value.toInt16
  else
    none

/-- `pr_cursig`, `i16::MAX` for a signal number that it cannot hold. -/
def cursig (fatalSignal : Int32) : Int16 :=
  (i16TryFrom fatalSignal).getD 32767

/-- The `NT_PRSTATUS` descriptor. -/
def buildPrstatus
    (architecture : Architecture)
    (tid : UInt32)
    (fatalSignal : Int32)
    (prReg : List UInt8)
    (fpValid : Bool) : List UInt8 :=
  let long := architecture.longSize
  let out := i32LeBytes fatalSignal ++ i32LeBytes 0 ++ i32LeBytes 0
  let out := out ++ leBytes 2 (cursig fatalSignal).toUInt16.toNat
  let out := pad out long
  let out := pushLong out 0 long
  let out := pushLong out 0 long
  let out := out ++ leBytes 4 tid.toNat ++ i32LeBytes 0 ++ i32LeBytes 0 ++
    i32LeBytes 0
  let out := (List.range 8).foldl (fun out _ => pushLong out 0 long) out
  let out := out ++ prReg
  let fpValidFlag : Int32 := if fpValid then 1 else 0
  let out := out ++ i32LeBytes fpValidFlag
  pad out long

/-! ## File mappings -/

/-- The address range and the page offset of each named mapping. -/
def pushFileRanges
    (word : Nat) :
    List (Mapping × String) → List UInt8 → Result (List UInt8)
  | [], out => return out
  | (mapping, _) :: rest, out => do
      let out ← tryPushLong out mapping.startAddress word "NT_FILE mapping start"
      let out ← tryPushLong out mapping.endAddress word "NT_FILE mapping end"
      let pageOfs := mapping.offset / defaultPageSize
      let out ← tryPushLong out pageOfs word "NT_FILE mapping offset"
      pushFileRanges word rest out

/-- The `NT_FILE` descriptor for the named mappings. -/
def buildNtFilePayload (architecture : Architecture) (mappings : MappingTable) :
    Result (List UInt8) := do
  let word := architecture.longSize
  let entries := mappings.values.filterMap fun mapping =>
    mapping.filename.map fun filename => (mapping, filename)
  let entryCount ← okOr (u64TryFrom entries.length)
    (integerOverflow "NT_FILE entry count")
  let out ← tryPushLong [] entryCount word "NT_FILE entry count"
  let out ← tryPushLong out defaultPageSize word "NT_FILE page size"
  let out ← pushFileRanges word entries out
  return out ++ entries.flatMap fun (_, filename) => asBytes filename ++ [0]

/-! ## Reading notes back -/

/-- Padding appends zero bytes up to the rounded length. -/
theorem padTo_eq (out : List UInt8) (align : Nat) :
    padTo out align =
      out ++ List.replicate (roundUp align out.length - out.length) 0 := by
  unfold padTo roundUp
  by_cases exact : out.length % align = 0
  · simp [exact]
  · rw [if_pos exact, if_neg exact, resize,
      List.take_of_length_le (Nat.le_add_right _ _)]

theorem exists_pad_of_eq
    {out body : List UInt8}
    {align : Nat}
    (equal : out = body) :
    ∃ back, pad out align = body ++ back := by
  subst equal
  exact ⟨_, padTo_eq out align⟩

/-- Behind an aligned front, padding is the padding of a note field. -/
theorem padTo_append
    {front items : List UInt8}
    (aligned : 4 ∣ front.length) :
    padTo (front ++ items) noteAlign =
      front ++ (items ++ notePadding items.length) := by
  rw [padTo_eq, noteAlign, List.length_append, roundUp_add_of_dvd aligned,
    Nat.add_sub_add_left, List.append_assoc, notePadding]

/-- A name with a trailing NUL. -/
def terminatedName (name : List UInt8) : List UInt8 :=
  if name.getLast? = some 0 then name else name ++ [0]

/-- The note that a reader finds for a name, a type and a descriptor. -/
def expectedNote (name : List UInt8) (nType : UInt32) (desc : List UInt8) : ElfNote where
  name := terminatedName name
  type := nType.toNat
  desc := desc

/-- A header, a name and a descriptor, each padded as it is appended, encode a
note. -/
theorem padTo_header_eq_encode
    {namesz descsz nType : UInt32}
    {name desc : List UInt8}
    (nameszValue : namesz.toNat = name.length)
    (descszValue : descsz.toNat = desc.length) :
    padTo (padTo (NoteHeader.write ⟨namesz, descsz, nType⟩ ++ name) noteAlign ++ desc)
        noteAlign =
      (ElfNote.mk name nType.toNat desc).encode := by
  have header : NoteHeader.write ⟨namesz, descsz, nType⟩ =
      encodeWords 4 [name.length, desc.length, nType.toNat] := by
    simp [NoteHeader.write, nameszValue, descszValue]
  have headerLength : (encodeWords 4 [name.length, desc.length,
      nType.toNat]).length = 12 := length_encodeWords _ _
  have named := @padTo_append (encodeWords 4 [name.length, desc.length,
    nType.toNat]) name (by rw [headerLength]; decide)
  rw [header, named, padTo_append, ElfNote.encode]
  rw [List.length_append, headerLength, length_append_notePadding]
  exact Nat.dvd_add (by decide) (dvd_roundUp (by decide) _)

/-- A note is built exactly when its lengths fit their fields, and is then the
encoding of the note under the name with its NUL. -/
theorem Note.build_eq_ok_iff
    {name desc bytes : List UInt8}
    {nType : UInt32} :
    Note.build name nType desc = .ok bytes ↔
      (expectedNote name nType desc).Fits ∧
        bytes = (expectedNote name nType desc).encode := by
  have nameBytes :
      (if name.getLast? ≠ some 0 then name ++ [0] else name) = terminatedName name := by
    rw [terminatedName, ite_not]
  unfold Note.build
  simp only [nameBytes, bind_eq_ok, okOr_eq_ok, u32TryFrom_eq_some, pure_eq_ok]
  constructor
  · rintro ⟨namesz, nameszValue, descsz, descszValue, rfl⟩
    refine ⟨⟨?_, ?_, ?_⟩, ?_⟩
    · exact nameszValue ▸ namesz.toNat_lt
    · exact nType.toNat_lt
    · exact descszValue ▸ descsz.toNat_lt
    · exact padTo_header_eq_encode nameszValue descszValue
  · rintro ⟨fits, rfl⟩
    have nameszValue : (UInt32.ofNat (terminatedName name).length).toNat =
        (terminatedName name).length := UInt32.toNat_ofNat_of_lt fits.name
    have descszValue : (UInt32.ofNat desc.length).toNat = desc.length :=
      UInt32.toNat_ofNat_of_lt fits.desc
    exact ⟨_, nameszValue, _, descszValue,
      padTo_header_eq_encode nameszValue descszValue⟩

/-- A built note is the encoding of a note with the given type and descriptor,
under the name with its NUL. -/
theorem Note.build_eq_ok
    {name desc bytes : List UInt8}
    {nType : UInt32}
    (terminated : name.getLast? = some 0)
    (succeeded : Note.build name nType desc = .ok bytes) :
    bytes = (ElfNote.mk name nType.toNat desc).encode ∧
      (ElfNote.mk name nType.toNat desc).Fits := by
  obtain ⟨fits, written⟩ := Note.build_eq_ok_iff.mp succeeded
  rw [expectedNote, terminatedName, if_pos terminated] at fits written
  exact ⟨written, fits⟩

/-- The fields of `NT_PRSTATUS` that a consumer reads. -/
structure Prstatus where
  signo : Nat
  cursig : Nat
  pid : Nat
  reg : List UInt8
  fpvalid : Nat
  deriving DecidableEq, Repr

/-- Read an `NT_PRSTATUS` descriptor, given the size of a `long` and of the
register set. -/
def readPrstatus (long gregsetSize : Nat) (desc : List UInt8) :
    Option Prstatus := do
  let regOffset := 32 + 10 * long
  let signo ← readLe desc 0 4
  let cursig ← readLe desc 12 2
  let pid ← readLe desc (16 + 2 * long) 4
  let fpvalid ← readLe desc (regOffset + gregsetSize) 4
  return ⟨signo, cursig, pid, slice desc regOffset gregsetSize, fpvalid⟩

theorem pushLong_zero
    {size : Nat}
    (out : List UInt8)
    (longSize : size = 4 ∨ size = 8) :
    pushLong out 0 size = out ++ leBytes size 0 := by
  rcases longSize with rfl | rfl <;> rfl

/-- The fields of `NT_PRSTATUS` before `pr_reg`. -/
def prstatusFields (long : Nat) (tid : UInt32) (fatalSignal : Int32) :
    List (Nat × Nat) :=
  [(4, fatalSignal.toUInt32.toNat), (4, 0), (4, 0),
    (2, (cursig fatalSignal).toUInt16.toNat), (2, 0), (long, 0), (long, 0),
    (4, tid.toNat), (4, 0), (4, 0), (4, 0), (long, 0), (long, 0), (long, 0),
    (long, 0), (long, 0), (long, 0), (long, 0), (long, 0)]

/-- `pr_reg` begins behind the leading fields. -/
theorem length_prstatusFields
    (long : Nat)
    (tid : UInt32)
    (fatalSignal : Int32) :
    (encodeFields (prstatusFields long tid fatalSignal)).length =
      32 + 10 * long := by
  simp only [length_encodeFields, prstatusFields, List.map_cons, List.map_nil,
    List.sum_cons, List.sum_nil]
  omega

theorem pidOffset_prstatusFields
    (long : Nat)
    (tid : UInt32)
    (fatalSignal : Int32) :
    (((prstatusFields long tid fatalSignal).take 7).map Prod.fst).sum =
      16 + 2 * long := by
  simp only [prstatusFields, List.take_succ_cons, List.take_zero,
    List.map_cons, List.map_nil, List.sum_cons, List.sum_nil]
  omega

/-- `pr_fpvalid` as it is written. -/
def fpvalidFlag (fpValid : Bool) : Nat :=
  if fpValid then 1 else 0

/-- The descriptor is its leading fields, the registers and `pr_fpvalid`, with
padding behind. -/
theorem buildPrstatus_eq
    (architecture : Architecture)
    (tid : UInt32)
    (fatalSignal : Int32)
    (prReg : List UInt8)
    (fpValid : Bool) :
    ∃ back, buildPrstatus architecture tid fatalSignal prReg fpValid =
      encodeFields (prstatusFields architecture.longSize tid fatalSignal) ++
        prReg ++ leBytes 4 (fpvalidFlag fpValid) ++ back := by
  have longSize := architecture.longSize_eq_four_or_eight
  have flag : i32LeBytes (if fpValid then 1 else 0) =
      leBytes 4 (fpvalidFlag fpValid) := by
    cases fpValid <;> rfl
  have aligned : pad (i32LeBytes fatalSignal ++ i32LeBytes 0 ++ i32LeBytes 0 ++
      leBytes 2 (cursig fatalSignal).toUInt16.toNat) architecture.longSize =
        i32LeBytes fatalSignal ++ i32LeBytes 0 ++ i32LeBytes 0 ++
          leBytes 2 (cursig fatalSignal).toUInt16.toNat ++ leBytes 2 0 := by
    have length : (i32LeBytes fatalSignal ++ i32LeBytes 0 ++ i32LeBytes 0 ++
        leBytes 2 (cursig fatalSignal).toUInt16.toNat).length = 14 := by
      simp [i32LeBytes]
    rw [pad, padTo_eq, length]
    rcases longSize with narrow | wide
    · rw [narrow]; rfl
    · rw [wide]; rfl
  unfold buildPrstatus
  simp only [aligned, flag]
  simp only [pushLong_zero _ longSize, List.range, List.range.loop,
    List.foldl_cons, List.foldl_nil]
  apply exists_pad_of_eq
  simp only [prstatusFields, encodeFields, List.flatMap_cons, List.flatMap_nil,
    List.append_assoc, List.append_nil, i32LeBytes]
  rfl

/-- A consumer reads back what was put into `NT_PRSTATUS`. -/
theorem readPrstatus_build
    {architecture : Architecture}
    {prReg : List UInt8}
    (tid : UInt32)
    (fatalSignal : Int32)
    (fpValid : Bool)
    (size : prReg.length = architecture.gregsetSize) :
    readPrstatus architecture.longSize architecture.gregsetSize
      (buildPrstatus architecture tid fatalSignal prReg fpValid) =
        some ⟨fatalSignal.toUInt32.toNat,
          (cursig fatalSignal).toUInt16.toNat, tid.toNat, prReg,
          fpvalidFlag fpValid⟩ := by
  obtain ⟨back, layout⟩ := buildPrstatus_eq architecture tid fatalSignal prReg
    fpValid
  rw [List.append_assoc, List.append_assoc] at layout
  have leading := length_prstatusFields architecture.longSize tid fatalSignal
  have readField : ∀ index offset width value,
      (prstatusFields architecture.longSize tid fatalSignal)[index]? =
        some (width, value) →
      offset = (((prstatusFields architecture.longSize tid
        fatalSignal).take index).map Prod.fst).sum →
      value < 256 ^ width →
      readLe (buildPrstatus architecture tid fatalSignal prReg fpValid)
        offset width = some value := by
    intro index offset width value found located fits
    rw [layout]
    exact readLe_encodeFields_append _ found located fits
  have signo := readField 0 0 4 _ rfl rfl fatalSignal.toUInt32.toNat_lt
  have signal := readField 3 12 2 _ rfl rfl
    (cursig fatalSignal).toUInt16.toNat_lt
  have pid := readField 7 (16 + 2 * architecture.longSize) 4 _ rfl
    (pidOffset_prstatusFields _ tid fatalSignal).symm tid.toNat_lt
  have flagFits : fpvalidFlag fpValid < 256 ^ 4 := by
    cases fpValid <;> decide
  have fpvalid : readLe (buildPrstatus architecture tid fatalSignal prReg
      fpValid) (32 + 10 * architecture.longSize + architecture.gregsetSize) 4 =
        some (fpvalidFlag fpValid) := by
    rw [layout, ← List.append_assoc, readLe_append_of_le _ (by
        rw [List.length_append, leading, size]),
      List.length_append, leading, size, Nat.sub_self,
      readLe_leBytes_append back flagFits]
  have reg : slice (buildPrstatus architecture tid fatalSignal prReg fpValid)
      (32 + 10 * architecture.longSize) architecture.gregsetSize = prReg := by
    rw [layout, ← leading, ← size]
    exact slice_middle _ prReg _
  unfold readPrstatus
  simp only [signo, signal, pid, fpvalid, reg, Option.bind_eq_bind,
    Option.bind_some]
  rfl

end Md2Core
