import Md2Core.Foundation.ByteString
import Md2Core.Foundation.Pages

/-!
# Reading ELF images

The little-endian program headers and notes of an ELF image, as a consumer
reads them: the program-header table is located through the file header, and a
note segment is a sequence of notes whose name and descriptor are each padded to
four bytes. The readers undo the encodings of both.
-/

namespace Foundation

/-! ## Program headers -/

/-- A program header. -/
structure Segment where
  type : Nat
  flags : Nat
  offset : Nat
  vaddr : Nat
  paddr : Nat
  filesz : Nat
  memsz : Nat
  align : Nat
  deriving DecidableEq, Repr

namespace Segment

/-- The widths and values of the fields in file order, in the 64-bit or in the
32-bit class. -/
def fields (wide : Bool) (segment : Segment) : List (Nat × Nat) :=
  if wide then
    [(4, segment.type), (4, segment.flags), (8, segment.offset),
      (8, segment.vaddr), (8, segment.paddr), (8, segment.filesz),
      (8, segment.memsz), (8, segment.align)]
  else
    [(4, segment.type), (4, segment.offset), (4, segment.vaddr),
      (4, segment.paddr), (4, segment.filesz), (4, segment.memsz),
      (4, segment.flags), (4, segment.align)]

/-- Every field fits its width. -/
def Fits (wide : Bool) (segment : Segment) : Prop :=
  ∀ field ∈ segment.fields wide, field.2 < 256 ^ field.1

/-- The program header in an image. -/
def encode (wide : Bool) (segment : Segment) : List UInt8 :=
  encodeFields (segment.fields wide)

/-- The size of a program header. -/
def headerSize (wide : Bool) : Nat :=
  if wide then 56 else 32

theorem length_encode (wide : Bool) (segment : Segment) :
    (segment.encode wide).length = headerSize wide := by
  cases wide <;> rw [encode, length_encodeFields] <;> rfl

theorem length_flatMap_encode (wide : Bool) (segments : List Segment) :
    (segments.flatMap (·.encode wide)).length =
      segments.length * headerSize wide := by
  simp [List.length_flatMap, length_encode]

/-- The addresses that a segment backs with bytes of the file. -/
def Backs (segment : Segment) (address : Nat) : Prop :=
  segment.vaddr ≤ address ∧ address < segment.vaddr + segment.filesz

instance (segment : Segment) (address : Nat) :
    Decidable (segment.Backs address) :=
  inferInstanceAs (Decidable (_ ∧ _))

end Segment

/-- Read the program header at an offset. -/
def readSegment (wide : Bool) (image : List UInt8) (offset : Nat) :
    Option Segment :=
  if wide then do
    let type ← readLe image offset 4
    let flags ← readLe image (offset + 4) 4
    let fileOffset ← readLe image (offset + 8) 8
    let vaddr ← readLe image (offset + 16) 8
    let paddr ← readLe image (offset + 24) 8
    let filesz ← readLe image (offset + 32) 8
    let memsz ← readLe image (offset + 40) 8
    let align ← readLe image (offset + 48) 8
    return ⟨type, flags, fileOffset, vaddr, paddr, filesz, memsz, align⟩
  else do
    let type ← readLe image offset 4
    let fileOffset ← readLe image (offset + 4) 4
    let vaddr ← readLe image (offset + 8) 4
    let paddr ← readLe image (offset + 12) 4
    let filesz ← readLe image (offset + 16) 4
    let memsz ← readLe image (offset + 20) 4
    let flags ← readLe image (offset + 24) 4
    let align ← readLe image (offset + 28) 4
    return ⟨type, flags, fileOffset, vaddr, paddr, filesz, memsz, align⟩

/-- Read a table of program headers. -/
def readSegments (wide : Bool) (image : List UInt8) (stride : Nat) :
    Nat → Nat → Option (List Segment)
  | 0, _ => some []
  | count + 1, offset => do
      let segment ← readSegment wide image offset
      let rest ← readSegments wide image stride count (offset + stride)
      return segment :: rest

/-- Read the program headers of an image. The class is byte 4; `e_phoff`,
`e_phentsize` and `e_phnum` lie where the class puts them. -/
def readProgramHeaders (image : List UInt8) : Option (List Segment) := do
  let magic ← readLe image 0 4
  if magic ≠ leNat [0x7f, 0x45, 0x4c, 0x46] then none
  let elfClass ← readLe image 4 1
  if elfClass = 2 then do
    let phoff ← readLe image 32 8
    let phentsize ← readLe image 54 2
    let phnum ← readLe image 56 2
    readSegments true image phentsize phnum phoff
  else if elfClass = 1 then do
    let phoff ← readLe image 28 4
    let phentsize ← readLe image 42 2
    let phnum ← readLe image 44 2
    readSegments false image phentsize phnum phoff
  else
    none

/-- Read the program headers of an image that may have more of them than
`e_phnum` holds. The reserved value `PN_XNUM` says that their number is in
`sh_info` of the first section header, which lies at `e_shoff`; an image without
section headers has an `e_shoff` of zero. -/
def readExtendedProgramHeaders (image : List UInt8) : Option (List Segment) := do
  let elfClass ← readLe image 4 1
  let wide : Bool := elfClass = 2
  let phnum ← readLe image (if wide then 56 else 44) 2
  if phnum = 0xFFFF then do
    let shoff ← readLe image (if wide then 40 else 32) (if wide then 8 else 4)
    if shoff = 0 then
      none
    else do
      let count ← readLe image (shoff + if wide then 44 else 28) 4
      let phoff ← readLe image (if wide then 32 else 28) (if wide then 8 else 4)
      let phentsize ← readLe image (if wide then 54 else 42) 2
      readSegments wide image phentsize count phoff
  else
    readProgramHeaders image

/-- An address resolves to a byte of an image: among the load segments, whose
type is 1, exactly one backs the address, and the file holds the byte at the
position that it maps the address to. -/
def ResolvesTo (image : List UInt8) (address : Nat) (byte : UInt8) : Prop :=
  ∃ segments segment,
    readProgramHeaders image = some segments ∧
    (segments.filter fun candidate =>
      decide (candidate.type = 1 ∧ candidate.Backs address)) = [segment] ∧
    image[segment.offset + (address - segment.vaddr)]? = some byte

/-- A program header is read back where it was put. -/
theorem readSegment_append
    {wide : Bool}
    {segment : Segment}
    (front back : List UInt8)
    (fits : segment.Fits wide) :
    readSegment wide (front ++ (segment.encode wide ++ back)) front.length =
      some segment := by
  have readField : ∀ index offset width value,
      (segment.fields wide)[index]? = some (width, value) →
        offset = front.length +
          (((segment.fields wide).take index).map Prod.fst).sum →
          readLe (front ++ (segment.encode wide ++ back)) offset width =
            some value := by
    intro index offset width value found located
    exact readLe_encodeFields front back found located (Nat.le_refl _)
      (fits _ (List.mem_of_getElem? found))
  unfold readSegment
  cases wide with
  | true =>
      simp only [if_true,
        readField 0 front.length 4 segment.type rfl rfl,
        readField 1 (front.length + 4) 4 segment.flags rfl rfl,
        readField 2 (front.length + 8) 8 segment.offset rfl rfl,
        readField 3 (front.length + 16) 8 segment.vaddr rfl rfl,
        readField 4 (front.length + 24) 8 segment.paddr rfl rfl,
        readField 5 (front.length + 32) 8 segment.filesz rfl rfl,
        readField 6 (front.length + 40) 8 segment.memsz rfl rfl,
        readField 7 (front.length + 48) 8 segment.align rfl rfl,
        Option.bind_eq_bind, Option.bind_some]
      rfl
  | false =>
      simp only [Bool.false_eq_true, if_false,
        readField 0 front.length 4 segment.type rfl rfl,
        readField 1 (front.length + 4) 4 segment.offset rfl rfl,
        readField 2 (front.length + 8) 4 segment.vaddr rfl rfl,
        readField 3 (front.length + 12) 4 segment.paddr rfl rfl,
        readField 4 (front.length + 16) 4 segment.filesz rfl rfl,
        readField 5 (front.length + 20) 4 segment.memsz rfl rfl,
        readField 6 (front.length + 24) 4 segment.flags rfl rfl,
        readField 7 (front.length + 28) 4 segment.align rfl rfl,
        Option.bind_eq_bind, Option.bind_some]
      rfl

/-- A table of program headers is read back where it was put. -/
theorem readSegments_append
    {wide : Bool}
    {segments : List Segment}
    (front back : List UInt8)
    (fits : ∀ segment ∈ segments, segment.Fits wide) :
    readSegments wide
      (front ++ (segments.flatMap (·.encode wide) ++ back))
      (Segment.headerSize wide) segments.length front.length =
        some segments := by
  induction segments generalizing front with
  | nil => rfl
  | cons segment rest inductionHypothesis =>
      have first := readSegment_append front
        (rest.flatMap (·.encode wide) ++ back) (fits segment List.mem_cons_self)
      have others := inductionHypothesis (front ++ segment.encode wide)
        (fun other member => fits other (List.mem_cons_of_mem _ member))
      rw [List.append_assoc, List.length_append, Segment.length_encode] at others
      rw [List.flatMap_cons, List.append_assoc, List.length_cons, readSegments,
        first, Option.bind_eq_bind, Option.bind_some, others]
      rfl

/-! ## Notes -/

/-- A note: a name, a type and a descriptor. -/
structure ElfNote where
  name : List UInt8
  type : Nat
  desc : List UInt8
  deriving DecidableEq, Repr

/-- Zero bytes up to the next multiple of four. -/
def notePadding (length : Nat) : List UInt8 :=
  List.replicate (roundUp 4 length - length) 0

theorem length_append_notePadding (items : List UInt8) :
    (items ++ notePadding items.length).length = roundUp 4 items.length := by
  have grows := le_roundUp 4 items.length
  simp only [notePadding, List.length_append, List.length_replicate]
  omega

namespace ElfNote

/-- Both lengths and the type fit their fields. -/
structure Fits (note : ElfNote) : Prop where
  name : note.name.length < 2 ^ 32
  type : note.type < 2 ^ 32
  desc : note.desc.length < 2 ^ 32

/-- A note in a note segment. -/
def encode (note : ElfNote) : List UInt8 :=
  encodeWords 4 [note.name.length, note.desc.length, note.type] ++
    (note.name ++ notePadding note.name.length) ++
    (note.desc ++ notePadding note.desc.length)

theorem length_encode (note : ElfNote) :
    note.encode.length =
      12 + roundUp 4 note.name.length + roundUp 4 note.desc.length := by
  rw [encode, List.length_append, List.length_append, length_encodeWords,
    length_append_notePadding, length_append_notePadding]
  rfl

theorem encode_ne_nil (note : ElfNote) : note.encode ≠ [] := by
  rw [← List.length_pos_iff, length_encode]
  omega

end ElfNote

/-- Read one note and return what follows it. -/
def readNote (bytes : List UInt8) : Option (ElfNote × List UInt8) := do
  let namesz ← readLe bytes 0 4
  let descsz ← readLe bytes 4 4
  let type ← readLe bytes 8 4
  let descStart := 12 + roundUp 4 namesz
  let noteEnd := descStart + roundUp 4 descsz
  if noteEnd ≤ bytes.length then
    return (⟨slice bytes 12 namesz, type, slice bytes descStart descsz⟩,
      bytes.drop noteEnd)
  else
    none

/-- A note in front of any continuation is read back. -/
theorem readNote_encode
    {note : ElfNote}
    (fits : note.Fits)
    (rest : List UInt8) :
    readNote (note.encode ++ rest) = some (note, rest) := by
  have readWord : ∀ index offset value,
      [note.name.length, note.desc.length, note.type][index]? = some value →
        offset = index * 4 → value < 2 ^ 32 →
          readLe (note.encode ++ rest) offset 4 = some value := by
    intro index offset value found located small
    rw [ElfNote.encode, List.append_assoc, List.append_assoc]
    have read := @readLeAt_encodeWords 0 offset 4 4 index value _ []
      (note.name ++ notePadding note.name.length ++
        (note.desc ++ notePadding note.desc.length ++ rest))
      found (by simpa using located) (Nat.le_refl _) small
    simpa [readLeAt] using read
  have name : slice (note.encode ++ rest) 12 note.name.length = note.name := by
    simp only [ElfNote.encode, List.append_assoc]
    exact slice_middle (encodeWords 4 [note.name.length, note.desc.length,
      note.type]) note.name _
  have desc : slice (note.encode ++ rest) (12 + roundUp 4 note.name.length)
      note.desc.length = note.desc := by
    have front : (encodeWords 4 [note.name.length, note.desc.length,
        note.type] ++ (note.name ++ notePadding note.name.length)).length =
          12 + roundUp 4 note.name.length := by
      rw [List.length_append, length_append_notePadding, length_encodeWords]
      rfl
    rw [← front, ElfNote.encode, List.append_assoc _ _ rest,
      List.append_assoc note.desc]
    exact slice_middle _ note.desc _
  have length := note.length_encode
  unfold readNote
  simp only [readWord 0 0 note.name.length rfl rfl fits.name,
    readWord 1 4 note.desc.length rfl rfl fits.desc,
    readWord 2 8 note.type rfl rfl fits.type, Option.bind_eq_bind,
    Option.bind_some, name, desc, ← length, List.drop_left, List.length_append,
    Nat.le_add_right, if_true]
  rfl

/-- Read one note, and check that the padding behind its name and behind its
descriptor is zero. -/
def readPaddedNote (bytes : List UInt8) : Option (ElfNote × List UInt8) := do
  let (note, rest) ← readNote bytes
  let namesz := note.name.length
  let descsz := note.desc.length
  let descStart := 12 + roundUp 4 namesz
  let namePadding := slice bytes (12 + namesz) (roundUp 4 namesz - namesz)
  let descPadding := slice bytes (descStart + descsz) (roundUp 4 descsz - descsz)
  if namePadding.all (· = 0) ∧ descPadding.all (· = 0) then
    return (note, rest)
  else
    none

theorem all_notePadding (length : Nat) :
    (notePadding length).all (· = 0) = true := by
  simp [notePadding]

/-- A note in front of any continuation is read back with zero padding. -/
theorem readPaddedNote_encode
    {note : ElfNote}
    (fits : note.Fits)
    (rest : List UInt8) :
    readPaddedNote (note.encode ++ rest) = some (note, rest) := by
  have header : (encodeWords 4 [note.name.length, note.desc.length,
      note.type]).length = 12 := length_encodeWords _ _
  have namePadding :
      slice (note.encode ++ rest) (12 + note.name.length)
          (roundUp 4 note.name.length - note.name.length) =
        notePadding note.name.length := by
    have sliced := slice_middle
      (encodeWords 4 [note.name.length, note.desc.length, note.type] ++ note.name)
      (notePadding note.name.length)
      (note.desc ++ notePadding note.desc.length ++ rest)
    rw [List.length_append, header] at sliced
    simpa [ElfNote.encode, notePadding] using sliced
  have descPadding :
      slice (note.encode ++ rest)
          (12 + roundUp 4 note.name.length + note.desc.length)
          (roundUp 4 note.desc.length - note.desc.length) =
        notePadding note.desc.length := by
    have sliced := slice_middle
      (encodeWords 4 [note.name.length, note.desc.length, note.type] ++
        (note.name ++ notePadding note.name.length) ++ note.desc)
      (notePadding note.desc.length) rest
    rw [List.length_append, List.length_append, header,
      length_append_notePadding] at sliced
    simpa [ElfNote.encode, notePadding] using sliced
  rw [readPaddedNote, readNote_encode fits]
  simp only [Option.bind_eq_bind, Option.bind_some, namePadding, descPadding,
    all_notePadding, and_self, if_true]
  rfl

end Foundation
