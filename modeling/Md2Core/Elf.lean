import Md2Core.Foundation.Elf
import Md2Core.Model

/-!
# ELF headers

The ELF file header, program headers and note headers as the writer emits them,
always little-endian. The program-header table behind a written file header is
what a reader of the image finds.
-/

namespace Md2Core

open Foundation

def elfMag : List UInt8 := [0x7f, 0x45, 0x4c, 0x46]

def elfData2Lsb : UInt8 := 1

def evCurrent : UInt8 := 1

/-- `e_type` value for core dumps. -/
def etCore : UInt16 := 4

/-- `p_type` value for `PT_LOAD` segments. -/
def ptLoad : UInt32 := 1

/-- `p_type` value for `PT_NOTE` segments. -/
def ptNote : UInt32 := 4

/-! ## Note types and names -/

/-- Process status. -/
def ntPrstatus : UInt32 := 1

/-- FPU registers. -/
def ntFpregset : UInt32 := 2

/-- Process info. -/
def ntPrpsinfo : UInt32 := 3

/-- Auxiliary vector. -/
def ntAuxv : UInt32 := 6

/-- File-backed memory mappings. -/
def ntFile : UInt32 := 0x46494c45

/-- x86 extended FP registers. -/
def ntPrxfpreg : UInt32 := 0x46e62b7f

/-- Note name of GNU/Linux core notes, `CORE` with its NUL. -/
def coreName : List UInt8 := [0x43, 0x4f, 0x52, 0x45, 0]

/-- Note name used by `NT_PRXFPREG`, `LINUX` with its NUL. -/
def linuxName : List UInt8 := [0x4c, 0x49, 0x4e, 0x55, 0x58, 0]

/-! ## File header -/

/-- An ELF file header for either class. -/
structure ElfHeader where
  /-- 1 for ELFCLASS32, 2 for ELFCLASS64. -/
  elfClass : UInt8
  /-- `e_machine` value. -/
  machine : UInt16
  /-- `e_phnum` value. -/
  phnum : UInt16
  deriving DecidableEq, Repr

namespace ElfHeader

/-- The on-disk size of the header. -/
def size (header : ElfHeader) : UInt32 :=
  if header.elfClass = 2 then 64 else 52

/-- The on-disk size of one program header. -/
def phdrSize (header : ElfHeader) : UInt16 :=
  if header.elfClass = 2 then 56 else 32

/-- The header in little-endian byte order. -/
def write (header : ElfHeader) : List UInt8 :=
  let eIdent := elfMag ++ [header.elfClass, elfData2Lsb, evCurrent] ++
    List.replicate 9 0
  let ehsize := header.size.toNat
  let phentsize := header.phdrSize.toNat
  let shentsize := if header.elfClass = 2 then 64 else 40
  let locations :=
    if header.elfClass = 2 then
      leBytes 8 0 ++ leBytes 8 ehsize ++ leBytes 8 0
    else
      leBytes 4 0 ++ leBytes 4 ((u32TryFrom ehsize).getD 0).toNat ++ leBytes 4 0
  eIdent ++
    leBytes 2 etCore.toNat ++
    leBytes 2 header.machine.toNat ++
    leBytes 4 evCurrent.toNat ++
    locations ++
    leBytes 4 0 ++
    leBytes 2 ((u16TryFrom ehsize).getD 0).toNat ++
    leBytes 2 ((u16TryFrom phentsize).getD 0).toNat ++
    leBytes 2 header.phnum.toNat ++
    leBytes 2 ((u16TryFrom shentsize).getD 0).toNat ++
    leBytes 2 0 ++
    leBytes 2 0

end ElfHeader

/-! ## Program headers -/

/-- One ELF program header entry. Fields use 64-bit storage. -/
structure ProgramHeader where
  pType : UInt32
  pFlags : UInt32
  pOffset : UInt64
  pVaddr : UInt64
  pPaddr : UInt64
  pFilesz : UInt64
  pMemsz : UInt64
  pAlign : UInt64
  deriving DecidableEq, Repr

/-- A value that must be representable in `ELFCLASS32`. -/
def elf32Word (value : UInt64) (field : String) : Result UInt32 :=
  okOr (u32TryFrom value.toNat) (integerOverflow field)

namespace ProgramHeader

/-- The header in the layout of an ELF class. -/
def write (header : ProgramHeader) (elfClass : UInt8) : Result (List UInt8) :=
  if elfClass = 2 then
    return leBytes 4 header.pType.toNat ++
      leBytes 4 header.pFlags.toNat ++
      leBytes 8 header.pOffset.toNat ++
      leBytes 8 header.pVaddr.toNat ++
      leBytes 8 header.pPaddr.toNat ++
      leBytes 8 header.pFilesz.toNat ++
      leBytes 8 header.pMemsz.toNat ++
      leBytes 8 header.pAlign.toNat
  else do
    let offset ← elf32Word header.pOffset "ELF32 p_offset"
    let vaddr ← elf32Word header.pVaddr "ELF32 p_vaddr"
    let paddr ← elf32Word header.pPaddr "ELF32 p_paddr"
    let filesz ← elf32Word header.pFilesz "ELF32 p_filesz"
    let memsz ← elf32Word header.pMemsz "ELF32 p_memsz"
    let align ← elf32Word header.pAlign "ELF32 p_align"
    return leBytes 4 header.pType.toNat ++
      leBytes 4 offset.toNat ++
      leBytes 4 vaddr.toNat ++
      leBytes 4 paddr.toNat ++
      leBytes 4 filesz.toNat ++
      leBytes 4 memsz.toNat ++
      leBytes 4 header.pFlags.toNat ++
      leBytes 4 align.toNat

/-- The program header as a reader sees it. -/
def segment (header : ProgramHeader) : Segment where
  type := header.pType.toNat
  flags := header.pFlags.toNat
  offset := header.pOffset.toNat
  vaddr := header.pVaddr.toNat
  paddr := header.pPaddr.toNat
  filesz := header.pFilesz.toNat
  memsz := header.pMemsz.toNat
  align := header.pAlign.toNat

end ProgramHeader

/-! ## Note headers -/

/-- ELF note header, identical in both classes. -/
structure NoteHeader where
  nNamesz : UInt32
  nDescsz : UInt32
  nType : UInt32
  deriving DecidableEq, Repr

/-- The 12-byte note header. -/
def NoteHeader.write (header : NoteHeader) : List UInt8 :=
  leBytes 4 header.nNamesz.toNat ++
    leBytes 4 header.nDescsz.toNat ++
    leBytes 4 header.nType.toNat

/-! ## What a reader finds -/

theorem elf32Word_eq_ok {value : UInt64} {field : String} {word : UInt32} :
    elf32Word value field = .ok word ↔ word.toNat = value.toNat := by
  rw [elf32Word, okOr_eq_ok, u32TryFrom_eq_some]

/-- A program header is written as its encoding, and only when its fields fit. -/
theorem ProgramHeader.write_eq_ok
    {header : ProgramHeader}
    {elfClass : UInt8}
    {bytes : List UInt8}
    (succeeded : header.write elfClass = .ok bytes) :
    bytes = header.segment.encode (elfClass == 2) ∧
      header.segment.Fits (elfClass == 2) := by
  have typeBound := header.pType.toNat_lt
  have flagsBound := header.pFlags.toNat_lt
  unfold ProgramHeader.write at succeeded
  by_cases wide : elfClass = 2
  · rw [if_pos wide, pure_eq_ok] at succeeded
    subst succeeded
    rw [wide]
    refine ⟨by simp [Segment.encode, Segment.fields, encodeFields,
      ProgramHeader.segment], ?_⟩
    have offsetBound := header.pOffset.toNat_lt
    have vaddrBound := header.pVaddr.toNat_lt
    have paddrBound := header.pPaddr.toNat_lt
    have fileszBound := header.pFilesz.toNat_lt
    have memszBound := header.pMemsz.toNat_lt
    have alignBound := header.pAlign.toNat_lt
    simp only [Segment.Fits, Segment.fields, ProgramHeader.segment,
      beq_self_eq_true, if_true, List.forall_mem_cons, List.not_mem_nil,
      false_implies, implies_true, and_true]
    omega
  · rw [if_neg wide] at succeeded
    simp only [bind_eq_ok, elf32Word_eq_ok, pure_eq_ok] at succeeded
    obtain ⟨offset, offsetValue, vaddr, vaddrValue, paddr, paddrValue, filesz,
      fileszValue, memsz, memszValue, align, alignValue, rfl⟩ := succeeded
    have narrow : (elfClass == 2) = false := beq_eq_false_iff_ne.mpr wide
    rw [narrow]
    refine ⟨by simp [Segment.encode, Segment.fields, encodeFields,
      ProgramHeader.segment, offsetValue, vaddrValue, paddrValue, fileszValue,
      memszValue, alignValue], ?_⟩
    have offsetBound := offset.toNat_lt
    have vaddrBound := vaddr.toNat_lt
    have paddrBound := paddr.toNat_lt
    have fileszBound := filesz.toNat_lt
    have memszBound := memsz.toNat_lt
    have alignBound := align.toNat_lt
    simp only [Segment.Fits, Segment.fields, ProgramHeader.segment,
      Bool.false_eq_true, if_false, List.forall_mem_cons, List.not_mem_nil,
      false_implies, implies_true, and_true]
    omega

/-- The widths and values of the fields of a file header behind the
identification bytes. -/
def ElfHeader.fields (header : ElfHeader) : List (Nat × Nat) :=
  if header.elfClass = 2 then
    [(2, etCore.toNat), (2, header.machine.toNat), (4, 1), (8, 0), (8, 64),
      (8, 0), (4, 0), (2, 64), (2, 56), (2, header.phnum.toNat), (2, 64),
      (2, 0), (2, 0)]
  else
    [(2, etCore.toNat), (2, header.machine.toNat), (4, 1), (4, 0), (4, 52),
      (4, 0), (4, 0), (2, 52), (2, 32), (2, header.phnum.toNat), (2, 40),
      (2, 0), (2, 0)]

/-- The identification bytes of a file header. -/
def ElfHeader.ident (header : ElfHeader) : List UInt8 :=
  elfMag ++ ([header.elfClass] ++ ([elfData2Lsb, evCurrent] ++
    List.replicate 9 0))

theorem ElfHeader.write_eq (header : ElfHeader) :
    header.write = header.ident ++ encodeFields header.fields := by
  unfold ElfHeader.write ElfHeader.fields ElfHeader.size ElfHeader.phdrSize
  by_cases wide : header.elfClass = 2
  · simp only [if_pos wide, encodeFields, List.flatMap_cons, List.flatMap_nil,
      List.append_assoc, List.append_nil]
    rfl
  · simp only [if_neg wide, encodeFields, List.flatMap_cons, List.flatMap_nil,
      List.append_assoc, List.append_nil]
    rfl

theorem ElfHeader.length_write (header : ElfHeader) :
    header.write.length = header.size.toNat := by
  rw [header.write_eq, List.length_append, length_encodeFields]
  unfold ElfHeader.fields ElfHeader.size
  split <;> rfl

theorem ElfHeader.toNat_phdrSize (header : ElfHeader) :
    header.phdrSize.toNat = Segment.headerSize (header.elfClass == 2) := by
  unfold ElfHeader.phdrSize Segment.headerSize
  by_cases wide : header.elfClass = 2
  · rw [if_pos wide, if_pos (beq_iff_eq.mpr wide)]
    rfl
  · rw [if_neg wide, if_neg (fun equal => wide (beq_iff_eq.mp equal))]
    rfl

theorem ElfHeader.length_ident (header : ElfHeader) :
    header.ident.length = 16 := rfl

/-- A field of a written file header is read back. -/
theorem ElfHeader.readLe_write
    (header : ElfHeader)
    (back : List UInt8)
    {index offset width value : Nat}
    (found : header.fields[index]? = some (width, value))
    (located : offset =
      16 + ((header.fields.take index).map Prod.fst).sum)
    (fits : value < 256 ^ width) :
    readLe (header.write ++ back) offset width = some value := by
  rw [header.write_eq, List.append_assoc]
  exact readLe_encodeFields header.ident back found
    (by rw [header.length_ident]; exact located) (Nat.le_refl _) fits

/-- The identification bytes begin with the magic number and the class. -/
theorem ElfHeader.readLe_ident (header : ElfHeader) (back : List UInt8) :
    readLe (header.write ++ back) 0 4 = some (leNat elfMag) ∧
      readLe (header.write ++ back) 4 1 = some header.elfClass.toNat := by
  constructor
  · rw [header.write_eq, ElfHeader.ident, List.append_assoc, List.append_assoc]
    rfl
  · rw [header.write_eq, ElfHeader.ident, List.append_assoc, List.append_assoc]
    rfl

/-- A reader of either class finds the offset of the program headers, their size
and their number in a written file header. -/
theorem ElfHeader.readLe_locations
    (header : ElfHeader)
    (back : List UInt8)
    (wide : Bool)
    (classValue : header.elfClass = if wide then 2 else 1) :
    readLe (header.write ++ back) (if wide then 32 else 28)
        (if wide then 8 else 4) = some header.write.length ∧
      readLe (header.write ++ back) (if wide then 54 else 42) 2 =
        some (Segment.headerSize wide) ∧
      readLe (header.write ++ back) (if wide then 56 else 44) 2 =
        some header.phnum.toNat := by
  rw [header.length_write]
  obtain ⟨elfClass, machine, phnum⟩ := header
  subst classValue
  refine ⟨?_, ?_, ?_⟩
  · exact @ElfHeader.readLe_write _ back 4 _ _ _ (by cases wide <;> rfl)
      (by cases wide <;> rfl) (by cases wide <;> simp [ElfHeader.size])
  · exact @ElfHeader.readLe_write _ back 8 _ _ _ (by cases wide <;> rfl)
      (by cases wide <;> rfl) (by cases wide <;> decide)
  · exact @ElfHeader.readLe_write _ back 9 _ _ _ (by cases wide <;> rfl)
      (by cases wide <;> rfl) phnum.toNat_lt

/-- A reader of an image finds the program headers behind its file header. -/
theorem readProgramHeaders_write
    {header : ElfHeader}
    {segments : List Segment}
    (back : List UInt8)
    (classValid : header.elfClass = 1 ∨ header.elfClass = 2)
    (count : header.phnum.toNat = segments.length)
    (fits : ∀ segment ∈ segments, segment.Fits (header.elfClass == 2)) :
    readProgramHeaders (header.write ++
      (segments.flatMap (·.encode (header.elfClass == 2)) ++ back)) =
        some segments := by
  obtain ⟨magic, readClass⟩ := header.readLe_ident
    (segments.flatMap (·.encode (header.elfClass == 2)) ++ back)
  have table := readSegments_append header.write back fits
  rw [← count] at table
  unfold readProgramHeaders
  rcases classValid with narrow | wide
  · obtain ⟨phoff, phentsize, phnum⟩ := header.readLe_locations
      (segments.flatMap (·.encode (header.elfClass == 2)) ++ back) false narrow
    simp only [Bool.false_eq_true, if_false] at phoff phentsize phnum
    rw [magic, readClass, phoff, phentsize, phnum]
    rw [narrow] at table ⊢
    exact table
  · obtain ⟨phoff, phentsize, phnum⟩ := header.readLe_locations
      (segments.flatMap (·.encode (header.elfClass == 2)) ++ back) true wide
    simp only [if_true] at phoff phentsize phnum
    rw [magic, readClass, phoff, phentsize, phnum]
    rw [wide] at table ⊢
    exact table

end Md2Core
