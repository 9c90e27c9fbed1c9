import Md2Core.Notes

/-!
# The core-file writer

`writeCore` lays out an ELF core image: the file header, a `PT_NOTE` and one
`PT_LOAD` program header per mapping, the note segment, zero bytes up to a page
boundary, and the captured bytes of the mappings in key order. A successful
call returns the bytes that it has written.
-/

namespace Md2Core

open Foundation

/-- The length of a byte string as `u64`. No Rust vector is longer. -/
def lenU64 (items : List UInt8) : Result UInt64 :=
  okOr (u64TryFrom items.length) (.panic .capacityOverflow)

theorem lenU64_eq_ok {items : List UInt8} {length : UInt64} :
    lenU64 items = .ok length ↔ length.toNat = items.length := by
  rw [lenU64, okOr_eq_ok, u64TryFrom_eq_some]

/-! ## Notes -/

/-- Append a note. -/
def pushNote
    (name : List UInt8)
    (nType : UInt32)
    (desc out : List UInt8) : Result (List UInt8) := do
  let note ← Note.build name nType desc
  return out ++ note

/-- Append a note if there is a descriptor for it. -/
def pushOptionalNote
    (name : List UInt8)
    (nType : UInt32) :
    Option (List UInt8) → List UInt8 → Result (List UInt8)
  | none, out => return out
  | some desc, out => pushNote name nType desc out

/-- The notes of one thread, if it has a context. -/
def writeThreadNotes
    (architecture : Architecture)
    (thread : ThreadSnapshot)
    (fatalSignal : Int32)
    (contextOverride : Option MinidumpRawContext)
    (out : List UInt8) : Result (List UInt8) :=
  match contextOverride.or thread.context with
  | none => return out
  | some context => do
      let prReg ← toPrReg architecture context
      let fp := toFpregset architecture context
      let prstatus := buildPrstatus architecture thread.tid fatalSignal prReg
        fp.isSome
      let out ← pushNote coreName ntPrstatus prstatus out
      let out ← pushOptionalNote coreName ntFpregset fp out
      pushOptionalNote linuxName ntPrxfpreg
        (toPrxfpreg architecture context) out

/-- The threads in the order of their notes: the first one with the crashing
thread id, then all with another id. -/
def orderedThreads
    (crashing : Option UInt32)
    (threads : List ThreadSnapshot) : List ThreadSnapshot :=
  let first := match crashing with
    | some tid => (threads.find? fun thread => thread.tid == tid).toList
    | none => []
  first ++ threads.filter fun thread => decide (some thread.tid ≠ crashing)

/-- The notes of all threads. Position 0 carries the fatal signal and the
context of the exception record. -/
def pushThreads
    (process : CrashedProcess) :
    Nat → List ThreadSnapshot → List UInt8 → Result (List UInt8)
  | _, [], out => return out
  | index, thread :: rest, out => do
      let signal := if index = 0 then process.fatalSignal else 0
      let contextOverride :=
        if index = 0 then process.exceptionContext else none
      let out ← writeThreadNotes process.architecture thread signal
        contextOverride out
      pushThreads process (index + 1) rest out

/-- The bytes of the `PT_NOTE` segment. -/
def buildNoteSegment (process : CrashedProcess) : Result (List UInt8) := do
  let architecture := process.architecture
  let prpsinfo := buildPrpsinfo architecture process.processInfo
  let out ← pushNote coreName ntPrpsinfo prpsinfo []
  let out ← pushNote coreName ntAuxv process.auxv out
  let payload ← buildNtFilePayload architecture process.mappings
  let out ← pushNote coreName ntFile payload out
  pushThreads process 0
    (orderedThreads process.crashingTid process.threads) out

/-! ## Layout -/

def ptLoadAlignment : UInt64 := defaultPageSize

/-- `p_flags` of a mapping: `PF_R` when no permission is known. -/
def loadFlags (permissions : MappingPermissions) : UInt32 :=
  if permissions = MappingPermissions.default then 4 else permissions.toElfFlags

/-- The file range of a mapping at the running offset, and the offset behind it.
A mapping without data is put past the end of the file. -/
def loadRange
    (emptyLoadOffset loadOffset : UInt64)
    (mapping : Mapping) : Result (UInt64 × UInt64 × UInt64) :=
  if mapping.data.isEmpty then
    return (emptyLoadOffset, 0, loadOffset)
  else do
    let filesz ← lenU64 mapping.data
    let next ← addU64 loadOffset filesz
    return (loadOffset, filesz, next)

/-- The `PT_LOAD` program headers from a running file offset on. -/
def writeLoadHeaders
    (elfClass : UInt8)
    (emptyLoadOffset : UInt64) :
    UInt64 → List Mapping → Result (List UInt8)
  | _, [] => return []
  | loadOffset, mapping :: rest => do
      let memsz ← subU64 mapping.endAddress mapping.startAddress
      let (pOffset, pFilesz, next) ←
        loadRange emptyLoadOffset loadOffset mapping
      let header ← ProgramHeader.write {
        pType := ptLoad
        pFlags := loadFlags mapping.permissions
        pOffset
        pVaddr := mapping.startAddress
        pPaddr := 0
        pFilesz
        pMemsz := memsz
        pAlign := ptLoadAlignment } elfClass
      let headers ← writeLoadHeaders elfClass emptyLoadOffset next rest
      return header ++ headers

/-- The full ELF core image of a process. -/
def writeCore (process : CrashedProcess) : Result (List UInt8) := do
  let architecture := process.architecture
  let noteBytes ← buildNoteSegment process
  let phnum := 1 + process.mappings.size
  let phnumU16 ← okOr (u16TryFrom phnum) (integerOverflow "phnum exceeds u16")
  let header : ElfHeader := {
    elfClass := architecture.elfClass
    machine := architecture.elfMachine
    phnum := phnumU16 }
  let ehdrSize := header.size.toUInt64
  let phdrSize := header.phdrSize.toUInt64
  let phdrTableSize ← exactU64 (phdrSize.toNat * phnum)
  let ptNoteOffset ← addU64 ehdrSize phdrTableSize
  let ptNoteFilesz ← lenU64 noteBytes
  let ptNoteEnd ← addU64 ptNoteOffset ptNoteFilesz
  let rem := ptNoteEnd % ptLoadAlignment
  let notePad := if rem = 0 then 0 else ptLoadAlignment - rem
  let loadOffset ← addU64 ptNoteEnd notePad
  let totalData ← exactU64
    (process.mappings.values.map fun mapping => mapping.data.length).sum
  let emptyLoadOffset ← addU64 loadOffset totalData
  let noteHeader ← ProgramHeader.write {
    pType := ptNote
    pFlags := 0
    pOffset := ptNoteOffset
    pVaddr := 0
    pPaddr := 0
    pFilesz := ptNoteFilesz
    pMemsz := 0
    pAlign := 0 } header.elfClass
  let loadHeaders ← writeLoadHeaders header.elfClass emptyLoadOffset loadOffset
    process.mappings.values
  return header.write ++ noteHeader ++ loadHeaders ++ noteBytes ++
    List.replicate notePad.toNat 0 ++
    process.mappings.values.flatMap fun mapping => mapping.data

end Md2Core
