import Md2Core.CoreWriter.Layout
import Md2Core.CoreWriter.ThreadNotes
import Md2Core.Notes.FileDecoding

/-!
# Decoding a core file

A debugger opens a core file without knowing the process. The file header tells it
the architecture, the first `PT_NOTE` leads to the notes, and the notes and the
`PT_LOAD` segments tell it the rest. What it learns is what the process was.
-/

namespace Md2Core

open Foundation

/-! ## What a core file says -/

/-- What `NT_PRPSINFO` says about a process. -/
structure PsInfo where
  pid : Nat
  filename : List UInt8
  arguments : List UInt8
  deriving DecidableEq, Repr

/-- What the notes say about a thread. -/
structure ThreadStatus where
  prstatus : Prstatus
  fpregset : Option (List UInt8)
  prxfpreg : Option (List UInt8)
  deriving DecidableEq, Repr

/-- What a `PT_LOAD` segment says about a range of memory. -/
structure MemoryRange where
  start : Nat
  size : Nat
  flags : Nat
  data : List UInt8
  deriving DecidableEq, Repr

/-- What a core file says about a process. -/
structure CoreFile where
  architecture : Architecture
  processInfo : PsInfo
  auxv : List UInt8
  files : List FileEntry
  threads : List ThreadStatus
  memory : List MemoryRange
  deriving DecidableEq, Repr

/-! ## The reader -/

/-- The architecture that a class and a machine stand for. -/
def architectureOf : Nat → Nat → Option Architecture
  | 1, 3 => some .x86
  | 2, 62 => some .x86_64
  | 1, 40 => some .arm
  | 2, 183 => some .aarch64
  | 1, 8 => some .mips
  | 2, 8 => some .mips64
  | _, _ => none

/-- Read the architecture of an image. -/
def readArchitecture (image : List UInt8) : Option Architecture := do
  let elfClass ← readLe image 4 1
  let machine ← readLe image 18 2
  architectureOf elfClass machine

/-- Read an `NT_PRPSINFO` descriptor, given the sizes of a `long` and of an id of
a user. -/
def readPrpsinfo (long uid : Nat) (desc : List UInt8) : Option PsInfo := do
  let pidOffset := 2 * long + 2 * uid
  let pid ← readLe desc pidOffset 4
  return ⟨pid, slice desc (pidOffset + 16) 16, slice desc (pidOffset + 32) 80⟩

/-- The descriptor of the first note with a name and a type. -/
def findNote (name : List UInt8) (type : Nat) (notes : List ElfNote) :
    Option (List UInt8) :=
  (notes.find? fun note => note.name == name && note.type == type).map
    ElfNote.desc

/-- Take a note with a name and a type off the front, if it is there. -/
def takeNote (name : List UInt8) (type : Nat) :
    List ElfNote → Option (List UInt8) × List ElfNote
  | [] => (none, [])
  | note :: rest =>
      if note.name = name ∧ note.type = type then
        (some note.desc, rest)
      else
        (none, note :: rest)

/-- Take the notes of a thread. -/
def takeThread (architecture : Architecture) :
    List ElfNote → Option (ThreadStatus × List ElfNote)
  | [] => none
  | note :: rest =>
      if isPrstatus note then do
        let prstatus ← readPrstatus architecture.longSize
          architecture.gregsetSize note.desc
        let (fpregset, rest) := takeNote coreName ntFpregset.toNat rest
        let (prxfpreg, rest) := takeNote linuxName ntPrxfpreg.toNat rest
        return (⟨prstatus, fpregset, prxfpreg⟩, rest)
      else
        none

/-- The memory of the load segments. -/
def readMemory (image : List UInt8) (segments : List Segment) :
    List MemoryRange :=
  (segments.filter (·.type == 1)).map fun segment =>
    ⟨segment.vaddr, segment.memsz, segment.flags,
      slice image segment.offset segment.filesz⟩

/-- Size of an id of a user in `NT_PRPSINFO`. -/
def Architecture.uidSize (architecture : Architecture) : Nat :=
  if architecture.prpsinfoUidIsU32 then 4 else 2

/-- Read a core file. -/
def decodeCore (image : List UInt8) : Option CoreFile := do
  let architecture ← readArchitecture image
  let segments ← readProgramHeaders image
  let segment ← segments.find? (·.type == 4)
  let notes ← readAll readNote (slice image segment.offset segment.filesz)
  let prpsinfo ← findNote coreName ntPrpsinfo.toNat notes
  let processInfo ← readPrpsinfo architecture.longSize architecture.uidSize
    prpsinfo
  let auxv ← findNote coreName ntAuxv.toNat notes
  let payload ← findNote coreName ntFile.toNat notes
  let (_, files, _) ← readNtFile architecture.longSize payload
  let threads ← readAll (takeThread architecture)
    (notes.dropWhile fun note => !isPrstatus note)
  let memory := readMemory image segments
  return { architecture, processInfo, auxv, files, threads, memory }

/-! ## What a process is -/

/-- What a core file is to say about a report. -/
def ThreadReport.status
    (architecture : Architecture)
    (report : ThreadReport) : ThreadStatus where
  prstatus :=
    { signo := report.signal.toUInt32.toNat
      cursig := (cursig report.signal).toUInt16.toNat
      pid := report.tid.toNat
      reg := report.regs architecture
      fpvalid := fpvalidFlag (toFpregset architecture report.context).isSome }
  fpregset := toFpregset architecture report.context
  prxfpreg := toPrxfpreg architecture report.context

/-- What a core file is to say about a mapping. -/
def Mapping.memoryRange (mapping : Mapping) : MemoryRange where
  start := mapping.startAddress.toNat
  size := mapping.endAddress.toNat - mapping.startAddress.toNat
  flags := permissionFlags mapping.permissions
  data := mapping.data

/-- What a core file is to say about process information. -/
def ProcessInfo.psInfo (info : ProcessInfo) : PsInfo where
  pid := info.pid.toNat
  filename := info.filename.toList
  arguments := info.arguments.toList

/-- What a core file is to say about a process. -/
def CrashedProcess.coreFile (process : CrashedProcess) : CoreFile where
  architecture := process.architecture
  processInfo := process.processInfo.psInfo
  auxv := process.auxv
  files := fileEntries process.mappings
  threads := process.reports.map (·.status process.architecture)
  memory := process.mappings.values.map Mapping.memoryRange

/-! ## The parts -/

@[simp] theorem architectureOf_elfClass (architecture : Architecture) :
    architectureOf architecture.elfClass.toNat architecture.elfMachine.toNat =
      some architecture := by
  cases architecture <;> rfl

/-- The architecture is read back from a written file header. -/
theorem readArchitecture_write
    (architecture : Architecture)
    (phnum : UInt16)
    (back : List UInt8) :
    readArchitecture
        ((ElfHeader.mk architecture.elfClass architecture.elfMachine phnum).write ++
          back) = some architecture := by
  have elfClass := (ElfHeader.readLe_ident
    ⟨architecture.elfClass, architecture.elfMachine, phnum⟩ back).2
  have machine := @ElfHeader.readLe_write
    ⟨architecture.elfClass, architecture.elfMachine, phnum⟩ back 1 18 2
    architecture.elfMachine.toNat (by unfold ElfHeader.fields; split <;> rfl)
    (by unfold ElfHeader.fields; split <;> rfl) architecture.elfMachine.toNat_lt
  unfold readArchitecture
  rw [elfClass, machine]
  exact architectureOf_elfClass architecture

/-- The fields of `NT_PRPSINFO` before the names. -/
def prpsinfoFields (long uid : Nat) (pid : UInt32) : List (Nat × Nat) :=
  [(4, 0x5200), (long - 4, 0), (long, 0), (uid, 0), (uid, 0), (4, pid.toNat),
    (4, 0), (4, 0), (4, 0)]

theorem buildPrpsinfo_eq
    (architecture : Architecture)
    (info : ProcessInfo) :
    buildPrpsinfo architecture info =
      encodeFields (prpsinfoFields architecture.longSize architecture.uidSize
        info.pid) ++ (info.filename.toList ++ info.arguments.toList) := by
  cases architecture <;>
  · simp only [prpsinfoFields, encodeFields, List.flatMap_cons, List.flatMap_nil,
      List.append_assoc, List.append_nil]
    rfl

/-- `NT_PRPSINFO` is read back. -/
theorem readPrpsinfo_build
    (architecture : Architecture)
    (info : ProcessInfo) :
    readPrpsinfo architecture.longSize architecture.uidSize
      (buildPrpsinfo architecture info) = some info.psInfo := by
  have longSize := architecture.longSize_eq_four_or_eight
  have length : (encodeFields (prpsinfoFields architecture.longSize
      architecture.uidSize info.pid)).length =
        2 * architecture.longSize + 2 * architecture.uidSize + 16 := by
    simp only [length_encodeFields, prpsinfoFields, List.map_cons, List.map_nil,
      List.sum_cons, List.sum_nil]
    omega
  have pid : readLe (buildPrpsinfo architecture info)
      (2 * architecture.longSize + 2 * architecture.uidSize) 4 =
        some info.pid.toNat := by
    rw [buildPrpsinfo_eq]
    apply @readLe_encodeFields_append _ 5 _ _ _ _ rfl _ info.pid.toNat_lt
    simp only [prpsinfoFields, List.take_succ_cons, List.take_zero, List.map_cons,
      List.map_nil, List.sum_cons, List.sum_nil]
    omega
  have filename : slice (buildPrpsinfo architecture info)
      (2 * architecture.longSize + 2 * architecture.uidSize + 16) 16 =
        info.filename.toList := by
    have middle := slice_middle (encodeFields (prpsinfoFields
      architecture.longSize architecture.uidSize info.pid)) info.filename.toList
      info.arguments.toList
    rwa [length, Vector.length_toList, ← buildPrpsinfo_eq] at middle
  have arguments : slice (buildPrpsinfo architecture info)
      (2 * architecture.longSize + 2 * architecture.uidSize + 32) 80 =
        info.arguments.toList := by
    have middle := slice_middle (encodeFields (prpsinfoFields
      architecture.longSize architecture.uidSize info.pid) ++
        info.filename.toList) info.arguments.toList []
    rwa [List.append_nil, List.append_assoc, ← buildPrpsinfo_eq, List.length_append,
      length, Vector.length_toList, Vector.length_toList, Nat.add_assoc] at middle
  unfold readPrpsinfo
  simp only [pid, filename, arguments, Option.bind_eq_bind, Option.bind_some]
  rfl

/-! ## The threads -/

section Threads

variable {architecture : Architecture}

/-- What may follow the notes of a thread: nothing, or another thread. -/
def ThreadEnds (notes : List ElfNote) : Prop :=
  ∀ note ∈ notes.head?, note.type = ntPrstatus.toNat

/-- A note of another type is not taken. -/
theorem takeNote_of_threadEnds
    {name : List UInt8}
    {type : Nat}
    {notes : List ElfNote}
    (ends : ThreadEnds notes)
    (other : type ≠ ntPrstatus.toNat) :
    takeNote name type notes = (none, notes) := by
  cases notes with
  | nil => rfl
  | cons note rest =>
      have status : note.type = ntPrstatus.toNat := ends note rfl
      exact if_neg fun same => other (same.2.symm.trans status)

/-- An optional note is taken in front of notes that do not begin with one. -/
theorem takeNote_optional
    {name : List UInt8}
    {type : Nat}
    {notes : List ElfNote}
    (absent : takeNote name type notes = (none, notes))
    (desc : Option (List UInt8)) :
    takeNote name type ((desc.map (ElfNote.mk name type)).toList ++ notes) =
      (desc, notes) := by
  cases desc with
  | none => exact absent
  | some payload => exact if_pos ⟨rfl, rfl⟩

/-- A note of one type is not taken for one of another. -/
theorem takeNote_other
    {name other : List UInt8}
    {type otherType : Nat}
    {notes : List ElfNote}
    (absent : takeNote name type notes = (none, notes))
    (different : otherType ≠ type)
    (desc : Option (List UInt8)) :
    takeNote name type ((desc.map (ElfNote.mk other otherType)).toList ++ notes) =
      (none, (desc.map (ElfNote.mk other otherType)).toList ++ notes) := by
  cases desc with
  | none => exact absent
  | some payload => exact if_neg fun same => different same.2

/-- The notes of a report are taken as its status. -/
theorem takeThread_notes
    {report : ThreadReport}
    {rest : List ElfNote}
    (matching : toPrReg architecture report.context =
      .ok (report.regs architecture))
    (ends : ThreadEnds rest) :
    takeThread architecture (report.notes architecture ++ rest) =
      some (report.status architecture, rest) := by
  have xfp := @takeNote_optional linuxName ntPrxfpreg.toNat rest
    (takeNote_of_threadEnds ends (by decide))
    (toPrxfpreg architecture report.context)
  have noFp := @takeNote_other coreName linuxName ntFpregset.toNat
    ntPrxfpreg.toNat rest (takeNote_of_threadEnds ends (by decide)) (by decide)
    (toPrxfpreg architecture report.context)
  have fp := takeNote_optional noFp (toFpregset architecture report.context)
  unfold takeThread ThreadReport.notes
  rw [List.cons_append]
  simp only [show isPrstatus (report.prstatus architecture) = true from rfl, if_true]
  rw [readPrstatus_prstatus matching, ThreadReport.floatNotes, List.append_assoc]
  simp only [Option.bind_eq_bind, Option.bind_some, fp, xfp]
  rfl

/-- The thread notes of a core are read as the reports. -/
theorem readAll_takeThread
    {reports : List ThreadReport}
    (matching : ∀ report ∈ reports, toPrReg architecture report.context =
      .ok (report.regs architecture)) :
    readAll (takeThread architecture)
        (reports.flatMap (·.notes architecture)) =
      some (reports.map (·.status architecture)) := by
  apply @readAll_flatMap_of_follows _ _ _ _ _ _ ThreadEnds
  · simp [ThreadEnds]
  · intro report _ rest _ note head
    obtain rfl : report.prstatus architecture = note := by
      simpa [ThreadReport.notes] using head
    rfl
  · intro report member rest ends
    exact takeThread_notes (matching report member) ends
  · intro report _
    exact List.cons_ne_nil _ _

end Threads

/-! ## The whole core -/

/-- The load segments are read as the mappings. -/
theorem readMemory_of_loadedAs
    {image : List UInt8}
    {note : Segment}
    {mappings : List Mapping}
    {loads : List Segment}
    (noteType : note.type = 4)
    (loaded : List.Forall₂ (LoadedAs image) mappings loads) :
    readMemory image (note :: loads) = mappings.map Mapping.memoryRange := by
  unfold readMemory
  rw [List.filter_cons_of_neg (by simp [noteType])]
  induction loaded with
  | nil => rfl
  | cons load _ inductionHypothesis =>
      rw [List.filter_cons_of_pos (by simp [load.type]), List.map_cons, List.map_cons,
        inductionHypothesis, load.vaddr, load.memsz, load.flags, load.content]
      rfl

/-- A written image begins with the file header of the architecture. -/
theorem readArchitecture_writeCore
    {process : CrashedProcess}
    {image : List UInt8}
    (succeeded : writeCore process = .ok image) :
    readArchitecture image = some process.architecture := by
  unfold writeCore at succeeded
  simp only [bind_eq_ok, pure_eq_ok, List.append_assoc] at succeeded
  obtain ⟨_, _, phnum, _, _, _, _, _, _, _, _, _, _, _, _, _, _, _, _, _, _, _,
    rfl⟩ := succeeded
  exact readArchitecture_write process.architecture phnum _

/-- The notes in front of the thread notes are found, and the thread notes follow
them. -/
theorem findNote_processNotes
    (process : CrashedProcess)
    (payload : List UInt8) :
    let notes := processNotes process payload ++
      process.reports.flatMap (·.notes process.architecture)
    findNote coreName ntPrpsinfo.toNat notes =
        some (buildPrpsinfo process.architecture process.processInfo) ∧
      findNote coreName ntAuxv.toNat notes = some process.auxv ∧
      findNote coreName ntFile.toNat notes = some payload ∧
      notes.dropWhile (fun note => !isPrstatus note) =
        process.reports.flatMap (·.notes process.architecture) := by
  refine ⟨rfl, rfl, rfl, ?_⟩
  change List.dropWhile _ (process.reports.flatMap _) = _
  cases process.reports with
  | nil => rfl
  | cons report rest => rfl

/-- The names of the mapped files have no NUL. -/
def MappingTable.ZeroFree (mappings : MappingTable) : Prop :=
  ∀ mapping ∈ mappings.values, ∀ filename, mapping.filename = some filename →
    0 ∉ asBytes filename

/-- A written core can be decoded, with all but the names of its files whatever they
are, and with the files when their names have no NUL. -/
theorem exists_decodeCore_of_writeCore
    {process : CrashedProcess}
    {image : List UInt8}
    (succeeded : writeCore process = .ok image) :
    ∃ files, decodeCore image = some { process.coreFile with files } ∧
      (process.mappings.ZeroFree → files = fileEntries process.mappings) := by
  have architecture := readArchitecture_writeCore succeeded
  obtain ⟨notes, note, front, notesOk, headers, noteType, _, noteBytes, _, parts⟩ :=
    writeCore_ok succeeded
  obtain ⟨payload, payloadOk, notesRead, matching⟩ := buildNoteSegment_ok notesOk
  obtain ⟨prpsinfo, auxv, file, threadNotes⟩ := findNote_processNotes process payload
  obtain ⟨files, rest, filesRead⟩ := exists_readNtFile payloadOk
  have threads := readAll_takeThread matching
  have memory := readMemory_of_loadedAs noteType (loadSegments_loadedAs parts)
  refine ⟨files, ?_, fun zeroFree => ?_⟩
  · unfold decodeCore
    simp only [architecture, headers, List.find?_cons_of_pos, noteType,
      beq_self_eq_true, noteBytes, notesRead, prpsinfo, auxv, file, threadNotes,
      readPrpsinfo_build, filesRead, threads, memory, Option.bind_eq_bind,
      Option.bind_some]
    rfl
  · rw [readNtFile_of_zeroFree zeroFree payloadOk, Option.some.injEq, Prod.mk.injEq,
      Prod.mk.injEq] at filesRead
    exact filesRead.2.1.symm

/-- Decoding undoes the writing of a core. -/
theorem decodeCore_of_writeCore
    {process : CrashedProcess}
    {image : List UInt8}
    (zeroFree : process.mappings.ZeroFree)
    (succeeded : writeCore process = .ok image) :
    decodeCore image = some process.coreFile := by
  obtain ⟨files, decoded, listed⟩ := exists_decodeCore_of_writeCore succeeded
  rw [decoded, listed zeroFree]
  rfl

/-- The process of two threads with a mapped file. -/
def sampleReported : CrashedProcess :=
  { sampleThreads with mappings := sampleFileTable }

/-- Names without a NUL are checked by looking at them. -/
theorem MappingTable.zeroFree_of_all
    {mappings : MappingTable}
    (checked : mappings.values.all (fun mapping =>
      mapping.filename.all fun filename => !(asBytes filename).contains 0) = true) :
    mappings.ZeroFree := by
  intro mapping member filename named
  have free := List.all_eq_true.mp checked mapping member
  rw [named] at free
  simpa using free

end Md2Core
