import Md2Core.RustMinidump.Executable
import Md2Core.RustMinidump.Ingest
import Md2Core.RustMinidump.Threads

/-!
# From a minidump to a process

`readProcessFromMinidump` validates the system, ingests the streams in a fixed
order and fills what they leave open: the process id, the dynamic-linker data and
the auxiliary vector. This module says what every field of the process is taken
from, and which invariant the mapping table has afterwards.
-/

namespace Md2Core

open Foundation

/-! ## Systems -/

/-- The CPUs that are told apart. -/
inductive Cpu
  | x86
  | x86_64
  | arm
  | arm64
  | mips
  | mips64
  | other (index : Nat)
  deriving DecidableEq

/-- The operating systems that are told apart. -/
inductive Os
  | linux
  | naCl
  | android
  | other (index : Nat)
  deriving DecidableEq

/-- `MinidumpSystemInfo`. -/
structure SystemInfo where
  cpu : Cpu
  os : Os
  deriving DecidableEq

/-- What the conversion uses of the minidump crates: the record types of the
format, `stack_memory`, and the texts of CPUs and operating systems. It reads with an
allocator. -/
structure MinidumpReader where
  format : FormatTypes
  allocates : Allocator
  stackMemory : StackMemory
  cpuText : Cpu → String
  osText : Os → String

/-- The architecture of a supported pair of CPU and operating system. -/
def architectureFromCpuOs
    (reader : MinidumpReader)
    (cpu : Cpu)
    (os : Os) : Result Architecture :=
  let unsupported : Fault :=
    .error (.unsupportedSystem (reader.osText os) (reader.cpuText cpu))
  if ¬(os = .linux ∨ os = .naCl ∨ os = .android) then
    throw unsupported
  else
    match cpu with
    | .x86 => return .x86
    | .x86_64 => return .x86_64
    | .arm => return .arm
    | .arm64 => return .aarch64
    | .mips => return .mips
    | .mips64 => return .mips64
    | .other _ => throw unsupported

def architectureFromSystemInfo
    (reader : MinidumpReader)
    (systemInfo : SystemInfo) : Result Architecture :=
  architectureFromCpuOs reader systemInfo.cpu systemInfo.os

/-! ## The conversion -/

/-- `MinidumpException`: the crashing thread, the signal number as it is stored,
and the context. -/
structure MinidumpException where
  threadId : UInt32
  exceptionCode : UInt32
  context : Option MinidumpRawContext

/-- A minidump as its reader gives it. A typed stream that cannot be read is
absent, and a raw stream may fail to be read. -/
structure Minidump where
  systemInfo : Result SystemInfo
  linuxStreams : LinuxStreams
  threads : Option (List MinidumpThread)
  memory : Option (List MemoryRegion)
  modules : Option (List MinidumpModule)
  exception : Option MinidumpException
  linuxDsoDebug : Result (Option (List UInt8))

/-- A minidump of a supported system with an architecture. -/
def Minidump.IsOf
    (dump : Minidump)
    (reader : MinidumpReader)
    (architecture : Architecture) : Prop :=
  ∃ systemInfo, dump.systemInfo = .ok systemInfo ∧
    architectureFromSystemInfo reader systemInfo = .ok architecture

/-- Supplement a process from the module list, if there is one. -/
def ingestModuleList
    (modules : Option (List MinidumpModule))
    (options : ConvertOptions)
    (process : CrashedProcess) : Result CrashedProcess :=
  match modules with
  | some modules => ingestModules process modules options
  | none => return process

/-- Record the crash, if there is an exception stream. -/
def ingestException
    (exception : Option MinidumpException)
    (process : CrashedProcess) : CrashedProcess :=
  match exception with
  | some exception =>
      { process with
        crashingTid := some exception.threadId
        fatalSignal := exception.exceptionCode.toInt32
        exceptionContext := exception.context }
  | none => process

/-- The process id: the crashing thread, or the first thread. -/
def CrashedProcess.chosenPid (process : CrashedProcess) : UInt32 :=
  (process.crashingTid.or
    (process.threads.head?.map ThreadSnapshot.tid)).getD 0

def CrashedProcess.setPid
    (process : CrashedProcess)
    (pid : UInt32) : CrashedProcess :=
  { process with processInfo := { process.processInfo with pid } }

/-- The fallback without an `MD_LINUX_DSO_DEBUG` stream: dynamic-linker data and,
if there is none, an auxiliary vector from the files of the modules. -/
def synthesizeFromModules
    (files : FileSystem)
    (modules : Option (List MinidumpModule))
    (process : CrashedProcess) : Result CrashedProcess :=
  match modules with
  | some modules => do
      let dso ← synthesizeDsoDebug files process.architecture modules
        process.signatures
      let process := { process with dsoDebug := dso.getD process.dsoDebug }
      if process.auxv.isEmpty then
        let auxv ← (buildSyntheticAuxv files process.architecture modules).run
        return { process with auxv := auxv.getD process.auxv }
      else
        return process
  | none => return process

/-- Convert the streams of a minidump, given the bytes that it was read from. -/
def readProcessFromMinidump
    (reader : MinidumpReader)
    (files : FileSystem)
    (dump : Minidump)
    (fullFile : List UInt8)
    (options : ConvertOptions) : Result CrashedProcess := do
  let systemInfo ← dump.systemInfo
  let architecture ← architectureFromSystemInfo reader systemInfo
  let process := CrashedProcess.new architecture
  let process ← ingestLinuxStreams dump.linuxStreams process
  let process := ingestThreads reader.stackMemory dump.threads dump.memory process
  let process ← ingestModuleList dump.modules options process
  let process := ingestException dump.exception process
  let process := process.setPid process.chosenPid
  match ← dump.linuxDsoDebug with
  | some bytes => do
      let dsoDebug ← parseDsoDebug reader.format reader.allocates architecture bytes
        fullFile
      return { process with dsoDebug }
  | none => synthesizeFromModules files dump.modules process

/-! ## Where the fields come from -/

theorem ingestModuleList_eq
    (modules : Option (List MinidumpModule))
    (options : ConvertOptions)
    (process : CrashedProcess) :
    ingestModuleList modules options process =
      ingestModules process (modules.getD []) options := by
  cases modules <;> rfl

theorem ingestThreads_new
    (stackMemory : StackMemory)
    (threads : Option (List MinidumpThread))
    (memory : Option (List MemoryRegion))
    (process : CrashedProcess)
    (fresh : process.threads = []) :
    ingestThreads stackMemory threads memory process =
      { process with
        threads := (threads.getD []).map
          (threadSnapshot stackMemory (memory.getD [])) } := by
  cases threads with
  | none =>
      rw [Option.getD_none, List.map_nil, ← fresh]
      rfl
  | some threads => rw [ingestThreads_some, fresh, List.nil_append, Option.getD_some]

theorem ingestLinuxCmdLine_eq
    (cmdline : Option (List UInt8))
    (process : CrashedProcess) :
    ingestLinuxCmdLine cmdline process =
      { process with
        processInfo :=
          cmdline.elim process.processInfo process.processInfo.applyCmdline } := by
  cases cmdline <;> rfl

theorem ingestException_eq
    (exception : Option MinidumpException)
    (process : CrashedProcess) :
    ingestException exception process =
      { process with
        crashingTid :=
          (exception.map MinidumpException.threadId).or process.crashingTid
        fatalSignal := exception.elim process.fatalSignal
          fun exception => exception.exceptionCode.toInt32
        exceptionContext := exception.elim process.exceptionContext
          MinidumpException.context } := by
  cases exception <;> rfl

namespace Minidump

variable (dump : Minidump)

/-- The snapshots of the threads. -/
def snapshots (reader : MinidumpReader) : List ThreadSnapshot :=
  (dump.threads.getD []).map
    (threadSnapshot reader.stackMemory (dump.memory.getD []))

/-- The process id: the thread of the exception, or the first thread. -/
def pid : UInt32 :=
  ((dump.exception.map MinidumpException.threadId).or
    ((dump.threads.getD []).head?.map MinidumpThread.threadId)).getD 0

/-- `pr_fname` and `pr_psargs`: from the command line, or from the first module
that is no library. -/
def namedInfo (cmdline : Option (List UInt8)) : ProcessInfo :=
  let info := cmdline.elim ProcessInfo.new ProcessInfo.new.applyCmdline
  ((dump.modules.getD []).find? fun module => !module.isLibrary).elim info
    fun module => info.applyModuleNameFallback module.name

/-- The auxiliary vector of the streams. -/
def streamedAuxv (auxv : Option (List UInt8)) : List UInt8 :=
  (auxv.filter (!looksLikeLinuxMaps ·)).getD []

/-- Everything but the dynamic-linker data and a synthesized auxiliary vector
comes from the streams alone: the mappings by precedence of their sources, the
threads in order, the crash from the exception. -/
structure Assembles
    (reader : MinidumpReader)
    (options : ConvertOptions)
    (auxv : List UInt8)
    (process : CrashedProcess) : Prop where
  system : ∃ systemInfo, dump.systemInfo = .ok systemInfo ∧
    architectureFromSystemInfo reader systemInfo = .ok process.architecture
  mappings : ∃ maps texts, dump.linuxStreams.mapsMappings = .ok maps ∧
    dump.linuxStreams.textMappings = .ok texts ∧
    ∀ start : UInt64, process.mappings[start]? =
      (lastUnder Mapping.startAddress (maps ++ texts) start).or
        (firstUnder Mapping.startAddress
          (moduleMappings options (dump.modules.getD [])) start)
  modulesFit : ∀ module ∈ dump.modules.getD [],
    0 < module.sizeOfImage.toNat → module.Fits
  threads : process.threads = dump.snapshots reader
  crashingTid : process.crashingTid =
    dump.exception.map MinidumpException.threadId
  exceptionContext : process.exceptionContext =
    dump.exception.bind MinidumpException.context
  fatalSignal : process.fatalSignal =
    dump.exception.elim 0 fun exception => exception.exceptionCode.toInt32
  processInfo : ∃ cmdline, dump.linuxStreams.linuxCmdLine = .ok cmdline ∧
    process.processInfo = { dump.namedInfo cmdline with pid := dump.pid }
  auxv : ∃ stream, dump.linuxStreams.linuxAuxv = .ok stream ∧
    auxv = streamedAuxv stream
  signatures : process.signatures =
    (dump.modules.getD []).foldl (recordSignature options) ∅

/-- The dynamic-linker data and the auxiliary vector: the former from its stream
if there is one, else both from the files of the modules. -/
def Completes
    (reader : MinidumpReader)
    (files : FileSystem)
    (fullFile auxv : List UInt8)
    (process : CrashedProcess) : Prop :=
  ∃ stream, dump.linuxDsoDebug = .ok stream ∧
    match stream with
    | some bytes =>
        parseDsoDebug reader.format reader.allocates process.architecture bytes fullFile =
          .ok process.dsoDebug ∧ process.auxv = auxv
    | none =>
        (∃ dso, synthesizeDsoDebug files process.architecture
            (dump.modules.getD []) process.signatures = .ok dso ∧
          process.dsoDebug = dso.getD DsoDebug.default) ∧
        if auxv.isEmpty then
          ∃ vector, (buildSyntheticAuxv files process.architecture
              (dump.modules.getD [])).run = .ok vector ∧
            process.auxv = vector.getD auxv
        else
          process.auxv = auxv

end Minidump

theorem synthesizeFromModules_eq_ok
    {files : FileSystem}
    {modules : Option (List MinidumpModule)}
    {process next : CrashedProcess} :
    synthesizeFromModules files modules process = .ok next ↔
      ∃ dso, synthesizeDsoDebug files process.architecture (modules.getD [])
          process.signatures = .ok dso ∧
        if process.auxv.isEmpty then
          ∃ vector, (buildSyntheticAuxv files process.architecture
              (modules.getD [])).run = .ok vector ∧
            next = { process with
              dsoDebug := dso.getD process.dsoDebug
              auxv := vector.getD process.auxv }
        else
          next = { process with dsoDebug := dso.getD process.dsoDebug } := by
  cases modules with
  | none =>
      change (pure process : Result CrashedProcess) = .ok next ↔
        ∃ dso, (Except.ok none : Result (Option DsoDebug)) = .ok dso ∧ _
      simp only [Except.ok.injEq, exists_eq_left', Option.getD_none, pure_eq_ok]
      split
      · change process = next ↔ ∃ vector,
          (Except.ok none : Result (Option (List UInt8))) = .ok vector ∧ _
        simp only [Except.ok.injEq, exists_eq_left', Option.getD_none]
        exact eq_comm
      · exact eq_comm
  | some modules =>
      simp only [synthesizeFromModules, bind_eq_ok, Option.getD_some]
      apply exists_congr
      intro dso
      apply and_congr_right
      intro _
      split
      · simp only [bind_eq_ok, pure_eq_ok]
        exact exists_congr fun vector => and_congr_right fun _ => eq_comm
      · rw [pure_eq_ok]
        exact eq_comm

/-- The dynamic-linker data and the auxiliary vector are filled in afterwards. -/
theorem Minidump.Assembles.complete
    {dump : Minidump}
    {reader : MinidumpReader}
    {options : ConvertOptions}
    {streamed : List UInt8}
    {process : CrashedProcess}
    (assembles : dump.Assembles reader options streamed process)
    (dsoDebug : DsoDebug)
    (auxv : List UInt8) :
    dump.Assembles reader options streamed { process with dsoDebug, auxv } :=
  { assembles with }

/-- The process before its dynamic-linker data is filled in. -/
theorem assembles_of_ingested
    {reader : MinidumpReader}
    {dump : Minidump}
    {options : ConvertOptions}
    {systemInfo : SystemInfo}
    {architecture : Architecture}
    {linux supplemented : CrashedProcess}
    (systemRead : dump.systemInfo = .ok systemInfo)
    (supported : architectureFromSystemInfo reader systemInfo = .ok architecture)
    (linuxOk : ingestLinuxStreams dump.linuxStreams
      (CrashedProcess.new architecture) = .ok linux)
    (modulesOk : ingestModules
      (ingestThreads reader.stackMemory dump.threads dump.memory linux)
      (dump.modules.getD []) options = .ok supplemented) :
    let crashed := ingestException dump.exception supplemented
    let process := crashed.setPid crashed.chosenPid
    dump.Assembles reader options process.auxv process ∧
      process.dsoDebug = DsoDebug.default ∧ process.architecture = architecture := by
  obtain ⟨maps, texts, auxv, cmdline, mapsParsed, textsParsed, auxvRead,
    cmdlineRead, linuxValue⟩ := ingestLinuxStreams_eq_ok.mp linuxOk
  rw [ingestLinuxCmdLine_eq] at linuxValue
  have noThreads : linux.threads = [] := by
    rw [linuxValue]
    rfl
  rw [ingestThreads_new _ _ _ _ noThreads] at modulesOk
  have lookups := ingest_lookup _ mapsParsed textsParsed linuxOk modulesOk
  obtain ⟨modulesFit, rfl⟩ := ingestModules_eq_ok.mp modulesOk
  have auxvValue : linux.auxv = Minidump.streamedAuxv auxv := by
    rw [linuxValue, Minidump.streamedAuxv]
    cases auxv with
    | none => rfl
    | some bytes =>
        rw [Option.filter_some]
        change storedAuxv (some bytes) (CrashedProcess.new architecture) = _
        rw [storedAuxv]
        cases looksLikeLinuxMaps bytes <;> rfl
  simp only [ingestException_eq]
  refine ⟨?_, ?_, ?_⟩
  · constructor
    case system =>
      refine ⟨systemInfo, systemRead, ?_⟩
      rw [supported, linuxValue]
      rfl
    case mappings => exact ⟨maps, texts, mapsParsed, textsParsed, lookups⟩
    case modulesFit => exact modulesFit
    case threads => rfl
    case crashingTid =>
      rw [linuxValue]
      exact Option.or_none
    case exceptionContext =>
      rw [linuxValue]
      cases dump.exception <;> rfl
    case fatalSignal => rw [linuxValue]; rfl
    case processInfo =>
      refine ⟨cmdline, cmdlineRead, ?_⟩
      rw [linuxValue]
      simp only [CrashedProcess.setPid, CrashedProcess.chosenPid, Minidump.namedInfo,
        Minidump.pid, List.head?_map, Option.map_map]
      congr 1
      exact congrArg (fun tid : Option UInt32 => (tid.or _).getD 0) Option.or_none
    case auxv => exact ⟨auxv, auxvRead, auxvValue⟩
    case signatures => rw [linuxValue]; rfl
  · rw [linuxValue]
    rfl
  · rw [linuxValue]
    rfl

/-- A process is assembled from the streams of its minidump and completed from
the dynamic-linker stream or the files of the modules. -/
theorem readProcessFromMinidump_ok
    {reader : MinidumpReader}
    {files : FileSystem}
    {dump : Minidump}
    {fullFile : List UInt8}
    {options : ConvertOptions}
    {process : CrashedProcess}
    (read : readProcessFromMinidump reader files dump fullFile options =
      .ok process) :
    ∃ auxv, dump.Assembles reader options auxv process ∧
      dump.Completes reader files fullFile auxv process := by
  unfold readProcessFromMinidump at read
  simp only [bind_eq_ok, ingestModuleList_eq] at read
  obtain ⟨systemInfo, systemRead, architecture, supported, linux, linuxOk,
    supplemented, modulesOk, stream, streamRead, completed⟩ := read
  obtain ⟨assembled, noDso, sameArchitecture⟩ :=
    assembles_of_ingested systemRead supported linuxOk modulesOk
  generalize (ingestException dump.exception supplemented).setPid
    (ingestException dump.exception supplemented).chosenPid = base at *
  refine ⟨base.auxv, ?_⟩
  cases stream with
  | some bytes =>
      obtain ⟨dsoDebug, parsed, value⟩ := bind_eq_ok.mp completed
      obtain rfl := pure_eq_ok.mp value
      refine ⟨assembled.complete dsoDebug base.auxv, some bytes, streamRead, ?_, rfl⟩
      exact sameArchitecture ▸ parsed
  | none =>
      obtain ⟨dso, synthesized, value⟩ := synthesizeFromModules_eq_ok.mp completed
      rw [noDso] at value
      by_cases empty : base.auxv.isEmpty = true
      · rw [if_pos empty] at value
        obtain ⟨vector, built, rfl⟩ := value
        refine ⟨assembled.complete _ _, none, streamRead, ⟨dso, synthesized, rfl⟩, ?_⟩
        rw [if_pos empty]
        exact ⟨vector, built, rfl⟩
      · rw [if_neg empty] at value
        obtain rfl := value
        refine ⟨assembled.complete _ base.auxv, none, streamRead,
          ⟨dso, synthesized, rfl⟩, ?_⟩
        rw [if_neg empty]

/-! ## The mapping table -/

/-- A mapping of a file, without captured bytes. -/
structure Mapping.IsFile (mapping : Mapping) : Prop where
  ordered : mapping.startAddress.toNat < mapping.endAddress.toNat
  named : mapping.filename.isSome = true
  dataless : mapping.data = []

/-- A table of file mappings under their start addresses. -/
def MappingTable.FilesOnly (mappings : MappingTable) : Prop :=
  ∀ (key : UInt64) (mapping : Mapping), mappings[key]? = some mapping →
    mapping.startAddress = key ∧ mapping.IsFile

theorem Mapping.isFile_withFile
    {startAddress endAddress offset : UInt64}
    {permissions : MappingPermissions}
    {mapping : Mapping}
    (filename : String)
    (made : Mapping.new startAddress endAddress permissions = .ok mapping) :
    (mapping.withFile filename offset).IsFile := by
  obtain ⟨ordered, rfl⟩ := Mapping.new_eq_ok.mp made
  exact ⟨ordered, rfl, rfl⟩

theorem isFile_of_mappingsFromMinidumpLinuxMaps
    {infos : List MapInfo}
    {maps : List Mapping}
    (converted : mappingsFromMinidumpLinuxMaps infos = .ok maps) :
    ∀ mapping ∈ maps, mapping.IsFile := by
  induction infos generalizing maps with
  | nil =>
      obtain rfl := pure_eq_ok.mp converted
      simp
  | cons info rest inductionHypothesis =>
      rw [mappingsFromMinidumpLinuxMaps] at converted
      split at converted
      · exact inductionHypothesis converted
      · simp only [bind_eq_ok, pure_eq_ok] at converted
        obtain ⟨mapping, made, others, othersOk, rfl⟩ := converted
        rw [List.forall_mem_cons]
        exact ⟨Mapping.isFile_withFile _ made, inductionHypothesis othersOk⟩

theorem isFile_of_parseMapsLine
    {line : List Char}
    {mapping : Mapping}
    (parsed : parseMapsLine line = .ok (some mapping)) :
    mapping.IsFile := by
  unfold parseMapsLine at parsed
  simp only [bind_eq_ok] at parsed
  obtain ⟨_, _, _, _, _, _, _, _, _, _, offset, _, parsed⟩ := parsed
  split at parsed
  · exact absurd (pure_eq_ok.mp parsed) (by simp)
  · split at parsed
    · exact absurd (pure_eq_ok.mp parsed) (by simp)
    · obtain ⟨made, madeOk, value⟩ := bind_eq_ok.mp parsed
      obtain rfl := Option.some.inj (pure_eq_ok.mp value)
      exact Mapping.isFile_withFile _ madeOk

theorem isFile_of_parseMapsLines
    {text : List (List Char)}
    {mappings : List Mapping}
    (parsed : parseMapsLines text = .ok mappings) :
    ∀ mapping ∈ mappings, mapping.IsFile := by
  induction text generalizing mappings with
  | nil =>
      obtain rfl := pure_eq_ok.mp parsed
      simp
  | cons line rest inductionHypothesis =>
      simp only [parseMapsLines, bind_eq_ok, pure_eq_ok] at parsed
      obtain ⟨first, firstOk, others, othersOk, rfl⟩ := parsed
      rw [List.forall_mem_append]
      refine ⟨?_, inductionHypothesis othersOk⟩
      intro mapping member
      rw [Option.mem_toList.mp member] at firstOk
      exact isFile_of_parseMapsLine firstOk

theorem isFile_of_mapsMappings
    {streams : LinuxStreams}
    {maps : List Mapping}
    (converted : streams.mapsMappings = .ok maps) :
    ∀ mapping ∈ maps, mapping.IsFile := by
  unfold LinuxStreams.mapsMappings at converted
  split at converted
  · exact isFile_of_mappingsFromMinidumpLinuxMaps converted
  · obtain rfl := pure_eq_ok.mp converted
    simp

theorem isFile_of_textMappings
    {streams : LinuxStreams}
    {texts : List Mapping}
    (parsed : streams.textMappings = .ok texts) :
    ∀ mapping ∈ texts, mapping.IsFile := by
  unfold LinuxStreams.textMappings at parsed
  obtain ⟨auxv, _, parsed⟩ := bind_eq_ok.mp parsed
  split at parsed
  · split at parsed
    · obtain ⟨text, _, linesOk⟩ := bind_eq_ok.mp parsed
      exact isFile_of_parseMapsLines linesOk
    · obtain rfl := pure_eq_ok.mp parsed
      simp
  · obtain rfl := pure_eq_ok.mp parsed
    simp

theorem isFile_of_moduleMappings
    {options : ConvertOptions}
    {modules : List MinidumpModule}
    (fit : ∀ module ∈ modules, 0 < module.sizeOfImage.toNat → module.Fits) :
    ∀ mapping ∈ moduleMappings options modules, mapping.IsFile := by
  intro mapping member
  obtain ⟨module, moduleMember, made⟩ := List.mem_filterMap.mp member
  obtain ⟨positive, rfl⟩ := MinidumpModule.mapping_eq_some_iff.mp made
  refine ⟨?_, rfl, rfl⟩
  rw [MinidumpModule.toNat_end (fit module moduleMember positive)]
  exact Nat.lt_add_of_pos_right positive

/-- Whatever the sources, the assembled table holds file mappings only. -/
theorem Minidump.Assembles.filesOnly
    {dump : Minidump}
    {reader : MinidumpReader}
    {options : ConvertOptions}
    {auxv : List UInt8}
    {process : CrashedProcess}
    (assembles : dump.Assembles reader options auxv process) :
    process.mappings.FilesOnly := by
  obtain ⟨maps, texts, mapsParsed, textsParsed, lookups⟩ := assembles.mappings
  intro key mapping found
  rw [lookups, Option.or_eq_some_iff] at found
  rcases found with preferred | ⟨_, supplemented⟩
  · obtain ⟨member, start⟩ := mem_of_firstUnder _ preferred
    refine ⟨start, ?_⟩
    rcases List.mem_append.mp (List.mem_reverse.mp member) with ofMaps | ofText
    · exact isFile_of_mapsMappings mapsParsed mapping ofMaps
    · exact isFile_of_textMappings textsParsed mapping ofText
  · obtain ⟨member, start⟩ := mem_of_firstUnder _ supplemented
    exact ⟨start, isFile_of_moduleMappings assembles.modulesFit mapping member⟩

theorem MappingTable.FilesOnly.built
    {mappings : MappingTable}
    (filesOnly : mappings.FilesOnly) :
    mappings.Built where
  keyed key mapping found := (filesOnly key mapping found).1
  ordered key mapping found := (filesOnly key mapping found).2.ordered

/-- Every mapping of a process that is read is that of a file, is not empty and
carries no bytes, and stands under its own start address. It was supplied by the
maps stream, by maps text or by the module list. -/
theorem readProcessFromMinidump_filesOnly
    (reader : MinidumpReader)
    (files : FileSystem)
    (dump : Minidump)
    (fullFile : List UInt8)
    (options : ConvertOptions)
    (process : CrashedProcess)
    (read : readProcessFromMinidump reader files dump fullFile options =
      .ok process) :
    process.mappings.FilesOnly ∧
      ∃ maps texts, dump.linuxStreams.mapsMappings = .ok maps ∧
        dump.linuxStreams.textMappings = .ok texts ∧
        ∀ mapping ∈ process.mappings.values,
          mapping ∈ maps ++ texts ++
            moduleMappings options (dump.modules.getD []) := by
  obtain ⟨_, assembles, _⟩ := readProcessFromMinidump_ok read
  obtain ⟨maps, texts, mapsParsed, textsParsed, lookups⟩ := assembles.mappings
  refine ⟨assembles.filesOnly, maps, texts, mapsParsed, textsParsed, ?_⟩
  intro mapping member
  obtain ⟨key, found⟩ := MappingTable.mem_values.mp member
  rw [lookups, Option.or_eq_some_iff] at found
  rw [List.mem_append]
  rcases found with preferred | ⟨_, supplemented⟩
  · left
    exact List.mem_reverse.mp (mem_of_firstUnder _ preferred).1
  · right
    exact (mem_of_firstUnder _ supplemented).1

/-- A reader with consecutive fields that searches the memory list. -/
def sampleReader : MinidumpReader where
  format := consecutiveFields
  allocates := sampleAllocator
  stackMemory := searchStackMemory
  cpuText _ := "cpu"
  osText _ := "os"

/-- A minidump of a 32-bit ARM process with a mapped executable, a library that
is in the module list only, and one crashing thread. -/
def sampleDump : Minidump where
  systemInfo := .ok ⟨.arm, .linux⟩
  linuxStreams := {
    linuxMaps := some [⟨(0x10000, 0x20000), true, false, true, 0, .path "/bin/app"⟩]
    linuxAuxv := .ok none
    linuxCmdLine := .ok (some [0x61, 0x70, 0x70, 0]) }
  threads := some [{
    threadId := 7
    startOfMemoryRange := 0x30010
    stack := some ⟨0x30010, [1, 2, 3]⟩
    context := some (.arm ⟨Vector.replicate 16 1, 2⟩)
    stack_starts := by
      intro region found
      rw [← Option.some.inj found] }]
  memory := none
  modules := some [sampleModuleAt "/bin/app" 0x10000, sampleModule 0x50000 0x2000]
  exception := some ⟨7, 11, some (.arm ⟨Vector.replicate 16 3, 4⟩)⟩
  linuxDsoDebug := .ok none

/-- The sample minidump is read. -/
theorem readProcessFromMinidump_filesOnly_sample :
    ∃ process,
      readProcessFromMinidump sampleReader (fun _ => none) sampleDump []
        plainOptions = .ok process ∧
      process.mappings.FilesOnly ∧
      process.mappings.size = 2 := by
  obtain ⟨process, read⟩ : ∃ process,
      readProcessFromMinidump sampleReader (fun _ => none) sampleDump []
        plainOptions = .ok process :=
    exists_ok_of_isOk (by decide +kernel)
  refine ⟨process, read, (readProcessFromMinidump_filesOnly _ _ _ _ _ process read).1, ?_⟩
  have sizes : (readProcessFromMinidump sampleReader (fun _ => none) sampleDump []
      plainOptions).map (·.mappings.size) = .ok 2 := by
    decide +kernel
  rw [read] at sizes
  exact Except.ok.inj sizes

end Md2Core
