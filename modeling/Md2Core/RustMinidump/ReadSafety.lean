import Md2Core.Augment.Failure
import Md2Core.RustMinidump.DiskAccess
import Md2Core.RustMinidump.LinkMapArray
import Md2Core.RustMinidump.ScanSafety

/-!
# Reading a minidump does not panic

Streams, record counts, names and the files of modules are untrusted. Reading a
minidump ends in a process or in an error, when the ranges of the modules do not
leave the address space, no ELF file that is looked at has an `e_phoff` at the very
end of it, and the allocator grants the room for the link map that is announced.
-/

namespace Md2Core

open Foundation

theorem noPanic_of_returns
    {α : Type}
    {attempt : Attempt α}
    (returns : Returns attempt) :
    NoPanic attempt.run :=
  failsOnly_of_ok returns.choose_spec

/-! ## The Linux streams -/

theorem noPanic_mappingsFromMinidumpLinuxMaps (infos : List MapInfo) :
    NoPanic (mappingsFromMinidumpLinuxMaps infos) := by
  induction infos with
  | nil => exact failsOnly_pure []
  | cons info rest inductionHypothesis =>
      rw [mappingsFromMinidumpLinuxMaps]
      split
      · exact inductionHypothesis
      · apply FailsOnly.bind fun _ => Mapping.new_error_typed
        intro mapping _
        exact inductionHypothesis.bind fun _ _ => failsOnly_pure _

theorem noPanic_parseHexU64 (value : Option (List Char)) (line : List Char) :
    NoPanic (parseHexU64 value line) :=
  (noPanic_okOr value _).bind fun digits _ =>
    noPanic_okOr (u64FromStrRadix16 digits) _

theorem noPanic_parseMapsLine (line : List Char) :
    NoPanic (parseMapsLine line) := by
  unfold parseMapsLine
  apply FailsOnly.bind (noPanic_okOr _ _)
  intro range _
  apply FailsOnly.bind (noPanic_okOr _ _)
  intro permissions _
  apply FailsOnly.bind (noPanic_okOr _ _)
  intro offset _
  apply FailsOnly.bind (noPanic_parseHexU64 _ line)
  intro startAddress _
  apply FailsOnly.bind (noPanic_parseHexU64 _ line)
  intro endAddress _
  apply FailsOnly.bind (noPanic_okOr _ _)
  intro fileOffset _
  split
  · exact failsOnly_pure none
  · split
    · exact failsOnly_pure none
    · apply FailsOnly.bind fun _ => Mapping.new_error_typed
      exact fun _ _ => failsOnly_pure _

theorem noPanic_parseMapsLines (text : List (List Char)) :
    NoPanic (parseMapsLines text) := by
  induction text with
  | nil => exact failsOnly_pure []
  | cons line rest inductionHypothesis =>
      exact (noPanic_parseMapsLine line).bind fun _ _ =>
        inductionHypothesis.bind fun _ _ => failsOnly_pure _

theorem noPanic_parseLinuxMaps (data : List UInt8) :
    NoPanic (parseLinuxMaps data) :=
  (noPanic_okOr _ _).bind fun text _ =>
    noPanic_parseMapsLines (lines text.toList)

/-- The raw streams are read or give an error. -/
structure LinuxStreams.Readable (streams : LinuxStreams) : Prop where
  auxv : NoPanic streams.linuxAuxv
  cmdLine : NoPanic streams.linuxCmdLine

theorem noPanic_ingestLinuxStreams
    {streams : LinuxStreams}
    (readable : streams.Readable)
    (process : CrashedProcess) :
    NoPanic (ingestLinuxStreams streams process) := by
  unfold ingestLinuxStreams
  apply FailsOnly.bind
  · cases streams.linuxMaps with
    | none => exact failsOnly_pure process
    | some infos =>
        exact (noPanic_mappingsFromMinidumpLinuxMaps infos).bind fun _ _ =>
          failsOnly_pure _
  intro mapped _
  apply FailsOnly.bind readable.auxv
  intro auxv _
  apply FailsOnly.bind
  · cases auxv with
    | none => exact failsOnly_pure mapped
    | some bytes =>
        unfold ingestLinuxAuxv
        dsimp only
        split
        · exact (noPanic_parseLinuxMaps bytes).bind fun _ _ => failsOnly_pure _
        · exact failsOnly_pure _
  intro stored _
  exact readable.cmdLine.bind fun _ _ => failsOnly_pure _

/-! ## The dynamic-linker stream -/

/-- The record types of the format, as far as reading the stream relies on
them. -/
structure FormatTypes.Bounded (format : FormatTypes) : Prop where
  readsU32 : format.ReadsU32
  linkMap64 : format.linkMap64.Bounded
  linkMap32 : format.linkMap32.Bounded

theorem noPanic_preadWith
    {Record : Type}
    (type : RecordType Record)
    (bytes : List UInt8)
    (offset : Nat) :
    NoPanic (type.preadWith bytes offset) := by
  intro fault failed
  unfold RecordType.preadWith at failed
  cases read : type.pread bytes offset with
  | ok record => rw [read] at failed; contradiction
  | error cause =>
      rw [read] at failed
      exact ⟨_, (Except.error.inj failed).symm⟩

/-- There is no link map, or the room for its announced entries is reserved. -/
def Announces (allocates : Allocator) (mapRva dsoCount : UInt32) : Prop :=
  mapRva = invalidMdRva ∨ Reserves allocates dsoCount.toNat

theorem noPanic_readLinkMapRecords
    {format : FormatTypes}
    {allocates : Allocator}
    {Record : Type}
    {type : RecordType Record}
    {nameRva : Record → UInt32}
    {toEntry : Record → String → LinkMapEntry}
    {fullFile : List UInt8}
    {mapRva dsoCount : UInt32}
    (reads : format.ReadsU32)
    (bounded : type.Bounded)
    (fileBound : fullFile.length < 2 ^ 63)
    (announces : Announces allocates mapRva dsoCount) :
    NoPanic (readLinkMapRecords format type nameRva toEntry fullFile mapRva allocates
      dsoCount) := by
  by_cases valid : mapRva = invalidMdRva
  · rw [readLinkMapRecords, if_pos valid]
    exact failsOnly_pure []
  · obtain ⟨entries, read, _⟩ := (exists_readLinkMapRecords_iff reads bounded fileBound
      valid allocates dsoCount).mpr (announces.resolve_left valid)
    exact failsOnly_of_ok read

/-- The room for the link map that the header of a stream announces is reserved. -/
def ReservesLinkMap
    (format : FormatTypes)
    (allocates : Allocator)
    (architecture : Architecture)
    (stream : List UInt8) : Prop :=
  if architecture.is64bit then
    ∀ header, format.dsoDebug64.preadWith stream 0 = .ok header →
      Announces allocates header.map header.dsoCount
  else
    ∀ header, format.dsoDebug32.preadWith stream 0 = .ok header →
      Announces allocates header.map header.dsoCount

theorem noPanic_parseDsoDebug
    {format : FormatTypes}
    {allocates : Allocator}
    {architecture : Architecture}
    {bytes fullFile : List UInt8}
    (bounded : format.Bounded)
    (fileBound : fullFile.length < 2 ^ 63)
    (reserves : ReservesLinkMap format allocates architecture bytes) :
    NoPanic (parseDsoDebug format allocates architecture bytes fullFile) := by
  have tail : ∀ {size : Nat}, ¬bytes.length < size →
      NoPanic (sliceRange bytes size bytes.length) := by
    intro size long
    rw [sliceRange, if_pos ⟨Nat.not_lt.mp long, Nat.le_refl _⟩]
    exact failsOnly_pure _
  unfold ReservesLinkMap at reserves
  unfold parseDsoDebug
  dsimp only
  split
  · next is64bit =>
    rw [if_pos is64bit] at reserves
    split
    · exact failsOnly_pure _
    · next long =>
      apply (noPanic_preadWith _ bytes 0).bind
      intro header headerRead
      apply (tail long).bind
      intro _ _
      exact (noPanic_readLinkMapRecords bounded.readsU32 bounded.linkMap64 fileBound
        (reserves header headerRead)).bind fun _ _ => failsOnly_pure _
  · next is32bit =>
    rw [if_neg is32bit] at reserves
    split
    · exact failsOnly_pure _
    · next long =>
      apply (noPanic_preadWith _ bytes 0).bind
      intro header headerRead
      apply (tail long).bind
      intro _ _
      exact (noPanic_readLinkMapRecords bounded.readsU32 bounded.linkMap32 fileBound
        (reserves header headerRead)).bind fun _ _ => failsOnly_pure _

/-! ## The files of modules -/

/-- A file that the program-header scanners get through: it is a vector, and its
`e_phoff` is not at the end of the address space. -/
structure Scannable (bytes : List UInt8) : Prop where
  counted : bytes.length < 2 ^ 63
  phoff : ∀ architecture, ¬PhoffOverflows architecture bytes

/-- Every file under a path of a list is got through. -/
def FileSystem.ScannableAt (files : FileSystem) (paths : List String) : Prop :=
  ∀ path ∈ paths, ∀ bytes, files.read path = some bytes → Scannable bytes

section Files

variable {files : FileSystem} {architecture : Architecture}

theorem returns_elfDynamicRuntimeAddr
    {path : String}
    (scannable : files.ScannableAt (FileSystem.modulePaths path))
    (loadBase : UInt64) :
    Returns (elfDynamicRuntimeAddr files architecture path loadBase) := by
  unfold elfDynamicRuntimeAddr
  rw [returns_bind_iff]
  refine ⟨returns_present _, ?_⟩
  intro bytes found
  rw [present_eq_some] at found
  have sane : Scannable bytes := by
    unfold FileSystem.readModule at found
    split at found
    · exact scannable path List.mem_cons_self bytes found
    · obtain ⟨dir, member, read⟩ := List.exists_of_findSome?_eq_some found
      exact scannable _ (List.mem_cons_of_mem _ (List.mem_map_of_mem member))
        bytes read
  exact (returns_dynamicRuntimeAddrOf_iff sane.counted loadBase).mpr
    (sane.phoff architecture)

theorem returns_readExecutableDynamic
    {path : String}
    (scannable : files.ScannableAt [path])
    (loadBase : UInt64) :
    Returns (readExecutableDynamic files architecture path loadBase) := by
  unfold readExecutableDynamic
  rw [returns_bind_iff]
  refine ⟨returns_present _, ?_⟩
  intro bytes found
  rw [present_eq_some] at found
  have sane := scannable path List.mem_cons_self bytes found
  exact (returns_executableDynamicOf_iff sane.counted loadBase).mpr
    (sane.phoff architecture)

theorem returns_buildSyntheticAuxv
    {modules : List MinidumpModule}
    (scannable : files.ScannableAt (modules.map MinidumpModule.name)) :
    Returns (buildSyntheticAuxv files architecture modules) := by
  unfold buildSyntheticAuxv
  rw [returns_bind_iff]
  refine ⟨returns_present _, ?_⟩
  rintro ⟨exeBase, exePath⟩ chosen
  rw [present_eq_some, findAuxvExecutable_eq] at chosen
  obtain ⟨module, found, value⟩ := Option.map_eq_some_iff.mp chosen
  obtain ⟨rfl, rfl⟩ := Prod.mk.inj value
  rw [returns_bind_iff]
  refine ⟨returns_present _, ?_⟩
  intro bytes read
  rw [present_eq_some] at read
  have sane := scannable module.name
    (List.mem_map_of_mem (List.mem_of_find?_eq_some found)) bytes read
  exact (returns_syntheticAuxvOf_iff sane.counted module.baseOfImage).mpr
    (sane.phoff architecture)

theorem noPanic_synthesizeDsoDebug
    {modules : List MinidumpModule}
    {signatures : Signatures}
    (named : files.ScannableAt (modules.map MinidumpModule.name))
    (listed : ∀ module ∈ modules, files.ScannableAt (FileSystem.modulePaths
      (signatures[module.baseOfImage]?.getD module.name))) :
    NoPanic (synthesizeDsoDebug files architecture modules signatures) := by
  unfold synthesizeDsoDebug
  split
  · exact failsOnly_pure none
  · next base path chosen =>
    obtain ⟨module, member, _, rfl⟩ := exists_mem_of_findDsoExecutable chosen
    have own : files.ScannableAt [module.name] := by
      intro path inList
      rw [List.mem_singleton.mp inList]
      exact named _ (List.mem_map_of_mem member)
    apply FailsOnly.bind
      (noPanic_of_returns (returns_readExecutableDynamic own base))
    intro found _
    apply FailsOnly.bind
    · apply FailsOnly.mapM
      intro module member
      exact (noPanic_of_returns (returns_elfDynamicRuntimeAddr
        (listed module member) module.baseOfImage)).bind fun _ _ =>
          failsOnly_pure _
    · exact fun _ _ => failsOnly_pure _

end Files

/-! ## The conversion -/

theorem noPanic_architectureFromSystemInfo
    (reader : MinidumpReader)
    (systemInfo : SystemInfo) :
    NoPanic (architectureFromSystemInfo reader systemInfo) := by
  unfold architectureFromSystemInfo architectureFromCpuOs
  split
  · exact failsOnly_throw ⟨_, rfl⟩
  · split <;> first
      | exact failsOnly_pure _
      | exact failsOnly_throw ⟨_, rfl⟩

/-- A minidump that is read without a panic: its raw streams are read or give an
error, and the ranges of its modules end in the address space. -/
structure Minidump.Sound (dump : Minidump) : Prop where
  systemInfo : NoPanic dump.systemInfo
  linuxStreams : dump.linuxStreams.Readable
  linuxDsoDebug : NoPanic dump.linuxDsoDebug
  modulesFit : ∀ module ∈ dump.modules.getD [],
    0 < module.sizeOfImage.toNat → module.Fits

theorem noPanic_synthesizeFromModules
    {files : FileSystem}
    {modules : Option (List MinidumpModule)}
    {process : CrashedProcess}
    (named : files.ScannableAt ((modules.getD []).map MinidumpModule.name))
    (listed : ∀ module ∈ modules.getD [],
      files.ScannableAt (FileSystem.modulePaths
        (process.signatures[module.baseOfImage]?.getD module.name))) :
    NoPanic (synthesizeFromModules files modules process) := by
  cases modules with
  | none => exact failsOnly_pure process
  | some modules =>
      rw [Option.getD_some] at named listed
      apply FailsOnly.bind (noPanic_synthesizeDsoDebug named listed)
      intro dso _
      dsimp only
      split
      · exact (noPanic_of_returns (returns_buildSyntheticAuxv named)).bind
          fun _ _ => failsOnly_pure _
      · exact failsOnly_pure _

/-- The room for the link map that the dynamic-linker stream of a minidump announces,
if it has one, is reserved. -/
def Minidump.Reserves (dump : Minidump) (reader : MinidumpReader) : Prop :=
  ∀ architecture stream, dump.IsOf reader architecture →
    dump.linuxDsoDebug = .ok (some stream) →
      ReservesLinkMap reader.format reader.allocates architecture stream

/-- Reading a sound minidump ends in a process or in an error, whatever its
streams and files contain, when the room for its link map is reserved and the ELF
files that are looked at have no `e_phoff` at the end of the address space. -/
theorem noPanic_readProcessFromMinidump
    {reader : MinidumpReader}
    {files : FileSystem}
    {dump : Minidump}
    {fullFile : List UInt8}
    {options : ConvertOptions}
    (bounded : reader.format.Bounded)
    (fileBound : fullFile.length < 2 ^ 63)
    (sound : dump.Sound)
    (reserves : dump.Reserves reader)
    (scannable : files.ScannableAt (dump.diskPaths options)) :
    NoPanic (readProcessFromMinidump reader files dump fullFile options) := by
  unfold readProcessFromMinidump
  apply FailsOnly.bind sound.systemInfo
  intro systemInfo systemRead
  apply FailsOnly.bind (noPanic_architectureFromSystemInfo reader systemInfo)
  intro architecture supported
  apply FailsOnly.bind (noPanic_ingestLinuxStreams sound.linuxStreams _)
  intro linux _
  apply FailsOnly.bind
  · rw [ingestModuleList_eq]
    exact failsOnly_of_ok (ingestModules_eq_ok.mpr ⟨sound.modulesFit, rfl⟩)
  intro supplemented modulesOk
  apply FailsOnly.bind sound.linuxDsoDebug
  intro stream streamRead
  cases stream with
  | some bytes =>
      have room := reserves architecture bytes ⟨systemInfo, systemRead, supported⟩
        streamRead
      exact (noPanic_parseDsoDebug bounded fileBound room).bind
        fun _ _ => failsOnly_pure _
  | none =>
      rw [ingestModuleList_eq] at modulesOk
      obtain ⟨_, rfl⟩ := ingestModules_eq_ok.mp modulesOk
      rw [Minidump.diskPaths, streamRead] at scannable
      apply noPanic_synthesizeFromModules
      · intro path named
        obtain ⟨module, member, rfl⟩ := List.mem_map.mp named
        exact scannable _ (List.mem_flatMap.mpr
          ⟨module, member, List.mem_cons_self⟩)
      · intro module member
        obtain ⟨other, otherMember, sameName⟩ := exists_named_of_mem member options
        simp only [ingestException_eq, CrashedProcess.setPid,
          signature_of_mem member, Option.getD_some, sameName]
        intro path listed
        exact scannable _ (List.mem_flatMap.mpr
          ⟨other, otherMember, List.mem_cons_of_mem _ listed⟩)

theorem consecutiveFields_bounded : consecutiveFields.Bounded :=
  ⟨consecutiveFields_readsU32, consecutiveFields_bounded64, consecutiveFields_bounded32⟩

theorem sampleDump_sound : sampleDump.Sound where
  systemInfo := failsOnly_of_ok rfl
  linuxStreams := ⟨failsOnly_of_ok rfl, failsOnly_of_ok rfl⟩
  linuxDsoDebug := failsOnly_of_ok rfl
  modulesFit := by
    unfold MinidumpModule.Fits
    decide +kernel

/-- The sample minidump has no dynamic-linker stream. -/
theorem sampleDump_reserves (reader : MinidumpReader) : sampleDump.Reserves reader := by
  intro architecture stream _ streamed
  exact absurd (Except.ok.inj streamed) (Option.some_ne_none stream).symm

theorem sampleElf_scannable : Scannable sampleElf where
  counted := by decide +kernel
  phoff := by
    rintro architecture ⟨_, _, _, phoff, _, phoffRead, _, _, large⟩
    have value : readLe sampleElf 32 8 = some 64 := by decide +kernel
    rw [value, Option.some.injEq] at phoffRead
    omega

/-- The executable on the disk can be scanned. -/
theorem sampleDisk_scannable (present : String) (paths : List String) :
    (sampleDisk present).ScannableAt paths := by
  intro path _ bytes found
  unfold FileSystem.read sampleDisk at found
  split at found
  · next contents there =>
    split at there
    · cases there
      exact Option.some.inj found ▸ sampleElf_scannable
    · contradiction
  · contradiction

end Md2Core
