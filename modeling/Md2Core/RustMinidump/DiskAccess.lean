import Md2Core.RustMinidump.ModuleNames
import Md2Core.RustMinidump.Process

/-!
# What a conversion reads from disk

The files of modules on the converting machine are a fallback: with an
`MD_LINUX_DSO_DEBUG` stream no file is read, and without one only the paths of
modules, their names in the link map and the system library directories are
looked at. Two file systems that agree there give the same process.
-/

namespace Md2Core

open Foundation

/-! ## The functions that read files -/

namespace FileSystem

variable {files other : FileSystem} {path : String}

theorem metadataIsOk_congr (agree : files path = other path) :
    files.metadataIsOk path = other.metadataIsOk path := by
  rw [metadataIsOk, metadataIsOk, agree]

theorem read_congr (agree : files path = other path) :
    files.read path = other.read path := by
  rw [read, read, agree]

/-- The paths at which the file of a module is looked for. -/
def modulePaths (path : String) : List String :=
  path :: systemLibDirs.map fun dir => dir ++ "/" ++ basename path

theorem readModule_congr
    (agree : ∀ candidate ∈ modulePaths path, files candidate = other candidate) :
    files.readModule path = other.readModule path := by
  obtain ⟨own, inDirs⟩ := List.forall_mem_cons.mp agree
  unfold readModule
  rw [metadataIsOk_congr own, read_congr own]
  congr 1
  apply findSome?_congr
  intro dir member
  exact read_congr (inDirs _ (List.mem_map_of_mem member))

end FileSystem

section Synthesis

variable {files other : FileSystem} {architecture : Architecture}
  {modules : List MinidumpModule} {signatures : Signatures}

/-- A module chosen as the executable is in the list. -/
theorem exists_mem_of_findDsoExecutable
    {base : UInt64}
    {path : String}
    (found : findDsoExecutable modules = some (base, path)) :
    ∃ module ∈ modules, module.baseOfImage = base ∧ module.name = path := by
  rw [findDsoExecutable_eq] at found
  obtain ⟨module, chosen, value⟩ := Option.map_eq_some_iff.mp found
  obtain ⟨rfl, rfl⟩ := Prod.mk.inj value
  exact ⟨module, List.mem_of_find?_eq_some chosen, rfl, rfl⟩

/-- The link map depends on the executable and on where the names of modules are
looked for. -/
theorem synthesizeDsoDebug_congr
    (named : ∀ module ∈ modules, files module.name = other module.name)
    (listed : ∀ module ∈ modules,
      ∀ candidate ∈ FileSystem.modulePaths
          (signatures[module.baseOfImage]?.getD module.name),
        files candidate = other candidate) :
    synthesizeDsoDebug files architecture modules signatures =
      synthesizeDsoDebug other architecture modules signatures := by
  unfold synthesizeDsoDebug
  cases chosen : findDsoExecutable modules with
  | none => rfl
  | some executable =>
      obtain ⟨base, path⟩ := executable
      obtain ⟨module, member, _, rfl⟩ := exists_mem_of_findDsoExecutable chosen
      have sameDynamic : readExecutableDynamic files architecture module.name base =
          readExecutableDynamic other architecture module.name base := by
        rw [readExecutableDynamic, readExecutableDynamic,
          FileSystem.read_congr (named module member)]
      have sameEntries : modules.mapM (synthesizeLinkMapEntry files architecture signatures) =
          modules.mapM (synthesizeLinkMapEntry other architecture signatures) := by
        apply mapM_congr
        intro module member
        rw [synthesizeLinkMapEntry, synthesizeLinkMapEntry, elfDynamicRuntimeAddr,
          elfDynamicRuntimeAddr, FileSystem.readModule_congr (listed module member)]
      simp only [sameDynamic, sameEntries]

/-- The auxiliary vector depends on the paths of the modules. -/
theorem buildSyntheticAuxv_congr
    (named : ∀ module ∈ modules, files module.name = other module.name) :
    buildSyntheticAuxv files architecture modules =
      buildSyntheticAuxv other architecture modules := by
  have sameChoice : findAuxvExecutable files modules =
      findAuxvExecutable other modules := by
    apply findSome?_congr
    intro module member
    rw [FileSystem.metadataIsOk_congr (named module member)]
  unfold buildSyntheticAuxv
  rw [sameChoice]
  cases chosen : findAuxvExecutable other modules with
  | none => rfl
  | some executable =>
      obtain ⟨base, path⟩ := executable
      rw [findAuxvExecutable_eq] at chosen
      obtain ⟨module, found, value⟩ := Option.map_eq_some_iff.mp chosen
      obtain ⟨rfl, rfl⟩ := Prod.mk.inj value
      have member := List.mem_of_find?_eq_some found
      change (present (files.read module.name) >>= fun bytes =>
          syntheticAuxvOf architecture bytes module.baseOfImage) =
        (present (other.read module.name) >>= fun bytes =>
          syntheticAuxvOf architecture bytes module.baseOfImage)
      rw [FileSystem.read_congr (named module member)]

theorem synthesizeFromModules_congr
    {listing : Option (List MinidumpModule)}
    {process : CrashedProcess}
    (named : ∀ module ∈ listing.getD [], files module.name = other module.name)
    (listed : ∀ module ∈ listing.getD [],
      ∀ candidate ∈ FileSystem.modulePaths
          (process.signatures[module.baseOfImage]?.getD module.name),
        files candidate = other candidate) :
    synthesizeFromModules files listing process =
      synthesizeFromModules other listing process := by
  cases listing with
  | none => rfl
  | some modules =>
      rw [Option.getD_some] at named listed
      simp only [synthesizeFromModules, synthesizeDsoDebug_congr named listed,
        buildSyntheticAuxv_congr named]

end Synthesis

/-! ## The conversion -/

/-- The recorded name of a listed module is the name of some listed module. -/
theorem exists_named_of_mem
    {modules : List MinidumpModule}
    {module : MinidumpModule}
    (member : module ∈ modules)
    (options : ConvertOptions) :
    ∃ named ∈ modules,
      module.listedName options modules = signatureFor named options := by
  refine ⟨_, ?_, rfl⟩
  cases last : lastUnder MinidumpModule.baseOfImage modules module.baseOfImage with
  | none => exact member
  | some named => exact List.mem_reverse.mp (mem_of_firstUnder _ last).1

/-- The paths that a conversion may look at: without an `MD_LINUX_DSO_DEBUG`
stream, the paths of the modules and where their names in the link map lead. -/
def Minidump.diskPaths (dump : Minidump) (options : ConvertOptions) : List String :=
  match dump.linuxDsoDebug with
  | .ok none =>
      (dump.modules.getD []).flatMap fun module =>
        module.name :: FileSystem.modulePaths (signatureFor module options)
  | _ => []

/-- The process depends on the disk only through the paths of the modules and of
their names in the link map, and not at all with a dynamic-linker stream. -/
theorem readProcessFromMinidump_congr
    (reader : MinidumpReader)
    (files other : FileSystem)
    (dump : Minidump)
    (fullFile : List UInt8)
    (options : ConvertOptions)
    (agree : ∀ path ∈ dump.diskPaths options, files path = other path) :
    readProcessFromMinidump reader files dump fullFile options =
      readProcessFromMinidump reader other dump fullFile options := by
  unfold readProcessFromMinidump
  apply bind_congr_ok
  intro systemInfo _
  apply bind_congr_ok
  intro architecture _
  apply bind_congr_ok
  intro linux linuxOk
  apply bind_congr_ok
  intro supplemented modulesOk
  apply bind_congr_ok
  intro stream streamRead
  cases stream with
  | some bytes => rfl
  | none =>
      rw [ingestModuleList_eq] at modulesOk
      obtain ⟨_, rfl⟩ := ingestModules_eq_ok.mp modulesOk
      rw [Minidump.diskPaths, streamRead] at agree
      have reached : ∀ module ∈ dump.modules.getD [],
          ∀ path ∈ module.name :: FileSystem.modulePaths (signatureFor module options),
            files path = other path := by
        intro module member path listed
        exact agree path (List.mem_flatMap.mpr ⟨module, member, listed⟩)
      apply synthesizeFromModules_congr
      · intro module member
        exact reached module member _ List.mem_cons_self
      · intro module member
        have signature := @signature_of_mem options _ _ member
          (ingestThreads reader.stackMemory dump.threads dump.memory linux).signatures
        obtain ⟨named, namedMember, sameName⟩ := exists_named_of_mem member options
        simp only [ingestException_eq, CrashedProcess.setPid, signature, Option.getD_some,
          sameName]
        intro candidate listed
        exact reached named namedMember candidate (List.mem_cons_of_mem _ listed)

/-- A file that no module leads to does not matter. -/
theorem readProcessFromMinidump_congr_sample :
    readProcessFromMinidump sampleReader (fun _ => none) sampleDump [] plainOptions =
      readProcessFromMinidump sampleReader (sampleDisk "/opt/plugin.bin") sampleDump []
        plainOptions := by
  apply readProcessFromMinidump_congr
  decide +kernel

end Md2Core
