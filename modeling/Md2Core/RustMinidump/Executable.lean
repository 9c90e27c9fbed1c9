import Md2Core.RustMinidump.DsoDebug
import Md2Core.RustMinidump.Modules

/-!
# Data synthesized from the files of modules

Without an `MD_LINUX_DSO_DEBUG` stream the link map is made from the module list,
and without an auxiliary vector a minimal one is made from the ELF file of the
main executable. Both look for the executable in the module list, the second
with a test on the file system. This module decides exactly when they choose the
same one.
-/

namespace Md2Core

open Foundation

/-! ## Files -/

/-- What is under a path that is present. -/
inductive DiskEntry
  | file (contents : List UInt8)
  | unreadable
  deriving DecidableEq

/-- The file system at the time of the conversion. -/
abbrev FileSystem := String → Option DiskEntry

namespace FileSystem

/-- `std::fs::metadata(path).is_ok()`. -/
def metadataIsOk (files : FileSystem) (path : String) : Bool :=
  (files path).isSome

/-- `std::fs::read(path).ok()`. -/
def read (files : FileSystem) (path : String) : Option (List UInt8) :=
  match files path with
  | some (.file contents) => some contents
  | _ => none

end FileSystem

/-- A call that returns an `Option` and may panic. -/
abbrev Attempt := OptionT Result

/-! ## Program headers -/

/-- `get(off..off + width)` as a little-endian number. -/
def readUnsignedLe (bytes : List UInt8) (off width : Nat) : Attempt Nat := do
  let _ ← exactU64 (off + width)
  present (readLe bytes off width)

def readU16Le (bytes : List UInt8) (off : Nat) : Attempt UInt16 :=
  UInt16.ofNat <$> readUnsignedLe bytes off 2

def readU32Le (bytes : List UInt8) (off : Nat) : Attempt UInt32 :=
  UInt32.ofNat <$> readUnsignedLe bytes off 4

def readU64Le (bytes : List UInt8) (off : Nat) : Attempt UInt64 :=
  UInt64.ofNat <$> readUnsignedLe bytes off 8

/-- A word of an ELF structure, at the offset that its class gives. -/
def readElfWord
    (bytes : List UInt8)
    (is64 : Bool)
    (off64 off32 : Nat) : Attempt UInt64 :=
  if is64 then readU64Le bytes off64 else UInt32.toUInt64 <$> readU32Le bytes off32

/-- A word of the program header at an offset. -/
def readSegmentWord
    (bytes : List UInt8)
    (is64 : Bool)
    (o field64 field32 : Nat) : Attempt UInt64 := do
  let off ← exactU64 (o + if is64 then field64 else field32)
  readElfWord bytes is64 off.toNat off.toNat

/-- Whether an ELF file is a 64-bit one, which must fit the architecture. -/
def readElfClass (architecture : Architecture) (bytes : List UInt8) :
    Attempt Bool := do
  guard (bytes.take 4 = [0x7f, 0x45, 0x4c, 0x46])
  let fileClass ← present bytes[4]?
  let is64 := fileClass == 2
  guard (is64 = architecture.is64bit)
  return is64

/-- `e_phoff`, `e_phentsize` and `e_phnum`. -/
structure HeaderTable where
  phoff : Nat
  phentsize : Nat
  phnum : Nat

def readHeaderTable (bytes : List UInt8) (is64 : Bool) : Attempt HeaderTable := do
  let phoff ← readElfWord bytes is64 32 28
  let phentsize ← readU16Le bytes (if is64 then 54 else 42)
  let phnum ← readU16Le bytes (if is64 then 56 else 44)
  return ⟨phoff.toNat, phentsize.toNat, phnum.toNat⟩

/-- What a scan has seen: the address of the first `PT_LOAD`, and the fields of
the last segment of the wanted type. -/
structure SegmentScan (Fields : Type) where
  firstLoadVaddr : Option UInt64
  wanted : Option Fields

/-- Take note of a segment. -/
def SegmentScan.see
    {Fields : Type}
    (vaddr : Fields → UInt64)
    (wantedType pType : UInt32)
    (fields : Fields)
    (scan : SegmentScan Fields) : SegmentScan Fields :=
  if pType = 1 then
    { scan with firstLoadVaddr := scan.firstLoadVaddr.or (some (vaddr fields)) }
  else if pType = wantedType then
    { scan with wanted := some fields }
  else
    scan

section Scan

variable {Fields : Type}
  (readFields : Nat → Attempt Fields)
  (vaddr : Fields → UInt64)
  (wantedType : UInt32)
  (bytes : List UInt8)
  (table : HeaderTable)

/-- Scan the remaining program headers from an index on. -/
def scanSegmentsFrom :
    Nat → Nat → SegmentScan Fields → Attempt (SegmentScan Fields)
  | 0, _, scan => return scan
  | remaining + 1, index, scan => do
      let distance ← present (u64TryFrom (index * table.phentsize))
      let o ← present (u64TryFrom (table.phoff + distance.toNat))
      let pType ← readU32Le bytes o.toNat
      let fields ← readFields o.toNat
      scanSegmentsFrom remaining (index + 1)
        (scan.see vaddr wantedType pType fields)

def scanSegments : Attempt (SegmentScan Fields) :=
  scanSegmentsFrom readFields vaddr wantedType bytes table table.phnum 0
    ⟨none, none⟩

end Scan

/-- `u64::checked_sub`. -/
def checkedSub (left right : UInt64) : Option UInt64 :=
  if right ≤ left then some (left - right) else none

/-! ## The `_DYNAMIC` segment -/

def systemLibDirs : List String :=
  ["/usr/lib/x86_64-linux-gnu", "/usr/lib", "/lib/x86_64-linux-gnu", "/lib"]

/-- The file of a module, or one of its basename in a system library directory
if there is nothing under its path. -/
def FileSystem.readModule (files : FileSystem) (path : String) :
    Option (List UInt8) :=
  if files.metadataIsOk path then
    files.read path
  else
    systemLibDirs.findSome? fun dir => files.read (dir ++ "/" ++ basename path)

/-- `elf_dynamic_runtime_addr` from the bytes of the file on. -/
def dynamicRuntimeAddrOf
    (architecture : Architecture)
    (bytes : List UInt8)
    (loadBase : UInt64) : Attempt UInt64 := do
  let is64 ← readElfClass architecture bytes
  let table ← readHeaderTable bytes is64
  let scan ← scanSegments (readSegmentWord bytes is64 · 16 8) id 2 bytes table
  let firstLoadVaddr ← present scan.firstLoadVaddr
  let loadBias ← present (checkedSub loadBase firstLoadVaddr)
  let dynVaddr ← present scan.wanted
  present (checkedAdd loadBias dynVaddr)

/-- The runtime address of the `_DYNAMIC` segment of a module. -/
def elfDynamicRuntimeAddr
    (files : FileSystem)
    (architecture : Architecture)
    (path : String)
    (loadBase : UInt64) : Attempt UInt64 := do
  let bytes ← present (files.readModule path)
  dynamicRuntimeAddrOf architecture bytes loadBase

/-- The fields of a `PT_DYNAMIC` segment that are read. -/
structure DynamicSegment where
  offset : UInt64
  vaddr : UInt64
  filesz : UInt64
  deriving DecidableEq

def readDynamicSegment (bytes : List UInt8) (is64 : Bool) (o : Nat) :
    Attempt DynamicSegment := do
  let offset ← readSegmentWord bytes is64 o 8 4
  let vaddr ← readSegmentWord bytes is64 o 16 8
  let filesz ← readSegmentWord bytes is64 o 32 16
  return ⟨offset, vaddr, filesz⟩

/-- `read_executable_dynamic` from the bytes of the file on. -/
def executableDynamicOf
    (architecture : Architecture)
    (bytes : List UInt8)
    (loadBase : UInt64) : Attempt (List UInt8 × UInt64 × UInt64) := do
  let is64 ← readElfClass architecture bytes
  let table ← readHeaderTable bytes is64
  let scan ← scanSegments (readDynamicSegment bytes is64) DynamicSegment.vaddr 2
    bytes table
  let firstLoadVaddr ← present scan.firstLoadVaddr
  let dynamic ← present scan.wanted
  let loadBias ← present (checkedSub loadBase firstLoadVaddr)
  let runtimeDyn ← present (checkedAdd dynamic.vaddr loadBias)
  let finish ← present (checkedAdd dynamic.offset dynamic.filesz)
  guard (finish.toNat ≤ bytes.length)
  let data ← sliceRange bytes dynamic.offset.toNat finish.toNat
  return (data, runtimeDyn, loadBias)

/-- The `_DYNAMIC` bytes of an executable, their runtime address and the load
bias. -/
def readExecutableDynamic
    (files : FileSystem)
    (architecture : Architecture)
    (exePath : String)
    (loadBase : UInt64) : Attempt (List UInt8 × UInt64 × UInt64) := do
  let bytes ← present (files.read exePath)
  executableDynamicOf architecture bytes loadBase

/-! ## The link map -/

/-- The executable for the link map: the first module that is no library. -/
def findDsoExecutable (modules : List MinidumpModule) :
    Option (UInt64 × String) :=
  modules.findSome? fun module =>
    if module.isLibrary then none else some (module.baseOfImage, module.name)

/-- The link-map entry of a module. -/
def synthesizeLinkMapEntry
    (files : FileSystem)
    (architecture : Architecture)
    (signatures : Signatures)
    (module : MinidumpModule) : Result LinkMapEntry := do
  let addr := module.baseOfImage
  let name := signatures[addr]?.getD module.name
  let ld ← (elfDynamicRuntimeAddr files architecture name addr).run
  return ⟨addr, ld.getD 0, name⟩

/-- Dynamic-linker data from the module list. The executable need not be
present. -/
def synthesizeDsoDebug
    (files : FileSystem)
    (architecture : Architecture)
    (modules : List MinidumpModule)
    (signatures : Signatures) : Result (Option DsoDebug) :=
  match findDsoExecutable modules with
  | none => return none
  | some (exeBase, exePath) => do
      let found ← (readExecutableDynamic files architecture exePath exeBase).run
      let (dynamicData, dynamicAddr, loadBias) := found.getD ([], 0, exeBase)
      let linkMap ←
        modules.mapM (synthesizeLinkMapEntry files architecture signatures)
      return some {
        version := 1
        brk := 0
        ldbase := loadBias
        dynamic := dynamicAddr
        linkMap
        dynamicData }

/-! ## The auxiliary vector -/

/-- The executable for the auxiliary vector: the first module that is no library
and has an on-disk path. -/
def findAuxvExecutable (files : FileSystem) (modules : List MinidumpModule) :
    Option (UInt64 × String) :=
  modules.findSome? fun module =>
    if module.isLibrary then
      none
    else if !files.metadataIsOk module.name then
      none
    else
      some (module.baseOfImage, module.name)

/-- `build_synthetic_auxv` from the bytes of the file on: `AT_PHDR`, `AT_ENTRY`
and the end of the vector. -/
def syntheticAuxvOf
    (architecture : Architecture)
    (bytes : List UInt8)
    (exeBase : UInt64) : Attempt (List UInt8) := do
  let is64 ← readElfClass architecture bytes
  let entry ← readElfWord bytes is64 24 24
  let table ← readHeaderTable bytes is64
  let scan ← scanSegments (readSegmentWord bytes is64 · 16 8) id 6 bytes table
  let firstLoadVaddr ← present scan.firstLoadVaddr
  let loadBias ← present (checkedSub exeBase firstLoadVaddr)
  let phdrVaddr := scan.wanted.getD (UInt64.ofNat table.phoff)
  let atPhdr ← present (checkedAdd loadBias phdrVaddr)
  let atEntry ← present (checkedAdd loadBias entry)
  if is64 then
    return encodeWords 8 [3, atPhdr.toNat, 9, atEntry.toNat, 0, 0]
  else do
    let atPhdr32 ← present (u32TryFrom atPhdr.toNat)
    let atEntry32 ← present (u32TryFrom atEntry.toNat)
    return encodeWords 4 [3, atPhdr32.toNat, 9, atEntry32.toNat, 0, 0]

/-- A minimal auxiliary vector from the executable of the module list. -/
def buildSyntheticAuxv
    (files : FileSystem)
    (architecture : Architecture)
    (modules : List MinidumpModule) : Attempt (List UInt8) := do
  let (exeBase, exePath) ← present (findAuxvExecutable files modules)
  let bytes ← present (files.read exePath)
  syntheticAuxvOf architecture bytes exeBase

/-! ## The choice of the executable -/

/-- A module as the searches for the executable return it. -/
def MinidumpModule.baseAndName (module : MinidumpModule) : UInt64 × String :=
  (module.baseOfImage, module.name)

/-- The main executable: the first module that is no library. -/
def mainExecutable (modules : List MinidumpModule) : Option MinidumpModule :=
  modules.find? fun module => !module.isLibrary

theorem findDsoExecutable_eq (modules : List MinidumpModule) :
    findDsoExecutable modules =
      (mainExecutable modules).map MinidumpModule.baseAndName := by
  unfold findDsoExecutable mainExecutable
  induction modules with
  | nil => rfl
  | cons module rest inductionHypothesis =>
      rw [List.findSome?_cons, List.find?_cons]
      cases module.isLibrary with
      | true => exact inductionHypothesis
      | false => rfl

theorem findAuxvExecutable_eq (files : FileSystem) (modules : List MinidumpModule) :
    findAuxvExecutable files modules =
      (modules.find? fun module => !module.isLibrary &&
        files.metadataIsOk module.baseAndName.2).map
          MinidumpModule.baseAndName := by
  unfold findAuxvExecutable MinidumpModule.baseAndName
  induction modules with
  | nil => rfl
  | cons module rest inductionHypothesis =>
      rw [List.findSome?_cons, List.find?_cons]
      cases module.isLibrary with
      | true => exact inductionHypothesis
      | false =>
          cases files.metadataIsOk module.name with
          | true => rfl
          | false => exact inductionHypothesis

/-- The executable of a synthesized auxiliary vector is the one of the link map
exactly when the file of the main executable is present. -/
theorem buildSyntheticAuxv_executable_iff
    {files : FileSystem}
    {architecture : Architecture}
    {modules : List MinidumpModule}
    {payload : List UInt8}
    (built : (buildSyntheticAuxv files architecture modules).run =
      .ok (some payload)) :
    ∃ base path bytes,
      findAuxvExecutable files modules = some (base, path) ∧
      files.read path = some bytes ∧
      (syntheticAuxvOf architecture bytes base).run = .ok (some payload) ∧
      (findDsoExecutable modules = some (base, path) ↔
        ∀ module, mainExecutable modules = some module →
          files.metadataIsOk module.name = true) := by
  obtain ⟨⟨base, path⟩, found, continued⟩ := attemptBind_eq_some.mp built
  obtain ⟨bytes, contents, vector⟩ := attemptBind_eq_some.mp continued
  have chosen := present_eq_some.mp found
  refine ⟨base, path, bytes, chosen, present_eq_some.mp contents, vector, ?_⟩
  rw [← chosen, findAuxvExecutable_eq, findDsoExecutable_eq, eq_comm]
  exact map_find?_and_eq_iff modules (fun module => !module.isLibrary)
    MinidumpModule.baseAndName fun choice => files.metadataIsOk choice.2

/-- A 64-bit ELF file with one `PT_LOAD` segment at address zero. -/
def sampleElf : List UInt8 :=
  [0x7f, 0x45, 0x4c, 0x46, 2, 1, 1] ++ List.replicate 9 0 ++
    encodeFields [(2, 3), (2, 62), (4, 1), (8, 0x1040), (8, 64), (8, 0), (4, 0),
      (2, 64), (2, 56), (2, 1), (2, 0), (2, 0), (2, 0)] ++
    encodeFields [(4, 1), (4, 5), (8, 0), (8, 0), (8, 0), (8, 0x2000),
      (8, 0x2000), (8, 0x1000)]

/-- A module with a path and a base. -/
def sampleModuleAt (name : String) (base : UInt64) : MinidumpModule :=
  { sampleModule base 0x2000 with name }

/-- A disk with a single ELF file. -/
def sampleDisk (present : String) : FileSystem := fun path =>
  if path = present then some (.file sampleElf) else none

/-- The main executable is present. -/
theorem buildSyntheticAuxv_executable_iff_sample :
    let files := sampleDisk "/usr/bin/app"
    let modules := [sampleModule 0x7f0000 0x1000,
      sampleModuleAt "/usr/bin/app" 0x400000]
    ∃ payload,
      (buildSyntheticAuxv files .x86_64 modules).run = .ok (some payload) ∧
      ∃ base path bytes,
        findAuxvExecutable files modules = some (base, path) ∧
        files.read path = some bytes ∧
        (syntheticAuxvOf .x86_64 bytes base).run = .ok (some payload) ∧
        (findDsoExecutable modules = some (base, path) ↔
          ∀ module, mainExecutable modules = some module →
            files.metadataIsOk module.name = true) := by
  intro files modules
  obtain ⟨payload, built⟩ : ∃ payload,
      (buildSyntheticAuxv files .x86_64 modules).run = .ok (some payload) :=
    exists_some_of_finds (by decide +kernel)
  exact ⟨payload, built, buildSyntheticAuxv_executable_iff built⟩

/-- When the file of the main executable is absent, the auxiliary vector
describes another module. -/
theorem exists_auxv_of_other_module :
    ¬∀ (files : FileSystem) (architecture : Architecture)
        (modules : List MinidumpModule) (payload : List UInt8),
      (buildSyntheticAuxv files architecture modules).run =
          .ok (some payload) →
        findAuxvExecutable files modules = findDsoExecutable modules := by
  intro always
  obtain ⟨payload, built⟩ : ∃ payload,
      (buildSyntheticAuxv (sampleDisk "/opt/plugin.bin") .x86_64
        [sampleModuleAt "/usr/bin/app" 0x400000,
          sampleModuleAt "/opt/plugin.bin" 0x800000]).run =
        .ok (some payload) :=
    exists_some_of_finds (by decide +kernel)
  have same := always _ _ _ payload built
  exact absurd same (by decide +kernel)

end Md2Core
