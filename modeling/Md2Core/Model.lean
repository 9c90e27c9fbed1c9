import Md2Core.Arithmetic
import Md2Core.Context
import Md2Core.Foundation.Pages
import Mathlib.Data.List.DropRight
import Std.Data.ExtTreeMap

/-!
# The conversion model

The data that the conversion collects from a minidump: mappings ordered by
address, thread snapshots, process information and dynamic-linker data, and the
address rounding that mappings are cut along.

A Rust `Vec<u8>` is a list of bytes, a `BTreeMap` an extensional ordered map,
and a `String` is read through its UTF-8 bytes.
-/

namespace Md2Core

open Foundation

/-- The UTF-8 bytes of a string. -/
def asBytes (text : String) : List UInt8 :=
  text.toByteArray.data.toList

/-- Default page size used by mapping augmentation. -/
def defaultPageSize : UInt64 := 4096

/-! ## Architectures -/

/-- Supported target architecture for the generated ELF core. -/
inductive Architecture
  | x86
  | x86_64
  | arm
  | aarch64
  | mips
  | mips64
  deriving DecidableEq, Repr

namespace Architecture

/-- ELF class: 1 for 32-bit and 2 for 64-bit targets. -/
def elfClass : Architecture → UInt8
  | .x86 | .arm | .mips => 1
  | .x86_64 | .aarch64 | .mips64 => 2

/-- ELF `e_machine` constant. -/
def elfMachine : Architecture → UInt16
  | .x86 => 3
  | .x86_64 => 62
  | .arm => 40
  | .aarch64 => 183
  | .mips | .mips64 => 8

/-- True when the target is a 64-bit ELF class. -/
def is64bit (architecture : Architecture) : Bool :=
  architecture.elfClass == 2

/-- Word size of `unsigned long`. -/
def longSize (architecture : Architecture) : Nat :=
  if architecture.is64bit then 8 else 4

/-- Whether `pr_uid` and `pr_gid` are 32-bit. -/
def prpsinfoUidIsU32 : Architecture → Bool
  | .x86_64 | .mips | .mips64 => true
  | .x86 | .arm | .aarch64 => false

/-- Short human-readable name for diagnostics. -/
def asStr : Architecture → String
  | .x86 => "x86"
  | .x86_64 => "x86_64"
  | .arm => "arm"
  | .aarch64 => "aarch64"
  | .mips => "mips"
  | .mips64 => "mips64"

theorem elfClass_eq_one_or_two (architecture : Architecture) :
    architecture.elfClass = 1 ∨ architecture.elfClass = 2 := by
  cases architecture <;> decide

theorem longSize_eq_four_or_eight (architecture : Architecture) :
    architecture.longSize = 4 ∨ architecture.longSize = 8 := by
  cases architecture <;> decide

end Architecture

/-! ## Mappings -/

/-- ELF load-segment permissions. -/
structure MappingPermissions where
  read : Bool
  write : Bool
  execute : Bool
  deriving DecidableEq, Repr

namespace MappingPermissions

/-- `MappingPermissions::default()`: no permission bit is set. -/
def default : MappingPermissions := ⟨false, false, false⟩

/-- Permissions of synthetic data mappings. -/
def readWrite : MappingPermissions := ⟨true, true, false⟩

/-- Fallback permissions of module mappings. -/
def readOnly : MappingPermissions := ⟨true, false, false⟩

/-- ELF `p_flags` bits. -/
def toElfFlags (permissions : MappingPermissions) : UInt32 :=
  let flags : UInt32 := 0
  let flags := if permissions.execute then flags ||| 1 else flags
  let flags := if permissions.write then flags ||| 2 else flags
  if permissions.read then flags ||| 4 else flags

end MappingPermissions

/-- One virtual memory mapping that will become a `PT_LOAD` program header. -/
structure Mapping where
  /-- Inclusive start virtual address. -/
  startAddress : UInt64
  /-- Exclusive end virtual address. -/
  endAddress : UInt64
  /-- File offset reported by Linux maps. -/
  offset : UInt64
  /-- ELF permissions for this mapping. -/
  permissions : MappingPermissions
  /-- Optional file backing path. -/
  filename : Option String
  /-- Bytes included in the core file for this mapping. -/
  data : List UInt8
  deriving DecidableEq, Repr

namespace Mapping

/-- An anonymous mapping with no associated core-file bytes. -/
def new
    (startAddress endAddress : UInt64)
    (permissions : MappingPermissions) : Result Mapping :=
  if startAddress ≥ endAddress then
    .error (.error (.invalidAddressRange startAddress endAddress))
  else
    .ok {
      startAddress
      endAddress
      offset := 0
      permissions
      filename := none
      data := [] }

/-- True when an address lies inside this mapping. -/
def contains (mapping : Mapping) (address : UInt64) : Bool :=
  mapping.startAddress ≤ address && address < mapping.endAddress

/-- Attach a file backing path and file offset. -/
def withFile (mapping : Mapping) (filename : String) (offset : UInt64) : Mapping :=
  { mapping with filename := some filename, offset }

theorem new_eq_ok
    {startAddress endAddress : UInt64}
    {permissions : MappingPermissions}
    {mapping : Mapping} :
    new startAddress endAddress permissions = .ok mapping ↔
      startAddress.toNat < endAddress.toNat ∧
        mapping = ⟨startAddress, endAddress, 0, permissions, none, []⟩ := by
  unfold new
  by_cases invalid : startAddress ≥ endAddress
  · have ordered := UInt64.le_iff_toNat_le.mp invalid
    rw [if_pos invalid]
    simp only [reduceCtorEq, false_iff, not_and]
    omega
  · have ordered : ¬endAddress.toNat ≤ startAddress.toNat :=
      fun le => invalid (UInt64.le_iff_toNat_le.mpr le)
    rw [if_neg invalid, Except.ok.injEq, eq_comm]
    exact ⟨fun equal => ⟨by omega, equal⟩, And.right⟩

theorem contains_iff {mapping : Mapping} {address : UInt64} :
    mapping.contains address = true ↔
      mapping.startAddress.toNat ≤ address.toNat ∧
        address.toNat < mapping.endAddress.toNat := by
  simp [contains, UInt64.le_iff_toNat_le, UInt64.lt_iff_toNat_lt]

end Mapping

/-- Looking up in a table keyed by addresses after an insertion. -/
theorem getElem?_insert_address
    {Value : Type}
    (table : Std.ExtTreeMap UInt64 Value compare)
    (key other : UInt64)
    (value : Value) :
    (table.insert key value)[other]? =
      if key = other then some value else table[other]? := by
  rw [Std.ExtTreeMap.getElem?_insert]
  simp only [Std.LawfulEqCmp.compare_eq_iff_eq]

/-- Memory mappings ordered by start address. -/
abbrev MappingTable := Std.ExtTreeMap UInt64 Mapping compare

namespace MappingTable

/-- The mappings in key order, `BTreeMap::values`. -/
def values (mappings : MappingTable) : List Mapping :=
  mappings.toList.map Prod.snd

@[simp] theorem length_values (mappings : MappingTable) :
    mappings.values.length = mappings.size := by
  rw [values, List.length_map, Std.ExtTreeMap.length_toList]

/-- The mappings are those found under some key. -/
theorem mem_values
    {mappings : MappingTable}
    {mapping : Mapping} :
    mapping ∈ mappings.values ↔ ∃ key : UInt64, mappings[key]? = some mapping := by
  rw [values, List.mem_map]
  constructor
  · rintro ⟨⟨key, _⟩, entry, rfl⟩
    exact ⟨key, Std.ExtTreeMap.mem_toList_iff_getElem?_eq_some.mp entry⟩
  · rintro ⟨key, found⟩
    exact ⟨(key, mapping), Std.ExtTreeMap.mem_toList_iff_getElem?_eq_some.mpr found, rfl⟩

/-- Looking up after an insertion. -/
theorem getElem?_insert
    (mappings : MappingTable)
    (key other : UInt64)
    (mapping : Mapping) :
    (mappings.insert key mapping)[other]? =
      if key = other then some mapping else mappings[other]? :=
  getElem?_insert_address mappings key other mapping

/-- Looking up after changing one entry. -/
theorem getElem?_modify
    (mappings : MappingTable)
    (key other : UInt64)
    (change : Mapping → Mapping) :
    (mappings.modify key change)[other]? =
      if key = other then mappings[other]?.map change else mappings[other]? := by
  rw [Std.ExtTreeMap.getElem?_modify]
  by_cases same : key = other
  · subst same
    simp
  · simp [same]

/-- Looking up after an insertion that keeps an existing entry. -/
theorem getElem?_insertIfNew
    (mappings : MappingTable)
    (key other : UInt64)
    (mapping : Mapping) :
    (mappings.insertIfNew key mapping)[other]? =
      (mappings[other]?).or (if key = other then some mapping else none) := by
  rw [Std.ExtTreeMap.getElem?_insertIfNew]
  simp only [Std.LawfulEqCmp.compare_eq_iff_eq]
  by_cases here : key = other
  · subst here
    cases found : mappings[key]? with
    | none =>
        have absent : key ∉ mappings := by
          rw [Std.ExtTreeMap.mem_iff_isSome_getElem?, found]
          simp
        simp [absent]
    | some existing =>
        have present : key ∈ mappings := by
          rw [Std.ExtTreeMap.mem_iff_isSome_getElem?, found]
          rfl
        simp [present]
  · simp [here]

end MappingTable

/-! ## Threads, process information and dynamic-linker data -/

/-- Raw thread snapshot captured from a minidump stream. -/
structure ThreadSnapshot where
  /-- Linux thread id. -/
  tid : UInt32
  /-- Virtual address where `stack` starts. -/
  stackAddress : UInt64
  /-- Captured stack bytes. -/
  stack : List UInt8
  /-- Parsed CPU context for this thread, if available. -/
  context : Option MinidumpRawContext
  deriving DecidableEq

/-- Process information used to populate the `NT_PRPSINFO` note. -/
structure ProcessInfo where
  /-- Short executable basename, `pr_fname`. -/
  filename : Vector UInt8 16
  /-- Flattened command line, `pr_psargs`. -/
  arguments : Vector UInt8 80
  /-- Process id. -/
  pid : UInt32
  deriving DecidableEq

/-- An empty process info record. -/
def ProcessInfo.new : ProcessInfo where
  filename := Vector.replicate 16 0
  arguments := Vector.replicate 80 0
  pid := 0

/-- `copy_from_slice` into the front of a buffer that is at least as long. -/
def copyInto {size : Nat} (buffer : Vector UInt8 size) (source : List UInt8) :
    Vector UInt8 size :=
  Vector.ofFn fun index => source[index.val]?.getD buffer[index]

/-- The part of a path behind its last slash, `rsplit('/').next()`. -/
def basename (path : String) : String :=
  String.ofList (path.toList.rtakeWhile (· != '/'))

/-- `pr_fname` and `pr_psargs` from the basename of a module path, unless a
command line has set them. -/
def ProcessInfo.applyModuleNameFallback
    (info : ProcessInfo)
    (modulePath : String) : ProcessInfo :=
  if info.filename ≠ Vector.replicate 16 0 then
    info
  else
    let bytes := asBytes (basename modulePath)
    { info with
      filename := copyInto info.filename (bytes.take 15)
      arguments :=
        if info.arguments = Vector.replicate 80 0 then
          copyInto info.arguments (bytes.take 79)
        else
          info.arguments }

/-- `pr_fname` and `pr_psargs` from a command line whose first argument ends at
a NUL or a space. -/
def ProcessInfo.applyCmdline
    (info : ProcessInfo)
    (cmdline : List UInt8) : ProcessInfo :=
  match cmdline.findIdx? fun byte => byte == 0 || byte == 0x20 with
  | none => info
  | some stop =>
      let binaryName := (cmdline.take stop).rtakeWhile (· != 0x2f)
      let arguments := (cmdline.take 79).map fun byte =>
        if byte = 0 then 0x20 else byte
      { info with
        filename := copyInto (Vector.replicate 16 0) (binaryName.take 15)
        arguments := copyInto (Vector.replicate 80 0) arguments }

/-- One entry in the dynamic linker's link map. -/
structure LinkMapEntry where
  /-- Load address of the shared object. -/
  addr : UInt64
  /-- Address of its `_DYNAMIC` array. -/
  ld : UInt64
  /-- File name. -/
  name : String
  deriving DecidableEq, Repr

/-- Subset of `MD_LINUX_DSO_DEBUG` data needed to rebuild a link map. -/
structure DsoDebug where
  /-- `r_debug.r_version`. -/
  version : UInt32
  /-- Address of the dynamic linker break handler. -/
  brk : UInt64
  /-- Base address of the dynamic loader. -/
  ldbase : UInt64
  /-- Address of the executable's `_DYNAMIC` array. -/
  dynamic : UInt64
  /-- Link map entries. -/
  linkMap : List LinkMapEntry
  /-- Bytes of the executable's `_DYNAMIC` array, if captured. -/
  dynamicData : List UInt8
  deriving DecidableEq, Repr

/-- `DsoDebug::default()`. -/
def DsoDebug.default : DsoDebug := ⟨0, 0, 0, 0, [], []⟩

/-- Module-name overrides keyed by base address. -/
abbrev Signatures := Std.ExtTreeMap UInt64 String compare

/-- Core-conversion state collected from minidump streams. -/
structure CrashedProcess where
  architecture : Architecture
  /-- Memory mappings ordered by start address. -/
  mappings : MappingTable
  /-- Thread snapshots. -/
  threads : List ThreadSnapshot
  /-- Raw auxiliary vector bytes. -/
  auxv : List UInt8
  /-- Process info note payload data. -/
  processInfo : ProcessInfo
  /-- Thread id of the crashing thread, if known. -/
  crashingTid : Option UInt32
  /-- CPU context from the exception record, if available. -/
  exceptionContext : Option MinidumpRawContext
  /-- Fatal signal number associated with the crash. -/
  fatalSignal : Int32
  /-- Dynamic-linker data for `r_debug` reconstruction. -/
  dsoDebug : DsoDebug
  /-- Mapping module-name overrides. -/
  signatures : Signatures

/-- A process model for a validated target architecture. -/
def CrashedProcess.new (architecture : Architecture) : CrashedProcess where
  architecture
  mappings := ∅
  threads := []
  auxv := []
  processInfo := ProcessInfo.new
  crashingTid := none
  exceptionContext := none
  fatalSignal := 0
  dsoDebug := DsoDebug.default
  signatures := ∅

namespace CrashedProcess

/-- Insert or replace one mapping by its start address. -/
def insertMapping (process : CrashedProcess) (mapping : Mapping) :
    CrashedProcess :=
  { process with
    mappings := process.mappings.insert mapping.startAddress mapping }

/-- Insert a mapping only if no mapping at that start address exists. -/
def insertMappingIfAbsent (process : CrashedProcess) (mapping : Mapping) :
    CrashedProcess :=
  { process with
    mappings := process.mappings.insertIfNew mapping.startAddress mapping }

end CrashedProcess

/-! ## Rounding -/

/-- Align an address upward to the next multiple of an alignment. -/
def alignUp (value alignment : UInt64) : Result UInt64 := do
  if alignment = 0 then
    throw (.error .invalidAlignment)
  let remainder := value % alignment
  if remainder = 0 then
    return value
  let gap ← subU64 alignment remainder
  okOr (checkedAdd value gap) (integerOverflow "aligned value")

theorem alignUp_eq_ok {value alignment aligned : UInt64} :
    alignUp value alignment = .ok aligned ↔
      alignment ≠ 0 ∧
        aligned.toNat = roundUp alignment.toNat value.toNat := by
  unfold alignUp
  by_cases zero : alignment = 0
  · simp [zero, throw, throwThe, MonadExceptOf.throw, bind, Except.bind]
  · have alignmentPositive : 0 < alignment.toNat :=
      Nat.pos_of_ne_zero (fun equal => zero (UInt64.toNat_inj.mp equal))
    have remainderLt := Nat.mod_lt value.toNat alignmentPositive
    have remainderZero : value % alignment = 0 ↔
        value.toNat % alignment.toNat = 0 := by
      rw [← UInt64.toNat_inj, UInt64.toNat_mod, UInt64.toNat_zero]
    rw [if_neg zero, and_iff_right zero]
    unfold roundUp
    by_cases exact : value.toNat % alignment.toNat = 0
    · rw [if_pos (remainderZero.mpr exact), if_pos exact, pure_eq_ok,
        ← UInt64.toNat_inj, eq_comm]
    · rw [if_neg (fun equal => exact (remainderZero.mp equal)), if_neg exact]
      simp only [bind_eq_ok, subU64_eq_ok, okOr_eq_ok, checkedAdd_eq_some,
        UInt64.toNat_mod]
      constructor
      · rintro ⟨gap, gapValue, sum⟩
        omega
      · intro sum
        refine ⟨alignment - value % alignment, ?_, ?_⟩ <;>
          rw [UInt64.toNat_sub_of_le _ _
            (UInt64.le_iff_toNat_le.mpr (by rw [UInt64.toNat_mod]; omega)),
            UInt64.toNat_mod] <;>
          omega

/-- Align an address downward to a multiple of an alignment. -/
def alignDown (value alignment : UInt64) : Result UInt64 := do
  if alignment = 0 then
    throw (.error .invalidAlignment)
  subU64 value (value % alignment)

theorem alignDown_eq_ok {value alignment aligned : UInt64} :
    alignDown value alignment = .ok aligned ↔
      alignment ≠ 0 ∧
        aligned.toNat = roundDown alignment.toNat value.toNat := by
  unfold alignDown
  by_cases zero : alignment = 0
  · simp [zero, throw, throwThe, MonadExceptOf.throw, bind, Except.bind]
  · have remainderLe := Nat.mod_le value.toNat alignment.toNat
    rw [if_neg zero, and_iff_right zero, subU64_eq_ok, UInt64.toNat_mod]
    unfold roundDown
    omega

/-- Zero bytes, then data, then zero bytes up to a multiple of the alignment.
The buffer is allocated at its final length, which must not exceed
`isize::MAX`. -/
def paddedVec
    (prefixLen : Nat)
    (data : List UInt8)
    (alignment : Nat) : Result (List UInt8) := do
  if alignment = 0 then
    throw (.error .invalidAlignment)
  let initialLen := prefixLen + data.length
  if initialLen ≥ 2 ^ 64 then
    throw (integerOverflow "padded data length")
  let padding := (alignment - initialLen % alignment) % alignment
  let finalLen := initialLen + padding
  if finalLen ≥ 2 ^ 64 then
    throw (integerOverflow "padded data length")
  if finalLen ≥ 2 ^ 63 then
    throw (.panic .capacityOverflow)
  return List.replicate prefixLen 0 ++ data ++
    List.replicate (finalLen - initialLen) 0

/-- The bytes that a successful `paddedVec` returns. -/
def paddedBytes
    (prefixLen : Nat)
    (data : List UInt8)
    (alignment : Nat) : List UInt8 :=
  List.replicate prefixLen 0 ++ data ++
    List.replicate
      (roundUp alignment (prefixLen + data.length) -
        (prefixLen + data.length)) 0

@[simp] theorem length_paddedBytes
    (prefixLen : Nat)
    (data : List UInt8)
    (alignment : Nat) :
    (paddedBytes prefixLen data alignment).length =
      roundUp alignment (prefixLen + data.length) := by
  have grows := le_roundUp alignment (prefixLen + data.length)
  simp only [paddedBytes, List.length_append, List.length_replicate]
  omega

/-- The padding that reaches the next multiple of the alignment. -/
theorem add_padding_eq_roundUp
    {alignment : Nat}
    (positive : 0 < alignment)
    (length : Nat) :
    length + (alignment - length % alignment) % alignment =
      roundUp alignment length := by
  unfold roundUp
  by_cases exact : length % alignment = 0
  · rw [if_pos exact, exact, Nat.sub_zero, Nat.mod_self, Nat.add_zero]
  · have remainderLt := Nat.mod_lt length positive
    rw [if_neg exact, Nat.mod_eq_of_lt (by omega)]

theorem paddedVec_eq_ok
    {prefixLen alignment : Nat}
    {data padded : List UInt8} :
    paddedVec prefixLen data alignment = .ok padded ↔
      0 < alignment ∧
        roundUp alignment (prefixLen + data.length) < 2 ^ 63 ∧
        padded = paddedBytes prefixLen data alignment := by
  unfold paddedVec
  rcases Nat.eq_zero_or_pos alignment with zero | positive
  · simp [zero, throw, throwThe, MonadExceptOf.throw, bind, Except.bind]
  · have grows := le_roundUp alignment (prefixLen + data.length)
    simp only [if_neg (Nat.ne_of_gt positive), positive, true_and,
      add_padding_eq_roundUp positive]
    by_cases fits : roundUp alignment (prefixLen + data.length) < 2 ^ 63
    · rw [if_neg (by omega), if_neg (by omega), if_neg (by omega), pure_eq_ok,
        eq_comm]
      simp only [fits, true_and]
      rfl
    · simp only [fits, false_and, iff_false]
      split
      · exact throw_ne_ok _ _
      · rw [if_pos (by omega : roundUp alignment (prefixLen + data.length) ≥ 2 ^ 63)]
        split <;> exact throw_ne_ok _ _

end Md2Core
