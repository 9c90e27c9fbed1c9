import Md2Core.Foundation.WordPairs
import Md2Core.RustMinidump.ProgramHeaders

/-!
# Load biases and the addresses made with them

The functions that read the file of an executable take the load bias to be the
difference between the base of the module and the address of the first
`PT_LOAD`. They agree on it. The address of the program-header table in a
synthesized auxiliary vector is the bias and the address of `PT_PHDR`, or the
bias and `e_phoff`, which is a position in the file.
-/

namespace Md2Core

open Foundation

theorem checkedSub_eq_some {left right difference : UInt64} :
    checkedSub left right = some difference ↔
      left.toNat = right.toNat + difference.toNat := by
  unfold checkedSub
  split
  · next ordered =>
    have orderedNat := UInt64.le_iff_toNat_le.mp ordered
    rw [Option.some.injEq, ← UInt64.toNat_inj,
      UInt64.toNat_sub_of_le _ _ ordered]
    omega
  · next unordered =>
    have unorderedNat : ¬right.toNat ≤ left.toNat :=
      fun le => unordered (UInt64.le_iff_toNat_le.mpr le)
    simp only [reduceCtorEq, false_iff]
    omega

variable
  {architecture : Architecture}
  {bytes : List UInt8}
  {is64 : Bool}
  {table : HeaderTable}
  {index : Nat}

/-! ## What the scanners read -/

/-- A scan for addresses has read the address of a header. -/
theorem vaddrAt_of_headerRead
    {header : UInt32 × UInt64}
    (read : HeaderRead (readSegmentWord bytes is64 · 16 8) bytes table index
      header) :
    table.vaddrAt bytes is64 index = some header.2.toNat :=
  (readSegmentWord_eq_some.mp read.2.2).2

theorem readDynamicSegment_eq_some
    {o : Nat}
    {segment : DynamicSegment}
    (read : (readDynamicSegment bytes is64 o).run = .ok (some segment)) :
    (readSegmentWord bytes is64 o 8 4).run = .ok (some segment.offset) ∧
      (readSegmentWord bytes is64 o 16 8).run = .ok (some segment.vaddr) ∧
      (readSegmentWord bytes is64 o 32 16).run =
        .ok (some segment.filesz) := by
  unfold readDynamicSegment at read
  simp only [attemptBind_eq_some, attemptPure_eq_some] at read
  obtain ⟨offset, offsetRead, vaddr, vaddrRead, filesz, fileszRead, rfl⟩ := read
  exact ⟨offsetRead, vaddrRead, fileszRead⟩

/-- A scan for `_DYNAMIC` has read three fields of a header. -/
theorem fields_of_headerRead
    {header : UInt32 × DynamicSegment}
    (read : HeaderRead (readDynamicSegment bytes is64) bytes table index
      header) :
    table.offsetAt bytes is64 index = some header.2.offset.toNat ∧
      table.vaddrAt bytes is64 index = some header.2.vaddr.toNat ∧
      table.fileszAt bytes is64 index = some header.2.filesz.toNat := by
  obtain ⟨offsetRead, vaddrRead, fileszRead⟩ :=
    readDynamicSegment_eq_some read.2.2
  exact ⟨(readSegmentWord_eq_some.mp offsetRead).2,
    (readSegmentWord_eq_some.mp vaddrRead).2,
    (readSegmentWord_eq_some.mp fileszRead).2⟩

/-- A header with its address only. -/
def addressHeader (header : UInt32 × DynamicSegment) : UInt32 × UInt64 :=
  (header.1, header.2.vaddr)

theorem fst_addressHeader (header : UInt32 × DynamicSegment) :
    (addressHeader header).1 = header.1 := rfl

/-- A scan for `_DYNAMIC` is a scan for addresses. -/
theorem headersRead_of_dynamic
    {headers : List (UInt32 × DynamicSegment)}
    {indices : List Nat}
    (read : List.Forall₂ (HeaderRead (readDynamicSegment bytes is64) bytes
      table) indices headers) :
    List.Forall₂ (HeaderRead (readSegmentWord bytes is64 · 16 8) bytes table)
      indices (headers.map addressHeader) := by
  rw [List.forall₂_map_right_iff]
  apply read.imp
  rintro index header ⟨fits, typeRead, fieldsRead⟩
  exact ⟨fits, typeRead, (readDynamicSegment_eq_some fieldsRead).2.1⟩

/-! ## The load bias -/

namespace HeaderTable

/-- The bias of a file whose first `PT_LOAD` is at a base address. -/
def BiasAt
    (table : HeaderTable)
    (bytes : List UInt8)
    (is64 : Bool)
    (base bias : Nat) : Prop :=
  ∃ index vaddr, table.FirstOfType bytes 1 index ∧
    table.vaddrAt bytes is64 index = some vaddr ∧ base = vaddr + bias

theorem BiasAt.unique
    {base first second : Nat}
    (firstBias : table.BiasAt bytes is64 base first)
    (secondBias : table.BiasAt bytes is64 base second) :
    first = second := by
  obtain ⟨index, vaddr, firstLoad, vaddrRead, below⟩ := firstBias
  obtain ⟨other, otherVaddr, otherLoad, otherRead, otherBelow⟩ := secondBias
  obtain rfl := firstLoad.unique otherLoad
  rw [vaddrRead, Option.some.injEq] at otherRead
  omega

end HeaderTable

/-- The bias that is computed from a finished scan. -/
theorem biasAt_of_checkedSub
    {Fields : Type}
    {readFields : Nat → Attempt Fields}
    {vaddr : Fields → UInt64}
    {headers : List (UInt32 × Fields)}
    {base first bias : UInt64}
    (read : List.Forall₂ (HeaderRead readFields bytes table)
      (List.range' 0 table.phnum) headers)
    (addressed : ∀ {index header},
      HeaderRead readFields bytes table index header →
        table.vaddrAt bytes is64 index = some (vaddr header.2).toNat)
    (firstLoad : ((firstUnder Prod.fst headers 1).map fun header =>
      vaddr header.2) = some first)
    (subtracted : checkedSub base first = some bias) :
    table.BiasAt bytes is64 base.toNat bias.toNat := by
  obtain ⟨header, found, rfl⟩ := Option.map_eq_some_iff.mp firstLoad
  obtain ⟨index, isFirst, headerRead⟩ := exists_firstOfType read found
  exact ⟨index, _, isFirst, addressed headerRead,
    checkedSub_eq_some.mp subtracted⟩

/-! ## The `_DYNAMIC` segment of an executable -/

variable
  {loadBase addr bias : UInt64}
  {data : List UInt8}

/-- The pieces that `read_executable_dynamic` returns. -/
theorem exists_of_executableDynamicOf
    (found : (executableDynamicOf architecture bytes loadBase).run =
      .ok (some (data, addr, bias))) :
    ∃ (table : HeaderTable) (index offset vaddr filesz : Nat),
      table.DescribedIn bytes architecture.is64bit ∧
      table.BiasAt bytes architecture.is64bit loadBase.toNat bias.toNat ∧
      table.LastOfType bytes 2 index ∧
      table.offsetAt bytes architecture.is64bit index = some offset ∧
      table.vaddrAt bytes architecture.is64bit index = some vaddr ∧
      table.fileszAt bytes architecture.is64bit index = some filesz ∧
      addr.toNat = bias.toNat + vaddr ∧
      offset + filesz ≤ bytes.length ∧
      data = slice bytes offset filesz := by
  unfold executableDynamicOf at found
  simp only [attemptBind_eq_some, attemptPure_eq_some, present_eq_some,
    attemptGuard_eq_some, attemptLift_eq_some, readHeaderTable_eq_some,
    scanSegments_eq_some (by decide : (2 : UInt32) ≠ 1)] at found
  obtain ⟨is64, classRead, table, described, scan, ⟨headers, read, rfl⟩,
    first, firstLoad, dynamic, wanted, loadBias, subtracted, runtimeDyn, added,
    finish, summed, _, inside, piece, sliced, result⟩ := found
  obtain ⟨rfl, rfl, rfl⟩ : piece = data ∧ runtimeDyn = addr ∧
      loadBias = bias := by simpa using result
  obtain ⟨_, _, rfl⟩ := readElfClass_eq_some.mp classRead
  obtain ⟨header, last, rfl⟩ := Option.map_eq_some_iff.mp wanted
  obtain ⟨index, isLast, headerRead⟩ := exists_lastOfType read last
  obtain ⟨offsetRead, vaddrRead, fileszRead⟩ := fields_of_headerRead headerRead
  have sum := checkedAdd_eq_some.mp summed
  have runtime := checkedAdd_eq_some.mp added
  refine ⟨table, index, _, _, _, described, ?_, isLast, offsetRead, vaddrRead,
    fileszRead, ?_, ?_, ?_⟩
  · exact biasAt_of_checkedSub read (fun read => (fields_of_headerRead read).2.1)
      firstLoad subtracted
  · omega
  · omega
  · have cut := (sliceRange_eq_ok.mp sliced).2
    rw [← cut, sum, Nat.add_sub_cancel_left]

/-- Where the bytes of `_DYNAMIC` are found, so is its address. -/
theorem dynamicRuntimeAddrOf_of_executableDynamicOf
    (found : (executableDynamicOf architecture bytes loadBase).run =
      .ok (some (data, addr, bias))) :
    (dynamicRuntimeAddrOf architecture bytes loadBase).run =
      .ok (some addr) := by
  unfold executableDynamicOf at found
  simp only [attemptBind_eq_some, attemptPure_eq_some, present_eq_some,
    scanSegments_eq_some (by decide : (2 : UInt32) ≠ 1)] at found
  obtain ⟨is64, classRead, table, tableRead, scan, ⟨headers, read, rfl⟩,
    first, firstLoad, dynamic, wanted, loadBias, subtracted, runtimeDyn, added,
    _, _, _, _, piece, _, result⟩ := found
  obtain ⟨rfl, rfl, rfl⟩ : piece = data ∧ runtimeDyn = addr ∧
      loadBias = bias := by simpa using result
  unfold dynamicRuntimeAddrOf
  simp only [attemptBind_eq_some, present_eq_some,
    scanSegments_eq_some (by decide : (2 : UInt32) ≠ 1)]
  refine ⟨is64, classRead, table, tableRead, _,
    ⟨_, headersRead_of_dynamic read, rfl⟩, first, ?_, loadBias, subtracted,
    dynamic.vaddr, ?_, ?_⟩
  · rw [firstUnder_map Prod.fst fst_addressHeader, Option.map_map]
    exact firstLoad
  · rw [lastUnder_map Prod.fst fst_addressHeader, Option.map_map]
    obtain ⟨header, last, rfl⟩ := Option.map_eq_some_iff.mp wanted
    rw [last]
    rfl
  · rw [checkedAdd_eq_some] at added ⊢
    omega

/-! ## The synthesized auxiliary vector -/

/-- The address of the program-header table that the vector is made with: that
of the last `PT_PHDR`, or `e_phoff`. -/
def HeaderTable.PhdrVaddr
    (table : HeaderTable)
    (bytes : List UInt8)
    (is64 : Bool)
    (phdrVaddr : Nat) : Prop :=
  (∃ index, table.LastOfType bytes 6 index ∧
      table.vaddrAt bytes is64 index = some phdrVaddr) ∨
    (∀ index, ¬table.TypeAt bytes 6 index) ∧ phdrVaddr = table.phoff

theorem phdrVaddr_of_scan
    {headers : List (UInt32 × UInt64)}
    (described : table.DescribedIn bytes is64)
    (read : List.Forall₂ (HeaderRead (readSegmentWord bytes is64 · 16 8) bytes
      table) (List.range' 0 table.phnum) headers) :
    table.PhdrVaddr bytes is64
      (((lastUnder Prod.fst headers 6).map Prod.snd).getD
        (UInt64.ofNat table.phoff)).toNat := by
  cases last : lastUnder Prod.fst headers 6 with
  | none =>
      right
      exact ⟨not_typeAt_of_lastUnder_eq_none read last,
        UInt64.toNat_ofNat_of_lt' described.bounds.2⟩
  | some header =>
      left
      obtain ⟨index, isLast, headerRead⟩ := exists_lastOfType read last
      exact ⟨index, isLast, vaddrAt_of_headerRead headerRead⟩

variable
  {exeBase : UInt64}
  {payload : List UInt8}

/-- The two addresses that a synthesized vector holds. -/
theorem exists_of_syntheticAuxvOf
    (built : (syntheticAuxvOf architecture bytes exeBase).run =
      .ok (some payload)) :
    ∃ (table : HeaderTable) (entry loadBias phdrVaddr : Nat),
      table.DescribedIn bytes architecture.is64bit ∧
      readLe bytes 24 architecture.longSize = some entry ∧
      table.BiasAt bytes architecture.is64bit exeBase.toNat loadBias ∧
      table.PhdrVaddr bytes architecture.is64bit phdrVaddr ∧
      pairAt architecture.longSize payload 0 =
        some (3, loadBias + phdrVaddr) ∧
      pairAt architecture.longSize payload 1 = some (9, loadBias + entry) := by
  unfold syntheticAuxvOf at built
  simp only [attemptBind_eq_some, present_eq_some, readHeaderTable_eq_some,
    scanSegments_eq_some (by decide : (6 : UInt32) ≠ 1)] at built
  obtain ⟨is64, classRead, entry, entryRead, table, described, scan,
    ⟨headers, read, rfl⟩, first, firstLoad, loadBias, subtracted, atPhdr,
    phdrAdded, atEntry, entryAdded, vector⟩ := built
  obtain ⟨_, _, rfl⟩ := readElfClass_eq_some.mp classRead
  have entryValue := (readElfWord_eq_some.mp entryRead).2
  rw [ite_self] at entryValue
  refine ⟨table, entry.toNat, loadBias.toNat, _, described, entryValue,
    biasAt_of_checkedSub read vaddrAt_of_headerRead firstLoad subtracted,
    phdrVaddr_of_scan described read, ?_⟩
  rw [← checkedAdd_eq_some.mp phdrAdded, ← checkedAdd_eq_some.mp entryAdded]
  unfold Architecture.longSize
  cases wide : architecture.is64bit with
  | true =>
      simp only [wide, if_true, attemptPure_eq_some] at vector
      subst vector
      exact ⟨pairAt_encodeWords rfl rfl (by decide) atPhdr.toNat_lt,
        pairAt_encodeWords rfl rfl (by decide) atEntry.toNat_lt⟩
  | false =>
      simp only [wide, Bool.false_eq_true, if_false, attemptBind_eq_some,
        attemptPure_eq_some, present_eq_some, u32TryFrom_eq_some] at vector
      obtain ⟨atPhdr32, phdrValue, atEntry32, entryValue32, rfl⟩ := vector
      rw [← phdrValue, ← entryValue32]
      exact ⟨pairAt_encodeWords rfl rfl (by decide) atPhdr32.toNat_lt,
        pairAt_encodeWords rfl rfl (by decide) atEntry32.toNat_lt⟩

variable
  {files : FileSystem}
  {modules : List MinidumpModule}
  {exePath : String}

/-- The vector is made from the file of the chosen module. -/
theorem syntheticAuxvOf_of_build
    (chosen : findAuxvExecutable files modules = some (exeBase, exePath))
    (contents : files.read exePath = some bytes)
    (built : (buildSyntheticAuxv files architecture modules).run =
      .ok (some payload)) :
    (syntheticAuxvOf architecture bytes exeBase).run = .ok (some payload) := by
  unfold buildSyntheticAuxv at built
  simp only [attemptBind_eq_some, present_eq_some, chosen, Option.some.injEq]
    at built
  obtain ⟨_, rfl, _, read, vector⟩ := built
  rw [contents, Option.some.injEq] at read
  exact read ▸ vector

/-- When `read_executable_dynamic` finds something in a file,
`elf_dynamic_runtime_addr` finds the same address there, the pieces are those of
the last `PT_DYNAMIC`, and a vector that is synthesized from the file has the
same bias. -/
theorem readExecutableDynamic_agrees
    (contents : files.read exePath = some bytes)
    (found : (readExecutableDynamic files architecture exePath loadBase).run =
      .ok (some (data, addr, bias))) :
    (∀ path, files.readModule path = some bytes →
      (elfDynamicRuntimeAddr files architecture path loadBase).run =
        .ok (some addr)) ∧
    (∃ (table : HeaderTable) (index offset vaddr filesz : Nat),
      table.DescribedIn bytes architecture.is64bit ∧
      table.LastOfType bytes 2 index ∧
      table.offsetAt bytes architecture.is64bit index = some offset ∧
      table.vaddrAt bytes architecture.is64bit index = some vaddr ∧
      table.fileszAt bytes architecture.is64bit index = some filesz ∧
      addr.toNat = bias.toNat + vaddr ∧
      offset + filesz ≤ bytes.length ∧
      data = slice bytes offset filesz) ∧
    (∀ modules path payload,
      findAuxvExecutable files modules = some (loadBase, path) →
      files.read path = some bytes →
      (buildSyntheticAuxv files architecture modules).run =
        .ok (some payload) →
      ∃ entry atEntry, readLe bytes 24 architecture.longSize = some entry ∧
        pairAt architecture.longSize payload 1 = some (9, atEntry) ∧
        atEntry = entry + bias.toNat) := by
  unfold readExecutableDynamic at found
  simp only [attemptBind_eq_some, present_eq_some, contents,
    Option.some.injEq, exists_eq_left'] at found
  obtain ⟨table, index, offset, vaddr, filesz, described, biased, last,
    offsetRead, vaddrRead, fileszRead, runtime, inside, cut⟩ :=
    exists_of_executableDynamicOf found
  refine ⟨?_, ?_, ?_⟩
  · intro path read
    unfold elfDynamicRuntimeAddr
    simp only [attemptBind_eq_some, present_eq_some, read, Option.some.injEq,
      exists_eq_left']
    exact dynamicRuntimeAddrOf_of_executableDynamicOf found
  · exact ⟨table, index, offset, vaddr, filesz, described, last, offsetRead,
      vaddrRead, fileszRead, runtime, inside, cut⟩
  · intro modules path payload chosen read built
    obtain ⟨other, entry, otherBias, _, otherDescribed, entryRead,
      otherBiased, _, _, atEntry⟩ :=
      exists_of_syntheticAuxvOf (syntheticAuxvOf_of_build chosen read built)
    obtain rfl := described.unique otherDescribed
    obtain rfl := biased.unique otherBiased
    exact ⟨entry, _, entryRead, atEntry, Nat.add_comm _ _⟩

/-- A 64-bit ELF file with two program headers: a `PT_LOAD` segment that maps the
start of the file at an address, and a `PT_DYNAMIC` segment in it. -/
def sampleExecutable (vaddr : Nat) : List UInt8 :=
  [0x7f, 0x45, 0x4c, 0x46, 2, 1, 1] ++ List.replicate 9 0 ++
    encodeFields [(2, 3), (2, 62), (4, 1), (8, vaddr + 0x50), (8, 64), (8, 0),
      (4, 0), (2, 64), (2, 56), (2, 2), (2, 0), (2, 0), (2, 0)] ++
    encodeFields [(4, 1), (4, 5), (8, 0), (8, vaddr), (8, vaddr), (8, 0xb0),
      (8, 0xb0), (8, 0x1000)] ++
    encodeFields [(4, 2), (4, 6), (8, 0x40), (8, vaddr + 0x40),
      (8, vaddr + 0x40), (8, 16), (8, 16), (8, 8)]

/-- A disk with one executable. -/
def executableDisk (vaddr : Nat) : FileSystem := fun path =>
  if path = "/usr/bin/app" then some (.file (sampleExecutable vaddr)) else none

/-- The module list of a process that runs this executable. -/
def executableModules : List MinidumpModule :=
  [sampleModuleAt "/usr/bin/app" 0x400000]

/-- A position-independent executable is read by all three functions. -/
theorem readExecutableDynamic_agrees_sample :
    (elfDynamicRuntimeAddr (executableDisk 0) .x86_64 "/usr/bin/app"
        0x400000).run = .ok (some 0x400040) ∧
      ∃ payload, (buildSyntheticAuxv (executableDisk 0) .x86_64
          executableModules).run = .ok (some payload) ∧
        ∃ entry atEntry, readLe (sampleExecutable 0) 24 8 = some entry ∧
          pairAt 8 payload 1 = some (9, atEntry) ∧
          atEntry = entry + 0x400000 := by
  have contents : (executableDisk 0).read "/usr/bin/app" =
      some (sampleExecutable 0) := by decide +kernel
  have found : (readExecutableDynamic (executableDisk 0) .x86_64 "/usr/bin/app"
      0x400000).run = .ok (some
        ([1, 0, 0, 0, 5, 0, 0, 0, 0, 0, 0, 0, 0, 0, 0, 0], 0x400040,
          0x400000)) := by
    decide +kernel
  obtain ⟨payload, built⟩ : ∃ payload, (buildSyntheticAuxv (executableDisk 0)
      .x86_64 executableModules).run = .ok (some payload) :=
    exists_some_of_finds (by decide +kernel)
  obtain ⟨runtime, _, auxv⟩ := readExecutableDynamic_agrees contents found
  refine ⟨runtime "/usr/bin/app" (by decide +kernel), payload, built, ?_⟩
  exact auxv executableModules "/usr/bin/app" payload (by decide +kernel)
    contents built

/-- In a vector synthesized for a module whose base is the address of its first
`PT_LOAD`, `AT_ENTRY` is right, and `AT_PHDR` is right exactly when the file has
a `PT_PHDR` or maps the first `PT_LOAD` at the address that is its offset. -/
theorem buildSyntheticAuxv_atPhdr_iff
    {offset vaddr entry : Nat}
    (chosen : findAuxvExecutable files modules = some (exeBase, exePath))
    (contents : files.read exePath = some bytes)
    (built : (buildSyntheticAuxv files architecture modules).run =
      .ok (some payload))
    (described : table.DescribedIn bytes architecture.is64bit)
    (first : table.FirstOfType bytes 1 index)
    (offsetRead : table.offsetAt bytes architecture.is64bit index = some offset)
    (vaddrRead : table.vaddrAt bytes architecture.is64bit index = some vaddr)
    (covers : offset ≤ table.phoff)
    (phdrs : ∀ other, table.TypeAt bytes 6 other →
      table.vaddrAt bytes architecture.is64bit other =
        some (vaddr + (table.phoff - offset)))
    (entryRead : readLe bytes 24 architecture.longSize = some entry) :
    (∃ atPhdr atEntry : Nat,
      pairAt architecture.longSize payload 0 = some (3, atPhdr) ∧
      pairAt architecture.longSize payload 1 = some (9, atEntry) ∧
      atPhdr = exeBase.toNat + (table.phoff - offset) ∧
      (atEntry : Int) = exeBase.toNat + ((entry : Int) - vaddr)) ↔
    (∃ other, table.TypeAt bytes 6 other) ∨
      table.offsetAt bytes architecture.is64bit index = some vaddr := by
  obtain ⟨other, otherEntry, loadBias, phdrVaddr, otherDescribed, otherRead,
    biased, phdrVaddrOf, phdrFound, entryFound⟩ :=
    exists_of_syntheticAuxvOf (syntheticAuxvOf_of_build chosen contents built)
  obtain rfl := described.unique otherDescribed
  rw [entryRead, Option.some.injEq] at otherRead
  obtain ⟨loadIndex, loadVaddr, firstLoad, loadRead, base⟩ := biased
  obtain rfl := first.unique firstLoad
  rw [vaddrRead, Option.some.injEq] at loadRead
  have addresses : (∃ atPhdr atEntry : Nat,
      pairAt architecture.longSize payload 0 = some (3, atPhdr) ∧
      pairAt architecture.longSize payload 1 = some (9, atEntry) ∧
      atPhdr = exeBase.toNat + (table.phoff - offset) ∧
      (atEntry : Int) = exeBase.toNat + ((entry : Int) - vaddr)) ↔
        phdrVaddr = vaddr + (table.phoff - offset) := by
    rw [phdrFound, entryFound]
    simp only [Option.some.injEq, Prod.mk.injEq, true_and]
    constructor
    · rintro ⟨_, _, rfl, rfl, equal, _⟩
      omega
    · intro equal
      exact ⟨_, _, rfl, rfl, by omega, by omega⟩
  rw [addresses, offsetRead, Option.some.injEq]
  rcases phdrVaddrOf with ⟨last, isLast, read⟩ | ⟨absent, rfl⟩
  · rw [phdrs last isLast.1, Option.some.injEq] at read
    exact ⟨fun _ => Or.inl ⟨last, isLast.1⟩, fun _ => read.symm⟩
  · constructor
    · intro equal
      right
      omega
    · rintro (⟨other, typed⟩ | same)
      · exact absurd typed (absent other)
      · omega

/-- The table of the sample executables. -/
def sampleTable : HeaderTable := ⟨64, 56, 2⟩

/-- `AT_PHDR` is right for a position-independent executable. -/
theorem buildSyntheticAuxv_atPhdr_iff_sample :
    ∃ payload, (buildSyntheticAuxv (executableDisk 0) .x86_64
        executableModules).run = .ok (some payload) ∧
      ∃ atPhdr atEntry : Nat, pairAt 8 payload 0 = some (3, atPhdr) ∧
        pairAt 8 payload 1 = some (9, atEntry) ∧ atPhdr = 0x400000 + 64 ∧
        (atEntry : Int) = 0x400000 + ((0x50 : Int) - 0) := by
  obtain ⟨payload, built⟩ : ∃ payload, (buildSyntheticAuxv (executableDisk 0)
      .x86_64 executableModules).run = .ok (some payload) :=
    exists_some_of_finds (by decide +kernel)
  have described : sampleTable.DescribedIn (sampleExecutable 0) true :=
    ⟨by decide +kernel, by decide +kernel, by decide +kernel⟩
  have first : sampleTable.FirstOfType (sampleExecutable 0) 1 0 :=
    ⟨⟨by decide, by decide +kernel⟩, by simp⟩
  have types : ∀ index < 2, readLe (sampleExecutable 0)
      (sampleTable.headerOffset index) 4 ≠ some 6 := by decide +kernel
  have chosen : findAuxvExecutable (executableDisk 0) executableModules =
      some (0x400000, "/usr/bin/app") := by decide +kernel
  have contents : (executableDisk 0).read "/usr/bin/app" =
      some (sampleExecutable 0) := by decide +kernel
  have offsetRead : sampleTable.offsetAt (sampleExecutable 0) true 0 =
      some 0 := by decide +kernel
  have vaddrRead : sampleTable.vaddrAt (sampleExecutable 0) true 0 =
      some 0 := by decide +kernel
  have entryRead : readLe (sampleExecutable 0) 24 8 = some 0x50 := by
    decide +kernel
  have right := buildSyntheticAuxv_atPhdr_iff chosen contents built described
    first offsetRead vaddrRead (Nat.zero_le _)
    (fun other typed => absurd typed.2 (types other typed.1)) entryRead
  exact ⟨payload, built, right.mpr (Or.inr (by decide +kernel))⟩

/-- The file of an executable at a fixed address meets every condition on the
module base and on the program-header table, and `AT_PHDR` is the position of
the table in the file. -/
theorem exists_atPhdr_of_file_position :
    ∃ payload, (buildSyntheticAuxv (executableDisk 0x400000) .x86_64
        executableModules).run = .ok (some payload) ∧
      sampleTable.DescribedIn (sampleExecutable 0x400000) true ∧
      sampleTable.FirstOfType (sampleExecutable 0x400000) 1 0 ∧
      sampleTable.offsetAt (sampleExecutable 0x400000) true 0 = some 0 ∧
      sampleTable.fileszAt (sampleExecutable 0x400000) true 0 = some 0xb0 ∧
      sampleTable.phoff + sampleTable.phnum * sampleTable.phentsize = 0xb0 ∧
      sampleTable.vaddrAt (sampleExecutable 0x400000) true 0 =
        some 0x400000 ∧
      (∀ other, ¬sampleTable.TypeAt (sampleExecutable 0x400000) 6 other) ∧
      pairAt 8 payload 0 = some (3, 64) ∧
      64 ≠ 0x400000 + (sampleTable.phoff - 0) := by
  have types : ∀ index < 2, readLe (sampleExecutable 0x400000)
      (sampleTable.headerOffset index) 4 ≠ some 6 := by decide +kernel
  refine ⟨encodeWords 8 [3, 64, 9, 0x400050, 0, 0], by decide +kernel,
    ⟨by decide +kernel, by decide +kernel, by decide +kernel⟩,
    ⟨⟨by decide, by decide +kernel⟩, by simp⟩, by decide +kernel,
    by decide +kernel, by decide, by decide +kernel, ?_, by decide +kernel,
    by decide⟩
  intro other typed
  exact types other typed.1 typed.2

end Md2Core
