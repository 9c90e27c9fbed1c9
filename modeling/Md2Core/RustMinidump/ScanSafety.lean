import Md2Core.RustMinidump.ProgramHeaders

/-!
# When reading an untrusted ELF file returns

The offsets of all program headers but the first are guarded by the read of the
header before them. The offset of the first one is `e_phoff` as it stands in the
file, and the end of its type is computed without a check.
-/

namespace Md2Core

open Foundation

/-- The end of the type of the first program header is not a `usize`. -/
def HeaderTable.Overflows (table : HeaderTable) : Prop :=
  0 < table.phnum ∧ 2 ^ 64 ≤ table.phoff + 4

/-- A 64-bit ELF file for a 64-bit architecture with at least one program header
has an `e_phoff` among the last four numbers of 64 bits. -/
def PhoffOverflows (architecture : Architecture) (bytes : List UInt8) : Prop :=
  bytes.take 4 = [0x7f, 0x45, 0x4c, 0x46] ∧ bytes[4]? = some 2 ∧
    architecture.is64bit = true ∧
    ∃ phoff phnum, readLe bytes 32 8 = some phoff ∧
      readLe bytes 56 2 = some phnum ∧ 0 < phnum ∧ 2 ^ 64 - 4 ≤ phoff

section Scan

variable
  {Fields : Type}
  {readFields : Nat → Attempt Fields}
  {vaddr : Fields → UInt64}
  {wantedType : UInt32}
  {bytes : List UInt8}
  {table : HeaderTable}

/-- A scan returns when the end of its first type is a `usize`. -/
theorem returns_scanSegmentsFrom
    {remaining index : Nat}
    {scan : SegmentScan Fields}
    (counted : bytes.length < 2 ^ 63)
    (small : table.phentsize < 2 ^ 16)
    (fieldsReturn : ∀ o, o + 4 ≤ bytes.length → Returns (readFields o))
    (first : 0 < remaining → table.headerOffset index + 4 < 2 ^ 64) :
    Returns (scanSegmentsFrom readFields vaddr wantedType bytes table remaining
      index scan) := by
  induction remaining generalizing index scan with
  | zero => exact returns_pure scan
  | succ remaining inductionHypothesis =>
      have fits := first (Nat.zero_lt_succ remaining)
      unfold scanSegmentsFrom
      simp only [returns_bind_iff, returns_present, present_eq_some,
        u64TryFrom_eq_some, true_and]
      intro distance distanceValue o located
      rw [distanceValue] at located
      have position : o.toNat = table.headerOffset index := located
      rw [position]
      refine ⟨?_, ?_⟩
      · exact returns_map_iff.mpr (returns_readUnsignedLe_iff.mpr fits)
      · intro pType typeRead
        have inside := le_length_of_readLe (readU32Le_eq_some.mp typeRead).2
        refine ⟨fieldsReturn _ inside, ?_⟩
        intro fields _
        apply inductionHypothesis
        intro _
        have next : table.headerOffset (index + 1) =
            table.headerOffset index + table.phentsize := by
          unfold HeaderTable.headerOffset
          ring
        omega

/-- A scan of a table returns unless the first type overflows. -/
theorem returns_scanSegments_iff
    (counted : bytes.length < 2 ^ 63)
    (small : table.phentsize < 2 ^ 16)
    (phoffFits : table.phoff < 2 ^ 64)
    (fieldsReturn : ∀ o, o + 4 ≤ bytes.length → Returns (readFields o)) :
    Returns (scanSegments readFields vaddr wantedType bytes table) ↔
      ¬table.Overflows := by
  have start : table.headerOffset 0 = table.phoff := by
    simp [HeaderTable.headerOffset]
  constructor
  · rintro returns ⟨nonempty, overflows⟩
    obtain ⟨count, counts⟩ : ∃ count, table.phnum = count + 1 :=
      ⟨table.phnum - 1, by omega⟩
    unfold scanSegments at returns
    rw [counts] at returns
    unfold scanSegmentsFrom at returns
    simp only [returns_bind_iff, returns_present, present_eq_some,
      u64TryFrom_eq_some, true_and] at returns
    have value := UInt64.toNat_ofNat_of_lt' phoffFits
    obtain ⟨typeReturns, _⟩ := returns 0 (by simp) (UInt64.ofNat table.phoff)
      (by rw [value]; simp)
    have fits := returns_readUnsignedLe_iff.mp
      (returns_map_iff.mp typeReturns)
    omega
  · intro safe
    apply returns_scanSegmentsFrom counted small fieldsReturn
    intro nonempty
    unfold HeaderTable.Overflows at safe
    omega

end Scan

/-! ## The three functions -/

variable
  {architecture : Architecture}
  {bytes : List UInt8}
  {is64 : Bool}

/-- An offset that overflows is one of a table that the scanners get to. -/
theorem phoffOverflows_iff :
    PhoffOverflows architecture bytes ↔
      ∃ (is64 : Bool) (table : HeaderTable),
        (readElfClass architecture bytes).run = .ok (some is64) ∧
        table.DescribedIn bytes is64 ∧ table.Overflows := by
  constructor
  · rintro ⟨magic, fileClass, wide, phoff, phnum, phoffRead, phnumRead,
      nonempty, large⟩
    have length := le_length_of_readLe phnumRead
    obtain ⟨phentsize, phentsizeRead⟩ :=
      @exists_readLe bytes 54 2 (by omega)
    refine ⟨true, ⟨phoff, phentsize, phnum⟩, ?_, ?_, nonempty, ?_⟩
    · exact readElfClass_eq_some.mpr ⟨magic, ⟨2, fileClass, rfl⟩, wide.symm⟩
    · exact ⟨phoffRead, phentsizeRead, phnumRead⟩
    · change 2 ^ 64 ≤ phoff + 4
      omega
  · rintro ⟨is64, table, classRead, described, nonempty, large⟩
    obtain ⟨magic, ⟨fileClass, found, isWide⟩, fits⟩ :=
      readElfClass_eq_some.mp classRead
    cases is64 with
    | true =>
        have two : fileClass = 2 := eq_of_beq isWide.symm
        refine ⟨magic, two ▸ found, fits.symm, table.phoff, table.phnum,
          described.phoff, described.phnum, nonempty, ?_⟩
        omega
    | false =>
        have narrow : table.phoff < 2 ^ 32 := readLe_lt described.phoff
        omega

/-- The fields of a program header whose type was read can be asked for. -/
theorem returns_readSegmentWord_of_le
    {o field64 field32 : Nat}
    (counted : bytes.length < 2 ^ 63)
    (near : field64 ≤ 32 ∧ field32 ≤ 32)
    (inside : o + 4 ≤ bytes.length) :
    Returns (readSegmentWord bytes is64 o field64 field32) := by
  apply returns_readSegmentWord
  cases is64 with
  | true =>
      simp only [if_true, elfWord]
      omega
  | false =>
      simp only [Bool.false_eq_true, if_false, elfWord]
      omega

/-- The scan of the table of a file returns unless `e_phoff` overflows. -/
theorem returns_scan_iff
    {Fields : Type}
    {readFields : Bool → Nat → Attempt Fields}
    {vaddr : Fields → UInt64}
    {wantedType : UInt32}
    (counted : bytes.length < 2 ^ 63)
    (fieldsReturn : ∀ is64 o, o + 4 ≤ bytes.length →
      Returns (readFields is64 o)) :
    (∀ is64, (readElfClass architecture bytes).run = .ok (some is64) →
      ∀ table, (readHeaderTable bytes is64).run = .ok (some table) →
        Returns (scanSegments (readFields is64) vaddr wantedType bytes
          table)) ↔
      ¬PhoffOverflows architecture bytes := by
  rw [phoffOverflows_iff]
  simp only [readHeaderTable_eq_some, not_exists, not_and]
  apply forall_congr'
  intro is64
  constructor
  · intro returns table classRead described
    obtain ⟨small, phoffFits⟩ := described.bounds
    exact (returns_scanSegments_iff counted small phoffFits
      (fieldsReturn is64)).mp (returns classRead table described)
  · intro safe classRead table described
    obtain ⟨small, phoffFits⟩ := described.bounds
    exact (returns_scanSegments_iff counted small phoffFits
      (fieldsReturn is64)).mpr (safe table classRead described)

theorem returns_dynamicRuntimeAddrOf_iff
    (counted : bytes.length < 2 ^ 63)
    (loadBase : UInt64) :
    Returns (dynamicRuntimeAddrOf architecture bytes loadBase) ↔
      ¬PhoffOverflows architecture bytes := by
  rw [← @returns_scan_iff _ _ _ (fun is64 => (readSegmentWord bytes is64 · 16 8))
    id 2 counted fun is64 o inside =>
      returns_readSegmentWord_of_le counted (by simp) inside]
  unfold dynamicRuntimeAddrOf
  simp only [returns_bind_iff, returns_readElfClass, returns_readHeaderTable,
    returns_present, true_and, implies_true, and_true]

theorem returns_readDynamicSegment
    {o : Nat}
    (counted : bytes.length < 2 ^ 63)
    (inside : o + 4 ≤ bytes.length) :
    Returns (readDynamicSegment bytes is64 o) := by
  unfold readDynamicSegment
  simp only [returns_bind_iff, returns_pure, implies_true, and_true]
  refine ⟨?_, fun _ _ => ⟨?_, fun _ _ => ?_⟩⟩
  all_goals exact returns_readSegmentWord_of_le counted (by simp) inside

/-- The range of the `_DYNAMIC` bytes is checked before it is cut out. -/
theorem returns_executableDynamicOf_iff
    (counted : bytes.length < 2 ^ 63)
    (loadBase : UInt64) :
    Returns (executableDynamicOf architecture bytes loadBase) ↔
      ¬PhoffOverflows architecture bytes := by
  rw [← @returns_scan_iff _ _ _ (fun is64 => readDynamicSegment bytes is64)
    DynamicSegment.vaddr 2 counted fun is64 o inside =>
      returns_readDynamicSegment counted inside]
  have sliced : ∀ (dynamic : DynamicSegment) (finish : UInt64),
      checkedAdd dynamic.offset dynamic.filesz = some finish →
        finish.toNat ≤ bytes.length →
          ∃ data, sliceRange bytes dynamic.offset.toNat finish.toNat =
            .ok data := by
    intro dynamic finish summed inside
    have sum := checkedAdd_eq_some.mp summed
    exact ⟨_, sliceRange_eq_ok.mpr ⟨⟨by omega, inside⟩, rfl⟩⟩
  unfold executableDynamicOf
  simp only [returns_bind_iff, returns_readElfClass, returns_readHeaderTable,
    returns_present, returns_guard, returns_lift_iff, returns_pure,
    present_eq_some, attemptGuard_eq_some, true_and, implies_true, and_true]
  constructor
  · intro returns is64 classRead table described
    exact (returns is64 classRead table described).1
  · intro returns is64 classRead table described
    refine ⟨returns is64 classRead table described, ?_⟩
    intro scan _ firstLoadVaddr _ dynamic _ loadBias _ runtimeDyn _ finish
      summed _ inside
    exact sliced dynamic finish summed inside

/-- A file header with the fields of a table has an entry point. -/
theorem exists_entry
    {table : HeaderTable}
    (described : table.DescribedIn bytes is64) :
    ∃ entry, (readElfWord bytes is64 24 24).run = .ok (some entry) := by
  have length := le_length_of_readLe described.phnum
  have near : 24 + elfWord is64 ≤ 32 := by
    cases is64 <;> simp [elfWord]
  have long : 32 ≤ bytes.length := by
    cases is64 with
    | true => exact (by omega : 32 ≤ 56 + 2).trans length
    | false => exact (by omega : 32 ≤ 44 + 2).trans length
  obtain ⟨entry, entryRead⟩ :=
    @exists_readLe bytes 24 (elfWord is64) (by omega)
  have bound : entry < 2 ^ 64 := by
    have narrow := readLe_lt entryRead
    cases is64 with
    | true => exact narrow
    | false => exact narrow.trans (by norm_num [elfWord])
  refine ⟨UInt64.ofNat entry, readElfWord_eq_some.mpr ?_⟩
  rw [ite_self, UInt64.toNat_ofNat_of_lt' bound]
  exact ⟨by omega, entryRead⟩

/-- The entry point lies before the header fields of the table, so reading it
does not change when the scan is reached. -/
theorem returns_syntheticAuxvOf_iff
    (counted : bytes.length < 2 ^ 63)
    (exeBase : UInt64) :
    Returns (syntheticAuxvOf architecture bytes exeBase) ↔
      ¬PhoffOverflows architecture bytes := by
  rw [← @returns_scan_iff _ _ _ (fun is64 => (readSegmentWord bytes is64 · 16 8))
    id 6 counted fun is64 o inside =>
      returns_readSegmentWord_of_le counted (by simp) inside]
  have entryReturns : ∀ is64, Returns (readElfWord bytes is64 24 24) := by
    intro is64
    rw [returns_readElfWord_iff]
    cases is64 <;> simp [elfWord]
  have vectorReturns : ∀ (is64 : Bool) (atPhdr atEntry : UInt64),
      Returns (if is64 then
        (return encodeWords 8 [3, atPhdr.toNat, 9, atEntry.toNat, 0, 0] :
          Attempt (List UInt8))
      else do
        let atPhdr32 ← present (u32TryFrom atPhdr.toNat)
        let atEntry32 ← present (u32TryFrom atEntry.toNat)
        return encodeWords 4 [3, atPhdr32.toNat, 9, atEntry32.toNat, 0, 0]) := by
    intro is64 atPhdr atEntry
    cases is64 with
    | true => exact returns_pure _
    | false =>
        simp only [Bool.false_eq_true, if_false, returns_bind_iff,
          returns_present, returns_pure, true_and, implies_true]
  unfold syntheticAuxvOf
  simp only [returns_bind_iff, returns_readElfClass, returns_readHeaderTable,
    returns_present, entryReturns, vectorReturns, true_and, implies_true,
    and_true]
  apply forall_congr'
  intro is64
  constructor
  · intro returns classRead table tableRead
    obtain ⟨entry, entryRead⟩ := exists_entry
      (readHeaderTable_eq_some.mp tableRead)
    exact returns classRead entry entryRead table tableRead
  · intro returns classRead _ _
    exact returns classRead

/-- The three functions return for a file exactly when `e_phoff` of the file that
they get to does not overflow. A file in memory is shorter than `isize::MAX`. -/
theorem scanners_return_iff
    (files : FileSystem)
    (counted : ∀ path bytes, files.read path = some bytes →
      bytes.length < 2 ^ 63)
    (architecture : Architecture)
    (path : String)
    (loadBase : UInt64)
    (modules : List MinidumpModule) :
    (Returns (elfDynamicRuntimeAddr files architecture path loadBase) ↔
      ∀ bytes, files.readModule path = some bytes →
        ¬PhoffOverflows architecture bytes) ∧
    (Returns (readExecutableDynamic files architecture path loadBase) ↔
      ∀ bytes, files.read path = some bytes →
        ¬PhoffOverflows architecture bytes) ∧
    (Returns (buildSyntheticAuxv files architecture modules) ↔
      ∀ exeBase exePath bytes,
        findAuxvExecutable files modules = some (exeBase, exePath) →
        files.read exePath = some bytes →
          ¬PhoffOverflows architecture bytes) := by
  have modulesCounted : ∀ bytes, files.readModule path = some bytes →
      bytes.length < 2 ^ 63 := by
    intro bytes found
    unfold FileSystem.readModule at found
    split at found
    · exact counted path bytes found
    · obtain ⟨dir, _, read⟩ := List.exists_of_findSome?_eq_some found
      exact counted _ bytes read
  refine ⟨?_, ?_, ?_⟩
  · unfold elfDynamicRuntimeAddr
    simp only [returns_bind_iff, returns_present, present_eq_some, true_and]
    apply forall_congr'
    intro bytes
    apply forall_congr'
    intro found
    exact returns_dynamicRuntimeAddrOf_iff (modulesCounted bytes found) loadBase
  · unfold readExecutableDynamic
    simp only [returns_bind_iff, returns_present, present_eq_some, true_and]
    apply forall_congr'
    intro bytes
    apply forall_congr'
    intro found
    exact returns_executableDynamicOf_iff (counted path bytes found) loadBase
  · unfold buildSyntheticAuxv
    simp only [returns_bind_iff, returns_present, present_eq_some, true_and,
      Prod.forall]
    apply forall_congr'
    intro exeBase
    apply forall_congr'
    intro exePath
    constructor
    · intro returns bytes chosen found
      exact (returns_syntheticAuxvOf_iff (counted exePath bytes found)
        exeBase).mp (returns chosen bytes found)
    · intro safe chosen bytes found
      exact (returns_syntheticAuxvOf_iff (counted exePath bytes found)
        exeBase).mpr (safe bytes chosen found)

/-- The sample disk is read without an overflow. -/
theorem scanners_return_iff_sample :
    let files := sampleDisk "/usr/bin/app"
    let modules := [sampleModuleAt "/usr/bin/app" 0x400000]
    Returns (elfDynamicRuntimeAddr files .x86_64 "/usr/bin/app" 0x400000) ∧
      Returns (readExecutableDynamic files .x86_64 "/usr/bin/app" 0x400000) ∧
      Returns (buildSyntheticAuxv files .x86_64 modules) := by
  intro files modules
  have only : ∀ path bytes, files.read path = some bytes →
      bytes = sampleElf := by
    intro path bytes found
    unfold files FileSystem.read sampleDisk at found
    split at found
    · next contents present =>
      split at present
      · cases present
        exact (Option.some.inj found).symm
      · contradiction
    · contradiction
  have safe : ¬PhoffOverflows .x86_64 sampleElf := by
    rintro ⟨_, _, _, phoff, _, phoffRead, _, _, large⟩
    have value : readLe sampleElf 32 8 = some 64 := by decide +kernel
    rw [value, Option.some.injEq] at phoffRead
    omega
  have counted : ∀ path bytes, files.read path = some bytes →
      bytes.length < 2 ^ 63 := by
    intro path bytes found
    rw [only path bytes found]
    decide +kernel
  have found : files.metadataIsOk "/usr/bin/app" = true := by decide +kernel
  obtain ⟨runtime, executable, auxv⟩ := scanners_return_iff files counted
    .x86_64 "/usr/bin/app" 0x400000 modules
  refine ⟨runtime.mpr ?_, executable.mpr ?_, auxv.mpr ?_⟩
  · intro bytes read
    rw [FileSystem.readModule, if_pos found] at read
    exact only _ bytes read ▸ safe
  · intro bytes read
    exact only _ bytes read ▸ safe
  · intro exeBase exePath bytes _ read
    exact only _ bytes read ▸ safe

/-- A file header with one program header at the last but one offset. -/
def overflowingElf : List UInt8 :=
  [0x7f, 0x45, 0x4c, 0x46, 2, 1, 1] ++ List.replicate 9 0 ++
    encodeFields [(2, 3), (2, 62), (4, 1), (8, 0x1040), (8, 2 ^ 64 - 2), (8, 0),
      (4, 0), (2, 64), (2, 56), (2, 1), (2, 0), (2, 0), (2, 0)]

/-- All three functions panic on a file whose `e_phoff` overflows. -/
theorem exists_scan_panics :
    let files : FileSystem := fun path =>
      if path = "/usr/bin/app" then some (.file overflowingElf) else none
    let modules := [sampleModuleAt "/usr/bin/app" 0x400000]
    (elfDynamicRuntimeAddr files .x86_64 "/usr/bin/app" 0x400000).run =
        .error (.panic .arithmeticOverflow) ∧
      (readExecutableDynamic files .x86_64 "/usr/bin/app" 0x400000).run =
        .error (.panic .arithmeticOverflow) ∧
      (buildSyntheticAuxv files .x86_64 modules).run =
        .error (.panic .arithmeticOverflow) := by
  refine ⟨?_, ?_, ?_⟩
  · decide +kernel
  · decide +kernel
  · decide +kernel

end Md2Core
