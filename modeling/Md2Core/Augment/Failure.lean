import Md2Core.Augment.AddressMap

/-!
# Failing injections

An injection that fails has either changed nothing, or it has already cut the
mapping that contains the address when the shifted file offset turns out not to
exist. This module lists the ways in which an injection fails and decides
exactly when the table of a failing injection is left as it was.
-/

namespace Md2Core

open Foundation

/-! ## Failing steps -/

/-- Aligning downward fails only for alignment zero. -/
theorem alignDown_error
    {value alignment : UInt64}
    {fault : Fault}
    (failed : alignDown value alignment = .error fault) :
    alignment.toNat = 0 := by
  by_contra nonzero
  have aligned : alignDown value alignment = .ok (pageStart alignment value) := by
    refine alignDown_eq_ok.mpr ⟨?_, toNat_pageStart alignment value⟩
    rintro rfl
    exact nonzero rfl
  rw [failed] at aligned
  contradiction

/-- Aligning upward does not panic. -/
theorem alignUp_error_typed
    {value alignment : UInt64}
    {fault : Fault}
    (failed : alignUp value alignment = .error fault) :
    fault.IsTyped := by
  unfold alignUp at failed
  by_cases zero : alignment = 0
  · rw [if_pos zero, bind_eq_error] at failed
    rcases failed with thrown | ⟨_, thrown, _⟩
    · exact ⟨_, (throw_eq_error.mp thrown).symm⟩
    · exact absurd thrown (throw_ne_ok _ _)
  · have positive : 0 < alignment.toNat :=
      Nat.pos_of_ne_zero fun equal => zero (UInt64.toNat_inj.mp equal)
    rw [if_neg zero] at failed
    by_cases exact : value % alignment = 0
    · rw [if_pos exact] at failed
      exact absurd failed (pure_ne_error _ _)
    · rw [if_neg exact, bind_eq_error] at failed
      rcases failed with subtracted | ⟨_, _, added⟩
      · have below := (subU64_eq_error.mp subtracted).1
        rw [UInt64.toNat_mod] at below
        have remainderLt := Nat.mod_lt value.toNat positive
        omega
      · exact ⟨_, (okOr_eq_error.mp added).2.symm⟩

/-- Padding fails only for alignment zero and for a buffer that is too long. -/
theorem paddedVec_error
    {prefixLen alignment : Nat}
    {data : List UInt8}
    {fault : Fault}
    (failed : paddedVec prefixLen data alignment = .error fault) :
    alignment = 0 ∨ 2 ^ 63 ≤ roundUp alignment (prefixLen + data.length) := by
  by_contra neither
  rw [not_or, Nat.not_le] at neither
  have succeeded : paddedVec prefixLen data alignment = .ok _ :=
    paddedVec_eq_ok.mpr ⟨Nat.pos_of_ne_zero neither.1, neither.2, rfl⟩
  rw [failed] at succeeded
  contradiction

/-- Making a mapping does not panic. -/
theorem Mapping.new_error_typed
    {startAddress endAddress : UInt64}
    {permissions : MappingPermissions}
    {fault : Fault}
    (failed : Mapping.new startAddress endAddress permissions = .error fault) :
    fault.IsTyped := by
  unfold Mapping.new at failed
  split at failed
  · exact ⟨_, (Except.error.inj failed).symm⟩
  · contradiction

/-! ## The ways in which an injection fails -/

/-- The buffer of a blob is shorter than the longest vector, `isize::MAX`. -/
def BufferFits
    (pageSize : UInt64)
    (data : List UInt8)
    (address : UInt64) : Prop :=
  0 < pageSize.toNat ∧
    roundUp pageSize.toNat
      (address.toNat % pageSize.toNat + data.length) < 2 ^ 63

/-- The ways in which an injection fails, with the table it leaves. -/
inductive InjectionFailed
    (before : MappingTable)
    (data : List UInt8)
    (address pageSize : UInt64)
    (fault : Fault)
    (after : MappingTable) : Prop
  /-- The page size is zero or the buffer of the blob is too long. -/
  | unpadded
      (reason : ¬BufferFits pageSize data address)
      (unchanged : after = before)
  /-- No mapping contains the address and no synthetic mapping fits. -/
  | uncovered
      (outside : containingEntry before address = none)
      (typed : fault.IsTyped)
      (unchanged : after = before)
  /-- The mapping of a file has been cut, and the file offset of its upper part
  does not exist. -/
  | unshiftable
      (key : UInt64)
      (existing : Mapping)
      (fits : BufferFits pageSize data address)
      (chosen : containingEntry before address = some (key, existing))
      (backed : existing.filename.isSome = true)
      (different : pageStart pageSize address ≠ key)
      (reason :
        (pageStart pageSize address).toNat < key.toNat ∧
            fault = .panic .arithmeticOverflow ∨
          key.toNat ≤ (pageStart pageSize address).toNat ∧
            2 ^ 64 ≤ existing.offset.toNat +
              ((pageStart pageSize address).toNat - key.toNat) ∧
            fault = integerOverflow "split mapping offset")
      (trimmed : after = before.modify key fun mapping =>
        mapping.lowerPart (pageStart pageSize address))

/-- The file offset of the upper part cannot be computed after the cut. -/
theorem InjectionFailed.of_shift
    {data : List UInt8}
    {address pageSize key : UInt64}
    {existing : Mapping}
    {before : MappingTable}
    {fault : Fault}
    (fits : BufferFits pageSize data address)
    (chosen : containingEntry before address = some (key, existing))
    (backed : existing.filename.isSome = true)
    (different : pageStart pageSize address ≠ key)
    (failed : subU64 (pageStart pageSize address) key = .error fault ∨
      ∃ shift, subU64 (pageStart pageSize address) key = .ok shift ∧
        okOr (checkedAdd existing.offset shift)
          (integerOverflow "split mapping offset") = .error fault) :
    InjectionFailed before data address pageSize fault
      (before.modify key fun mapping =>
        mapping.lowerPart (pageStart pageSize address)) := by
  apply InjectionFailed.unshiftable key existing fits chosen backed different
    _ rfl
  rcases failed with underflow | ⟨shift, shiftOk, overflow⟩
  · exact Or.inl (subU64_eq_error.mp underflow)
  · have shiftValue := subU64_eq_ok.mp shiftOk
    obtain ⟨absent, reason⟩ := okOr_eq_error.mp overflow
    have large := checkedAdd_eq_none.mp absent
    refine Or.inr ⟨by omega, ?_, reason.symm⟩
    rwa [shiftValue, Nat.add_sub_cancel_left]

/-- A failing call failed in one of these ways. -/
theorem addDataToMapping_error
    {data : List UInt8}
    {address pageSize : UInt64}
    {before after : MappingTable}
    {fault : Fault}
    (failed : addDataToMapping data address pageSize before =
      .error fault after) :
    InjectionFailed before data address pageSize fault after := by
  unfold addDataToMapping at failed
  simp only [stateBind_eq_error, liftState_eq_error, liftState_eq_ok] at failed
  rcases failed with ⟨alignedError, rfl⟩ | ⟨aligned, _, ⟨alignedOk, rfl⟩, failed⟩
  · apply InjectionFailed.unpadded _ rfl
    rintro ⟨positive, _⟩
    exact Nat.ne_of_gt positive (alignDown_error alignedError)
  obtain rfl := alignDown_eq_ok_pageStart alignedOk
  rcases failed with ⟨subtracted, _⟩ | ⟨difference, _, ⟨differenceOk, rfl⟩, failed⟩
  · have below := (subU64_eq_error.mp subtracted).1
    have remainderLe := Nat.mod_le address.toNat pageSize.toNat
    rw [toNat_pageStart, roundDown] at below
    omega
  rw [subU64_pageStart_eq_ok differenceOk] at failed
  rcases failed with ⟨unpadded, rfl⟩ | ⟨padded, _, ⟨paddedOk, rfl⟩, failed⟩
  · apply InjectionFailed.unpadded _ rfl
    rintro ⟨positive, short⟩
    rcases paddedVec_error unpadded with zero | long <;> omega
  obtain ⟨positive, short, rfl⟩ := paddedVec_eq_ok.mp paddedOk
  rcases failed with impossible | ⟨_, _, got, branch⟩
  · exact absurd impossible get_ne_error
  obtain ⟨rfl, rfl⟩ := get_eq_ok.mp got
  rw [containingKey_eq_map] at branch
  cases chosen : containingEntry before address with
  | none =>
      rw [chosen] at branch
      simp only [Option.map_none, stateBind_eq_error, liftState_eq_error,
        liftState_eq_ok, modify_ne_error, and_false, exists_false,
        or_false] at branch
      rcases branch with ⟨lenError, rfl⟩ | ⟨dataLen, _, ⟨_, rfl⟩,
        ⟨endError, rfl⟩ | ⟨dataEnd, _, ⟨_, rfl⟩,
        ⟨alignedError, rfl⟩ | ⟨endAddress, _, ⟨_, rfl⟩, newError, rfl⟩⟩⟩
      · exact .uncovered chosen ⟨_, (okOr_eq_error.mp lenError).2.symm⟩ rfl
      · exact .uncovered chosen ⟨_, (okOr_eq_error.mp endError).2.symm⟩ rfl
      · exact .uncovered chosen (alignUp_error_typed alignedError) rfl
      · exact .uncovered chosen (Mapping.new_error_typed newError) rfl
  | some entry =>
      obtain ⟨key, existing⟩ := entry
      have found := found_of_containingEntry chosen
      rw [chosen] at branch
      simp only [Option.map_some, stateBind_eq_error, liftState_eq_error,
        liftState_eq_ok, found, okOr, reduceCtorEq, false_and, false_or,
        Except.ok.injEq] at branch
      obtain ⟨_, _, ⟨rfl, rfl⟩, branch⟩ := branch
      by_cases same : pageStart pageSize address = key
      · rw [if_neg (not_not_intro same)] at branch
        exact absurd branch modify_ne_error
      · rw [if_pos same] at branch
        simp only [stateBind_eq_error, modify_ne_error, false_or,
          modify_eq_ok] at branch
        obtain ⟨_, _, rfl, branch⟩ := branch
        by_cases backed : existing.filename.isSome = true
        · rw [if_pos backed] at branch
          simp only [stateBind_eq_error, liftState_eq_error, liftState_eq_ok,
            modify_ne_error, and_false, exists_false, or_false] at branch
          rcases branch with ⟨underflow, rfl⟩ | ⟨shift, _, ⟨shiftOk, rfl⟩,
            overflow, rfl⟩
          · exact .of_shift ⟨positive, short⟩ chosen backed same
              (Or.inl underflow)
          · exact .of_shift ⟨positive, short⟩ chosen backed same
              (Or.inr ⟨shift, shiftOk, overflow⟩)
        · rw [if_neg backed] at branch
          exact absurd branch modify_ne_error

/-! ## When a failing injection leaves the table as it was -/

/-- The mappings are keyed by start address and their bounds are multiples of
the page size. -/
structure MappingTable.BoundedBy
    (mappings : MappingTable)
    (pageSize : Nat) : Prop where
  keyed : ∀ (key : UInt64) (mapping : Mapping),
    mappings[key]? = some mapping → mapping.startAddress = key
  bounded : ∀ (key : UInt64) (mapping : Mapping),
    mappings[key]? = some mapping →
      pageSize ∣ mapping.startAddress.toNat ∧
        pageSize ∣ mapping.endAddress.toNat

theorem MappingTable.boundedBy_single
    {mapping : Mapping}
    {pageSize : Nat}
    (startBounded : pageSize ∣ mapping.startAddress.toNat)
    (endBounded : pageSize ∣ mapping.endAddress.toNat) :
    (MappingTable.single mapping).BoundedBy pageSize where
  keyed := @MappingTable.forall_single mapping
    (fun key other => other.startAddress = key) rfl
  bounded := MappingTable.forall_single ⟨startBounded, endBounded⟩

/-- If the blob can be padded, the first mapping that contains its address is
not cut, or is anonymous, or has a file offset at the boundary of the cut. -/
def ShiftFits
    (mappings : MappingTable)
    (data : List UInt8)
    (address pageSize : UInt64) : Prop :=
  BufferFits pageSize data address →
    ∀ (key : UInt64) (mapping : Mapping),
      containingEntry mappings address = some (key, mapping) →
        mapping.filename.isSome = true →
          pageStart pageSize address ≠ key →
            mapping.offset.toNat +
              ((pageStart pageSize address).toNat - key.toNat) < 2 ^ 64

/-- A cut moves the end of a mapping that contains the address. -/
theorem modify_lowerPart_ne
    {mappings : MappingTable}
    {address pageSize key : UInt64}
    {existing : Mapping}
    (chosen : containingEntry mappings address = some (key, existing)) :
    (mappings.modify key fun mapping =>
      mapping.lowerPart (pageStart pageSize address)) ≠ mappings := by
  intro unchanged
  have found := found_of_containingEntry chosen
  have bounds := Mapping.contains_iff.mp (contains_of_containingEntry chosen)
  have looked := MappingTable.getElem?_modify mappings key key fun mapping =>
    mapping.lowerPart (pageStart pageSize address)
  rw [unchanged, if_pos rfl, found, Option.map_some] at looked
  have ends := congrArg Mapping.endAddress (Option.some.inj looked)
  have boundaryLe : (pageStart pageSize address).toNat ≤ address.toNat := by
    rw [toNat_pageStart]
    exact roundDown_le _ _
  simp only [Mapping.lowerPart] at ends
  rw [← ends] at boundaryLe
  omega

/-- A failing injection into a table of mappings with bounds at multiples of the
page size leaves it as it was exactly when the file offset of the cut exists. -/
theorem addDataToMapping_unchanged_iff
    (before after : MappingTable)
    (data : List UInt8)
    (address pageSize : UInt64)
    (fault : Fault)
    (bounded : before.BoundedBy pageSize.toNat)
    (failed : addDataToMapping data address pageSize before =
      .error fault after) :
    after = before ↔ ShiftFits before data address pageSize := by
  cases addDataToMapping_error failed with
  | unpadded reason unchanged =>
      exact iff_of_true unchanged fun fits => absurd fits reason
  | uncovered outside typed unchanged =>
      refine iff_of_true unchanged fun _ key mapping chosen => ?_
      rw [outside] at chosen
      contradiction
  | unshiftable key existing fits chosen backed different reason trimmed =>
      refine iff_of_false ?_ fun shiftFits => ?_
      · rw [trimmed]
        exact modify_lowerPart_ne chosen
      · have small := shiftFits fits key existing chosen backed different
        have found := found_of_containingEntry chosen
        have bounds := Mapping.contains_iff.mp
          (contains_of_containingEntry chosen)
        have startLe := le_roundDown_of_dvd
          (bounded.bounded key existing found).1 bounds.1
        rw [← toNat_pageStart, bounded.keyed key existing found] at startLe
        rcases reason with ⟨below, _⟩ | ⟨_, large, _⟩ <;> omega

/-- A mapping at the end of its file that has no offset behind its first
page. -/
def sampleUnshiftable : Mapping where
  startAddress := 0x1000
  endAddress := 0x4000
  offset := 0xfffffffffffff000
  permissions := .readOnly
  filename := some "/bin/app"
  data := []

/-- A blob on the second page of a mapping whose next file offset does not exist:
the call returns an error and the mapping has been cut to its first page. -/
theorem exists_failed_injection_changed :
    ¬∀ (before after : MappingTable) (data : List UInt8)
        (address pageSize : UInt64) (cause : Md2CoreError),
      before.BoundedBy pageSize.toNat →
        addDataToMapping data address pageSize before =
            .error (.error cause) after →
          after = before := by
  intro always
  obtain ⟨fault, after, failed, cut⟩ : ∃ fault after,
      addDataToMapping [7] 0x2000 defaultPageSize
          (MappingTable.single sampleUnshiftable) = .error fault after ∧
        (decide (fault = integerOverflow "split mapping offset") &&
          (after[(0x1000 : UInt64)]?.map fun mapping =>
            decide (mapping.endAddress = 0x2000)) == some true) = true :=
    exists_error_of_check (by decide +kernel)
  simp only [Bool.and_eq_true, decide_eq_true_eq, beq_iff_eq,
    Option.map_eq_some_iff] at cut
  obtain ⟨rfl, mapping, found, endsAt⟩ := cut
  have unchanged := always (.single sampleUnshiftable) after [7] 0x2000
    defaultPageSize _ (MappingTable.boundedBy_single (by decide) (by decide))
    failed
  rw [unchanged, MappingTable.getElem?_single] at found
  obtain rfl := Option.some.inj found
  exact absurd endsAt (by decide)

/-- A blob at the very end of the address space: the call fails and the
equivalence applies. -/
theorem addDataToMapping_unchanged_iff_sample :
    let before := MappingTable.single sampleFileMapping
    ∃ fault after,
      addDataToMapping [1, 2] 0xffffffffffffffff defaultPageSize before =
        .error fault after ∧
      (after = before ↔
        ShiftFits before [1, 2] 0xffffffffffffffff defaultPageSize) := by
  intro before
  obtain ⟨fault, after, failed, _⟩ : ∃ fault after,
      addDataToMapping [1, 2] 0xffffffffffffffff defaultPageSize
          (MappingTable.single sampleFileMapping) = .error fault after ∧
        (fun (_ : Fault) (_ : MappingTable) => true) fault after = true :=
    exists_error_of_check (by decide +kernel)
  exact ⟨fault, after, failed, addDataToMapping_unchanged_iff before after
    [1, 2] 0xffffffffffffffff defaultPageSize fault
    (MappingTable.boundedBy_single (by decide) (by decide)) failed⟩

end Md2Core
