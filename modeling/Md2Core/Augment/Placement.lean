import Md2Core.Augment.AddressMap

/-!
# Where an injection puts a blob

A successful injection puts the blob at its own address, in a mapping that
starts at the page of the address and carries whole pages. Cutting a mapping of
a page-aligned table for it changes what no address means: the same addresses
are mapped, with the same permissions, file and file position.
-/

namespace Md2Core

open Foundation

/-! ## The mapping of the blob -/

/-- A mapping that carries a blob at its address: zero bytes up to the address,
the blob, and fewer zero bytes than a page, in whole pages. -/
structure CarriesBlob
    (pageSize : Nat)
    (data : List UInt8)
    (address : UInt64)
    (mapping : Mapping) : Prop where
  startLe : mapping.startAddress.toNat ≤ address.toNat
  content : ∃ padding < pageSize,
    mapping.data =
      List.replicate (address.toNat - mapping.startAddress.toNat) 0 ++ data ++
        List.replicate padding 0
  whole : pageSize ∣ mapping.data.length

/-- A mapping at the page of the address with the padded blob carries it. -/
theorem carriesBlob_of_injectedBytes
    {pageSize address : UInt64}
    {data : List UInt8}
    {mapping : Mapping}
    (positive : 0 < pageSize.toNat)
    (start : mapping.startAddress = pageStart pageSize address)
    (bytes : mapping.data = injectedBytes pageSize data address) :
    CarriesBlob pageSize.toNat data address mapping := by
  have remainderLe := Nat.mod_le address.toNat pageSize.toNat
  have startValue : mapping.startAddress.toNat =
      address.toNat - address.toNat % pageSize.toNat := by
    rw [start, toNat_pageStart]
    rfl
  refine ⟨by omega, ⟨_, roundUp_sub_lt positive
    (address.toNat % pageSize.toNat + data.length), ?_⟩, ?_⟩
  · rw [bytes, injectedBytes, paddedBytes, startValue,
      show address.toNat - (address.toNat - address.toNat % pageSize.toNat) =
        address.toNat % pageSize.toNat by omega]
  · rw [bytes, injectedBytes, length_paddedBytes]
    exact dvd_roundUp positive _

theorem alignDown_of_pos
    {pageSize : UInt64}
    (positive : 0 < pageSize.toNat)
    (address : UInt64) :
    alignDown address pageSize = .ok (pageStart pageSize address) := by
  refine alignDown_eq_ok.mpr ⟨?_, toNat_pageStart pageSize address⟩
  rintro rfl
  exact absurd positive (by decide)

/-- A successful injection leaves a mapping under the page of the address that
starts there and carries the blob. When no mapping contained the address, it is
anonymous, readable and writable, and as long as its data. -/
theorem addDataToMapping_places
    (before after : MappingTable)
    (data : List UInt8)
    (address pageSize : UInt64)
    (succeeded : addDataToMapping data address pageSize before = .ok () after) :
    ∃ (start : UInt64) (mapping : Mapping),
      alignDown address pageSize = .ok start ∧
      after[start]? = some mapping ∧
      mapping.startAddress = start ∧
      CarriesBlob pageSize.toNat data address mapping ∧
      ((∀ (key : UInt64) (other : Mapping), before[key]? = some other →
          other.contains address = false) →
        mapping.filename = none ∧
        mapping.permissions = .readWrite ∧
        mapping.endAddress.toNat =
          mapping.startAddress.toNat + mapping.data.length) := by
  obtain ⟨positive, injected⟩ := addDataToMapping_ok succeeded
  cases injected with
  | split key existing chosen shiftable result =>
      refine ⟨_, _, alignDown_of_pos positive address,
        by rw [result, if_pos rfl], rfl,
        carriesBlob_of_injectedBytes positive rfl rfl, ?_⟩
      intro outside
      have excluded := outside key existing (found_of_containingEntry chosen)
      rw [contains_of_containingEntry chosen] at excluded
      contradiction
  | synthetic endAddress uncovered endValue ordered result =>
      refine ⟨_, _, alignDown_of_pos positive address,
        by rw [result, if_pos rfl], rfl,
        carriesBlob_of_injectedBytes positive rfl rfl, ?_⟩
      intro _
      refine ⟨rfl, rfl, ?_⟩
      have span := injectedChunk_end pageSize data address
      simp only [injectedChunk] at span
      simp only [Mapping.synthetic]
      rw [endValue, span]

/-- A blob in the middle of a page of an empty table. -/
theorem addDataToMapping_places_sample :
    ∃ after,
      addDataToMapping [1, 2, 3] 0x1ff0 defaultPageSize ∅ = .ok () after ∧
      ∃ (start : UInt64) (mapping : Mapping),
        alignDown 0x1ff0 defaultPageSize = .ok start ∧
        after[start]? = some mapping ∧
        mapping.startAddress = start ∧
        CarriesBlob defaultPageSize.toNat [1, 2, 3] 0x1ff0 mapping ∧
        ((∀ (key : UInt64) (other : Mapping),
            (∅ : MappingTable)[key]? = some other →
              other.contains 0x1ff0 = false) →
          mapping.filename = none ∧
          mapping.permissions = .readWrite ∧
          mapping.endAddress.toNat =
            mapping.startAddress.toNat + mapping.data.length) := by
  obtain ⟨_, after, succeeded⟩ : ∃ value after,
      addDataToMapping [1, 2, 3] 0x1ff0 defaultPageSize ∅ = .ok value after :=
    exists_ok_of_succeeds (by decide +kernel)
  exact ⟨after, succeeded, addDataToMapping_places ∅ after [1, 2, 3] 0x1ff0
    defaultPageSize succeeded⟩

/-! ## What the addresses of a table mean -/

/-- Permissions, file name and, for a mapping of a file, the position in the
file, of an address in a mapping. -/
structure Meaning where
  permissions : MappingPermissions
  filename : Option String
  filePosition : Option Nat
  deriving DecidableEq

/-- What an address means in a mapping that contains it. -/
def Mapping.meaningAt (mapping : Mapping) (address : UInt64) : Meaning where
  permissions := mapping.permissions
  filename := mapping.filename
  filePosition := mapping.filename.map fun _ =>
    mapping.offset.toNat + (address.toNat - mapping.startAddress.toNat)

/-- A mapping of the table contains an address and gives it a meaning. -/
def MappingTable.Means
    (mappings : MappingTable)
    (address : UInt64)
    (meaning : Meaning) : Prop :=
  ∃ (key : UInt64) (mapping : Mapping), mappings[key]? = some mapping ∧
    mapping.contains address = true ∧ mapping.meaningAt address = meaning

section Split

variable {before after : MappingTable} {key boundary position : UInt64}
  {existing : Mapping} {data : List UInt8}

/-- The lower part of a cut mapping has the addresses below the boundary. -/
theorem Mapping.contains_lowerPart_iff
    (endGe : boundary.toNat ≤ existing.endAddress.toNat) :
    (existing.lowerPart boundary).contains position = true ↔
      existing.contains position = true ∧ position.toNat < boundary.toNat := by
  simp only [Mapping.contains_iff, Mapping.lowerPart]
  omega

/-- The upper part of a cut mapping has the addresses from the boundary on. -/
theorem Mapping.contains_upperPart_iff
    (startLe : existing.startAddress.toNat ≤ boundary.toNat) :
    (existing.upperPart key boundary data).contains position = true ↔
      existing.contains position = true ∧ boundary.toNat ≤ position.toNat := by
  simp only [Mapping.contains_iff, Mapping.upperPart]
  omega

/-- The upper part of a cut mapping gives its addresses their old meaning. -/
theorem Mapping.meaningAt_upperPart
    (keyed : existing.startAddress = key)
    (startLe : existing.startAddress.toNat ≤ boundary.toNat)
    (above : boundary.toNat ≤ position.toNat)
    (shifted : existing.filename.isSome →
      (existing.offsetAt key boundary).toNat =
        existing.offset.toNat + (boundary.toNat - key.toNat)) :
    (existing.upperPart key boundary data).meaningAt position =
      existing.meaningAt position := by
  subst keyed
  unfold Mapping.meaningAt
  simp only [Mapping.upperPart]
  cases name : existing.filename with
  | none => rfl
  | some path =>
      have moved := shifted (by rw [name]; rfl)
      simp only [Option.map_some, moved]
      congr 2
      omega

end Split

section Frame

variable {before after : MappingTable} {key boundary address : UInt64}
  {existing : Mapping} {data : List UInt8}

/-- In a well-formed table no other mapping starts inside a mapping. -/
theorem MappingTable.WellFormed.key_eq_of_contains
    (wellFormed : before.WellFormed)
    (found : before[key]? = some existing)
    (inside : existing.contains boundary = true)
    {other : Mapping}
    (otherFound : before[boundary]? = some other) :
    boundary = key := by
  apply MappingTable.contains_unique wellFormed.disjoint otherFound found _ inside
  have start := wellFormed.keyed boundary other otherFound
  have ordered := UInt64.lt_iff_toNat_lt.mp
    (wellFormed.nonempty boundary other otherFound)
  rw [Mapping.contains_iff]
  rw [start] at ordered ⊢
  omega

/-- Cutting a mapping at a boundary above its start changes what no address
means. -/
theorem means_split_iff
    (wellFormed : before.WellFormed)
    (chosen : containingEntry before address = some (key, existing))
    (boundaryLe : boundary.toNat ≤ address.toNat)
    (startLe : existing.startAddress.toNat ≤ boundary.toNat)
    (shifted : existing.filename.isSome →
      (existing.offsetAt key boundary).toNat =
        existing.offset.toNat + (boundary.toNat - key.toNat))
    (result : ∀ other : UInt64, after[other]? =
      if boundary = other then some (existing.upperPart key boundary data)
      else if key = other then some (existing.lowerPart boundary)
      else before[other]?)
    (position : UInt64)
    (meaning : Meaning) :
    after.Means position meaning ↔ before.Means position meaning := by
  have found := found_of_containingEntry chosen
  have keyed := wellFormed.keyed key existing found
  have bounds := Mapping.contains_iff.mp (contains_of_containingEntry chosen)
  have inLower := @Mapping.contains_lowerPart_iff boundary position existing
    (by omega)
  have inUpper := @Mapping.contains_upperPart_iff key boundary position existing
    data startLe
  constructor
  · rintro ⟨other, mapping, looked, inside, rfl⟩
    rw [result] at looked
    split at looked
    · obtain rfl := Option.some.inj looked
      have parts := inUpper.mp inside
      exact ⟨key, existing, found, parts.1,
        (Mapping.meaningAt_upperPart keyed startLe parts.2 shifted).symm⟩
    · split at looked
      · obtain rfl := Option.some.inj looked
        exact ⟨key, existing, found, (inLower.mp inside).1, rfl⟩
      · exact ⟨other, mapping, looked, inside, rfl⟩
  · rintro ⟨other, mapping, looked, inside, rfl⟩
    by_cases there : key = other
    · subst there
      rw [found] at looked
      obtain rfl := Option.some.inj looked
      by_cases above : boundary.toNat ≤ position.toNat
      · exact ⟨boundary, _, by rw [result, if_pos rfl],
          inUpper.mpr ⟨inside, above⟩,
          Mapping.meaningAt_upperPart keyed startLe above shifted⟩
      · have apart : boundary ≠ key := by
          rintro rfl
          have started := (Mapping.contains_iff.mp inside).1
          rw [keyed] at started
          exact above started
        exact ⟨key, _, by rw [result, if_neg apart, if_pos rfl],
          inLower.mpr ⟨inside, by omega⟩, rfl⟩
    · have apart : boundary ≠ other := by
        rintro rfl
        apply there
        apply Eq.symm
        apply wellFormed.key_eq_of_contains found _ looked
        exact Mapping.contains_iff.mpr ⟨startLe, by omega⟩
      refine ⟨other, mapping, ?_, inside, rfl⟩
      rw [result, if_neg apart, if_neg there]
      exact looked

end Frame

/-- An injection into a mapping of a well-formed table of page-aligned mappings
changes what no address means and leaves at most one mapping at every address.
The mappings that do not contain the address of the blob are unchanged. -/
theorem addDataToMapping_preserves_meaning
    (before after : MappingTable)
    (data : List UInt8)
    (address : UInt64)
    (wellFormed : before.WellFormed)
    (aligned : before.PageAligned)
    (mapped : ∃ (key : UInt64) (mapping : Mapping),
      before[key]? = some mapping ∧ mapping.contains address = true)
    (succeeded : addDataToMapping data address defaultPageSize before =
      .ok () after) :
    (∀ (position : UInt64) (meaning : Meaning),
      after.Means position meaning ↔ before.Means position meaning) ∧
    (∀ (position firstKey secondKey : UInt64) (first second : Mapping),
      after[firstKey]? = some first → after[secondKey]? = some second →
        first.contains position = true → second.contains position = true →
          firstKey = secondKey) ∧
    (∀ (key : UInt64) (mapping : Mapping), before[key]? = some mapping →
      mapping.contains address = false → after[key]? = some mapping) := by
  have boundaryLe := pageStart_default_le address
  cases (addDataToMapping_ok succeeded).2 with
  | split key existing chosen shiftable result =>
      have found := found_of_containingEntry chosen
      have inside := contains_of_containingEntry chosen
      have bounds := Mapping.contains_iff.mp inside
      have startLe : existing.startAddress.toNat ≤
          (pageStart defaultPageSize address).toNat := by
        rw [toNat_pageStart_default]
        exact le_roundDown_of_dvd (aligned key existing found).1 bounds.1
      have stays := wellFormed_of_split wellFormed chosen boundaryLe startLe
        result
      refine ⟨means_split_iff wellFormed chosen boundaryLe startLe
        (fun backed => (shiftable backed).2) result, ?_, ?_⟩
      · intro position firstKey secondKey first second
        exact MappingTable.contains_unique stays.disjoint
      · intro other mapping looked outside
        have notKey : key ≠ other := by
          rintro rfl
          rw [found] at looked
          obtain rfl := Option.some.inj looked
          rw [inside] at outside
          contradiction
        have notBoundary : pageStart defaultPageSize address ≠ other := by
          rintro rfl
          apply notKey
          apply Eq.symm
          apply wellFormed.key_eq_of_contains found _ looked
          exact Mapping.contains_iff.mpr ⟨startLe, by omega⟩
        rw [result, if_neg notBoundary, if_neg notKey]
        exact looked
  | synthetic endAddress uncovered endValue ordered result =>
      obtain ⟨key, mapping, found, inside⟩ := mapped
      rw [containingEntry_eq_none_iff.mp uncovered key mapping found] at inside
      contradiction

/-- A stack inside a file mapping is an injection that keeps all meanings. -/
theorem addDataToMapping_preserves_meaning_sample :
    let before := MappingTable.single sampleFileMapping
    ∃ after,
      addDataToMapping [1, 2, 3] 0x3200 defaultPageSize before = .ok () after ∧
      (∀ (position : UInt64) (meaning : Meaning),
        after.Means position meaning ↔ before.Means position meaning) ∧
      (∀ (position firstKey secondKey : UInt64) (first second : Mapping),
        after[firstKey]? = some first → after[secondKey]? = some second →
          first.contains position = true → second.contains position = true →
            firstKey = secondKey) ∧
      (∀ (key : UInt64) (mapping : Mapping), before[key]? = some mapping →
        mapping.contains 0x3200 = false → after[key]? = some mapping) := by
  intro before
  obtain ⟨_, after, succeeded⟩ : ∃ value after,
      addDataToMapping [1, 2, 3] 0x3200 defaultPageSize
        (MappingTable.single sampleFileMapping) = .ok value after :=
    exists_ok_of_succeeds (by decide +kernel)
  refine ⟨after, succeeded, addDataToMapping_preserves_meaning before after
    [1, 2, 3] 0x3200 (MappingTable.wellFormed_single (by decide))
    (MappingTable.pageAligned_single (by decide) (by decide))
    ⟨0x1000, sampleFileMapping, ?_, by decide⟩ succeeded⟩
  rw [MappingTable.getElem?_single]
  rfl

end Md2Core
