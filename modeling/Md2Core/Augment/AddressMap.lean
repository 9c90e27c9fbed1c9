import Md2Core.Augment.Injection
import Md2Core.Foundation.PartialRun
import Md2Core.Foundation.Regions

/-!
# The mapping table as an address map

A well-formed mapping table is keyed by start address and consists of nonempty,
pairwise disjoint ranges. Over any sequence of injections, this module decides
exactly when the table stays well-formed, and exactly when no mapping comes to
carry more bytes than it spans.
-/

namespace Md2Core

open Foundation

/-- The addresses of a mapping. -/
def Mapping.range (mapping : Mapping) : Set Nat :=
  Set.Ico mapping.startAddress.toNat mapping.endAddress.toNat

namespace MappingTable

/-- The addresses of the mapping under each key. -/
def regions (mappings : MappingTable) (key : UInt64) : Set Nat :=
  {position | ∃ mapping, mappings[key]? = some mapping ∧
    position ∈ mapping.range}

theorem regions_of_some
    {mappings : MappingTable}
    {key : UInt64}
    {mapping : Mapping}
    (found : mappings[key]? = some mapping) :
    mappings.regions key = mapping.range :=
  storedRegions_of_some found

/-- A table is well-formed when it is keyed by start address and its ranges
are nonempty and pairwise disjoint. -/
structure WellFormed (mappings : MappingTable) : Prop where
  keyed : ∀ (key : UInt64) (mapping : Mapping),
    mappings[key]? = some mapping → mapping.startAddress = key
  nonempty : ∀ (key : UInt64) (mapping : Mapping),
    mappings[key]? = some mapping →
      mapping.startAddress < mapping.endAddress
  disjoint : Separate mappings.regions

/-- A mapping contains an address exactly when the address is in its range. -/
theorem contains_iff_mem_regions
    {mappings : MappingTable}
    {key address : UInt64}
    {mapping : Mapping}
    (found : mappings[key]? = some mapping) :
    mapping.contains address = true ↔ address.toNat ∈ mappings.regions key := by
  rw [regions_of_some found, Mapping.contains_iff]
  rfl

/-- At most one mapping of disjoint ranges contains an address. -/
theorem contains_unique
    {mappings : MappingTable}
    (disjoint : Separate mappings.regions)
    {address firstKey secondKey : UInt64}
    {first second : Mapping}
    (firstFound : mappings[firstKey]? = some first)
    (secondFound : mappings[secondKey]? = some second)
    (firstInside : first.contains address = true)
    (secondInside : second.contains address = true) :
    firstKey = secondKey := by
  by_contra different
  rw [contains_iff_mem_regions firstFound] at firstInside
  rw [contains_iff_mem_regions secondFound] at secondInside
  exact Set.disjoint_left.mp (disjoint different) firstInside secondInside

end MappingTable

/-! ## Sequences of injections -/

/-- A captured blob and the address it was captured at. -/
structure Injection where
  data : List UInt8
  address : UInt64
  deriving DecidableEq, Repr

/-- A successful injection of a nonempty blob at the default page size. -/
def InjectionStep
    (before : MappingTable)
    (injection : Injection)
    (after : MappingTable) : Prop :=
  injection.data ≠ [] ∧
    addDataToMapping injection.data injection.address defaultPageSize before =
      .ok () after

theorem InjectionStep.injected
    {before after : MappingTable}
    {injection : Injection}
    (step : InjectionStep before injection after) :
    Injected before injection.data injection.address defaultPageSize after :=
  (addDataToMapping_ok step.2).2

theorem regions_eq_of_insert
    {before after : MappingTable}
    {boundary : UInt64}
    {mapping : Mapping}
    (result : ∀ other : UInt64, after[other]? =
      if boundary = other then some mapping else before[other]?) :
    after.regions =
      Function.update before.regions boundary mapping.range := by
  funext other
  have looked := result other
  by_cases here : other = boundary
  · subst here
    rw [if_pos rfl] at looked
    rw [Function.update_self, MappingTable.regions_of_some looked]
  · rw [if_neg (Ne.symm here)] at looked
    rw [Function.update_of_ne here]
    unfold MappingTable.regions
    rw [looked]

theorem regions_eq_of_split
    {before after : MappingTable}
    {key boundary : UInt64}
    {lower upper : Mapping}
    (result : ∀ other : UInt64, after[other]? =
      if boundary = other then some upper
      else if key = other then some lower
      else before[other]?) :
    after.regions =
      Function.update (Function.update before.regions key lower.range)
        boundary upper.range := by
  have middle : MappingTable.regions (before.insert key lower) =
      Function.update before.regions key lower.range :=
    regions_eq_of_insert (MappingTable.getElem?_insert before key · lower)
  rw [← middle]
  apply regions_eq_of_insert
  intro other
  rw [result, MappingTable.getElem?_insert]

/-! ## When the table stays well-formed -/

/-- A blob fits the address map when the mapping that contains its address
starts at or below the page of the address and, when no mapping contains it,
its pages meet no mapping but one that starts at the first of them. -/
def FitsAddressMap (mappings : MappingTable) (injection : Injection) : Prop :=
  (∀ (key : UInt64) (mapping : Mapping), mappings[key]? = some mapping →
    mapping.contains injection.address = true →
      mapping.startAddress.toNat ≤ roundDown 4096 injection.address.toNat) ∧
  ((∀ (key : UInt64) (mapping : Mapping), mappings[key]? = some mapping →
      mapping.contains injection.address = false) →
    ∀ (key : UInt64) (mapping : Mapping), mappings[key]? = some mapping →
      mapping.startAddress.toNat ≠ roundDown 4096 injection.address.toNat →
        Disjoint
          (Set.Ico (roundDown 4096 injection.address.toNat)
            (roundUp 4096
              (injection.address.toNat + injection.data.length)))
          mapping.range)

theorem toNat_pageStart_default (address : UInt64) :
    (pageStart defaultPageSize address).toNat =
      roundDown 4096 address.toNat :=
  toNat_pageStart defaultPageSize address

theorem pageStart_default_le (address : UInt64) :
    (pageStart defaultPageSize address).toNat ≤ address.toNat := by
  rw [toNat_pageStart_default]
  exact roundDown_le 4096 address.toNat

/-- A table is built of mappings as the constructor makes them, under their
start addresses. -/
structure MappingTable.Built (mappings : MappingTable) : Prop where
  keyed : ∀ (key : UInt64) (mapping : Mapping),
    mappings[key]? = some mapping → mapping.startAddress = key
  ordered : ∀ (key : UInt64) (mapping : Mapping),
    mappings[key]? = some mapping →
      mapping.startAddress.toNat < mapping.endAddress.toNat

theorem MappingTable.WellFormed.built
    {mappings : MappingTable}
    (wellFormed : mappings.WellFormed) :
    mappings.Built where
  keyed := wellFormed.keyed
  ordered key mapping found :=
    UInt64.lt_iff_toNat_lt.mp (wellFormed.nonempty key mapping found)

/-- Adding an ordered mapping under its start address. -/
theorem MappingTable.Built.insert
    {before after : MappingTable}
    {mapping : Mapping}
    (built : before.Built)
    (ordered : mapping.startAddress.toNat < mapping.endAddress.toNat)
    (result : ∀ other : UInt64, after[other]? =
      if mapping.startAddress = other then some mapping else before[other]?) :
    after.Built where
  keyed := forall_entries_of_insert built.keyed rfl result
  ordered := forall_entries_of_insert built.ordered ordered result

section Split

variable {before after : MappingTable} {key boundary address : UInt64}
  {existing : Mapping} {data : List UInt8}

/-- A mapping that is cut above its start leaves two ordered mappings. -/
theorem MappingTable.Built.split
    (built : before.Built)
    (chosen : containingEntry before address = some (key, existing))
    (boundaryLe : boundary.toNat ≤ address.toNat)
    (startLe : existing.startAddress.toNat ≤ boundary.toNat)
    (result : ∀ other : UInt64, after[other]? =
      if boundary = other then some (existing.upperPart key boundary data)
      else if key = other then some (existing.lowerPart boundary)
      else before[other]?) :
    after.Built := by
  have found := found_of_containingEntry chosen
  have bounds := Mapping.contains_iff.mp (contains_of_containingEntry chosen)
  have keyStart := built.keyed key existing found
  constructor
  · apply forall_entries_of_split built.keyed _ _ result
    · rfl
    · exact fun _ => keyStart
  · apply forall_entries_of_split built.ordered _ _ result
    · simp only [Mapping.upperPart]
      omega
    · intro notHere
      have different : boundary.toNat ≠ existing.startAddress.toNat := by
        rw [keyStart]
        exact fun equal => notHere (UInt64.toNat_inj.mp equal)
      simp only [Mapping.lowerPart]
      omega

/-- A mapping that is cut above its start leaves a well-formed table. -/
theorem wellFormed_of_split
    (wellFormed : before.WellFormed)
    (chosen : containingEntry before address = some (key, existing))
    (boundaryLe : boundary.toNat ≤ address.toNat)
    (startLe : existing.startAddress.toNat ≤ boundary.toNat)
    (result : ∀ other : UInt64, after[other]? =
      if boundary = other then some (existing.upperPart key boundary data)
      else if key = other then some (existing.lowerPart boundary)
      else before[other]?) :
    after.WellFormed := by
  have found := found_of_containingEntry chosen
  have bounds := Mapping.contains_iff.mp (contains_of_containingEntry chosen)
  have stays := wellFormed.built.split chosen boundaryLe startLe result
  refine ⟨stays.keyed, fun key mapping looked =>
    UInt64.lt_iff_toNat_lt.mpr (stays.ordered key mapping looked), ?_⟩
  rw [regions_eq_of_split result]
  apply wellFormed.disjoint.split
  · rw [MappingTable.regions_of_some found]
    exact Set.Ico_subset_Ico_right (by simp only [Mapping.lowerPart]; omega)
  · rw [MappingTable.regions_of_some found]
    exact Set.Ico_subset_Ico_left startLe
  · rw [Set.disjoint_left]
    intro position inLower inUpper
    simp only [Mapping.range, Mapping.lowerPart, Mapping.upperPart,
      Set.mem_Ico] at inLower inUpper
    omega

/-- Splitting a mapping keeps a table well-formed exactly when the mapping
starts at or below the boundary. -/
theorem wellFormed_split_iff
    (wellFormed : before.WellFormed)
    (chosen : containingEntry before address = some (key, existing))
    (boundaryLe : boundary.toNat ≤ address.toNat)
    (result : ∀ other : UInt64, after[other]? =
      if boundary = other then some (existing.upperPart key boundary data)
      else if key = other then some (existing.lowerPart boundary)
      else before[other]?) :
    after.WellFormed ↔ existing.startAddress.toNat ≤ boundary.toNat := by
  constructor
  · intro stays
    by_contra above
    have keyStart := wellFormed.keyed key existing
      (found_of_containingEntry chosen)
    have different : boundary ≠ key := by
      rintro rfl
      rw [keyStart] at above
      omega
    have lower := stays.nonempty key (existing.lowerPart boundary)
      (by rw [result, if_neg different, if_pos rfl])
    have ordered := UInt64.lt_iff_toNat_lt.mp lower
    simp only [Mapping.lowerPart] at ordered
    omega
  · intro startLe
    exact wellFormed_of_split wellFormed chosen boundaryLe startLe result

end Split

/-- Adding a mapping keeps a table well-formed exactly when its range avoids
the mappings under other keys. -/
theorem wellFormed_insert_iff
    {before after : MappingTable}
    {mapping : Mapping}
    (wellFormed : before.WellFormed)
    (ordered : mapping.startAddress.toNat < mapping.endAddress.toNat)
    (result : ∀ other : UInt64, after[other]? =
      if mapping.startAddress = other then some mapping else before[other]?) :
    after.WellFormed ↔
      ∀ (key : UInt64) (other : Mapping), before[key]? = some other →
        other.startAddress ≠ mapping.startAddress →
          Disjoint mapping.range other.range := by
  have regionsAfter := regions_eq_of_insert result
  constructor
  · intro stays key other found different
    have separate := stays.disjoint
    rw [regionsAfter, separate_update_iff] at separate
    have keyDifferent : key ≠ mapping.startAddress := by
      rw [← wellFormed.keyed key other found]
      exact different
    have apart := separate.2 key keyDifferent
    rwa [MappingTable.regions_of_some found] at apart
  · intro avoids
    have stays := wellFormed.built.insert ordered result
    refine ⟨stays.keyed, fun key other looked =>
      UInt64.lt_iff_toNat_lt.mpr (stays.ordered key other looked), ?_⟩
    rw [regionsAfter, separate_update_iff]
    refine ⟨fun first second _ _ different =>
      wellFormed.disjoint different, fun other different => ?_⟩
    rw [Set.disjoint_left]
    rintro position inMapping ⟨candidate, found, inCandidate⟩
    have apart := avoids other candidate found (by
      rw [wellFormed.keyed other candidate found]
      exact different)
    exact Set.disjoint_left.mp apart inMapping inCandidate

/-- One injection keeps a well-formed table well-formed exactly when its blob
fits the address map. -/
theorem InjectionStep.wellFormed_iff
    {before after : MappingTable}
    {injection : Injection}
    (wellFormed : before.WellFormed)
    (step : InjectionStep before injection after) :
    after.WellFormed ↔ FitsAddressMap before injection := by
  have boundaryLe := pageStart_default_le injection.address
  cases step.injected with
  | split key existing chosen shiftable result =>
      have found := found_of_containingEntry chosen
      have inside := contains_of_containingEntry chosen
      rw [wellFormed_split_iff wellFormed chosen boundaryLe result,
        toNat_pageStart_default]
      constructor
      · intro startLe
        refine ⟨fun other mapping otherFound otherInside => ?_,
          fun outside => ?_⟩
        · have same := MappingTable.contains_unique wellFormed.disjoint
            otherFound found otherInside inside
          subst same
          rw [found] at otherFound
          obtain rfl := Option.some.inj otherFound
          exact startLe
        · have excluded := outside key existing found
          rw [inside] at excluded
          contradiction
      · intro fits
        exact fits.1 key existing found inside
  | synthetic endAddress uncovered endValue ordered result =>
      have decided : after.WellFormed ↔ _ :=
        @wellFormed_insert_iff before after
          (.synthetic (pageStart defaultPageSize injection.address) endAddress
            (injectedBytes defaultPageSize injection.data injection.address))
          wellFormed ordered result
      rw [decided]
      have outside := containingEntry_eq_none_iff.mp uncovered
      have endsAt : endAddress.toNat = roundUp 4096
          (injection.address.toNat + injection.data.length) := endValue
      simp only [Mapping.synthetic, Mapping.range, FitsAddressMap, endsAt,
        toNat_pageStart_default, ne_eq, ← UInt64.toNat_inj]
      constructor
      · intro avoids
        refine ⟨fun key mapping found inside => ?_, fun _ => avoids⟩
        rw [outside key mapping found] at inside
        contradiction
      · intro fits
        exact fits.2 outside

/-- Along any sequence of injections into a well-formed table, every table
reached is well-formed exactly when every blob fits the address map that it is
injected into. -/
theorem wellFormed_iff_fitsAddressMap
    (mappings : MappingTable)
    (run : List (Injection × MappingTable))
    (wellFormed : mappings.WellFormed)
    (isRun : IsRun InjectionStep mappings run) :
    (∀ entry ∈ run, entry.2.WellFormed) ↔
      AllSteps FitsAddressMap mappings run :=
  isRun.forall_iff_allSteps
    (fun _ _ _ before step => step.wellFormed_iff before) wellFormed

/-- The table with a single mapping. -/
def MappingTable.single (mapping : Mapping) : MappingTable :=
  (∅ : MappingTable).insert mapping.startAddress mapping

theorem MappingTable.getElem?_single (mapping : Mapping) (key : UInt64) :
    (MappingTable.single mapping)[key]? =
      if mapping.startAddress = key then some mapping else none := by
  rw [MappingTable.single, MappingTable.getElem?_insert,
    Std.ExtTreeMap.getElem?_empty]

/-- What holds of the one mapping holds of every entry. -/
theorem MappingTable.forall_single
    {mapping : Mapping}
    {property : UInt64 → Mapping → Prop}
    (holds : property mapping.startAddress mapping)
    (key : UInt64)
    (other : Mapping)
    (found : (MappingTable.single mapping)[key]? = some other) :
    property key other := by
  rw [MappingTable.getElem?_single] at found
  split at found
  · next here =>
    obtain rfl := Option.some.inj found
    exact here ▸ holds
  · contradiction

theorem MappingTable.wellFormed_single
    {mapping : Mapping}
    (ordered : mapping.startAddress < mapping.endAddress) :
    (MappingTable.single mapping).WellFormed := by
  have keyed := @MappingTable.forall_single mapping
    (fun key other => other.startAddress = key) rfl
  refine ⟨keyed, MappingTable.forall_single ordered,
    fun first second different => ?_⟩
  rw [Function.onFun_apply, Set.disjoint_left]
  rintro position ⟨one, oneFound, _⟩ ⟨two, twoFound, _⟩
  apply different
  rw [MappingTable.getElem?_single] at oneFound twoFound
  split at oneFound
  · split at twoFound
    · next here there => exact here.symm.trans there
    · contradiction
  · contradiction

/-- A mapping with an unaligned start, injected into within its first page, is
left with an end below its start. -/
theorem exists_injection_not_wellFormed :
    ¬∀ (mappings : MappingTable) (run : List (Injection × MappingTable)),
      mappings.WellFormed → IsRun InjectionStep mappings run →
        ∀ entry ∈ run, entry.2.WellFormed := by
  intro always
  let mappings := MappingTable.single
    ⟨0x1800, 0x3000, 0, .readWrite, none, []⟩
  obtain ⟨_, after, succeeded, inverted⟩ : ∃ value after,
      addDataToMapping [7] 0x1900 defaultPageSize mappings = .ok value after ∧
        (after[(0x1800 : UInt64)]?.map fun mapping =>
          decide (mapping.endAddress = 0x1000)) == some true :=
    exists_ok_of_check (by decide +kernel)
  have isRun : IsRun InjectionStep mappings [(⟨[7], 0x1900⟩, after)] :=
    ⟨⟨by decide, succeeded⟩, trivial⟩
  have stays := always mappings _
    (MappingTable.wellFormed_single (by decide)) isRun _ List.mem_cons_self
  rw [beq_iff_eq, Option.map_eq_some_iff] at inverted
  obtain ⟨mapping, found, endsBelow⟩ := inverted
  have ordered := stays.nonempty 0x1800 mapping found
  rw [stays.keyed 0x1800 mapping found, of_decide_eq_true endsBelow] at ordered
  exact absurd ordered (by decide)

/-- A file mapping with room for a stack. -/
def sampleFileMapping : Mapping where
  startAddress := 0x1000
  endAddress := 0x5000
  offset := 0
  permissions := ⟨true, false, true⟩
  filename := some "/lib/libc.so"
  data := []

/-- A stack inside a file mapping is a run to which the equivalence applies. -/
theorem wellFormed_iff_fitsAddressMap_sample :
    ∃ after,
      let mappings := MappingTable.single sampleFileMapping
      let run := [((⟨[1, 2, 3], 0x3200⟩ : Injection), after)]
      IsRun InjectionStep mappings run ∧
        ((∀ entry ∈ run, entry.2.WellFormed) ↔
          AllSteps FitsAddressMap mappings run) := by
  obtain ⟨_, after, succeeded⟩ : ∃ value after,
      addDataToMapping [1, 2, 3] 0x3200 defaultPageSize
        (MappingTable.single sampleFileMapping) = .ok value after :=
    exists_ok_of_succeeds (by decide +kernel)
  have isRun : IsRun InjectionStep (MappingTable.single sampleFileMapping)
      [(⟨[1, 2, 3], 0x3200⟩, after)] :=
    ⟨⟨by decide, succeeded⟩, trivial⟩
  exact ⟨after, isRun, wellFormed_iff_fitsAddressMap _ _
    (MappingTable.wellFormed_single (by decide)) isRun⟩

/-! ## When no mapping carries more bytes than it spans -/

/-- No mapping carries more bytes than it has addresses. -/
def MappingTable.DataWithin (mappings : MappingTable) : Prop :=
  ∀ (key : UInt64) (mapping : Mapping), mappings[key]? = some mapping →
    mapping.data.length ≤
      mapping.endAddress.toNat - mapping.startAddress.toNat

/-- An injection keeps data within its mapping when the first mapping that
contains the address reaches to the end of the pages of the blob and, if it is
cut, is not cut below the end of the bytes it already carries. -/
def KeepsDataWithin (mappings : MappingTable) (injection : Injection) : Prop :=
  ∀ (key : UInt64) (mapping : Mapping),
    containingEntry mappings injection.address = some (key, mapping) →
      roundUp 4096 (injection.address.toNat + injection.data.length) ≤
          mapping.endAddress.toNat ∧
        (key.toNat ≠ roundDown 4096 injection.address.toNat →
          mapping.data.length ≤ roundDown 4096 injection.address.toNat -
            mapping.startAddress.toNat)

/-- The injected bytes reach from the page of the address to the page boundary
after the blob. -/
theorem pageStart_add_length_injectedBytes (data : List UInt8) (address : UInt64) :
    roundDown 4096 address.toNat +
        (injectedBytes defaultPageSize data address).length =
      roundUp 4096 (address.toNat + data.length) := by
  rw [← toNat_pageStart_default]
  exact injectedChunk_end defaultPageSize data address

/-- One injection keeps all data within its mappings exactly when it meets the
condition. -/
theorem InjectionStep.dataWithin_iff
    {before after : MappingTable}
    {injection : Injection}
    (within : before.DataWithin)
    (step : InjectionStep before injection after) :
    after.DataWithin ↔ KeepsDataWithin before injection := by
  have span := pageStart_add_length_injectedBytes injection.data injection.address
  have boundaryValue := toNat_pageStart_default injection.address
  cases step.injected with
  | split key existing chosen shiftable result =>
      have bounds := Mapping.contains_iff.mp (contains_of_containingEntry chosen)
      have boundaryLe := roundDown_le 4096 injection.address.toNat
      constructor
      · intro stays key' mapping chosenAgain
        rw [chosen] at chosenAgain
        cases chosenAgain
        have upper := stays (pageStart defaultPageSize injection.address) _
          (by rw [result, if_pos rfl])
        simp only [Mapping.upperPart] at upper
        refine ⟨by omega, fun different => ?_⟩
        have apart : pageStart defaultPageSize injection.address ≠ key := by
          rintro rfl
          exact different boundaryValue
        have lower := stays key _ (by rw [result, if_neg apart, if_pos rfl])
        simp only [Mapping.lowerPart] at lower
        omega
      · intro keeps other mapping looked
        obtain ⟨reaches, uncut⟩ := keeps key existing chosen
        rw [result] at looked
        split at looked
        · obtain rfl := Option.some.inj looked
          simp only [Mapping.upperPart]
          omega
        · next apart =>
          split at looked
          · next there =>
            subst there
            obtain rfl := Option.some.inj looked
            have different : key.toNat ≠
                roundDown 4096 injection.address.toNat := by
              rw [← boundaryValue]
              exact fun equal => apart (UInt64.toNat_inj.mp equal.symm)
            have kept := uncut different
            simp only [Mapping.lowerPart]
            omega
          · exact within other mapping looked
  | synthetic endAddress uncovered endValue ordered result =>
      have endsAt : endAddress.toNat = roundUp 4096
          (injection.address.toNat + injection.data.length) := endValue
      constructor
      · intro _ key mapping chosen
        rw [uncovered] at chosen
        contradiction
      · intro _ other mapping looked
        rw [result] at looked
        split at looked
        · obtain rfl := Option.some.inj looked
          simp only [Mapping.synthetic]
          omega
        · exact within other mapping looked

/-- Along any sequence of injections into a table without data, no mapping of a
table reached carries more bytes than it spans exactly when every step meets
the condition. -/
theorem dataWithin_iff_keepsDataWithin
    (mappings : MappingTable)
    (run : List (Injection × MappingTable))
    (dataless : ∀ (key : UInt64) (mapping : Mapping),
      mappings[key]? = some mapping → mapping.data = [])
    (isRun : IsRun InjectionStep mappings run) :
    (∀ entry ∈ run, entry.2.DataWithin) ↔
      AllSteps KeepsDataWithin mappings run := by
  have within : mappings.DataWithin := by
    intro key mapping found
    rw [dataless key mapping found]
    exact Nat.zero_le _
  exact isRun.forall_iff_allSteps
    (fun _ _ _ before step => step.dataWithin_iff before) within

/-- The bounds of every mapping are page boundaries. -/
def MappingTable.PageAligned (mappings : MappingTable) : Prop :=
  ∀ (key : UInt64) (mapping : Mapping), mappings[key]? = some mapping →
    4096 ∣ mapping.startAddress.toNat ∧ 4096 ∣ mapping.endAddress.toNat

theorem MappingTable.pageAligned_single
    {mapping : Mapping}
    (startAligned : 4096 ∣ mapping.startAddress.toNat)
    (endAligned : 4096 ∣ mapping.endAddress.toNat) :
    (MappingTable.single mapping).PageAligned :=
  MappingTable.forall_single ⟨startAligned, endAligned⟩

/-- A blob that starts in the last byte of a one-page mapping gives the mapping
two pages of data. -/
theorem exists_injection_not_dataWithin :
    ¬∀ (mappings : MappingTable) (run : List (Injection × MappingTable)),
      mappings.WellFormed → mappings.PageAligned →
        (∀ (key : UInt64) (mapping : Mapping),
          mappings[key]? = some mapping → mapping.data = []) →
          IsRun InjectionStep mappings run →
            ∀ entry ∈ run, entry.2.DataWithin := by
  intro always
  let mapping : Mapping := ⟨0x1000, 0x2000, 0, .readWrite, none, []⟩
  obtain ⟨_, after, succeeded, overfull⟩ : ∃ value after,
      addDataToMapping [1, 2] 0x1fff defaultPageSize
          (MappingTable.single mapping) = .ok value after ∧
        (after[(0x1000 : UInt64)]?.map fun mapping =>
          decide (mapping.data.length = 0x2000 ∧
            mapping.startAddress = 0x1000 ∧
            mapping.endAddress = 0x2000)) == some true :=
    exists_ok_of_check (by decide +kernel)
  have isRun : IsRun InjectionStep (MappingTable.single mapping)
      [(⟨[1, 2], 0x1fff⟩, after)] :=
    ⟨⟨by decide, succeeded⟩, trivial⟩
  have only : ∀ (key : UInt64) (other : Mapping),
      (MappingTable.single mapping)[key]? = some other → other = mapping := by
    intro key other found
    rw [MappingTable.getElem?_single] at found
    split at found
    · exact (Option.some.inj found).symm
    · contradiction
  have stays := always (MappingTable.single mapping) _
    (MappingTable.wellFormed_single (by decide))
    (fun key other found => by rw [only key other found]; decide)
    (fun key other found => by rw [only key other found])
    isRun _ List.mem_cons_self
  rw [beq_iff_eq, Option.map_eq_some_iff] at overfull
  obtain ⟨upper, found, values⟩ := overfull
  obtain ⟨length, startsAt, endsAt⟩ := of_decide_eq_true values
  have bound := stays 0x1000 upper found
  rw [length, startsAt, endsAt] at bound
  exact absurd bound (by decide)

/-- A stack inside a file mapping is a run to which the equivalence applies. -/
theorem dataWithin_iff_keepsDataWithin_sample :
    ∃ after,
      let mappings := MappingTable.single sampleFileMapping
      let run := [((⟨[1, 2, 3], 0x3200⟩ : Injection), after)]
      IsRun InjectionStep mappings run ∧
        ((∀ entry ∈ run, entry.2.DataWithin) ↔
          AllSteps KeepsDataWithin mappings run) := by
  obtain ⟨_, after, succeeded⟩ : ∃ value after,
      addDataToMapping [1, 2, 3] 0x3200 defaultPageSize
        (MappingTable.single sampleFileMapping) = .ok value after :=
    exists_ok_of_succeeds (by decide +kernel)
  have isRun : IsRun InjectionStep (MappingTable.single sampleFileMapping)
      [(⟨[1, 2, 3], 0x3200⟩, after)] :=
    ⟨⟨by decide, succeeded⟩, trivial⟩
  refine ⟨after, isRun, dataWithin_iff_keepsDataWithin _ _ ?_ isRun⟩
  intro key mapping found
  rw [MappingTable.getElem?_single] at found
  split at found
  · obtain rfl := Option.some.inj found
    rfl
  · contradiction

end Md2Core
