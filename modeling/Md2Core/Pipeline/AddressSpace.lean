import Md2Core.Augment.Placement
import Md2Core.CoreWriter.Decoding
import Md2Core.Foundation.Precedence
import Md2Core.Pipeline.Memory

/-!
# The address space across an augmentation

A table of disjoint page-aligned mappings says what every address means. A run of
injections on disjoint pages keeps all of it: the mappings are cut, but each address
has the same permissions, file and file position as before. The pages of blobs that
lie in no mapping become anonymous memory, and no other address becomes mapped.
-/

namespace Md2Core

open Foundation

/-- A table of disjoint mappings with page boundaries, whose files are mapped from
page boundaries on. -/
structure MappingTable.AddressSpace (mappings : MappingTable) : Prop where
  wellFormed : mappings.WellFormed
  aligned : mappings.PageAligned
  offsets : ∀ (key : UInt64) (mapping : Mapping), mappings[key]? = some mapping →
    mapping.filename.isSome → 4096 ∣ mapping.offset.toNat

/-- Some mapping of the table contains an address. -/
def MappingTable.Maps (mappings : MappingTable) (address : UInt64) : Prop :=
  ∃ (key : UInt64) (mapping : Mapping), mappings[key]? = some mapping ∧
    mapping.contains address = true

theorem MappingTable.maps_iff
    {mappings : MappingTable}
    {address : UInt64} :
    mappings.Maps address ↔ ∃ meaning, mappings.Means address meaning := by
  constructor
  · rintro ⟨key, mapping, found, inside⟩
    exact ⟨_, key, mapping, found, inside, rfl⟩
  · rintro ⟨_, key, mapping, found, inside, _⟩
    exact ⟨key, mapping, found, inside⟩

/-- Mappings that end before the next one starts make an address space. -/
theorem MappingTable.addressSpace_of_values
    {mappings : MappingTable}
    (keyed : ∀ (key : UInt64) (mapping : Mapping),
      mappings[key]? = some mapping → mapping.startAddress = key)
    (each : ∀ mapping ∈ mappings.values, mapping.startAddress < mapping.endAddress ∧
      4096 ∣ mapping.startAddress.toNat ∧ 4096 ∣ mapping.endAddress.toNat ∧
      4096 ∣ mapping.offset.toNat)
    (ordered : mappings.values.Pairwise fun first second =>
      first.endAddress ≤ second.startAddress) :
    mappings.AddressSpace := by
  have member : ∀ {key : UInt64} {mapping : Mapping},
      mappings[key]? = some mapping → mapping ∈ mappings.values :=
    fun found => MappingTable.mem_values.mpr ⟨_, found⟩
  have apart : mappings.values.Pairwise fun first second =>
      Disjoint first.range second.range := by
    refine ordered.imp fun {first second} before => Set.disjoint_left.mpr ?_
    intro position inFirst inSecond
    have below := UInt64.le_iff_toNat_le.mp before
    exact absurd inFirst.2 (by have above := inSecond.1; omega)
  have symmetric : Std.Symm fun first second : Mapping =>
      Disjoint first.range second.range := ⟨fun _ _ disjoint => disjoint.symm⟩
  refine ⟨⟨keyed, fun key mapping found => (each mapping (member found)).1, ?_⟩,
    fun key mapping found => ?_, fun key mapping found _ => ?_⟩
  · refine separate_storedRegions_iff.mpr ?_
    intro firstKey secondKey first second different firstFound secondFound
    apply List.Pairwise.forall apart (member firstFound) (member secondFound)
    rintro rfl
    exact different ((keyed firstKey first firstFound).symm.trans
      (keyed secondKey first secondFound))
  · exact ⟨(each mapping (member found)).2.1, (each mapping (member found)).2.2.1⟩
  · exact (each mapping (member found)).2.2.2

/-- What an address of a synthetic mapping means. -/
def Meaning.anonymous : Meaning := ⟨.readWrite, none, none⟩

/-- An address lies on a page of a blob. -/
def Injection.OnPages (injection : Injection) (position : UInt64) : Prop :=
  position.toNat / 4096 ∈ injection.pages

theorem Injection.onPages_iff
    {injection : Injection}
    {position : UInt64}
    (nonempty : injection.data ≠ []) :
    injection.OnPages position ↔
      roundDown 4096 injection.address.toNat ≤ position.toNat ∧
        position.toNat < roundUp 4096
          (injection.address.toNat + injection.data.length) :=
  div_mem_pagesOf_iff (by decide) (List.length_pos_iff.mpr nonempty) _

/-- A blob lies in a mapping of the table, or on pages of which no address is
mapped. -/
def Lands (mappings : MappingTable) (injection : Injection) : Prop :=
  mappings.Maps injection.address ∨
    ∀ position, injection.OnPages position → ¬mappings.Maps position

/-- Whether blobs have pages in a range is decided by their ranges. -/
theorem off_of_ranges
    {captures : List Injection}
    {ranges : List (Nat × Nat)}
    (evaluated : captureRanges captures = ranges)
    (positive : ∀ range ∈ ranges, 0 < range.2)
    {first last : Nat}
    (beside : ∀ range ∈ ranges, last ≤ roundDown 4096 range.1 ∨
      roundUp 4096 (range.1 + range.2) ≤ first) :
    ∀ capture ∈ captures, ∀ position, capture.OnPages position →
      ¬(first ≤ position.toNat ∧ position.toNat < last) := by
  rw [← evaluated, captureRanges, List.forall_mem_map] at positive beside
  intro capture member position onPages inside
  have span := (Injection.onPages_iff
    (List.length_pos_iff.mp (positive capture member))).mp onPages
  have apart := beside capture member
  dsimp only at apart
  omega

/-- Whether blobs land beside all mappings is decided by their ranges. -/
theorem lands_of_ranges
    {mappings : MappingTable}
    {captures : List Injection}
    {ranges : List (Nat × Nat)}
    (evaluated : captureRanges captures = ranges)
    (positive : ∀ range ∈ ranges, 0 < range.2)
    (beside : ∀ range ∈ ranges, ∀ mapping ∈ mappings.values,
      mapping.endAddress.toNat ≤ roundDown 4096 range.1 ∨
        roundUp 4096 (range.1 + range.2) ≤ mapping.startAddress.toNat) :
    ∀ capture ∈ captures, Lands mappings capture := by
  intro capture member
  right
  rintro position onPages ⟨key, mapping, found, inside⟩
  have listed := MappingTable.mem_values.mpr ⟨key, found⟩
  exact off_of_ranges evaluated positive
    (fun range inRanges => beside range inRanges mapping listed) capture member position
    onPages (Mapping.contains_iff.mp inside)

section Step

variable {before after : MappingTable} {injection : Injection}

/-- A blob that is put into a mapping changes what no address means. -/
theorem addressSpace_of_split
    (space : before.AddressSpace)
    {key boundary address : UInt64}
    {existing : Mapping}
    {data : List UInt8}
    (chosen : containingEntry before address = some (key, existing))
    (boundaryAligned : 4096 ∣ boundary.toNat)
    (boundaryLe : boundary.toNat ≤ address.toNat)
    (startLe : existing.startAddress.toNat ≤ boundary.toNat)
    (shifted : existing.filename.isSome →
      (existing.offsetAt key boundary).toNat =
        existing.offset.toNat + (boundary.toNat - key.toNat))
    (result : ∀ other : UInt64, after[other]? =
      if boundary = other then some (existing.upperPart key boundary data)
      else if key = other then some (existing.lowerPart boundary)
      else before[other]?) :
    after.AddressSpace := by
  have found := found_of_containingEntry chosen
  have bounds := space.aligned key existing found
  refine ⟨wellFormed_of_split space.wellFormed chosen boundaryLe startLe result, ?_, ?_⟩
  · apply forall_entries_of_split space.aligned _ _ result
    · exact ⟨boundaryAligned, bounds.2⟩
    · exact fun _ => ⟨bounds.1, boundaryAligned⟩
  · apply forall_entries_of_split space.offsets _ _ result
    · intro backed
      have keyAligned := bounds.1
      rw [space.wellFormed.keyed key existing found] at keyAligned
      change 4096 ∣ (existing.offsetAt key boundary).toNat
      rw [shifted backed]
      exact Nat.dvd_add (space.offsets key existing found backed)
        (Nat.dvd_sub boundaryAligned keyAligned)
    · exact fun _ backed => space.offsets key existing found backed

/-- The synthetic mapping of a blob has the addresses on its pages. -/
theorem contains_synthetic_iff
    (nonempty : injection.data ≠ [])
    {endAddress : UInt64}
    {data : List UInt8}
    (endValue : endAddress.toNat =
      roundUp 4096 (injection.address.toNat + injection.data.length))
    {position : UInt64} :
    (Mapping.synthetic injection.key endAddress data).contains position = true ↔
      injection.OnPages position := by
  have startValue : injection.key.toNat = roundDown 4096 injection.address.toNat :=
    toNat_pageStart_default injection.address
  rw [Mapping.contains_iff, Injection.onPages_iff nonempty, ← startValue, ← endValue]
  rfl

/-- No mapping starts at an address that is not mapped. -/
theorem getElem?_eq_none_of_not_maps
    (wellFormed : before.WellFormed)
    {key : UInt64}
    (free : ¬before.Maps key) :
    before[key]? = none := by
  cases there : before[key]? with
  | none => rfl
  | some mapping =>
      have start := wellFormed.keyed _ _ there
      have ordered := wellFormed.built.ordered _ _ there
      refine absurd ⟨_, mapping, there, Mapping.contains_iff.mpr ⟨?_, ?_⟩⟩ free
      · rw [start]
      · rw [← start]
        exact ordered

/-- A blob whose pages are unmapped makes them anonymous memory. -/
theorem addressSpace_of_synthetic
    (space : before.AddressSpace)
    (nonempty : injection.data ≠ [])
    (free : ∀ position, injection.OnPages position → ¬before.Maps position)
    {endAddress : UInt64}
    {data : List UInt8}
    (endValue : endAddress.toNat =
      roundUp 4096 (injection.address.toNat + injection.data.length))
    (ordered : injection.key.toNat < endAddress.toNat)
    (result : ∀ other : UInt64, after[other]? =
      if injection.key = other then
        some (.synthetic injection.key endAddress data)
      else before[other]?) :
    after.AddressSpace ∧ ∀ (position : UInt64) (meaning : Meaning),
      after.Means position meaning ↔ before.Means position meaning ∨
        meaning = .anonymous ∧ injection.OnPages position := by
  have startValue : injection.key.toNat = roundDown 4096 injection.address.toNat :=
    toNat_pageStart_default injection.address
  have inside : ∀ position, (Mapping.synthetic injection.key endAddress
      data).contains position = true ↔ injection.OnPages position :=
    fun _ => contains_synthetic_iff nonempty endValue
  have unmapped : before[injection.key]? = none := by
    apply getElem?_eq_none_of_not_maps space.wellFormed
    apply free
    exact (inside _).mp (Mapping.contains_iff.mpr ⟨Nat.le_refl _, ordered⟩)
  refine ⟨⟨?_, ?_, ?_⟩, ?_⟩
  · refine (@wellFormed_insert_iff before after (.synthetic injection.key endAddress
      data) space.wellFormed ordered result).mpr ?_
    intro key other found _
    rw [Set.disjoint_left]
    intro position inSynthetic inOther
    have small : position < 2 ^ 64 :=
      Nat.lt_trans inOther.2 other.endAddress.toNat_lt
    have value : (UInt64.ofNat position).toNat = position :=
      UInt64.toNat_ofNat_of_lt' small
    refine free (UInt64.ofNat position) ((inside _).mp ?_) ⟨key, other, found, ?_⟩
    · rw [Mapping.contains_iff, value]
      exact inSynthetic
    · rw [Mapping.contains_iff, value]
      exact inOther
  · apply forall_entries_of_insert space.aligned _ result
    refine ⟨?_, ?_⟩
    · exact startValue ▸ dvd_roundDown 4096 _
    · exact endValue ▸ dvd_roundUp (by decide) _
  · apply forall_entries_of_insert space.offsets _ result
    exact fun backed => absurd backed (by simp [Mapping.synthetic])
  · intro position meaning
    constructor
    · rintro ⟨key, mapping, looked, contains, rfl⟩
      rw [result] at looked
      split at looked
      · obtain rfl := Option.some.inj looked
        exact .inr ⟨rfl, (inside _).mp contains⟩
      · exact .inl ⟨key, mapping, looked, contains, rfl⟩
    · rintro (⟨key, mapping, looked, contains, rfl⟩ | ⟨rfl, onPages⟩)
      · refine ⟨key, mapping, ?_, contains, rfl⟩
        rw [result, if_neg]
        · exact looked
        · rintro rfl
          rw [unmapped] at looked
          contradiction
      · exact ⟨injection.key, _, by rw [result, if_pos rfl], (inside _).mpr onPages, rfl⟩

/-- An injection of a blob that lands. -/
theorem InjectionStep.addressSpace
    (space : before.AddressSpace)
    (lands : Lands before injection)
    (step : InjectionStep before injection after) :
    after.AddressSpace ∧ ∀ (position : UInt64) (meaning : Meaning),
      after.Means position meaning ↔ before.Means position meaning ∨
        meaning = .anonymous ∧ ¬before.Maps injection.address ∧
          injection.OnPages position := by
  have boundaryLe := pageStart_default_le injection.address
  have boundaryAligned : 4096 ∣ (pageStart defaultPageSize injection.address).toNat := by
    rw [toNat_pageStart_default]
    exact dvd_roundDown 4096 _
  cases step.injected with
  | split key existing chosen shiftable result =>
      have found := found_of_containingEntry chosen
      have inside := contains_of_containingEntry chosen
      have startLe : existing.startAddress.toNat ≤
          (pageStart defaultPageSize injection.address).toNat := by
        rw [toNat_pageStart_default]
        exact le_roundDown_of_dvd (space.aligned key existing found).1
          (Mapping.contains_iff.mp inside).1
      have shifted := fun backed => (shiftable backed).2
      refine ⟨addressSpace_of_split space chosen boundaryAligned boundaryLe startLe
        shifted result, fun position meaning => ?_⟩
      rw [means_split_iff space.wellFormed chosen boundaryLe startLe shifted result]
      exact (or_iff_left fun fresh => fresh.2.1 ⟨key, existing, found, inside⟩).symm
  | synthetic endAddress uncovered endValue ordered result =>
      have outside : ¬before.Maps injection.address := by
        rintro ⟨key, mapping, found, inside⟩
        rw [containingEntry_eq_none_iff.mp uncovered key mapping found] at inside
        contradiction
      obtain ⟨stays, means⟩ := addressSpace_of_synthetic space step.1
        (lands.resolve_left outside) endValue ordered result
      refine ⟨stays, fun position meaning => ?_⟩
      rw [means]
      simp only [outside, not_false_eq_true, true_and]

end Step

/-- A blob on other pages than one that was injected lands after it as it did
before. -/
theorem Lands.of_step
    {before next : MappingTable}
    {first other : Injection}
    (means : ∀ (position : UInt64) (meaning : Meaning),
      next.Means position meaning ↔ before.Means position meaning ∨
        meaning = .anonymous ∧ ¬before.Maps first.address ∧ first.OnPages position)
    (apart : Disjoint first.pages other.pages)
    (nonempty : other.data ≠ [])
    (lands : Lands before other) :
    (next.Maps other.address ↔ before.Maps other.address) ∧ Lands next other := by
  have stays : ∀ position, other.OnPages position →
      (next.Maps position ↔ before.Maps position) := by
    intro position onPages
    simp only [MappingTable.maps_iff, means]
    constructor
    · rintro ⟨meaning, known | ⟨_, _, onFirst⟩⟩
      · exact ⟨meaning, known⟩
      · exact absurd onPages (Set.disjoint_left.mp apart onFirst)
    · rintro ⟨meaning, known⟩
      exact ⟨meaning, .inl known⟩
  have onOwn : other.OnPages other.address := by
    rw [Injection.onPages_iff nonempty]
    have positive := List.length_pos_iff.mpr nonempty
    have above := le_roundUp 4096 (other.address.toNat + other.data.length)
    exact ⟨roundDown_le 4096 _, by omega⟩
  refine ⟨stays _ onOwn, lands.imp (stays _ onOwn).mpr ?_⟩
  intro free position onPages mapped
  exact free position onPages ((stays position onPages).mp mapped)

/-- A run of injections on disjoint pages, each of which lands in the table at its
start. -/
theorem addressSpace_of_runsTo
    {before after : MappingTable}
    {injections : List Injection}
    (runs : RunsTo InjectionStep before injections after)
    (space : before.AddressSpace)
    (apart : OnDisjointPages injections)
    (lands : ∀ injection ∈ injections, Lands before injection) :
    after.AddressSpace ∧ ∀ (position : UInt64) (meaning : Meaning),
      after.Means position meaning ↔ before.Means position meaning ∨
        meaning = .anonymous ∧ ∃ injection ∈ injections,
          ¬before.Maps injection.address ∧ injection.OnPages position := by
  induction injections generalizing before with
  | nil =>
      obtain rfl : before = after := runs
      exact ⟨space, fun position meaning => by simp⟩
  | cons first rest inductionHypothesis =>
      have nonempty := data_ne_nil_of_runsTo runs
      obtain ⟨next, step, others⟩ := runs
      obtain ⟨firstApart, restApart⟩ := List.pairwise_cons.mp apart
      obtain ⟨firstLands, restLand⟩ := List.forall_mem_cons.mp lands
      obtain ⟨nextSpace, means⟩ := step.addressSpace space firstLands
      have carried : ∀ other ∈ rest,
          (next.Maps other.address ↔ before.Maps other.address) ∧ Lands next other :=
        fun other member => Lands.of_step means (firstApart other member)
          (nonempty other (List.mem_cons_of_mem first member)) (restLand other member)
      obtain ⟨lastSpace, lastMeans⟩ := inductionHypothesis others nextSpace restApart
        fun other member => (carried other member).2
      refine ⟨lastSpace, fun position meaning => ?_⟩
      rw [lastMeans, means, or_assoc, ← and_or_left, List.exists_mem_cons_iff]
      refine or_congr_right (and_congr_right fun _ => or_congr_right ?_)
      refine exists_congr fun other => and_congr_right fun member => ?_
      rw [(carried other member).1]

/-- The files that are named after a run were named before. -/
theorem filename_of_runsTo
    {before after : MappingTable}
    {injections : List Injection}
    (runs : RunsTo InjectionStep before injections after)
    {named : String → Prop}
    (known : ∀ (key : UInt64) (mapping : Mapping), before[key]? = some mapping →
      ∀ filename, mapping.filename = some filename → named filename) :
    ∀ (key : UInt64) (mapping : Mapping), after[key]? = some mapping →
      ∀ filename, mapping.filename = some filename → named filename := by
  refine @RunsTo.preserves _ _ InjectionStep (fun mappings => ∀ (key : UInt64)
    (mapping : Mapping), mappings[key]? = some mapping →
      ∀ filename, mapping.filename = some filename → named filename) ?_ _ _ _ known runs
  intro state injection next holds step
  cases step.injected with
  | split key existing chosen _ result =>
      have existingKnown := holds key existing (found_of_containingEntry chosen)
      apply forall_entries_of_split holds _ _ result
      · exact existingKnown
      · exact fun _ => existingKnown
  | synthetic endAddress _ _ _ result =>
      apply forall_entries_of_insert holds _ result
      exact fun filename absent => absurd absent (by simp [Mapping.synthetic])

/-! ## What a core file says about an address -/

/-- The file that a table of files gives an address, and the position in it. -/
def fileAt (files : List FileEntry) (address : Nat) : Option (String × Nat) :=
  files.findSome? fun file =>
    if file.startAddress ≤ address ∧ address < file.endAddress then
      some (file.name, 4096 * file.pageOffset + (address - file.startAddress))
    else
      none

/-- The permission flags that the ranges of memory give an address. -/
def flagsAt (memory : List MemoryRange) (address : Nat) : Option Nat :=
  memory.findSome? fun range =>
    if range.start ≤ address ∧ address < range.start + range.size then
      some range.flags
    else
      none

section Lookup

variable {mappings : MappingTable} {address : UInt64}

/-- Rows made from disjoint mappings are found by the mapping that contains the
address. -/
theorem findSome?_rows_iff
    {Row Value : Type*}
    {view : Mapping → Option Row}
    {describe : Row → Option Value}
    (wellFormed : mappings.WellFormed)
    (within : ∀ mapping value, (view mapping).bind describe = some value →
      mapping.contains address = true)
    {value : Value} :
    (mappings.values.filterMap view).findSome? describe = some value ↔
      ∃ (key : UInt64) (mapping : Mapping), mappings[key]? = some mapping ∧
        (view mapping).bind describe = some value := by
  constructor
  · intro found
    obtain ⟨row, member, described⟩ := List.exists_of_findSome?_eq_some found
    obtain ⟨mapping, inTable, viewed⟩ := List.mem_filterMap.mp member
    obtain ⟨key, looked⟩ := MappingTable.mem_values.mp inTable
    exact ⟨key, mapping, looked, by rw [viewed, Option.bind_some, described]⟩
  · rintro ⟨key, mapping, looked, described⟩
    obtain ⟨row, viewed, rowDescribed⟩ := Option.bind_eq_some_iff.mp described
    apply findSome?_eq_some_of_agree (List.mem_filterMap.mpr
      ⟨mapping, MappingTable.mem_values.mpr ⟨key, looked⟩, viewed⟩) rowDescribed
    intro other member another otherDescribed
    obtain ⟨candidate, inTable, candidateViewed⟩ := List.mem_filterMap.mp member
    obtain ⟨otherKey, otherLooked⟩ := MappingTable.mem_values.mp inTable
    have otherBound : (view candidate).bind describe = some another := by
      rw [candidateViewed, Option.bind_some, otherDescribed]
    obtain rfl := MappingTable.contains_unique wellFormed.disjoint otherLooked looked
      (within candidate another otherBound) (within mapping value described)
    rw [looked] at otherLooked
    obtain rfl := Option.some.inj otherLooked
    rw [described] at otherBound
    exact (Option.some.inj otherBound).symm

/-- The table of files gives every address its file and file position. -/
theorem fileAt_fileEntries_iff
    (space : mappings.AddressSpace)
    {name : String}
    {position : Nat} :
    fileAt (fileEntries mappings) address.toNat = some (name, position) ↔
      ∃ permissions, mappings.Means address
        ⟨permissions, some name, some position⟩ := by
  have described : ∀ (mapping : Mapping) (value : String × Nat),
      (mapping.fileEntry.bind fun file : FileEntry =>
        if file.startAddress ≤ address.toNat ∧ address.toNat < file.endAddress then
          some (file.name, 4096 * file.pageOffset + (address.toNat - file.startAddress))
        else none) = some value ↔
      mapping.contains address = true ∧ mapping.filename = some value.1 ∧
        4096 * (mapping.offset.toNat / 4096) +
          (address.toNat - mapping.startAddress.toNat) = value.2 := by
    rintro mapping ⟨name, position⟩
    unfold Mapping.fileEntry
    cases mapping.filename with
    | none => simp
    | some filename =>
        simp only [Option.map_some, Option.bind_some, Option.ite_none_right_eq_some,
          Option.some.injEq, Prod.mk.injEq, Mapping.contains_iff]
  unfold fileAt fileEntries
  rw [findSome?_rows_iff space.wellFormed fun mapping value found =>
    ((described mapping value).mp found).1]
  simp only [described]
  constructor
  · rintro ⟨key, mapping, found, inside, named, rfl⟩
    have whole := Nat.mul_div_cancel' (space.offsets key mapping found (by rw [named]; rfl))
    refine ⟨mapping.permissions, key, mapping, found, inside, ?_⟩
    simp only [Mapping.meaningAt, named, Option.map_some, whole]
  · rintro ⟨permissions, key, mapping, found, inside, meaning⟩
    simp only [Mapping.meaningAt, Meaning.mk.injEq] at meaning
    obtain ⟨_, named, positioned⟩ := meaning
    have whole := Nat.mul_div_cancel' (space.offsets key mapping found (by rw [named]; rfl))
    refine ⟨key, mapping, found, inside, named, ?_⟩
    rw [named, Option.map_some, Option.some.injEq] at positioned
    rw [whole, positioned]

/-- The ranges of memory give every address its permission flags. -/
theorem flagsAt_memory_iff
    (wellFormed : mappings.WellFormed)
    {flags : Nat} :
    flagsAt (mappings.values.map Mapping.memoryRange) address.toNat = some flags ↔
      ∃ meaning, mappings.Means address meaning ∧
        permissionFlags meaning.permissions = flags := by
  have described : ∀ (mapping : Mapping) (value : Nat),
      (((some ∘ Mapping.memoryRange) mapping).bind fun range : MemoryRange =>
        if range.start ≤ address.toNat ∧ address.toNat < range.start + range.size then
          some range.flags
        else none) = some value ↔
      mapping.contains address = true ∧ permissionFlags mapping.permissions = value := by
    intro mapping value
    simp only [Function.comp_apply, Option.bind_some, Mapping.memoryRange,
      Option.ite_none_right_eq_some, Option.some.injEq, Mapping.contains_iff]
    apply and_congr_left
    intro _
    omega
  unfold flagsAt
  rw [← List.filterMap_eq_map, findSome?_rows_iff wellFormed fun mapping value found =>
    ((described mapping value).mp found).1]
  simp only [described]
  constructor
  · rintro ⟨key, mapping, found, inside, rfl⟩
    exact ⟨_, ⟨key, mapping, found, inside, rfl⟩, rfl⟩
  · rintro ⟨_, ⟨key, mapping, found, inside, rfl⟩, rfl⟩
    exact ⟨key, mapping, found, inside, rfl⟩

end Lookup

end Md2Core
