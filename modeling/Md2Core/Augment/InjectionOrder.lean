import Md2Core.Augment.Captures

/-!
# The order of injections

An injection changes at most two entries, which are decided by the entry that
contains its address. For blobs on disjoint pages of a table of page-aligned,
disjoint mappings, this module shows that the two orders of injecting them
leave the same table.
-/

namespace Md2Core

open Foundation

/-- Mappings are keyed by start address, page-aligned and pairwise disjoint. -/
structure MappingTable.Paged (mappings : MappingTable) : Prop where
  keyed : ∀ (key : UInt64) (mapping : Mapping),
    mappings[key]? = some mapping → mapping.startAddress = key
  aligned : mappings.PageAligned
  disjoint : Separate mappings.regions

/-- The mapping that carries a blob after its injection. -/
def Injection.carrier
    (injection : Injection) : Option (UInt64 × Mapping) → Mapping
  | some (key, existing) =>
      existing.upperPart key injection.key injection.chunk.items
  | none =>
      .synthetic injection.key
        (UInt64.ofNat (roundUp 4096
          (injection.address.toNat + injection.data.length)))
        injection.chunk.items

/-- An injection puts the carrier under its first page and cuts the mapping
that contained its address there. -/
theorem InjectionStep.getElem?_eq
    {before after : MappingTable}
    {injection : Injection}
    (step : InjectionStep before injection after)
    (other : UInt64) :
    after[other]? =
      if injection.key = other then
        some (injection.carrier (containingEntry before injection.address))
      else if (containingEntry before injection.address).map Prod.fst =
          some other then
        before[other]?.map (·.lowerPart injection.key)
      else before[other]? := by
  cases step.injected with
  | split key existing chosen shiftable result =>
      rw [result, chosen]
      change (if injection.key = other then
          some (injection.carrier (some (key, existing)))
        else if key = other then some (existing.lowerPart injection.key)
        else before[other]?) = _
      simp only [Option.map_some, Option.some.injEq]
      by_cases there : key = other
      · rw [if_pos there, if_pos there, ← there,
          found_of_containingEntry chosen, Option.map_some]
      · rw [if_neg there, if_neg there]
  | synthetic endAddress uncovered endValue ordered result =>
      have endsAt : endAddress = UInt64.ofNat (roundUp 4096
          (injection.address.toNat + injection.data.length)) := by
        rw [← UInt64.ofNat_toNat (x := endAddress), endValue]
        rfl
      rw [result, uncovered, endsAt]
      rfl

/-! ## The entry that contains an address -/

section Containing

variable {before after : MappingTable} {first second : Injection}

/-- In a table of disjoint mappings, the chosen entry is the one that contains
the address. -/
theorem containingEntry_eq_some_iff
    (disjoint : Separate before.regions)
    {address key : UInt64}
    {mapping : Mapping} :
    containingEntry before address = some (key, mapping) ↔
      before[key]? = some mapping ∧ mapping.contains address = true := by
  constructor
  · intro chosen
    exact ⟨found_of_containingEntry chosen, contains_of_containingEntry chosen⟩
  · rintro ⟨found, inside⟩
    exact containingEntry_eq_some_of_unique found inside
      fun other candidate candidateFound candidateInside =>
        MappingTable.contains_unique disjoint candidateFound found
          candidateInside inside

/-- Two tables choose the same entry when they agree on the entries that
contain the address, of which one table has at most one. -/
theorem containingEntry_congr
    (disjoint : Separate before.regions)
    {address : UInt64}
    (agree : ∀ (key : UInt64) (mapping : Mapping),
      mapping.contains address = true →
        (after[key]? = some mapping ↔ before[key]? = some mapping)) :
    containingEntry after address = containingEntry before address := by
  cases chosen : containingEntry before address with
  | none =>
      rw [containingEntry_eq_none_iff] at chosen ⊢
      intro key mapping found
      by_contra inside
      rw [Bool.not_eq_false] at inside
      have excluded := chosen key mapping ((agree key mapping inside).mp found)
      rw [inside] at excluded
      contradiction
  | some entry =>
      obtain ⟨key, mapping⟩ := entry
      have found := found_of_containingEntry chosen
      have inside := contains_of_containingEntry chosen
      refine containingEntry_eq_some_of_unique
        ((agree key mapping inside).mpr found) inside ?_
      intro other candidate candidateFound candidateInside
      exact MappingTable.contains_unique disjoint
        ((agree other candidate candidateInside).mp candidateFound) found
        candidateInside inside

/-- A page-aligned mapping that starts on the page of an address contains it
unless it is empty. -/
theorem MappingTable.PageAligned.contains_of_key
    (aligned : before.PageAligned)
    {mapping : Mapping}
    {address : UInt64}
    (found : before[first.key]? = some mapping)
    (startsAt : mapping.startAddress = first.key)
    (inside : mapping.contains address = true) :
    mapping.contains first.address = true := by
  have bounds := Mapping.contains_iff.mp inside
  have startValue : mapping.startAddress.toNat =
      roundDown 4096 first.address.toNat := by
    rw [startsAt]
    exact toNat_pageStart_default first.address
  have pageLe := roundDown_add_le_of_dvd (aligned _ _ found).2
    (Nat.lt_of_le_of_lt bounds.1 bounds.2)
  have onPage : first.address.toNat <
      roundDown 4096 first.address.toNat + 4096 :=
    lt_roundDown_add (by decide) first.address.toNat
  have unmoved : roundDown 4096 mapping.startAddress.toNat =
      mapping.startAddress.toNat :=
    Nat.le_antisymm (roundDown_le _ _)
      (le_roundDown_of_dvd (aligned _ _ found).1 (Nat.le_refl _))
  exact Mapping.contains_iff.mpr
    ⟨startValue ▸ roundDown_le _ _, by omega⟩

/-- What the carrier of a blob contains lies on a page of the blob or in the
mapping that is cut. -/
theorem Injection.contains_of_carrier
    (aligned : before.PageAligned)
    (nonempty : first.data ≠ [])
    {address : UInt64}
    (inside : (first.carrier
      (containingEntry before first.address)).contains address = true) :
    address.toNat / 4096 ∈ first.pages ∨
      ∃ entry, containingEntry before first.address = some entry ∧
        entry.2.contains address = true := by
  have bounds := Mapping.contains_iff.mp inside
  cases chosen : containingEntry before first.address with
  | none =>
      rw [chosen] at bounds
      left
      apply (Injection.covers_iff nonempty _).mp
      apply (injectedChunk_covers_iff _ _ _ _).mpr
      constructor
      · rw [← toNat_pageStart]
        exact bounds.1
      · apply Nat.lt_of_lt_of_le bounds.2
        rw [Injection.carrier, Mapping.synthetic, UInt64.toNat_ofNat']
        exact Nat.mod_le _ _
  | some entry =>
      obtain ⟨key, existing⟩ := entry
      rw [chosen] at bounds
      have found := found_of_containingEntry chosen
      have contained := Mapping.contains_iff.mp
        (contains_of_containingEntry chosen)
      have startLe := le_roundDown_of_dvd (aligned _ _ found).1 contained.1
      rw [← toNat_pageStart_default] at startLe
      exact Or.inr ⟨(key, existing), rfl, Mapping.contains_iff.mpr
        ⟨Nat.le_trans startLe bounds.1, bounds.2⟩⟩

/-- What the lower part of a cut mapping contains, the mapping contained. -/
theorem Mapping.contains_of_lowerPart
    {existing : Mapping}
    {address : UInt64}
    (containsFirst : existing.contains first.address = true)
    (inside : (existing.lowerPart first.key).contains address = true) :
    existing.contains address = true := by
  have bounds := Mapping.contains_iff.mp inside
  have contained := Mapping.contains_iff.mp containsFirst
  have boundaryLe := pageStart_default_le first.address
  apply Mapping.contains_iff.mpr
  constructor
  · exact bounds.1
  · apply Nat.lt_of_lt_of_le bounds.2
    exact Nat.le_of_lt (Nat.lt_of_le_of_lt boundaryLe contained.2)

/-- An injection does not change which entry contains an address off its pages,
when that entry is not the one it splits. -/
theorem InjectionStep.containingEntry_of_apart
    (paged : before.Paged)
    (step : InjectionStep before first after)
    {address : UInt64}
    (offPages : address.toNat / 4096 ∉ first.pages)
    (otherEntry : ∀ entry, containingEntry before first.address = some entry →
      containingEntry before address ≠ some entry) :
    containingEntry after address = containingEntry before address := by
  have untouched : ∀ (key : UInt64) (existing : Mapping),
      before[key]? = some existing → existing.contains first.address = true →
        existing.contains address = false := by
    intro key existing found containsFirst
    by_contra inside
    rw [Bool.not_eq_false] at inside
    exact otherEntry (key, existing)
      ((containingEntry_eq_some_iff paged.disjoint).mpr
        ⟨found, containsFirst⟩)
      ((containingEntry_eq_some_iff paged.disjoint).mpr ⟨found, inside⟩)
  apply containingEntry_congr paged.disjoint
  intro key mapping inside
  rw [step.getElem?_eq]
  split
  · next here =>
    subst here
    constructor
    · intro carried
      rw [← Option.some.inj carried] at inside
      rcases Injection.contains_of_carrier paged.aligned step.1 inside with
        onPage | ⟨⟨key, existing⟩, chosen, alsoInside⟩
      · exact absurd onPage offPages
      · have excluded := untouched key existing
          (found_of_containingEntry chosen) (contains_of_containingEntry chosen)
        rw [alsoInside] at excluded
        contradiction
    · intro found
      have excluded := untouched _ mapping found
        (paged.aligned.contains_of_key found (paged.keyed _ _ found) inside)
      rw [inside] at excluded
      contradiction
  · split
    · next there =>
      obtain ⟨⟨splitKey, existing⟩, chosen, rfl⟩ :=
        Option.map_eq_some_iff.mp there
      have found := found_of_containingEntry chosen
      have containsFirst := contains_of_containingEntry chosen
      have excluded := untouched splitKey existing found containsFirst
      simp only [found, Option.map_some, Option.some.injEq]
      constructor
      · rintro rfl
        rw [Mapping.contains_of_lowerPart containsFirst inside] at excluded
        contradiction
      · rintro rfl
        rw [inside] at excluded
        contradiction
    · exact Iff.rfl

/-- Above the page of the blob, the upper part of a split mapping contains what
the mapping contained. -/
theorem InjectionStep.containingEntry_of_above
    (paged : before.Paged)
    (step : InjectionStep before first after)
    {address key : UInt64}
    {existing : Mapping}
    (chosen : containingEntry before first.address = some (key, existing))
    (inside : existing.contains address = true)
    (above : first.key.toNat ≤ address.toNat) :
    containingEntry after address =
      some (first.key, first.carrier (some (key, existing))) := by
  have bounds := Mapping.contains_iff.mp inside
  refine containingEntry_eq_some_of_unique ?_
    (Mapping.contains_iff.mpr ⟨above, bounds.2⟩) ?_
  · rw [step.getElem?_eq, if_pos rfl, chosen]
  · intro other candidate candidateFound candidateInside
    by_contra different
    rw [step.getElem?_eq, if_neg (Ne.symm different), chosen] at candidateFound
    have found := found_of_containingEntry chosen
    simp only [Option.map_some, Option.some.injEq] at candidateFound
    split at candidateFound
    · next there =>
      subst there
      rw [found] at candidateFound
      obtain rfl := Option.some.inj candidateFound
      have belowBoundary := (Mapping.contains_iff.mp candidateInside).2
      simp only [Mapping.lowerPart] at belowBoundary
      omega
    · next elsewhere =>
      exact elsewhere (MappingTable.contains_unique paged.disjoint found
        candidateFound inside candidateInside)

/-- Below the page of the blob, the lower part of a split mapping contains what
the mapping contained. -/
theorem InjectionStep.containingEntry_of_below
    (paged : before.Paged)
    (step : InjectionStep before first after)
    {address key : UInt64}
    {existing : Mapping}
    (chosen : containingEntry before first.address = some (key, existing))
    (inside : existing.contains address = true)
    (below : address.toNat < first.key.toNat) :
    containingEntry after address =
      some (key, existing.lowerPart first.key) := by
  have bounds := Mapping.contains_iff.mp inside
  have found := found_of_containingEntry chosen
  have different : first.key ≠ key := by
    rintro equal
    rw [equal, ← paged.keyed _ _ found] at below
    omega
  refine containingEntry_eq_some_of_unique ?_
    (Mapping.contains_iff.mpr ⟨bounds.1, below⟩) ?_
  · rw [step.getElem?_eq, if_neg different, chosen]
    simp [found]
  · intro other candidate candidateFound candidateInside
    rw [step.getElem?_eq, chosen] at candidateFound
    simp only [Option.map_some, Option.some.injEq] at candidateFound
    split at candidateFound
    · obtain rfl := Option.some.inj candidateFound
      have aboveBoundary := (Mapping.contains_iff.mp candidateInside).1
      simp only [Injection.carrier, Mapping.upperPart] at aboveBoundary
      omega
    · split at candidateFound
      · next there => exact there.symm
      · exact MappingTable.contains_unique paged.disjoint candidateFound
          found candidateInside inside

end Containing

/-! ## Both orders give one table -/

section Order

variable {mappings afterFirst afterSecond firstThenSecond secondThenFirst :
  MappingTable} {first second : Injection}

/-- Blobs on disjoint pages begin on different pages, and neither begins on a
page of the other. -/
theorem Injection.off_pages_of_disjoint
    (secondNonempty : second.data ≠ [])
    (apart : Disjoint first.pages second.pages) :
    second.address.toNat / 4096 ∉ first.pages := by
  intro shared
  refine Set.disjoint_left.mp apart shared ⟨second.address.toNat,
    Nat.le_refl _, ?_, rfl⟩
  exact Nat.lt_add_of_pos_right (List.length_pos_iff.mpr secondNonempty)

/-- The mapping that contains the address of one blob does not start on the
first page of the other, unless it contains both addresses. -/
theorem splitKey_ne
    (paged : mappings.Paged)
    (otherEntry : ∀ entry, containingEntry mappings second.address =
      some entry → containingEntry mappings first.address ≠ some entry) :
    (containingEntry mappings second.address).map Prod.fst ≠
      some first.key := by
  intro chosen
  obtain ⟨⟨key, existing⟩, chosen, rfl⟩ := Option.map_eq_some_iff.mp chosen
  have found := found_of_containingEntry chosen
  apply otherEntry _ chosen
  apply (containingEntry_eq_some_iff paged.disjoint).mpr
  exact ⟨found, paged.aligned.contains_of_key found (paged.keyed _ _ found)
    (contains_of_containingEntry chosen)⟩

/-- Injections that split different mappings, or none, commute. -/
theorem injections_comm_of_apart
    (paged : mappings.Paged)
    (firstStep : InjectionStep mappings first afterFirst)
    (secondLater : InjectionStep afterFirst second firstThenSecond)
    (secondStep : InjectionStep mappings second afterSecond)
    (firstLater : InjectionStep afterSecond first secondThenFirst)
    (apart : Disjoint first.pages second.pages)
    (otherEntry : ∀ entry, containingEntry mappings first.address =
      some entry → containingEntry mappings second.address ≠ some entry)
    (other : UInt64) :
    firstThenSecond[other]? = secondThenFirst[other]? := by
  have secondChoice := firstStep.containingEntry_of_apart paged
    (Injection.off_pages_of_disjoint secondStep.1 apart) otherEntry
  have otherEntryBack : ∀ entry, containingEntry mappings second.address =
      some entry → containingEntry mappings first.address ≠ some entry :=
    fun entry secondChosen firstChosen =>
      otherEntry entry firstChosen secondChosen
  have firstChoice := secondStep.containingEntry_of_apart paged
    (Injection.off_pages_of_disjoint firstStep.1 apart.symm) otherEntryBack
  have keysApart := Injection.key_ne_of_disjoint firstStep.1 secondStep.1 apart
  have firstUnsplit := splitKey_ne paged otherEntry
  have secondUnsplit := splitKey_ne paged otherEntryBack
  have splitsApart : ∀ key,
      (containingEntry mappings first.address).map Prod.fst = some key →
        (containingEntry mappings second.address).map Prod.fst ≠ some key := by
    intro key firstKey secondKey
    obtain ⟨⟨_, firstMapping⟩, firstChosen, rfl⟩ :=
      Option.map_eq_some_iff.mp firstKey
    obtain ⟨⟨_, secondMapping⟩, secondChosen, rfl⟩ :=
      Option.map_eq_some_iff.mp secondKey
    have firstFound := found_of_containingEntry firstChosen
    rw [found_of_containingEntry secondChosen] at firstFound
    obtain rfl := Option.some.inj firstFound
    exact otherEntry _ firstChosen secondChosen
  rw [secondLater.getElem?_eq, firstLater.getElem?_eq, secondChoice,
    firstChoice, firstStep.getElem?_eq, secondStep.getElem?_eq]
  by_cases atFirst : first.key = other
  · subst atFirst
    rw [if_neg (Ne.symm keysApart), if_neg secondUnsplit, if_pos rfl,
      if_pos rfl]
  · by_cases atSecond : second.key = other
    · subst atSecond
      rw [if_pos rfl, if_neg keysApart, if_neg firstUnsplit, if_pos rfl]
    · rw [if_neg atSecond, if_neg atFirst, if_neg atFirst, if_neg atSecond]
      by_cases firstSplit :
          (containingEntry mappings first.address).map Prod.fst = some other
      · rw [if_neg (splitsApart other firstSplit), if_pos firstSplit,
          if_neg (splitsApart other firstSplit), if_pos firstSplit]
      · rw [if_neg firstSplit, if_neg firstSplit]

/-- Cutting the offset at a first boundary and then at a second shifts it as
cutting at the second does. -/
theorem offsetAt_offsetAt
    (mapping : Mapping)
    (key boundary later : UInt64)
    (data : List UInt8) :
    (mapping.upperPart key boundary data).offsetAt boundary later =
      mapping.offsetAt key later := by
  have shifts : boundary - key + (later - boundary) = later - key := by
    grind
  by_cases backed : mapping.filename.isSome = true
  · simp only [Mapping.offsetAt, Mapping.upperPart, if_pos backed,
      UInt64.add_assoc, shifts]
  · simp only [Mapping.offsetAt, Mapping.upperPart, if_neg backed]

/-- Injections that split one mapping commute, the second of them above the
first. -/
theorem injections_comm_of_same
    (paged : mappings.Paged)
    (firstStep : InjectionStep mappings first afterFirst)
    (secondLater : InjectionStep afterFirst second firstThenSecond)
    (secondStep : InjectionStep mappings second afterSecond)
    (firstLater : InjectionStep afterSecond first secondThenFirst)
    {key : UInt64}
    {existing : Mapping}
    (firstChosen : containingEntry mappings first.address =
      some (key, existing))
    (secondChosen : containingEntry mappings second.address =
      some (key, existing))
    (above : first.address.toNat < second.key.toNat)
    (other : UInt64) :
    firstThenSecond[other]? = secondThenFirst[other]? := by
  have found := found_of_containingEntry firstChosen
  have firstBoundary : first.key.toNat ≤ first.address.toNat :=
    pageStart_default_le first.address
  have secondBoundary : second.key.toNat ≤ second.address.toNat :=
    pageStart_default_le second.address
  have secondChoice := firstStep.containingEntry_of_above paged firstChosen
    (contains_of_containingEntry secondChosen) (by omega)
  have firstChoice := secondStep.containingEntry_of_below paged secondChosen
    (contains_of_containingEntry firstChosen) above
  have bounds := Mapping.contains_iff.mp
    (contains_of_containingEntry firstChosen)
  rw [paged.keyed _ _ found] at bounds
  have keysApart : second.key ≠ first.key := by
    rintro same
    rw [same] at above
    omega
  have keyApart : second.key ≠ key := by
    rintro rfl
    omega
  rw [secondLater.getElem?_eq, firstLater.getElem?_eq, secondChoice,
    firstChoice, firstStep.getElem?_eq, secondStep.getElem?_eq, firstChosen,
    secondChosen]
  simp only [Option.map_some, Option.some.injEq]
  by_cases atSecond : second.key = other
  · subst atSecond
    rw [if_pos rfl, if_neg (Ne.symm keysApart), if_neg (Ne.symm keyApart),
      if_pos rfl, Option.some.injEq]
    simp only [Injection.carrier]
    rw [Mapping.upperPart, Mapping.upperPart.eq_1 existing key second.key,
      offsetAt_offsetAt]
    rfl
  · rw [if_neg atSecond, if_neg atSecond]
    by_cases atFirst : first.key = other
    · rw [if_pos atFirst, if_pos atFirst, if_pos atFirst]
      rfl
    · rw [if_neg atFirst, if_neg atFirst, if_neg atFirst]
      by_cases atKey : key = other
      · subst atKey
        rw [if_pos rfl, if_pos rfl, if_pos rfl, found]
        rfl
      · rw [if_neg atKey, if_neg atKey, if_neg atKey]

/-- Injecting two blobs that lie on disjoint pages leaves the same table in
either order. -/
theorem injections_comm
    (paged : mappings.Paged)
    (firstStep : InjectionStep mappings first afterFirst)
    (secondLater : InjectionStep afterFirst second firstThenSecond)
    (secondStep : InjectionStep mappings second afterSecond)
    (firstLater : InjectionStep afterSecond first secondThenFirst)
    (apart : Disjoint first.pages second.pages) :
    firstThenSecond = secondThenFirst := by
  apply Std.ExtTreeMap.ext_getElem?
  intro other
  by_cases shared : ∃ entry,
      containingEntry mappings first.address = some entry ∧
        containingEntry mappings second.address = some entry
  · obtain ⟨⟨key, existing⟩, firstChosen, secondChosen⟩ := shared
    have ordered := apart
    rw [Injection.pages, Injection.pages, disjoint_pagesOf_iff (by decide)
      (List.length_pos_iff.mpr firstStep.1)
      (List.length_pos_iff.mpr secondStep.1)] at ordered
    have firstUpper := le_roundUp 4096
      (first.address.toNat + first.data.length)
    have secondUpper := le_roundUp 4096
      (second.address.toNat + second.data.length)
    have firstPositive := List.length_pos_iff.mpr firstStep.1
    have secondPositive := List.length_pos_iff.mpr secondStep.1
    have firstKey := toNat_pageStart_default first.address
    have secondKey := toNat_pageStart_default second.address
    rcases ordered with firstBelow | secondBelow
    · refine injections_comm_of_same paged firstStep secondLater secondStep
        firstLater firstChosen secondChosen ?_ other
      rw [Injection.key]
      omega
    · refine (injections_comm_of_same paged secondStep firstLater firstStep
        secondLater secondChosen firstChosen ?_ other).symm
      rw [Injection.key]
      omega
  · refine injections_comm_of_apart paged firstStep secondLater secondStep
      firstLater apart ?_ other
    intro entry firstChosen secondChosen
    exact shared ⟨entry, firstChosen, secondChosen⟩

/-- Two stacks inside one file mapping meet the conditions. -/
theorem injections_comm_sample :
    ∃ firstThenSecond secondThenFirst : MappingTable,
      let mappings := MappingTable.single sampleFileMapping
      let first : Injection := ⟨[1, 2], 0x2200⟩
      let second : Injection := ⟨[3], 0x4100⟩
      (∃ middle, InjectionStep mappings first middle ∧
        InjectionStep middle second firstThenSecond) ∧
      (∃ middle, InjectionStep mappings second middle ∧
        InjectionStep middle first secondThenFirst) ∧
      firstThenSecond = secondThenFirst := by
  obtain ⟨_, firstThenSecond, firstRun⟩ : ∃ value after,
      (do addDataToMapping [1, 2] 0x2200 defaultPageSize
          addDataToMapping [3] 0x4100 defaultPageSize :
        EStateM Fault MappingTable Unit)
          (MappingTable.single sampleFileMapping) = .ok value after :=
    exists_ok_of_succeeds (by decide +kernel)
  obtain ⟨_, secondThenFirst, secondRun⟩ : ∃ value after,
      (do addDataToMapping [3] 0x4100 defaultPageSize
          addDataToMapping [1, 2] 0x2200 defaultPageSize :
        EStateM Fault MappingTable Unit)
          (MappingTable.single sampleFileMapping) = .ok value after :=
    exists_ok_of_succeeds (by decide +kernel)
  obtain ⟨_, afterFirst, firstOk, secondLaterOk⟩ := stateBind_eq_ok.mp firstRun
  obtain ⟨_, afterSecond, secondOk, firstLaterOk⟩ :=
    stateBind_eq_ok.mp secondRun
  have firstStep : InjectionStep (MappingTable.single sampleFileMapping)
      ⟨[1, 2], 0x2200⟩ afterFirst := ⟨by decide, firstOk⟩
  have secondLater : InjectionStep afterFirst ⟨[3], 0x4100⟩ firstThenSecond :=
    ⟨by decide, secondLaterOk⟩
  have secondStep : InjectionStep (MappingTable.single sampleFileMapping)
      ⟨[3], 0x4100⟩ afterSecond := ⟨by decide, secondOk⟩
  have firstLater : InjectionStep afterSecond ⟨[1, 2], 0x2200⟩
      secondThenFirst := ⟨by decide, firstLaterOk⟩
  have wellFormed : (MappingTable.single sampleFileMapping).WellFormed :=
    MappingTable.wellFormed_single (by decide)
  have aligned : (MappingTable.single sampleFileMapping).PageAligned :=
    MappingTable.pageAligned_single (by decide) (by decide)
  refine ⟨firstThenSecond, secondThenFirst,
    ⟨afterFirst, firstStep, secondLater⟩,
    ⟨afterSecond, secondStep, firstLater⟩, ?_⟩
  refine injections_comm ⟨wellFormed.keyed, aligned, wellFormed.disjoint⟩
    firstStep secondLater secondStep firstLater ?_
  exact (disjoint_pagesOf_iff (by decide) (by decide) (by decide)).mpr
    (.inl (by decide))

end Order

end Md2Core
