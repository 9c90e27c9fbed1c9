import Md2Core.Model
import Md2Core.Foundation.ChunkStore

/-!
# Injecting captured bytes into the mapping table

`addDataToMapping` puts a captured byte blob into the mapping table. A mapping
that contains the address of the blob is cut at the page of the address; the
upper part becomes a new mapping that carries the padded blob. An address in no
mapping gets a synthetic mapping around the blob.

Every successful call is one of these two cases, and in both of them it is the
same write on the table seen as a store of chunks: the padded blob under the
page-aligned address.
-/

namespace Md2Core

open Foundation

/-- The first mapping in key order that contains an address. -/
def containingKey (mappings : MappingTable) (address : UInt64) : Option UInt64 :=
  mappings.toList.findSome? fun (key, mapping) =>
    if mapping.contains address then some key else none

/-- Add a captured byte blob to the mapping table, splitting mappings as
needed. Mutations made before a failure stay in the table. -/
def addDataToMapping
    (data : List UInt8)
    (address pageSize : UInt64) : EStateM Fault MappingTable Unit := do
  let alignedAddress ← liftM (alignDown address pageSize)
  let difference ← liftM (subU64 address alignedAddress)
  let mappingData ← liftM (paddedVec difference.toNat data pageSize.toNat)
  let mappings ← get
  match containingKey mappings address with
  | some key =>
      let dataMapping ← liftM (okOr mappings[key]?
        (.error (.missingField "mapping") : Fault))
      let mut offset := dataMapping.offset
      if alignedAddress ≠ key then
        modify fun table => table.modify key fun existing =>
          { existing with endAddress := alignedAddress }
        if dataMapping.filename.isSome then
          let shift ← liftM (subU64 alignedAddress key)
          offset ← liftM (okOr (checkedAdd dataMapping.offset shift)
            (integerOverflow "split mapping offset"))
      modify fun table => table.insert alignedAddress
        { dataMapping with
          startAddress := alignedAddress
          offset
          data := mappingData }
  | none =>
      let dataLen ← liftM (okOr (u64TryFrom data.length)
        (integerOverflow "mapping data length"))
      let dataEnd ← liftM (okOr (checkedAdd address dataLen)
        (integerOverflow "synthetic mapping end"))
      let endAddress ← liftM (alignUp dataEnd pageSize)
      let mapping ← liftM (Mapping.new alignedAddress endAddress .readWrite)
      modify fun table => table.insert alignedAddress
        { mapping with data := mappingData }

/-! ## What a successful injection did -/

/-- The first entry in key order whose mapping contains an address. -/
def containingEntry
    (mappings : MappingTable)
    (address : UInt64) : Option (UInt64 × Mapping) :=
  mappings.toList.find? (·.2.contains address)

/-- The chosen key is the key of the first entry that contains the address. -/
theorem containingKey_eq_map (mappings : MappingTable) (address : UInt64) :
    containingKey mappings address =
      (containingEntry mappings address).map Prod.fst := by
  unfold containingKey containingEntry
  induction mappings.toList with
  | nil => rfl
  | cons entry rest inductionHypothesis =>
      obtain ⟨key, mapping⟩ := entry
      rw [List.findSome?_cons, List.find?_cons]
      cases inside : mapping.contains address with
      | true => simp [inside]
      | false => simpa [inside] using inductionHypothesis

theorem found_of_containingEntry
    {mappings : MappingTable}
    {address key : UInt64}
    {mapping : Mapping}
    (chosen : containingEntry mappings address = some (key, mapping)) :
    mappings[key]? = some mapping :=
  Std.ExtTreeMap.mem_toList_iff_getElem?_eq_some.mp
    (List.mem_of_find?_eq_some chosen)

theorem contains_of_containingEntry
    {mappings : MappingTable}
    {address key : UInt64}
    {mapping : Mapping}
    (chosen : containingEntry mappings address = some (key, mapping)) :
    mapping.contains address = true := by
  unfold containingEntry at chosen
  have selected := List.find?_some chosen
  exact selected

theorem containingEntry_eq_none_iff
    {mappings : MappingTable}
    {address : UInt64} :
    containingEntry mappings address = none ↔
      ∀ (key : UInt64) (mapping : Mapping),
        mappings[key]? = some mapping → mapping.contains address = false := by
  simp only [containingEntry, List.find?_eq_none, Prod.forall,
    Std.ExtTreeMap.mem_toList_iff_getElem?_eq_some, Bool.not_eq_true]

/-- The only entry that contains an address is the one chosen. -/
theorem containingEntry_eq_some_of_unique
    {mappings : MappingTable}
    {address key : UInt64}
    {mapping : Mapping}
    (found : mappings[key]? = some mapping)
    (inside : mapping.contains address = true)
    (unique : ∀ (other : UInt64) (candidate : Mapping),
      mappings[other]? = some candidate →
        candidate.contains address = true → other = key) :
    containingEntry mappings address = some (key, mapping) := by
  cases chosen : containingEntry mappings address with
  | none =>
      have excluded := containingEntry_eq_none_iff.mp chosen key mapping found
      rw [inside] at excluded
      contradiction
  | some entry =>
      obtain ⟨other, candidate⟩ := entry
      have candidateFound := found_of_containingEntry chosen
      obtain rfl := unique other candidate candidateFound
        (contains_of_containingEntry chosen)
      rw [found] at candidateFound
      rw [Option.some.inj candidateFound]

/-- The page-aligned address at which the mapping of a blob starts. -/
def pageStart (pageSize address : UInt64) : UInt64 :=
  address - address % pageSize

theorem toNat_pageStart (pageSize address : UInt64) :
    (pageStart pageSize address).toNat =
      roundDown pageSize.toNat address.toNat := by
  rw [pageStart, UInt64.toNat_sub_of_le, UInt64.toNat_mod]
  · rfl
  · rw [UInt64.le_iff_toNat_le, UInt64.toNat_mod]
    exact Nat.mod_le _ _

/-- The data of the mapping that carries a blob. -/
def injectedBytes
    (pageSize : UInt64)
    (data : List UInt8)
    (address : UInt64) : List UInt8 :=
  paddedBytes (address.toNat % pageSize.toNat) data pageSize.toNat

/-- The part of a split mapping below the page of the blob. -/
def Mapping.lowerPart (mapping : Mapping) (boundary : UInt64) : Mapping :=
  { mapping with endAddress := boundary }

/-- The file offset at the boundary of a split. -/
def Mapping.offsetAt (mapping : Mapping) (key boundary : UInt64) : UInt64 :=
  if mapping.filename.isSome then mapping.offset + (boundary - key)
  else mapping.offset

/-- The part of a split mapping from the page of the blob on. -/
def Mapping.upperPart
    (mapping : Mapping)
    (key boundary : UInt64)
    (data : List UInt8) : Mapping :=
  { mapping with
    startAddress := boundary
    offset := mapping.offsetAt key boundary
    data }

/-- A synthetic mapping. -/
def Mapping.synthetic
    (startAddress endAddress : UInt64)
    (data : List UInt8) : Mapping :=
  ⟨startAddress, endAddress, 0, .readWrite, none, data⟩

/-- The two ways in which an injection succeeds, with the table after it. -/
inductive Injected
    (before : MappingTable)
    (data : List UInt8)
    (address pageSize : UInt64)
    (after : MappingTable) : Prop
  /-- A mapping contains the address and is split at the page of the blob. A
  lower part is left unless the mapping is keyed by that page. -/
  | split
      (key : UInt64)
      (existing : Mapping)
      (chosen : containingEntry before address = some (key, existing))
      (shiftable : existing.filename.isSome →
        key.toNat ≤ (pageStart pageSize address).toNat ∧
          (existing.offsetAt key (pageStart pageSize address)).toNat =
            existing.offset.toNat +
              ((pageStart pageSize address).toNat - key.toNat))
      (result : ∀ other : UInt64, after[other]? =
        if pageStart pageSize address = other then
          some (existing.upperPart key (pageStart pageSize address)
            (injectedBytes pageSize data address))
        else if key = other then
          some (existing.lowerPart (pageStart pageSize address))
        else before[other]?)
  /-- No mapping contains the address and a synthetic one is made. -/
  | synthetic
      (endAddress : UInt64)
      (uncovered : containingEntry before address = none)
      (endValue : endAddress.toNat =
        roundUp pageSize.toNat (address.toNat + data.length))
      (ordered : (pageStart pageSize address).toNat < endAddress.toNat)
      (result : ∀ other : UInt64, after[other]? =
        if pageStart pageSize address = other then
          some (.synthetic (pageStart pageSize address) endAddress
            (injectedBytes pageSize data address))
        else before[other]?)

theorem alignDown_eq_ok_pageStart
    {address pageSize aligned : UInt64}
    (succeeded : alignDown address pageSize = .ok aligned) :
    aligned = pageStart pageSize address := by
  rw [← UInt64.toNat_inj, (alignDown_eq_ok.mp succeeded).2, toNat_pageStart]

/-- An address is behind the start of its page by its remainder. -/
theorem subU64_pageStart_eq_ok
    {address pageSize difference : UInt64}
    (succeeded : subU64 address (pageStart pageSize address) =
      .ok difference) :
    difference.toNat = address.toNat % pageSize.toNat := by
  have remainderLe := Nat.mod_le address.toNat pageSize.toNat
  have exact := subU64_eq_ok.mp succeeded
  rw [toNat_pageStart, roundDown] at exact
  omega

/-- A successful offset shift is the offset at the boundary. -/
theorem offsetAt_of_shift
    {existing : Mapping}
    {key boundary shift offset : UInt64}
    (backed : existing.filename.isSome = true)
    (shiftValue : boundary.toNat = key.toNat + shift.toNat)
    (offsetValue : offset.toNat = existing.offset.toNat + shift.toNat) :
    offset = existing.offsetAt key boundary ∧
      (key.toNat ≤ boundary.toNat ∧
        (existing.offsetAt key boundary).toNat =
          existing.offset.toNat + (boundary.toNat - key.toNat)) := by
  have ordered : key ≤ boundary := UInt64.le_iff_toNat_le.mpr (by omega)
  have bound := offset.toNat_lt
  have value : (existing.offsetAt key boundary).toNat =
      existing.offset.toNat + (boundary.toNat - key.toNat) := by
    rw [Mapping.offsetAt, if_pos backed, UInt64.toNat_add,
      UInt64.toNat_sub_of_le _ _ ordered, Nat.mod_eq_of_lt (by omega)]
  exact ⟨UInt64.toNat_inj.mp (by omega), by omega, value⟩

section Cases

variable {before : MappingTable} {data : List UInt8}
  {address pageSize key : UInt64} {existing : Mapping}

/-- Replacing the data of a mapping that is keyed by the page of the blob. -/
theorem Injected.of_replaced
    (chosen : containingEntry before address = some (key, existing))
    (same : pageStart pageSize address = key) :
    Injected before data address pageSize
      (before.insert (pageStart pageSize address) { existing with
        startAddress := pageStart pageSize address
        data := injectedBytes pageSize data address }) := by
  have unshifted : existing.offsetAt key key = existing.offset := by
    simp [Mapping.offsetAt]
  apply Injected.split key existing chosen
  · simp [same, unshifted]
  · intro other
    rw [MappingTable.getElem?_insert, same]
    by_cases there : key = other
    · rw [if_pos there, if_pos there, Mapping.upperPart, unshifted]
    · rw [if_neg there, if_neg there, if_neg there]

/-- Cutting a mapping at the page of the blob and adding the upper part. -/
theorem Injected.of_cut
    (chosen : containingEntry before address = some (key, existing))
    (different : pageStart pageSize address ≠ key)
    (shiftable : existing.filename.isSome →
      key.toNat ≤ (pageStart pageSize address).toNat ∧
        (existing.offsetAt key (pageStart pageSize address)).toNat =
          existing.offset.toNat +
            ((pageStart pageSize address).toNat - key.toNat)) :
    Injected before data address pageSize
      ((before.modify key fun mapping =>
          mapping.lowerPart (pageStart pageSize address)).insert
        (pageStart pageSize address)
        (existing.upperPart key (pageStart pageSize address)
          (injectedBytes pageSize data address))) := by
  have found := found_of_containingEntry chosen
  apply Injected.split key existing chosen shiftable
  intro other
  rw [MappingTable.getElem?_insert, MappingTable.getElem?_modify]
  by_cases there : key = other
  · subst there
    simp only [if_neg different, if_true, found, Option.map_some]
  · rw [if_neg there, if_neg there]

end Cases

/-- A successful call had a nonzero page size, and did one of the two things
described by `Injected`. -/
theorem addDataToMapping_ok
    {data : List UInt8}
    {address pageSize : UInt64}
    {before after : MappingTable}
    (succeeded : addDataToMapping data address pageSize before = .ok () after) :
    0 < pageSize.toNat ∧ Injected before data address pageSize after := by
  unfold addDataToMapping at succeeded
  simp only [stateBind_eq_ok, liftState_eq_ok, get_eq_ok] at succeeded
  obtain ⟨aligned, _, ⟨alignedOk, rfl⟩, difference, _, ⟨differenceOk, rfl⟩,
    padded, _, ⟨paddedOk, rfl⟩, _, _, ⟨rfl, rfl⟩, branch⟩ := succeeded
  obtain rfl := alignDown_eq_ok_pageStart alignedOk
  obtain ⟨positive, _, rfl⟩ := paddedVec_eq_ok.mp paddedOk
  rw [subU64_pageStart_eq_ok differenceOk, containingKey_eq_map] at branch
  refine ⟨positive, ?_⟩
  cases chosen : containingEntry before address with
  | none =>
      rw [chosen] at branch
      simp only [Option.map_none, stateBind_eq_ok, liftState_eq_ok, okOr_eq_ok,
        u64TryFrom_eq_some, checkedAdd_eq_some, alignUp_eq_ok,
        Mapping.new_eq_ok, modify_eq_ok] at branch
      obtain ⟨dataLen, _, ⟨lenValue, rfl⟩, dataEnd, _, ⟨endSum, rfl⟩,
        endAddress, _, ⟨⟨_, endValue⟩, rfl⟩, mapping, _,
        ⟨⟨ordered, rfl⟩, rfl⟩, rfl⟩ := branch
      rw [endSum, lenValue] at endValue
      apply Injected.synthetic endAddress chosen endValue ordered
      intro other
      rw [MappingTable.getElem?_insert]
      rfl
  | some entry =>
      obtain ⟨key, existing⟩ := entry
      have found := found_of_containingEntry chosen
      rw [chosen] at branch
      simp only [Option.map_some, stateBind_eq_ok, liftState_eq_ok,
        okOr_eq_ok] at branch
      obtain ⟨cloned, _, ⟨clonedFound, rfl⟩, branch⟩ := branch
      rw [found] at clonedFound
      obtain rfl := Option.some.inj clonedFound
      by_cases same : pageStart pageSize address = key
      · rw [if_neg (not_not_intro same), modify_eq_ok] at branch
        subst branch
        exact .of_replaced chosen same
      · rw [if_pos same] at branch
        simp only [stateBind_eq_ok, modify_eq_ok] at branch
        obtain ⟨_, _, rfl, branch⟩ := branch
        by_cases backed : existing.filename.isSome = true
        · rw [if_pos backed] at branch
          simp only [stateBind_eq_ok, liftState_eq_ok, okOr_eq_ok, subU64_eq_ok,
            checkedAdd_eq_some, modify_eq_ok] at branch
          obtain ⟨shift, _, ⟨shiftValue, rfl⟩, offset, _, ⟨offsetValue, rfl⟩,
            rfl⟩ := branch
          obtain ⟨rfl, shiftable⟩ :=
            offsetAt_of_shift backed shiftValue offsetValue
          exact .of_cut chosen same fun _ => shiftable
        · rw [if_neg backed, modify_eq_ok] at branch
          have unshifted : existing.offset =
              existing.offsetAt key (pageStart pageSize address) := by
            rw [Mapping.offsetAt, if_neg backed]
          subst branch
          rw [unshifted]
          exact .of_cut chosen same fun contrary => absurd contrary backed

/-! ## Properties of all entries -/

section Entries

variable {before after : MappingTable} {property : UInt64 → Mapping → Prop}
  {key boundary : UInt64} {lower upper : Mapping}

/-- A property of all entries survives an insertion of a mapping that has it. -/
theorem forall_entries_of_insert
    (others : ∀ (key : UInt64) (mapping : Mapping),
      before[key]? = some mapping → property key mapping)
    (upperHolds : property boundary upper)
    (result : ∀ other : UInt64, after[other]? =
      if boundary = other then some upper else before[other]?) :
    ∀ (key : UInt64) (mapping : Mapping),
      after[key]? = some mapping → property key mapping := by
  intro other mapping looked
  rw [result] at looked
  split at looked
  · next here =>
    obtain rfl := Option.some.inj looked
    exact here ▸ upperHolds
  · exact others other mapping looked

/-- A property of all entries survives a split into parts that have it. -/
theorem forall_entries_of_split
    (others : ∀ (key : UInt64) (mapping : Mapping),
      before[key]? = some mapping → property key mapping)
    (upperHolds : property boundary upper)
    (lowerHolds : boundary ≠ key → property key lower)
    (result : ∀ other : UInt64, after[other]? =
      if boundary = other then some upper
      else if key = other then some lower
      else before[other]?) :
    ∀ (key : UInt64) (mapping : Mapping),
      after[key]? = some mapping → property key mapping := by
  intro other mapping looked
  rw [result] at looked
  split at looked
  · next here =>
    obtain rfl := Option.some.inj looked
    exact here ▸ upperHolds
  · next notHere =>
    split at looked
    · next there =>
      subst there
      obtain rfl := Option.some.inj looked
      exact lowerHolds notHere
    · exact others other mapping looked

end Entries

/-! ## The table as a store of chunks -/

/-- The captured bytes of a mapping, at its start address. -/
def Mapping.chunk (mapping : Mapping) : Chunk UInt8 :=
  ⟨mapping.startAddress.toNat, mapping.data⟩

/-- The chunks that the mappings of a table hold, under their keys. -/
def MappingTable.chunks (mappings : MappingTable) : ChunkStore UInt64 UInt8 :=
  fun key => mappings[key]?.map Mapping.chunk

/-- The chunk that an injection puts into the table. -/
def injectedChunk
    (pageSize : UInt64)
    (data : List UInt8)
    (address : UInt64) : Chunk UInt8 :=
  ⟨(pageStart pageSize address).toNat, injectedBytes pageSize data address⟩

/-- Both kinds of injection are the same write of one chunk. -/
theorem Injected.chunks_eq
    {before after : MappingTable}
    {data : List UInt8}
    {address pageSize : UInt64}
    (injected : Injected before data address pageSize after) :
    after.chunks =
      before.chunks.write (pageStart pageSize address)
        (injectedChunk pageSize data address) := by
  funext other
  unfold MappingTable.chunks
  by_cases here : pageStart pageSize address = other
  · subst here
    rw [ChunkStore.write_self]
    cases injected with
    | split key existing chosen shiftable result =>
        rw [result, if_pos rfl]
        rfl
    | synthetic endAddress uncovered endValue ordered result =>
        rw [result, if_pos rfl]
        rfl
  · rw [ChunkStore.write_of_ne _ _ (Ne.symm here)]
    cases injected with
    | split key existing chosen shiftable result =>
        rw [result, if_neg here]
        by_cases there : key = other
        · subst there
          rw [if_pos rfl, found_of_containingEntry chosen]
          rfl
        · rw [if_neg there]
    | synthetic endAddress uncovered endValue ordered result =>
        rw [result, if_neg here]

/-- The rounded end of a blob, counted from the start of its first page. -/
theorem roundUp_split (page address length : Nat) :
    roundUp page (address + length) =
      address - address % page + roundUp page (address % page + length) := by
  have remainderLe := Nat.mod_le address page
  have boundary := dvd_roundDown page address
  rw [← roundDown, ← roundUp_add_of_dvd boundary, roundDown]
  congr 1
  omega

/-- The injected chunk ends at the page boundary after the blob. -/
theorem injectedChunk_end
    (pageSize : UInt64)
    (data : List UInt8)
    (address : UInt64) :
    (injectedChunk pageSize data address).base +
        (injectedChunk pageSize data address).items.length =
      roundUp pageSize.toNat (address.toNat + data.length) := by
  rw [roundUp_split, ← roundDown, ← toNat_pageStart]
  simp only [injectedChunk, injectedBytes, length_paddedBytes]

/-- The injected chunk covers exactly the pages of the blob. -/
theorem injectedChunk_covers_iff
    (pageSize : UInt64)
    (data : List UInt8)
    (address : UInt64)
    (position : Nat) :
    (injectedChunk pageSize data address).Covers position ↔
      roundDown pageSize.toNat address.toNat ≤ position ∧
        position < roundUp pageSize.toNat (address.toNat + data.length) := by
  rw [Chunk.Covers, injectedChunk_end]
  simp only [injectedChunk, toNat_pageStart]

/-- Positions of the injected chunk, counted from the blob. -/
theorem injectedChunk_itemAt
    {pageSize address : UInt64}
    {data : List UInt8}
    {position : Nat}
    (covered : (injectedChunk pageSize data address).Covers position) :
    (injectedChunk pageSize data address).itemAt position =
      some (if address.toNat ≤ position then
        data.getD (position - address.toNat) 0 else 0) := by
  have grows := le_roundUp pageSize.toNat (address.toNat + data.length)
  have remainderLe := Nat.mod_le address.toNat pageSize.toNat
  have ends := injectedChunk_end pageSize data address
  have inChunk := covered.2
  unfold Chunk.itemAt
  rw [if_pos covered.1]
  have base : (injectedChunk pageSize data address).base =
      address.toNat - address.toNat % pageSize.toNat := toNat_pageStart _ _
  rw [base]
  have reached := covered.1
  rw [base] at reached
  simp only [injectedChunk, injectedBytes, paddedBytes, List.append_assoc]
  by_cases before : position < address.toNat
  · rw [if_neg (by omega), List.getElem?_append_left (by simp; omega),
      List.getElem?_replicate, if_pos (by omega)]
  · rw [if_pos (by omega), List.getElem?_append_right (by simp; omega),
      List.length_replicate,
      show position - (address.toNat - address.toNat % pageSize.toNat) -
        address.toNat % pageSize.toNat = position - address.toNat by omega]
    by_cases inside : position - address.toNat < data.length
    · rw [List.getElem?_append_left inside, List.getD_eq_getElem?_getD,
        List.getElem?_eq_getElem inside]
      rfl
    · have padding : data.getD (position - address.toNat) 0 = 0 := by
        rw [List.getD_eq_getElem?_getD, List.getElem?_eq_none (by omega),
          Option.getD_none]
      rw [padding, List.getElem?_append_right (by omega),
        List.getElem?_replicate, if_pos]
      rw [ends, roundUp_split] at inChunk
      omega

end Md2Core
