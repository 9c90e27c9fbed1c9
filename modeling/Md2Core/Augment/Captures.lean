import Md2Core.Augment.AddressMap

/-!
# Captured bytes across injections

Seen as a store of chunks, an injection replaces whatever the page of the blob
held before. This module decides exactly when the bytes of a captured blob can
still be read after another blob has been injected.
-/

namespace Md2Core

open Foundation

namespace Injection

/-- The chunk that carries the blob, at the default page size. -/
def chunk (injection : Injection) : Chunk UInt8 :=
  injectedChunk defaultPageSize injection.data injection.address

/-- The page on which the blob begins. -/
def key (injection : Injection) : UInt64 :=
  pageStart defaultPageSize injection.address

/-- The addresses of the captured bytes. -/
def range (injection : Injection) : Set Nat :=
  Set.Ico injection.address.toNat
    (injection.address.toNat + injection.data.length)

/-- The pages that the captured bytes lie on. -/
def pages (injection : Injection) : Set Nat :=
  pagesOf 4096 injection.address.toNat injection.data.length

/-- The chunk covers exactly the pages of the blob. -/
theorem covers_iff
    {injection : Injection}
    (nonempty : injection.data ≠ [])
    (position : Nat) :
    injection.chunk.Covers position ↔ position / 4096 ∈ injection.pages := by
  rw [pages, div_mem_pagesOf_iff (by decide)
    (List.length_pos_iff.mpr nonempty)]
  exact injectedChunk_covers_iff defaultPageSize injection.data
    injection.address position

/-- The captured bytes are in the chunk at their own addresses. -/
theorem itemAt_captured
    (injection : Injection)
    {index : Nat}
    (inside : index < injection.data.length) :
    injection.chunk.itemAt (injection.address.toNat + index) =
      some injection.data[index] := by
  have covered : injection.chunk.Covers (injection.address.toNat + index) := by
    have start := roundDown_le 4096 injection.address.toNat
    have ends := le_roundUp 4096
      (injection.address.toNat + injection.data.length)
    refine (injectedChunk_covers_iff _ _ _ _).mpr ⟨?_, ?_⟩
    · exact Nat.le_trans start (Nat.le_add_right _ _)
    · exact Nat.lt_of_lt_of_le (Nat.add_lt_add_left inside _) ends
  rw [chunk, injectedChunk_itemAt covered, if_pos (Nat.le_add_right _ _),
    Nat.add_sub_cancel_left, List.getD_eq_getElem?_getD,
    List.getElem?_eq_getElem inside, Option.getD_some]

/-- The rest of the chunk is zero. -/
theorem itemAt_padding
    {injection : Injection}
    {position : Nat}
    (covered : injection.chunk.Covers position)
    (outside : position ∉ injection.range) :
    injection.chunk.itemAt position = some 0 := by
  rw [chunk, injectedChunk_itemAt covered]
  split
  · next reached =>
    have past : injection.data.length ≤
        position - injection.address.toNat := by
      by_contra within
      exact outside ⟨reached, by omega⟩
    rw [List.getD_eq_getElem?_getD, List.getElem?_eq_none past,
      Option.getD_none]
  · rfl

theorem key_eq_iff (first second : Injection) :
    first.key = second.key ↔
      roundDown 4096 first.address.toNat =
        roundDown 4096 second.address.toNat := by
  rw [key, key, ← UInt64.toNat_inj, toNat_pageStart_default,
    toNat_pageStart_default]

/-- Nonempty blobs on disjoint pages begin on different pages. -/
theorem key_ne_of_disjoint
    {first second : Injection}
    (firstNonempty : first.data ≠ [])
    (secondNonempty : second.data ≠ [])
    (apart : Disjoint first.pages second.pages) :
    first.key ≠ second.key := by
  intro same
  rw [key_eq_iff] at same
  rw [pages, pages, disjoint_pagesOf_iff (by decide)
    (List.length_pos_iff.mpr firstNonempty)
    (List.length_pos_iff.mpr secondNonempty)] at apart
  have firstLower := roundDown_le 4096 first.address.toNat
  have firstUpper := le_roundUp 4096
    (first.address.toNat + first.data.length)
  have secondUpper := le_roundUp 4096
    (second.address.toNat + second.data.length)
  have firstPositive := List.length_pos_iff.mpr firstNonempty
  have secondPositive := List.length_pos_iff.mpr secondNonempty
  have secondLower := roundDown_le 4096 second.address.toNat
  omega

end Injection

/-- One injection writes the chunk of the blob under its first page. -/
theorem InjectionStep.chunks_eq
    {before after : MappingTable}
    {injection : Injection}
    (step : InjectionStep before injection after) :
    MappingTable.chunks after =
      (MappingTable.chunks before).write injection.key injection.chunk :=
  step.injected.chunks_eq

/-- A table gives an address a byte through a mapping that begins on the first
page of neither blob. -/
def SuppliedByOlder
    (mappings : MappingTable)
    (first second : Injection)
    (position : Nat)
    (byte : UInt8) : Prop :=
  ∃ key, key ≠ first.key ∧ key ≠ second.key ∧
    (MappingTable.chunks mappings).Supplies key position byte

/-- What a byte of the first blob needs to be readable after the second: on a
page of the second blob it is zero; when both blobs begin on one page, it lies
on a page of the second blob or an older mapping supplies it; and an older
mapping that reaches its address supplies the same byte. -/
structure KeepsByte
    (mappings : MappingTable)
    (first second : Injection)
    (position : Nat)
    (byte : UInt8) : Prop where
  zeroOnSharedPage : position / 4096 ∈ second.pages → byte = 0
  replaced : roundDown 4096 first.address.toNat =
      roundDown 4096 second.address.toNat →
    position / 4096 ∈ second.pages ∨
      SuppliedByOlder mappings first second position byte
  olderAgrees : ∀ other,
    SuppliedByOlder mappings first second position other → other = byte

/-- Two injections in a row supply an address from the second blob, from the
first blob unless both begin on one page, or from an older mapping. -/
theorem supplies_after_two
    {before middle after : MappingTable}
    {first second : Injection}
    (firstStep : InjectionStep before first middle)
    (secondStep : InjectionStep middle second after)
    (position : Nat)
    (byte : UInt8) :
    (∃ key, (MappingTable.chunks after).Supplies key position byte) ↔
      second.chunk.itemAt position = some byte ∨
        (first.key ≠ second.key ∧
          first.chunk.itemAt position = some byte) ∨
        SuppliedByOlder before first second position byte := by
  rw [secondStep.chunks_eq, firstStep.chunks_eq]
  simp only [ChunkStore.supplies_write_iff, SuppliedByOlder]
  constructor
  · rintro ⟨key, ⟨_, fromSecond⟩ |
      ⟨notSecond, ⟨rfl, fromFirst⟩ | ⟨notFirst, old⟩⟩⟩
    · exact Or.inl fromSecond
    · exact Or.inr (Or.inl ⟨notSecond, fromFirst⟩)
    · exact Or.inr (Or.inr ⟨key, notFirst, notSecond, old⟩)
  · rintro (fromSecond | ⟨apart, fromFirst⟩ | ⟨key, notFirst, notSecond, old⟩)
    · exact ⟨second.key, Or.inl ⟨rfl, fromSecond⟩⟩
    · exact ⟨first.key, Or.inr ⟨apart, Or.inl ⟨rfl, fromFirst⟩⟩⟩
    · exact ⟨key, Or.inr ⟨notSecond, Or.inr ⟨notFirst, old⟩⟩⟩

/-- A single byte of the first blob is readable after the second injection
exactly when it meets the condition. -/
theorem reads_after_two_iff
    {before middle after : MappingTable}
    {first second : Injection}
    (firstStep : InjectionStep before first middle)
    (secondStep : InjectionStep middle second after)
    {position : Nat}
    {byte : UInt8}
    (captured : first.chunk.itemAt position = some byte)
    (outside : position ∉ second.range) :
    (MappingTable.chunks after).Reads position byte ↔
      KeepsByte before first second position byte := by
  have fromSecond : ∀ other, second.chunk.itemAt position = some other ↔
      position / 4096 ∈ second.pages ∧ other = 0 := by
    intro other
    rw [← Injection.covers_iff secondStep.1]
    constructor
    · intro supplied
      have covered := Chunk.Covers.of_itemAt supplied
      rw [Injection.itemAt_padding covered outside] at supplied
      exact ⟨covered, (Option.some.inj supplied).symm⟩
    · rintro ⟨covered, rfl⟩
      exact Injection.itemAt_padding covered outside
  have supplies := supplies_after_two firstStep secondStep position
  have sameKey := Injection.key_eq_iff first second
  unfold ChunkStore.Reads
  rw [supplies byte, fromSecond byte]
  constructor
  · rintro ⟨exists_, unique⟩
    have agrees : ∀ other,
        (∃ key, (MappingTable.chunks after).Supplies key position other) →
          other = byte := fun other ⟨key, supplied⟩ => unique key other supplied
    refine ⟨fun shared => ?_, fun same => ?_, fun other older => ?_⟩
    · exact (agrees 0 ((supplies 0).mpr
        (Or.inl ((fromSecond 0).mpr ⟨shared, rfl⟩)))).symm
    · rcases exists_ with ⟨shared, _⟩ | ⟨apart, _⟩ | older
      · exact Or.inl shared
      · exact absurd (sameKey.mpr same) apart
      · exact Or.inr older
    · exact agrees other ((supplies other).mpr (Or.inr (Or.inr older)))
  · intro keeps
    refine ⟨?_, fun key other supplied => ?_⟩
    · by_cases same : first.key = second.key
      · rcases keeps.replaced (sameKey.mp same) with shared | older
        · exact Or.inl ⟨shared, keeps.zeroOnSharedPage shared⟩
        · exact Or.inr (Or.inr older)
      · exact Or.inr (Or.inl ⟨same, captured⟩)
    · rcases (supplies other).mp ⟨key, supplied⟩ with shared | ⟨_, own⟩ | older
      · obtain ⟨onPage, rfl⟩ := (fromSecond other).mp shared
        exact (keeps.zeroOnSharedPage onPage).symm
      · rw [captured] at own
        exact (Option.some.inj own).symm
      · exact keeps.olderAgrees other older

/-- Every byte of a captured blob is readable at its own address after another
blob with disjoint bytes has been injected, exactly when each of its bytes meets
the condition. -/
theorem captured_readable_iff
    (before middle after : MappingTable)
    (first second : Injection)
    (firstStep : InjectionStep before first middle)
    (secondStep : InjectionStep middle second after)
    (apart : Disjoint first.range second.range) :
    (∀ (index : Nat) (inside : index < first.data.length),
      (MappingTable.chunks after).Reads (first.address.toNat + index)
        first.data[index]) ↔
      ∀ (index : Nat) (inside : index < first.data.length),
        KeepsByte before first second (first.address.toNat + index)
          first.data[index] := by
  apply forall_congr'
  intro index
  apply forall_congr'
  intro inside
  refine reads_after_two_iff firstStep secondStep
    (first.itemAt_captured inside) ?_
  exact Set.disjoint_left.mp apart
    ⟨Nat.le_add_right _ _, Nat.add_lt_add_left inside _⟩

/-- Two one-byte captures on one page: the second replaces the first. -/
theorem exists_capture_lost :
    ¬∀ (before middle after : MappingTable) (first second : Injection),
      before.WellFormed → before.PageAligned →
        InjectionStep before first middle →
          InjectionStep middle second after →
            Disjoint first.range second.range →
              ∀ (index : Nat) (inside : index < first.data.length),
                (MappingTable.chunks after).Reads
                  (first.address.toNat + index) first.data[index] := by
  intro always
  obtain ⟨_, after, succeeded, erased⟩ : ∃ value after,
      (do addDataToMapping [7] 0x1000 defaultPageSize
          addDataToMapping [9] 0x1010 defaultPageSize :
        EStateM Fault MappingTable Unit) ∅ = .ok value after ∧
        (after[(0x1000 : UInt64)]?.map fun mapping =>
          decide (mapping.startAddress = 0x1000 ∧
            mapping.data[0]? = some 0)) == some true :=
    exists_ok_of_check (by decide +kernel)
  obtain ⟨_, middle, firstOk, secondOk⟩ := stateBind_eq_ok.mp succeeded
  have readable := always ∅ middle after ⟨[7], 0x1000⟩ ⟨[9], 0x1010⟩
    ⟨by simp, by simp, fun _ _ _ => by
      rw [Function.onFun_apply, Set.disjoint_left]
      rintro _ ⟨_, found, _⟩
      simp at found⟩
    (by intro _ _ found; simp at found)
    ⟨by decide, firstOk⟩ ⟨by decide, secondOk⟩
    (by
      rw [Set.disjoint_left]
      rintro position ⟨_, below⟩ ⟨above, _⟩
      have firstEnd : position < 0x1000 + 1 := below
      have secondStart : 0x1010 ≤ position := above
      omega)
    0 (by decide)
  rw [beq_iff_eq, Option.map_eq_some_iff] at erased
  obtain ⟨mapping, found, values⟩ := erased
  obtain ⟨startsAt, zero⟩ := of_decide_eq_true values
  have supplied : (MappingTable.chunks after).Supplies 0x1000 0x1000 0 := by
    refine ⟨mapping.chunk, by rw [MappingTable.chunks, found]; rfl, ?_⟩
    have base : mapping.startAddress.toNat = 0x1000 := by
      rw [startsAt]
      rfl
    simpa [Mapping.chunk, Chunk.itemAt, base] using zero
  exact absurd (readable.2 0x1000 0 supplied) (by decide)

/-- Two captures on different pages are a run to which the equivalence
applies. -/
theorem captured_readable_iff_sample :
    ∃ middle after,
      let first : Injection := ⟨[7, 8], 0x1ff0⟩
      let second : Injection := ⟨[9], 0x2010⟩
      InjectionStep ∅ first middle ∧ InjectionStep middle second after ∧
        ((∀ (index : Nat) (inside : index < first.data.length),
          (MappingTable.chunks after).Reads (first.address.toNat + index)
            first.data[index]) ↔
          ∀ (index : Nat) (inside : index < first.data.length),
            KeepsByte ∅ first second (first.address.toNat + index)
              first.data[index]) := by
  obtain ⟨_, after, succeeded⟩ : ∃ value after,
      (do addDataToMapping [7, 8] 0x1ff0 defaultPageSize
          addDataToMapping [9] 0x2010 defaultPageSize :
        EStateM Fault MappingTable Unit) ∅ = .ok value after :=
    exists_ok_of_succeeds (by decide +kernel)
  obtain ⟨_, middle, firstOk, secondOk⟩ := stateBind_eq_ok.mp succeeded
  refine ⟨middle, after, ⟨by decide, firstOk⟩, ⟨by decide, secondOk⟩, ?_⟩
  refine captured_readable_iff ∅ middle after ⟨[7, 8], 0x1ff0⟩ ⟨[9], 0x2010⟩
    ⟨by decide, firstOk⟩ ⟨by decide, secondOk⟩ ?_
  rw [Set.disjoint_left]
  rintro position ⟨_, below⟩ ⟨above, _⟩
  have firstEnd : position < 0x1ff0 + 2 := below
  have secondStart : 0x2010 ≤ position := above
  omega

end Md2Core
