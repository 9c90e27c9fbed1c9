import Md2Core.Foundation.Memory
import Md2Core.Foundation.Precedence
import Md2Core.Pipeline

/-!
# The memory of a core image

A debugger reads the memory of the crashed process through the load segments of
the image. When the captured blobs lie on disjoint pages, this memory is exactly
the captured one: every page that a blob lies on, with zeros around the blob, and
nothing else.
-/

namespace Md2Core

open Foundation

/-- The memory that an image gives a debugger. An address is readable when
exactly one load segment backs it. -/
def imageMemory (image : List UInt8) : Memory := fun address => do
  let segments ← readProgramHeaders image
  match segments.filter fun candidate =>
      decide (candidate.type = 1 ∧ candidate.Backs address) with
  | [segment] => image[segment.offset + (address - segment.vaddr)]?
  | _ => none

/-- Reading an image at an address is resolving the address. -/
theorem imageMemory_eq_some_iff
    {image : List UInt8}
    {address : Nat}
    {byte : UInt8} :
    imageMemory image address = some byte ↔ ResolvesTo image address byte := by
  unfold imageMemory ResolvesTo
  rw [Option.bind_eq_bind, Option.bind_eq_some_iff]
  constructor
  · rintro ⟨segments, headers, supplied⟩
    split at supplied
    · next segment backing => exact ⟨segments, segment, headers, backing, supplied⟩
    · contradiction
  · rintro ⟨segments, segment, headers, backing, supplied⟩
    refine ⟨segments, headers, ?_⟩
    rw [backing]
    exact supplied

/-! ## Captured memory -/

/-- The memory of the pages that a blob lies on: its bytes at their addresses,
zeros around them. -/
def Injection.pageMemory (injection : Injection) : Memory := fun address =>
  let start := injection.address.toNat
  if roundDown 4096 start ≤ address ∧
      address < roundUp 4096 (start + injection.data.length) then
    some (if start ≤ address then injection.data.getD (address - start) 0 else 0)
  else
    none

/-- The memory of several blobs. The first blob that reaches an address gives its
byte. -/
def capturedMemory (captures : List Injection) : Memory := fun address =>
  captures.findSome? fun capture => capture.pageMemory address

/-- The padded chunk of a blob gives an address what its pages give it. -/
theorem Injection.itemAt_chunk (injection : Injection) :
    injection.chunk.itemAt = injection.pageMemory := by
  funext address
  have covers := injectedChunk_covers_iff defaultPageSize injection.data
    injection.address address
  by_cases covered : injection.chunk.Covers address
  · exact (injectedChunk_itemAt covered).trans (if_pos (covers.mp covered)).symm
  · have absent : injection.chunk.itemAt address = none := by
      rw [Option.eq_none_iff_forall_not_mem]
      intro byte supplied
      exact covered (Chunk.Covers.of_itemAt supplied)
    rw [absent]
    exact (if_neg fun inside => covered (covers.mpr inside)).symm

/-- A blob lies in the memory of its pages. -/
theorem Injection.holds_pageMemory (injection : Injection) :
    injection.pageMemory.Holds injection.address.toNat injection.data := by
  intro index byte found
  obtain ⟨inside, value⟩ := List.getElem?_eq_some_iff.mp found
  rw [← injection.itemAt_chunk, injection.itemAt_captured inside, value]

/-- The memory of a blob reaches the pages that the blob lies on. -/
theorem Injection.page_of_pageMemory
    {injection : Injection}
    (nonempty : injection.data ≠ [])
    {address : Nat}
    {byte : UInt8}
    (supplied : injection.pageMemory address = some byte) :
    address / 4096 ∈ injection.pages := by
  rw [← injection.itemAt_chunk] at supplied
  exact (Injection.covers_iff nonempty address).mp (.of_itemAt supplied)

/-- Blobs on disjoint pages do not disagree about a byte. -/
theorem OnDisjointPages.capturedMemory_eq
    {captures : List Injection}
    {capture : Injection}
    {address : Nat}
    {byte : UInt8}
    (apart : OnDisjointPages captures)
    (nonempty : ∀ capture ∈ captures, capture.data ≠ [])
    (captured : capture ∈ captures)
    (supplied : capture.pageMemory address = some byte) :
    capturedMemory captures address = some byte := by
  apply findSome?_eq_some_of_agree captured supplied
  intro other member another otherSupplied
  by_cases same : other = capture
  · rw [same, supplied] at otherSupplied
    exact (Option.some.inj otherSupplied).symm
  · have onPage := Injection.page_of_pageMemory (nonempty capture captured) supplied
    have onOther := Injection.page_of_pageMemory (nonempty other member) otherSupplied
    exact absurd onPage
      (Set.disjoint_left.mp (apart.isolated captured other member same) onOther)

/-- The addresses and lengths of blobs. -/
def captureRanges (captures : List Injection) : List (Nat × Nat) :=
  captures.map fun capture => (capture.address.toNat, capture.data.length)

/-- Whether blobs lie on disjoint pages is decided by their ranges. -/
theorem onDisjointPages_of_ranges
    {captures : List Injection}
    {ranges : List (Nat × Nat)}
    (evaluated : captureRanges captures = ranges)
    (positive : ∀ range ∈ ranges, 0 < range.2)
    (apart : ranges.Pairwise fun first second =>
      roundUp 4096 (first.1 + first.2) ≤ roundDown 4096 second.1 ∨
        roundUp 4096 (second.1 + second.2) ≤ roundDown 4096 first.1) :
    OnDisjointPages captures := by
  rw [← evaluated, captureRanges] at apart positive
  rw [List.pairwise_map] at apart
  rw [List.forall_mem_map] at positive
  apply apart.imp_of_mem
  intro first second firstMember secondMember separated
  exact (disjoint_pagesOf_iff (by decide) (positive first firstMember)
    (positive second secondMember)).mpr separated

/-! ## Reading the image -/

/-- An address that resolves is given its byte by the data of a mapping. -/
theorem exists_mapping_of_resolvesTo
    {process : CrashedProcess}
    {image : List UInt8}
    {address : Nat}
    {byte : UInt8}
    (written : writeCore process = .ok image)
    (resolves : ResolvesTo image address byte) :
    ∃ (key : UInt64) (mapping : Mapping),
      process.mappings[key]? = some mapping ∧
        mapping.chunk.itemAt address = some byte := by
  obtain ⟨notes, note, front, _, headers, noteType, _, _, _, imageParts⟩ :=
    writeCore_ok written
  obtain ⟨segments, segment, segmentsRead, backing, supplied⟩ := resolves
  obtain rfl := Option.some.inj (headers.symm.trans segmentsRead)
  have member : segment ∈ List.filter (fun candidate : Segment =>
      decide (candidate.type = 1 ∧ candidate.Backs address))
        (note :: loadSegments image.length front.length
          process.mappings.values) := by
    rw [backing]
    exact List.mem_singleton_self segment
  rw [List.filter_cons_of_neg (by simp [noteType]), List.mem_filter,
    decide_eq_true_eq] at member
  obtain ⟨index, rfl⟩ := List.mem_iff_get.mp member.1
  obtain ⟨lengths, pairs⟩ :=
    List.forall₂_iff_get.mp (loadSegments_loadedAs imageParts)
  have loaded := pairs index (lengths.symm ▸ index.isLt) index.isLt
  obtain ⟨key, found⟩ := MappingTable.mem_values.mp (List.get_mem _ _)
  obtain ⟨own, ownSupplied⟩ :=
    Chunk.covers_iff_exists.mp ((loaded.backs_iff address).mp member.2)
  refine ⟨key, _, found, ?_⟩
  have read := loaded.getElem?_eq ownSupplied
  rw [supplied, Option.some.injEq] at read
  rw [ownSupplied, read]

section Augmented

variable
  {process augmented : CrashedProcess}
  {captures : List Injection}
  {image : List UInt8}

/-- An isolated blob gives the image memory the bytes of its pages. -/
theorem Augments.imageMemory_of_isolated
    (augments : Augments process captures augmented)
    (dataless : process.mappings.Dataless)
    (written : writeCore augmented = .ok image)
    {capture : Injection}
    (captured : capture ∈ captures)
    (isolated : Isolated captures capture)
    {address : Nat}
    {byte : UInt8}
    (supplied : capture.pageMemory address = some byte) :
    imageMemory image address = some byte := by
  obtain ⟨mappings, runs, rfl⟩ := augments
  obtain ⟨mapping, found, chunkValue⟩ := isolated.chunk_eq runs captured
  have onPage := Injection.page_of_pageMemory
    (data_ne_nil_of_runsTo runs capture captured) supplied
  rw [imageMemory_eq_some_iff]
  apply resolvesTo_of_unique written found
  · rw [chunkValue, capture.itemAt_chunk, supplied]
  · intro other candidate candidateFound
    exact isolated.covers_iff runs dataless captured onPage candidateFound

/-- An isolated blob lies in the image memory at its own address. -/
theorem Augments.holds_of_isolated
    (augments : Augments process captures augmented)
    (dataless : process.mappings.Dataless)
    (written : writeCore augmented = .ok image)
    {capture : Injection}
    (captured : capture ∈ captures)
    (isolated : Isolated captures capture) :
    (imageMemory image).Holds capture.address.toNat capture.data := by
  intro index byte found
  exact augments.imageMemory_of_isolated dataless written captured isolated
    (capture.holds_pageMemory index byte found)

/-- The image memory reaches no further than the captured blobs. -/
theorem Augments.exists_capture_of_imageMemory
    (augments : Augments process captures augmented)
    (dataless : process.mappings.Dataless)
    (written : writeCore augmented = .ok image)
    {address : Nat}
    {byte : UInt8}
    (supplied : imageMemory image address = some byte) :
    ∃ capture ∈ captures, capture.pageMemory address = some byte := by
  obtain ⟨mappings, runs, rfl⟩ := augments
  obtain ⟨key, mapping, found, given⟩ :=
    exists_mapping_of_resolvesTo written (imageMemory_eq_some_iff.mp supplied)
  rcases chunk_eq_or_of_runsTo runs dataless found with
    ⟨capture, member, _, chunkValue⟩ | empty
  · refine ⟨capture, member, ?_⟩
    rw [← capture.itemAt_chunk, chunkValue, given]
  · have covers := Chunk.Covers.of_itemAt given
    rw [Chunk.Covers, Mapping.chunk, empty, List.length_nil] at covers
    omega

/-- When the blobs lie on disjoint pages, the memory of the image is the captured
memory. -/
theorem Augments.imageMemory_eq
    (augments : Augments process captures augmented)
    (dataless : process.mappings.Dataless)
    (written : writeCore augmented = .ok image)
    (apart : OnDisjointPages captures) :
    imageMemory image = capturedMemory captures := by
  have nonempty : ∀ capture ∈ captures, capture.data ≠ [] := by
    obtain ⟨_, runs, _⟩ := augments
    exact data_ne_nil_of_runsTo runs
  funext address
  apply Option.ext
  intro byte
  constructor
  · intro supplied
    obtain ⟨capture, captured, given⟩ :=
      augments.exists_capture_of_imageMemory dataless written supplied
    exact apart.capturedMemory_eq nonempty captured given
  · intro supplied
    obtain ⟨capture, captured, given⟩ := List.exists_of_findSome?_eq_some supplied
    exact augments.imageMemory_of_isolated dataless written captured
      (apart.isolated captured) given

end Augmented

end Md2Core
