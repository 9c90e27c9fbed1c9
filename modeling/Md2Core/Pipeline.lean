import Md2Core.Augment.Process
import Md2Core.CoreWriter.Layout
import Mathlib.Data.List.Nodup
import Mathlib.Data.List.Pairwise

/-!
# From captured memory to the core image

The augmentation pass puts every captured blob into the mapping table, and the
writer lays the table out as an image. When no mapping carries data beforehand
and the blobs lie on disjoint pages, every captured byte resolves through
exactly one load segment of the image.
-/

namespace Md2Core

open Foundation

/-- No mapping carries bytes. -/
def MappingTable.Dataless (mappings : MappingTable) : Prop :=
  ∀ (key : UInt64) (mapping : Mapping),
    mappings[key]? = some mapping → mapping.data = []

/-- No two blobs touch a common page. -/
def OnDisjointPages (injections : List Injection) : Prop :=
  injections.Pairwise fun first second => Disjoint first.pages second.pages

/-- A blob shares no page with any other blob of the list. -/
def Isolated (injections : List Injection) (capture : Injection) : Prop :=
  ∀ other ∈ injections, other ≠ capture → Disjoint other.pages capture.pages

/-- Every blob of a list on disjoint pages is isolated. -/
theorem OnDisjointPages.isolated
    {injections : List Injection}
    {capture : Injection}
    (apart : OnDisjointPages injections)
    (captured : capture ∈ injections) :
    Isolated injections capture := by
  intro other member different
  have symmetric : Std.Symm fun first second : Injection =>
      Disjoint first.pages second.pages :=
    ⟨fun _ _ disjoint => disjoint.symm⟩
  exact List.Pairwise.forall apart member captured different

/-! ## The chunks of an augmented process -/

/-- The key and the chunk that an injection writes. -/
def Injection.entry (injection : Injection) : UInt64 × Chunk UInt8 :=
  (injection.key, injection.chunk)

section Run

variable {before after : MappingTable} {injections : List Injection}

/-- A run of injections writes their chunks in order. -/
theorem chunks_eq_writeAll
    (runs : RunsTo InjectionStep before injections after) :
    MappingTable.chunks after =
      (MappingTable.chunks before).writeAll (injections.map Injection.entry) := by
  rw [ChunkStore.writeAll, List.foldl_map]
  exact runs.observe_eq_foldl fun _ _ _ step => step.chunks_eq

/-- Injected blobs are not empty. -/
theorem data_ne_nil_of_runsTo
    (runs : RunsTo InjectionStep before injections after) :
    ∀ injection ∈ injections, injection.data ≠ [] := by
  intro injection member
  obtain ⟨_, _, step⟩ := runs.exists_step injection member
  exact step.1

/-- After a run, an isolated blob is the data of the mapping under its key. -/
theorem Isolated.chunk_eq
    (runs : RunsTo InjectionStep before injections after)
    {capture : Injection}
    (captured : capture ∈ injections)
    (isolated : Isolated injections capture) :
    ∃ mapping, after[capture.key]? = some mapping ∧
      mapping.chunk = capture.chunk := by
  have nonempty := data_ne_nil_of_runsTo runs
  have written : MappingTable.chunks after capture.key = some capture.chunk := by
    rw [chunks_eq_writeAll runs]
    apply ChunkStore.writeAll_of_forall_eq
    · exact Or.inl (List.mem_map_of_mem captured)
    · intro entry member sameKey
      obtain ⟨other, otherMember, rfl⟩ := List.mem_map.mp member
      by_contra different
      refine Injection.key_ne_of_disjoint (nonempty other otherMember)
        (nonempty capture captured) (isolated other otherMember ?_) sameKey
      rintro rfl
      exact different rfl
  exact Option.map_eq_some_iff.mp written

/-- After a run from mappings without data, the data of every mapping is that of
a captured blob or empty. -/
theorem chunk_eq_or_of_runsTo
    (runs : RunsTo InjectionStep before injections after)
    (dataless : before.Dataless)
    {key : UInt64}
    {mapping : Mapping}
    (found : after[key]? = some mapping) :
    (∃ capture ∈ injections, capture.key = key ∧
      capture.chunk = mapping.chunk) ∨ mapping.data = [] := by
  have holds : MappingTable.chunks after key = some mapping.chunk := by
    rw [MappingTable.chunks, found, Option.map_some]
  rw [chunks_eq_writeAll runs] at holds
  rcases ChunkStore.mem_or_of_writeAll holds with written | older
  · obtain ⟨capture, member, entryValue⟩ := List.mem_map.mp written
    obtain ⟨sameKey, chunkValue⟩ := Prod.mk.inj entryValue
    exact Or.inl ⟨capture, member, sameKey, chunkValue⟩
  · obtain ⟨old, oldFound, chunkValue⟩ := Option.map_eq_some_iff.mp older
    right
    calc mapping.data
        = mapping.chunk.items := rfl
      _ = old.chunk.items := by rw [chunkValue]
      _ = [] := dataless key old oldFound

/-- After a run from mappings without data, the data of a mapping covers an
address on a page of an isolated blob exactly when the mapping is under the key
of the blob. -/
theorem Isolated.covers_iff
    (runs : RunsTo InjectionStep before injections after)
    (dataless : before.Dataless)
    {capture : Injection}
    (captured : capture ∈ injections)
    (isolated : Isolated injections capture)
    {address : Nat}
    (onPage : address / 4096 ∈ capture.pages)
    {key : UInt64}
    {mapping : Mapping}
    (found : after[key]? = some mapping) :
    mapping.chunk.Covers address ↔ key = capture.key := by
  have nonempty := data_ne_nil_of_runsTo runs
  constructor
  · intro covers
    rcases chunk_eq_or_of_runsTo runs dataless found with
      ⟨other, member, rfl, chunkValue⟩ | empty
    · rw [← chunkValue, Injection.covers_iff (nonempty other member)] at covers
      by_contra different
      refine Set.disjoint_left.mp (isolated other member ?_) covers onPage
      rintro rfl
      exact different rfl
    · rw [Chunk.Covers, Mapping.chunk, empty, List.length_nil] at covers
      omega
  · rintro rfl
    obtain ⟨own, ownFound, chunkValue⟩ := isolated.chunk_eq runs captured
    rw [found, Option.some.injEq] at ownFound
    rw [ownFound, chunkValue, Injection.covers_iff (nonempty capture captured)]
    exact onPage

/-- After a run from mappings without data, every captured blob is the data of
the mapping under its key. -/
theorem chunk_of_captured
    (runs : RunsTo InjectionStep before injections after)
    (apart : OnDisjointPages injections)
    {capture : Injection}
    (captured : capture ∈ injections) :
    ∃ mapping, after[capture.key]? = some mapping ∧
      mapping.chunk = capture.chunk :=
  (apart.isolated captured).chunk_eq runs captured

/-- After a run from mappings without data, the data of a mapping covers a
captured byte exactly when the mapping is under the key of the blob. -/
theorem covers_captured_iff
    (runs : RunsTo InjectionStep before injections after)
    (dataless : before.Dataless)
    (apart : OnDisjointPages injections)
    {capture : Injection}
    (captured : capture ∈ injections)
    {index : Nat}
    (inside : index < capture.data.length)
    {key : UInt64}
    {mapping : Mapping}
    (found : after[key]? = some mapping) :
    mapping.chunk.Covers (capture.address.toNat + index) ↔
      key = capture.key := by
  apply (apart.isolated captured).covers_iff runs dataless captured _ found
  exact ⟨_, Nat.le_add_right _ _, Nat.add_lt_add_left inside _, rfl⟩

end Run

/-! ## Load segments of the image -/

/-- A load segment backs the addresses that the data of its mapping covers. -/
theorem LoadedAs.backs_iff
    {image : List UInt8}
    {mapping : Mapping}
    {load : Segment}
    (loaded : LoadedAs image mapping load)
    (address : Nat) :
    (load.type = 1 ∧ load.Backs address) ↔ mapping.chunk.Covers address := by
  rw [Segment.Backs, loaded.vaddr, loaded.filesz, Chunk.Covers, Mapping.chunk,
    and_iff_right loaded.type]

/-- The file holds the data of the mapping at the positions that the load
segment maps its addresses to. -/
theorem LoadedAs.getElem?_eq
    {image : List UInt8}
    {mapping : Mapping}
    {load : Segment}
    (loaded : LoadedAs image mapping load)
    {address : Nat}
    {byte : UInt8}
    (supplied : mapping.chunk.itemAt address = some byte) :
    image[load.offset + (address - load.vaddr)]? = some byte := by
  have covers := Chunk.Covers.of_itemAt supplied
  rw [Chunk.itemAt, if_pos covers.1] at supplied
  rw [loaded.vaddr]
  have inSlice : (slice image load.offset load.filesz)[
      address - mapping.startAddress.toNat]? = some byte := by
    rw [loaded.content]
    exact supplied
  exact getElem?_of_slice inSlice

/-- A condition that one key of a table decides selects one entry. -/
theorem MappingTable.filter_toList_eq_singleton
    {mappings : MappingTable}
    {key : UInt64}
    {mapping : Mapping}
    {selects : UInt64 × Mapping → Bool}
    (found : mappings[key]? = some mapping)
    (decides : ∀ (other : UInt64) (candidate : Mapping),
      mappings[other]? = some candidate →
        (selects (other, candidate) = true ↔ other = key)) :
    mappings.toList.filter selects = [(key, mapping)] := by
  have distinct : mappings.toList.Nodup := by
    apply Std.ExtTreeMap.distinct_keys_toList.imp
    rintro first _ different rfl
    exact different Std.ReflCmp.compare_self
  have member : (key, mapping) ∈ mappings.toList :=
    Std.ExtTreeMap.mem_toList_iff_getElem?_eq_some.mpr found
  have sameFilter : mappings.toList.filter selects =
      mappings.toList.filter (· == (key, mapping)) := by
    apply List.filter_congr
    rintro ⟨other, candidate⟩ entryMember
    have candidateFound :=
      Std.ExtTreeMap.mem_toList_iff_getElem?_eq_some.mp entryMember
    rw [Bool.eq_iff_iff, decides other candidate candidateFound, beq_iff_eq,
      Prod.mk.injEq]
    constructor
    · rintro rfl
      rw [found, Option.some.injEq] at candidateFound
      exact ⟨rfl, candidateFound.symm⟩
    · exact And.left
  rw [sameFilter, List.filter_beq, List.count_eq_one_of_mem distinct member,
    List.replicate_one]

/-- An address resolves to a byte when one mapping supplies the byte and is the
only one whose data covers the address. -/
theorem resolvesTo_of_unique
    {process : CrashedProcess}
    {image : List UInt8}
    (written : writeCore process = .ok image)
    {key : UInt64}
    {mapping : Mapping}
    {address : Nat}
    {byte : UInt8}
    (found : process.mappings[key]? = some mapping)
    (supplied : mapping.chunk.itemAt address = some byte)
    (unique : ∀ (other : UInt64) (candidate : Mapping),
      process.mappings[other]? = some candidate →
        (candidate.chunk.Covers address ↔ other = key)) :
    ResolvesTo image address byte := by
  obtain ⟨notes, note, front, _, headers, noteType, _, _, _, imageParts⟩ :=
    writeCore_ok written
  have loaded := loadSegments_loadedAs imageParts
  rw [MappingTable.values, List.forall₂_map_left_iff] at loaded
  let covering : UInt64 × Mapping → Bool := fun entry =>
    decide (entry.2.chunk.Covers address)
  let backing : Segment → Bool := fun candidate =>
    decide (candidate.type = 1 ∧ candidate.Backs address)
  have filtered := List.rel_filter (p := covering) (q := backing)
    (fun entry load entryLoaded => by
      simp only [covering, backing, decide_eq_true_eq]
      exact (entryLoaded.backs_iff address).symm) loaded
  have single : process.mappings.toList.filter covering = [(key, mapping)] := by
    apply MappingTable.filter_toList_eq_singleton found
    intro other candidate candidateFound
    exact decide_eq_true_iff.trans (unique other candidate candidateFound)
  rw [single, List.forall₂_cons_left_iff] at filtered
  obtain ⟨load, others, entryLoaded, noOthers, loadsFiltered⟩ := filtered
  rw [List.forall₂_nil_left_iff] at noOthers
  refine ⟨_, load, headers, ?_, entryLoaded.getElem?_eq supplied⟩
  rw [List.filter_cons_of_neg (by simp [noteType]), ← noOthers]
  exact loadsFiltered

/-! ## Captured bytes in the image -/

/-- Captured memory survives the pipeline. When no mapping carries data and the
captured blobs lie on disjoint pages, every byte of every blob that the pass
injects resolves in the written image, through exactly one load segment, to
itself. -/
theorem captured_resolves
    (process augmented : CrashedProcess)
    (image : List UInt8)
    (dataless : process.mappings.Dataless)
    (apart : ∀ captures, process.captures = .ok captures →
      OnDisjointPages captures)
    (injected : augmentProcess process = .ok () augmented)
    (written : writeCore augmented = .ok image) :
    ∃ captures, process.captures = .ok captures ∧
      ∀ capture ∈ captures, ∀ (index : Nat)
        (inside : index < capture.data.length),
          ResolvesTo image (capture.address.toNat + index)
            capture.data[index] := by
  obtain ⟨captures, captured, mappings, runs, rfl⟩ := augmentProcess_ok injected
  have disjoint := apart captures captured
  refine ⟨captures, captured, fun capture member index inside => ?_⟩
  obtain ⟨mapping, found, chunkValue⟩ := chunk_of_captured runs disjoint member
  apply resolvesTo_of_unique written found
  · rw [chunkValue]
    exact capture.itemAt_captured inside
  · intro other candidate candidateFound
    exact covers_captured_iff runs dataless disjoint member inside candidateFound

/-- A process with a stack, dynamic-linker data and a `_DYNAMIC` block, all in
one mapping. -/
def sampleCrash : CrashedProcess :=
  let mappings : MappingTable := (∅ : MappingTable).insert 0x10000
    ⟨0x10000, 0x20000, 0, .readWrite, none, []⟩
  { CrashedProcess.new .x86_64 with
    mappings
    threads := [⟨7, 0x12010, [1, 2, 3], none⟩]
    dsoDebug := { DsoDebug.default with
      version := 1
      dynamic := 0x14000
      dynamicData := [21, 0, 0, 0, 0, 0, 0, 0, 0, 0, 0, 0, 0, 0, 0, 0] } }

theorem sampleCrash_dataless : sampleCrash.mappings.Dataless := by
  intro key mapping found
  rw [sampleCrash, MappingTable.getElem?_insert] at found
  split at found
  · obtain rfl := Option.some.inj found
    rfl
  · simp at found

/-- The three captured blobs of the sample process lie on different pages. -/
theorem sampleCrash_captures :
    ∃ captures, sampleCrash.captures = .ok captures ∧ captures.length = 3 ∧
      OnDisjointPages captures := by
  have evaluated : (sampleCrash.captures.map fun captures =>
      captures.map fun capture => (capture.address.toNat, capture.data.length)) =
        .ok [(0x12010, 3), (4096, 40), (0x14000, 16)] := by
    decide +kernel
  obtain ⟨captures, captured, ranges⟩ := map_eq_ok.mp evaluated
  have three : captures.length = 3 := by
    simpa using congrArg List.length ranges
  refine ⟨captures, captured, three, ?_⟩
  have rangesApart : (captures.map fun capture =>
      (capture.address.toNat, capture.data.length)).Pairwise
        fun first second => Disjoint (pagesOf 4096 first.1 first.2)
          (pagesOf 4096 second.1 second.2) := by
    rw [ranges]
    simp only [List.pairwise_cons, List.forall_mem_cons, List.not_mem_nil,
      IsEmpty.forall_iff, implies_true, and_true, List.Pairwise.nil]
    refine ⟨⟨?_, ?_⟩, ?_⟩ <;>
      exact (disjoint_pagesOf_iff (by decide) (by decide) (by decide)).mpr
        (by decide)
  rw [List.pairwise_map] at rangesApart
  exact rangesApart

/-- The sample process is converted, and its captured bytes resolve. -/
theorem captured_resolves_sample :
    ∃ augmented image captures,
      augmentProcess sampleCrash = .ok () augmented ∧
      writeCore augmented = .ok image ∧
      sampleCrash.captures = .ok captures ∧
      captures.length = 3 ∧
      ∀ capture ∈ captures, ∀ (index : Nat)
        (inside : index < capture.data.length),
          ResolvesTo image (capture.address.toNat + index)
            capture.data[index] := by
  obtain ⟨_, augmented, injected, succeeds⟩ : ∃ value augmented,
      augmentProcess sampleCrash = .ok value augmented ∧
        (writeCore augmented).isOk = true :=
    exists_ok_of_check (by decide +kernel)
  obtain ⟨image, written⟩ := exists_ok_of_isOk succeeds
  obtain ⟨captures, captured, three, apart⟩ := sampleCrash_captures
  obtain ⟨others, othersOk, resolves⟩ := captured_resolves sampleCrash augmented
    image sampleCrash_dataless
    (fun others othersOk => by
      rw [captured, Except.ok.injEq] at othersOk
      exact othersOk ▸ apart)
    injected written
  rw [captured, Except.ok.injEq] at othersOk
  subst othersOk
  exact ⟨augmented, image, captures, injected, written, captured, three,
    resolves⟩

end Md2Core
