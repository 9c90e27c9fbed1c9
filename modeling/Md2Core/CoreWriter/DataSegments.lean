import Md2Core.Pipeline
import Md2Core.Foundation.Regions

/-!
# Placement of captured data in the image

The writer pads the note segment to a page boundary and then lays out the data
of the mappings one after the other. Every blob that injections put into a table
without data is a whole number of pages under a page-aligned address, so all
data-carrying segments are page-aligned in memory and in the file.
-/

namespace Md2Core

open Foundation

/-! ## Tables that carry whole pages -/

/-- A successful injection at the default page size, of any blob. -/
def InjectionCall
    (before : MappingTable)
    (injection : Injection)
    (after : MappingTable) : Prop :=
  addDataToMapping injection.data injection.address defaultPageSize before =
    .ok () after

/-- A mapping that carries data starts at a page boundary and carries whole
pages. -/
def Mapping.CarriesPages (mapping : Mapping) : Prop :=
  mapping.data ≠ [] →
    4096 ∣ mapping.startAddress.toNat ∧ 4096 ∣ mapping.data.length

/-- Every mapping of the table carries whole pages. -/
def MappingTable.CarriesPages (mappings : MappingTable) : Prop :=
  ∀ (key : UInt64) (mapping : Mapping),
    mappings[key]? = some mapping → mapping.CarriesPages

/-- A mapping at the page of a blob with the padded blob carries whole pages. -/
theorem carriesPages_of_injectedBytes
    {data : List UInt8}
    {address : UInt64}
    {mapping : Mapping}
    (start : mapping.startAddress = pageStart defaultPageSize address)
    (bytes : mapping.data = injectedBytes defaultPageSize data address) :
    mapping.CarriesPages := by
  intro _
  rw [start, bytes, toNat_pageStart_default, injectedBytes, length_paddedBytes]
  exact ⟨dvd_roundDown 4096 _, dvd_roundUp (by decide) _⟩

/-- An injection keeps whole pages, whether it splits a mapping or not. -/
theorem InjectionCall.carriesPages
    (before : MappingTable)
    (injection : Injection)
    (after : MappingTable)
    (carries : before.CarriesPages)
    (call : InjectionCall before injection after) :
    after.CarriesPages := by
  cases (addDataToMapping_ok call).2 with
  | split key existing chosen shiftable result =>
      apply forall_entries_of_split carries _ _ result
      · exact carriesPages_of_injectedBytes rfl rfl
      · exact fun _ => carries key existing (found_of_containingEntry chosen)
  | synthetic endAddress uncovered endValue ordered result =>
      apply forall_entries_of_insert carries _ result
      exact carriesPages_of_injectedBytes rfl rfl

/-- Injections into a table without data leave whole pages. -/
theorem carriesPages_of_runsTo
    {before after : MappingTable}
    {injections : List Injection}
    (dataless : before.Dataless)
    (runs : RunsTo InjectionCall before injections after) :
    after.CarriesPages := by
  refine runs.preserves InjectionCall.carriesPages ?_
  intro key mapping found nonempty
  exact absurd (dataless key mapping found) nonempty

/-! ## Segments that carry data -/

/-- The segment has bytes in the file. -/
def carriesData (load : Segment) : Bool :=
  decide (0 < load.filesz)

/-- The bytes of a segment in the file. -/
def fileRange (load : Segment) : Set Nat :=
  Set.Ico load.offset (load.offset + load.filesz)

/-- The file ranges of the segments that carry data follow one another. -/
theorem consecutive_loadSegments
    (emptyOffset offset : Nat)
    (mappings : List Mapping) :
    Consecutive Segment.offset Segment.filesz offset
      ((loadSegments emptyOffset offset mappings).filter carriesData) := by
  induction mappings generalizing offset with
  | nil => trivial
  | cons mapping rest inductionHypothesis =>
      have others := inductionHypothesis (offset + mapping.data.length)
      rw [loadSegments, List.filter_cons]
      cases data : mapping.data with
      | nil =>
          rw [data] at others
          simpa [carriesData] using others
      | cons byte bytes =>
          rw [data] at others
          rw [if_pos (by simp [carriesData])]
          exact ⟨rfl, others⟩

/-- Together these file ranges are as long as the data of the mappings. -/
theorem sum_filesz_loadSegments
    (emptyOffset offset : Nat)
    (mappings : List Mapping) :
    (((loadSegments emptyOffset offset mappings).filter carriesData).map
        Segment.filesz).sum =
      (mappings.flatMap (·.data)).length := by
  induction mappings generalizing offset with
  | nil => rfl
  | cons mapping rest inductionHypothesis =>
      have others := inductionHypothesis (offset + mapping.data.length)
      rw [loadSegments, List.filter_cons, List.flatMap_cons,
        List.length_append, ← others]
      cases data : mapping.data with
      | nil => simp [carriesData]
      | cons byte bytes => simp [carriesData]

/-- The segments are those of the mappings. -/
theorem exists_mapping_of_loadSegment
    {emptyOffset offset : Nat}
    {mappings : List Mapping}
    {load : Segment}
    (member : load ∈ loadSegments emptyOffset offset mappings) :
    ∃ mapping ∈ mappings, load.type = 1 ∧ load.align = 4096 ∧
      load.vaddr = mapping.startAddress.toNat ∧
      load.filesz = mapping.data.length := by
  induction mappings generalizing offset with
  | nil => exact absurd member List.not_mem_nil
  | cons mapping rest inductionHypothesis =>
      rw [loadSegments, List.mem_cons] at member
      rcases member with rfl | later
      · exact ⟨mapping, List.mem_cons_self, rfl, rfl, rfl, rfl⟩
      · obtain ⟨other, otherMember, fields⟩ := inductionHypothesis later
        exact ⟨other, List.mem_cons_of_mem _ otherMember, fields⟩

/-- The segments that carry data are page-aligned in memory and in the file, have
whole pages, do not overlap, and make up the file from the page boundary behind
the notes on. -/
structure DataPlaced
    (imageLength : Nat)
    (note : Segment)
    (loads : List Segment) : Prop where
  aligned : ∀ load ∈ loads, 0 < load.filesz →
    load.type = 1 ∧ load.align = 4096 ∧ load.align ∣ load.offset ∧
      load.align ∣ load.vaddr ∧ 4096 ∣ load.filesz
  apart : (loads.filter carriesData).Pairwise fun first second =>
    Disjoint (fileRange first) (fileRange second)
  behindNotes : ∀ load ∈ loads, 0 < load.filesz →
    note.offset + note.filesz ≤ load.offset
  insideFile : ∀ load ∈ loads, 0 < load.filesz →
    load.offset + load.filesz ≤ imageLength
  covering : ∀ position,
    roundUp 4096 (note.offset + note.filesz) ≤ position →
      position < imageLength → ∃ load ∈ loads, position ∈ fileRange load

/-- Load segments of mappings that carry whole pages are placed well behind a
page-aligned front. -/
theorem dataPlaced_loadSegments
    {image front : List UInt8}
    {note : Segment}
    {mappings : List Mapping}
    (pages : ∀ mapping ∈ mappings, mapping.CarriesPages)
    (frontEnd : front.length = roundUp 4096 (note.offset + note.filesz))
    (written : image = front ++ mappings.flatMap (·.data)) :
    DataPlaced image.length note
      (loadSegments image.length front.length mappings) := by
  have imageLength : image.length =
      front.length + (mappings.flatMap (·.data)).length := by
    rw [written, List.length_append]
  have consecutive := consecutive_loadSegments image.length front.length mappings
  have total := sum_filesz_loadSegments image.length front.length mappings
  have filtered : ∀ load ∈ loadSegments image.length front.length mappings,
      0 < load.filesz → load ∈ (loadSegments image.length front.length
        mappings).filter carriesData := by
    intro load member positive
    exact List.mem_filter.mpr ⟨member, decide_eq_true positive⟩
  have whole : ∀ load ∈ (loadSegments image.length front.length
      mappings).filter carriesData,
      load.type = 1 ∧ load.align = 4096 ∧ 4096 ∣ load.vaddr ∧
        4096 ∣ load.filesz := by
    intro load member
    obtain ⟨inLoads, positive⟩ := List.mem_filter.mp member
    obtain ⟨mapping, inMappings, type, align, vaddr, filesz⟩ :=
      exists_mapping_of_loadSegment inLoads
    have nonempty : mapping.data ≠ [] := by
      intro empty
      rw [carriesData, filesz, empty] at positive
      exact absurd (of_decide_eq_true positive) (Nat.lt_irrefl 0)
    have boundaries := pages mapping inMappings nonempty
    rw [← vaddr, ← filesz] at boundaries
    exact ⟨type, align, boundaries⟩
  have starts := consecutive.dvd_start
    (frontEnd ▸ dvd_roundUp (by decide) _)
    fun load member => (whole load member).2.2.2
  have within := consecutive.within
  rw [total] at within
  refine ⟨?_, ?_, ?_, ?_, ?_⟩
  · intro load member positive
    have inFiltered := filtered load member positive
    obtain ⟨type, align, vaddr, filesz⟩ := whole load inFiltered
    rw [align]
    exact ⟨type, rfl, starts load inFiltered, vaddr, filesz⟩
  · apply consecutive.pairwise.imp
    intro first second before
    rw [Set.disjoint_left]
    rintro position ⟨_, below⟩ ⟨above, _⟩
    omega
  · intro load member positive
    have bounds := within load (filtered load member positive)
    have grows := le_roundUp 4096 (note.offset + note.filesz)
    omega
  · intro load member positive
    have bounds := within load (filtered load member positive)
    omega
  · intro position above below
    obtain ⟨load, member, covers⟩ := consecutive.exists_covering position
      (by omega) (by omega)
    exact ⟨load, (List.mem_filter.mp member).1, covers⟩

/-! ## The whole image -/

/-- Every image of a process whose mappings carried no data before any sequence
of injections has its data-carrying load segments page-aligned, apart from one
another, and filling the file behind the notes. -/
theorem writeCore_places_data
    (process : CrashedProcess)
    (injections : List Injection)
    (after : MappingTable)
    (image : List UInt8)
    (dataless : process.mappings.Dataless)
    (runs : RunsTo InjectionCall process.mappings injections after)
    (succeeded : writeCore { process with mappings := after } = .ok image) :
    ∃ (note : Segment) (loads : List Segment),
      readProgramHeaders image = some (note :: loads) ∧
      note.type = 4 ∧
      loads.length = after.size ∧
      DataPlaced image.length note loads := by
  obtain ⟨notes, note, front, _, headers, type, _, _, frontEnd, written⟩ :=
    writeCore_ok succeeded
  refine ⟨note, _, headers, type, ?_, dataPlaced_loadSegments ?_ frontEnd written⟩
  · rw [length_loadSegments, MappingTable.length_values]
  · have pages := carriesPages_of_runsTo dataless runs
    intro mapping member
    obtain ⟨key, found⟩ := MappingTable.mem_values.mp member
    exact pages key mapping found

/-- A process with a file mapping into which a stack is injected. -/
theorem writeCore_places_data_sample :
    let process := { CrashedProcess.new .x86_64 with
      mappings := MappingTable.single sampleFileMapping }
    ∃ (after : MappingTable) (image : List UInt8),
      RunsTo InjectionCall process.mappings [⟨[1, 2, 3], 0x3200⟩] after ∧
      writeCore { process with mappings := after } = .ok image ∧
      ∃ (note : Segment) (loads : List Segment),
        readProgramHeaders image = some (note :: loads) ∧
        note.type = 4 ∧
        loads.length = after.size ∧
        DataPlaced image.length note loads := by
  intro process
  obtain ⟨_, after, injected, writes⟩ : ∃ value after,
      addDataToMapping [1, 2, 3] 0x3200 defaultPageSize
          (MappingTable.single sampleFileMapping) = .ok value after ∧
        (writeCore { CrashedProcess.new .x86_64 with
          mappings := after }).isOk = true :=
    exists_ok_of_check (by decide +kernel)
  obtain ⟨image, succeeded⟩ := exists_ok_of_isOk writes
  have runs : RunsTo InjectionCall process.mappings [⟨[1, 2, 3], 0x3200⟩]
      after := .single injected
  exact ⟨after, image, runs, succeeded,
    writeCore_places_data process [⟨[1, 2, 3], 0x3200⟩] after image
      (MappingTable.forall_single rfl) runs succeeded⟩

end Md2Core
