import Md2Core.Main
import Md2Core.RustMinidump.AuxvStream

/-!
# The mappings of the kernel through a conversion

The kernel knows the address space of the crashed process, and the minidump has its
maps file: as records of the maps stream, or as text in place of the auxiliary vector.
The records lack the entries that the minidump reader drops. A debugger that opens the
converted core finds at every address the file, the file position and the permissions
of the entry that was shown there.
-/

namespace Md2Core

open Foundation

/-! ## The maps file -/

/-- The file of an entry backs an address. -/
def MapsEntry.Backs (entry : MapsEntry) (address : UInt64) : Prop :=
  entry.isPath = true ∧ entry.startAddress.toNat ≤ address.toNat ∧
    address.toNat < entry.endAddress.toNat

/-- The file of some entry backs an address. -/
def Backed (entries : List MapsEntry) (address : UInt64) : Prop :=
  ∃ entry ∈ entries, entry.Backs address

/-- The entries of a process: printable, in ascending order and on page boundaries.
No path has whitespace or a zero byte. -/
structure KernelMaps (entries : List MapsEntry) : Prop where
  printable : ∀ entry ∈ entries, entry.Printable
  ascending : Ascending entries
  aligned : ∀ entry ∈ entries, 4096 ∣ entry.startAddress.toNat ∧
    4096 ∣ entry.endAddress.toNat ∧ 4096 ∣ entry.offset.toNat
  solid : ∀ entry ∈ entries, entry.isPath = true →
    ∀ char ∈ entry.name, isWhitespace char = false
  zeroFree : ∀ entry ∈ entries, 0 ∉ asBytes (String.ofList entry.name)

/-- The maps stream has the records of the entries that its reader keeps. -/
def LinuxStreams.HasRecords (streams : LinuxStreams) (entries : List MapsEntry) : Prop :=
  streams.linuxMaps = some ((keptEntries entries).map MapsEntry.mapInfo)

/-- The text of the entries stands in place of the auxiliary vector, with or without
their records. -/
structure LinuxStreams.ShowText
    (streams : LinuxStreams)
    (entries : List MapsEntry) : Prop where
  stands : streams.linuxAuxv = .ok (some (mapsBytes entries))
  maps : streams.linuxMaps = none ∨ streams.HasRecords entries

/-- There are records of the entries, and no maps text. -/
structure LinuxStreams.ShowRecords
    (streams : LinuxStreams)
    (entries : List MapsEntry) : Prop where
  records : streams.HasRecords entries
  noText : ∀ stream, streams.linuxAuxv = .ok (some stream) →
    looksLikeLinuxMaps stream = false

/-- The entries of its process that a minidump shows: all of them if it has their text,
and those kept by the reader if it has their records alone. The modules that are not
empty start where a shown entry maps a file. -/
structure Minidump.ShowsMaps
    (dump : Minidump)
    (entries shown : List MapsEntry) : Prop where
  source : dump.linuxStreams.ShowText entries ∧ shown = entries ∨
    dump.linuxStreams.ShowRecords entries ∧ shown = keptEntries entries
  modules : ∀ module ∈ dump.modules.getD [], 0 < module.sizeOfImage.toNat →
    ∃ entry ∈ shown, entry.isPath = true ∧
      entry.startAddress = module.baseOfImage

/-! ## The mappings of the files -/

/-- The mappings of the entries with a path. -/
def fileMappings (entries : List MapsEntry) : List Mapping :=
  (entries.filter MapsEntry.isPath).map fun entry => entry.mapping entry.name

theorem mem_fileMappings
    {entries : List MapsEntry}
    {mapping : Mapping} :
    mapping ∈ fileMappings entries ↔
      ∃ entry ∈ entries, entry.isPath = true ∧ entry.mapping entry.name = mapping := by
  simp only [fileMappings, List.mem_map, List.mem_filter, and_assoc]

/-- A part of the entries has a part of the mappings. -/
theorem fileMappings_mono
    {entries shown : List MapsEntry}
    (included : shown ⊆ entries) :
    fileMappings shown ⊆ fileMappings entries := by
  intro mapping listed
  obtain ⟨entry, member, path, made⟩ := mem_fileMappings.mp listed
  exact mem_fileMappings.mpr ⟨entry, included member, path, made⟩

/-- A reader that changes no path gives the mappings of the files. -/
theorem filterMap_eq_fileMappings
    {entries : List MapsEntry}
    {cut : List Char → List Char}
    (whole : ∀ entry ∈ entries, entry.isPath = true → cut entry.name = entry.name) :
    (entries.filterMap fun entry =>
      if entry.isPath then some (entry.mapping (cut entry.name)) else none) =
      fileMappings entries := by
  rw [fileMappings, ← List.filterMap_eq_map, List.filterMap_filter]
  apply List.filterMap_congr
  intro entry member
  split
  · next path => rw [whole entry member path, Function.comp_apply]
  · rfl

namespace KernelMaps

variable {entries : List MapsEntry}

theorem sublist
    {shown : List MapsEntry}
    (kernel : KernelMaps entries)
    (part : shown.Sublist entries) :
    KernelMaps shown where
  printable entry member := kernel.printable entry (part.subset member)
  ascending := kernel.ascending.sublist part
  aligned entry member := kernel.aligned entry (part.subset member)
  solid entry member := kernel.solid entry (part.subset member)
  zeroFree entry member := kernel.zeroFree entry (part.subset member)

/-- The entries that a minidump shows are what the entries of a process are. -/
theorem of_shows
    {shown : List MapsEntry}
    {dump : Minidump}
    (kernel : KernelMaps entries)
    (shows : dump.ShowsMaps entries shown) :
    KernelMaps shown := by
  rcases shows.source with ⟨_, rfl⟩ | ⟨_, rfl⟩
  · exact kernel
  · exact kernel.sublist (keptEntries_sublist entries)

theorem mappingsFromMinidumpLinuxMaps_eq
    (kernel : KernelMaps entries) :
    mappingsFromMinidumpLinuxMaps (entries.map MapsEntry.mapInfo) =
      .ok (fileMappings entries) := by
  rw [mappingsFromMinidumpLinuxMaps_mapInfo kernel.printable]
  congr 1
  exact filterMap_eq_fileMappings fun entry member path =>
    trim_solid (kernel.solid entry member path)

theorem parseLinuxMaps_eq
    (kernel : KernelMaps entries) :
    parseLinuxMaps (mapsBytes entries) = .ok (fileMappings entries) := by
  rw [parseLinuxMaps_mapsBytes fun entry member =>
    (kernel.printable entry member).readable]
  congr 1
  exact filterMap_eq_fileMappings fun entry member path =>
    (firstWord_eq_self_iff entry.name).mpr (kernel.solid entry member path)

/-- The text of the entries in place of the auxiliary vector. -/
theorem textMappings_eq
    {streams : LinuxStreams}
    (kernel : KernelMaps entries)
    (stands : streams.linuxAuxv = .ok (some (mapsBytes entries))) :
    streams.textMappings = .ok (fileMappings entries) := by
  rw [LinuxStreams.textMappings, stands]
  by_cases empty : entries = []
  · rw [empty]
    rfl
  · refine bind_eq_ok.mpr ⟨_, rfl, ?_⟩
    dsimp only
    rw [if_pos (looksLikeLinuxMaps_mapsBytes empty), kernel.parseLinuxMaps_eq]

/-- Entries with a common address are the same. -/
theorem eq_of_overlap
    {entry other : MapsEntry}
    (kernel : KernelMaps entries)
    (member : entry ∈ entries)
    (otherMember : other ∈ entries)
    {position : Nat}
    (inside : entry.startAddress.toNat ≤ position ∧ position < entry.endAddress.toNat)
    (otherInside : other.startAddress.toNat ≤ position ∧
      position < other.endAddress.toNat) :
    entry = other := by
  by_contra different
  have apart : entries.Pairwise fun first second =>
      first.endAddress.toNat ≤ second.startAddress.toNat ∨
        second.endAddress.toNat ≤ first.startAddress.toNat :=
    kernel.ascending.imp Or.inl
  have symmetric : Std.Symm fun first second : MapsEntry =>
      first.endAddress.toNat ≤ second.startAddress.toNat ∨
        second.endAddress.toNat ≤ first.startAddress.toNat := ⟨fun _ _ => Or.symm⟩
  have beside := List.Pairwise.forall apart member otherMember different
  omega

/-- Mappings of files with the same start are the same. -/
theorem eq_of_startAddress
    {first second : Mapping}
    (kernel : KernelMaps entries)
    (member : first ∈ fileMappings entries)
    (otherMember : second ∈ fileMappings entries)
    (same : first.startAddress = second.startAddress) :
    first = second := by
  obtain ⟨entry, inEntries, _, rfl⟩ := mem_fileMappings.mp member
  obtain ⟨other, otherInEntries, _, rfl⟩ := mem_fileMappings.mp otherMember
  have start : entry.startAddress = other.startAddress := same
  rw [kernel.eq_of_overlap inEntries otherInEntries
    ⟨Nat.le_refl _, (kernel.printable entry inEntries).ordered⟩
    ⟨start ▸ Nat.le_refl _, start ▸ (kernel.printable other otherInEntries).ordered⟩]

/-- The records give the mappings of the files that are kept. -/
theorem mapsMappings_eq
    {streams : LinuxStreams}
    (kernel : KernelMaps entries)
    (records : streams.HasRecords entries) :
    streams.mapsMappings = .ok (fileMappings (keptEntries entries)) := by
  rw [LinuxStreams.mapsMappings, records]
  exact (kernel.sublist (keptEntries_sublist entries)).mappingsFromMinidumpLinuxMaps_eq

/-- The streams have the mappings of the files that are shown, whichever of them shows
them. -/
theorem mem_of_shown
    {shown : List MapsEntry}
    {dump : Minidump}
    {maps texts : List Mapping}
    (kernel : KernelMaps entries)
    (shows : dump.ShowsMaps entries shown)
    (mapsRead : dump.linuxStreams.mapsMappings = .ok maps)
    (textsRead : dump.linuxStreams.textMappings = .ok texts)
    (mapping : Mapping) :
    mapping ∈ maps ++ texts ↔ mapping ∈ fileMappings shown := by
  rw [List.mem_append]
  rcases shows.source with ⟨shown, rfl⟩ | ⟨shown, rfl⟩
  · rw [kernel.textMappings_eq shown.stands] at textsRead
    rw [← Except.ok.inj textsRead]
    refine or_iff_right_of_imp fun inMaps => ?_
    rcases shown.maps with absent | records
    · rw [LinuxStreams.mapsMappings, absent] at mapsRead
      rw [← pure_eq_ok.mp mapsRead] at inMaps
      contradiction
    · rw [kernel.mapsMappings_eq records] at mapsRead
      rw [← Except.ok.inj mapsRead] at inMaps
      exact fileMappings_mono (keptEntries_sublist _).subset inMaps
  · rw [kernel.mapsMappings_eq shown.records] at mapsRead
    rw [← Except.ok.inj mapsRead]
    refine or_iff_left_of_imp fun inText => ?_
    unfold LinuxStreams.textMappings at textsRead
    obtain ⟨auxv, read, parsed⟩ := bind_eq_ok.mp textsRead
    cases auxv with
    | none =>
        rw [← pure_eq_ok.mp parsed] at inText
        contradiction
    | some stream =>
        dsimp only at parsed
        rw [shown.noText stream read, if_neg Bool.false_ne_true] at parsed
        rw [← pure_eq_ok.mp parsed] at inText
        contradiction

end KernelMaps

/-! ## The table of the process -/

/-- The table has the mappings of the files under their starts, and nothing else. -/
def MappingTable.HasFiles (mappings : MappingTable) (entries : List MapsEntry) : Prop :=
  ∀ (key : UInt64) (mapping : Mapping), mappings[key]? = some mapping ↔
    mapping ∈ fileMappings entries ∧ mapping.startAddress = key

/-- The process has the mappings of the files that its minidump shows: no module adds
one, since the first mapping of its file is there. -/
theorem Minidump.Assembles.hasFiles
    {dump : Minidump}
    {entries shown : List MapsEntry}
    {reader : MinidumpReader}
    {options : ConvertOptions}
    {auxv : List UInt8}
    {process : CrashedProcess}
    (assembles : dump.Assembles reader options auxv process)
    (kernel : KernelMaps entries)
    (shows : dump.ShowsMaps entries shown) :
    process.mappings.HasFiles shown := by
  intro key mapping
  obtain ⟨maps, texts, mapsRead, textsRead, lookups⟩ := assembles.mappings
  have listed := kernel.mem_of_shown shows mapsRead textsRead
  have functional : ∀ first ∈ maps ++ texts, ∀ second ∈ maps ++ texts,
      first.startAddress = second.startAddress → first = second :=
    fun first member second otherMember =>
      (kernel.of_shows shows).eq_of_startAddress ((listed first).mp member)
        ((listed second).mp otherMember)
  have last := @lastUnder_eq_some_iff _ _ _ Mapping.startAddress _ functional
  rw [lookups, Option.or_eq_some_iff, last, listed]
  refine or_iff_left_of_imp ?_
  rintro ⟨absent, supplemented⟩
  obtain ⟨start, module, member, made⟩ := exists_module_of_firstUnder supplemented
  obtain ⟨entry, inEntries, path, base⟩ := shows.modules module member
    (MinidumpModule.mapping_eq_some_iff.mp made).1
  have under : lastUnder Mapping.startAddress (maps ++ texts) key =
      some (entry.mapping entry.name) := by
    apply last.mpr
    refine ⟨(listed _).mpr (mem_fileMappings.mpr ⟨entry, inEntries, path, rfl⟩), ?_⟩
    rw [← start, MinidumpModule.startAddress_mapping made]
    exact base
  rw [absent] at under
  contradiction

namespace MappingTable.HasFiles

variable {mappings : MappingTable} {entries : List MapsEntry}

/-- The mappings of the files make an address space. -/
theorem addressSpace
    (has : mappings.HasFiles entries)
    (kernel : KernelMaps entries) :
    mappings.AddressSpace := by
  have each : ∀ (key : UInt64) (mapping : Mapping), mappings[key]? = some mapping →
      ∃ entry ∈ entries, entry.mapping entry.name = mapping := by
    intro key mapping found
    obtain ⟨entry, member, _, same⟩ := mem_fileMappings.mp ((has key mapping).mp found).1
    exact ⟨entry, member, same⟩
  refine ⟨⟨fun key mapping found => ((has key mapping).mp found).2, ?_, ?_⟩, ?_, ?_⟩
  · intro key mapping found
    obtain ⟨entry, member, rfl⟩ := each key mapping found
    exact (kernel.printable entry member).ordered
  · refine separate_storedRegions_iff.mpr ?_
    intro firstKey secondKey first second different firstFound secondFound
    obtain ⟨entry, member, rfl⟩ := each firstKey first firstFound
    obtain ⟨other, otherMember, rfl⟩ := each secondKey second secondFound
    refine Set.disjoint_left.mpr fun position inside otherInside => different ?_
    rw [← ((has firstKey _).mp firstFound).2, ← ((has secondKey _).mp secondFound).2,
      kernel.eq_of_overlap member otherMember inside otherInside]
  · intro key mapping found
    obtain ⟨entry, member, rfl⟩ := each key mapping found
    exact ⟨(kernel.aligned entry member).1, (kernel.aligned entry member).2.1⟩
  · intro key mapping found _
    obtain ⟨entry, member, rfl⟩ := each key mapping found
    exact (kernel.aligned entry member).2.2

theorem zeroFree
    (has : mappings.HasFiles entries)
    (kernel : KernelMaps entries) :
    mappings.ZeroFree := by
  intro mapping member filename named
  obtain ⟨key, found⟩ := MappingTable.mem_values.mp member
  obtain ⟨entry, inEntries, _, rfl⟩ := mem_fileMappings.mp ((has key mapping).mp found).1
  obtain rfl := Option.some.inj named
  exact kernel.zeroFree entry inEntries

/-- An address means what the entry says whose file backs it. -/
theorem means_iff
    (has : mappings.HasFiles entries)
    {address : UInt64}
    {meaning : Meaning} :
    mappings.Means address meaning ↔ ∃ entry ∈ entries, entry.Backs address ∧
      meaning = ⟨entry.permissions, some (String.ofList entry.name),
        some (entry.offset.toNat + (address.toNat - entry.startAddress.toNat))⟩ := by
  constructor
  · rintro ⟨key, mapping, found, inside, rfl⟩
    obtain ⟨entry, member, path, rfl⟩ :=
      mem_fileMappings.mp ((has key mapping).mp found).1
    exact ⟨entry, member, ⟨path, Mapping.contains_iff.mp inside⟩, rfl⟩
  · rintro ⟨entry, member, ⟨path, inside⟩, rfl⟩
    have listed := mem_fileMappings.mpr ⟨entry, member, path, rfl⟩
    exact ⟨_, _, (has _ _).mpr ⟨listed, rfl⟩, Mapping.contains_iff.mpr inside, rfl⟩

theorem maps_iff
    (has : mappings.HasFiles entries)
    {address : UInt64} :
    mappings.Maps address ↔ Backed entries address := by
  rw [MappingTable.maps_iff]
  simp only [has.means_iff]
  constructor
  · rintro ⟨_, entry, member, backs, _⟩
    exact ⟨entry, member, backs⟩
  · rintro ⟨entry, member, backs⟩
    exact ⟨_, entry, member, backs, rfl⟩

end MappingTable.HasFiles

/-! ## The converted core -/

/-- An executable, a heap and a library. -/
def sampleEntries : List MapsEntry :=
  [⟨0x10000, 0x20000, ⟨true, false, true⟩, false, 0, 8, 2, 1234, 1, "/bin/app".toList⟩,
    ⟨0x20000, 0x21000, .readWrite, false, 0, 0, 0, 0, 1, "[heap]".toList⟩,
    ⟨0x50000, 0x52000, .readOnly, false, 0x3000, 8, 2, 1235, 1,
      "/lib/libc.so".toList⟩]

/-- The heap begins at the end of the executable, so it is not shown by records. -/
example : (keptEntries sampleEntries).map (·.startAddress) = [0x10000, 0x50000] := by
  decide

/-- The sample minidump with maps text in place of the auxiliary vector. -/
def sampleMapped : Minidump :=
  { sampleDump with
    linuxStreams := {
      linuxMaps := none
      linuxAuxv := .ok (some (mapsBytes sampleEntries))
      linuxCmdLine := .ok none } }

theorem sampleEntries_kernelMaps : KernelMaps sampleEntries where
  printable := by
    simp only [sampleEntries, List.forall_mem_cons]
    refine ⟨?_, ?_, ?_, fun _ member => absurd member List.not_mem_nil⟩
    · exact ⟨by decide, .inr (.inr ⟨rfl, by decide⟩), by decide, by decide⟩
    · exact ⟨by decide, .inr (.inl rfl), by decide, by decide⟩
    · exact ⟨by decide, .inr (.inr ⟨rfl, by decide⟩), by decide, by decide⟩
  ascending := by
    unfold Ascending
    decide
  aligned := by decide
  solid := by
    have checked : (sampleEntries.all fun entry => entry.name.all (!isWhitespace ·)) =
        true := by
      decide
    intro entry member _ char inName
    simpa using List.all_eq_true.mp (List.all_eq_true.mp checked entry member) char inName
  zeroFree := by
    have checked : (sampleEntries.all fun entry =>
        !(asBytes (String.ofList entry.name)).contains 0) = true := by
      decide +kernel
    intro entry member
    simpa using List.all_eq_true.mp checked entry member

theorem sampleMapped_showsMaps : sampleMapped.ShowsMaps sampleEntries sampleEntries where
  source := .inl ⟨⟨rfl, .inl rfl⟩, rfl⟩
  modules := by decide

end Md2Core
