import Mathlib.Data.List.Destutter
import Mathlib.Data.List.Perm.Subperm
import Md2Core.LinuxMaps.KernelText

/-!
# The maps stream of a minidump

The minidump reader parses `MD_LINUX_MAPS` itself and gives the records of the
lines that it keeps. On the same kernel text, the mappings made from these records
and those of the reader of raw maps text have the same ranges, permissions and file
offsets in the same order. The former lack the entries that the minidump reader
drops, and the latter cut a path at its first whitespace.
-/

namespace Md2Core

open Foundation

/-- The name of a memory map as the minidump reader classifies it. A path is
given by its text, `to_string_lossy`; all names that are no path are one. -/
inductive MMapPath
  | path (text : String)
  | other
  deriving DecidableEq, Repr

/-- One memory map as the minidump reader gives it. -/
structure MapInfo where
  address : UInt64 × UInt64
  isReadable : Bool
  isWritable : Bool
  isExecutable : Bool
  offset : UInt64
  pathname : MMapPath
  deriving DecidableEq, Repr

/-- The path of a memory map, if it is absolute. -/
def MapInfo.absolutePath (info : MapInfo) : Option String :=
  match info.pathname with
  | .path text => if text.toList.head? = some '/' then some text else none
  | .other => none

/-- The mappings of the memory maps with an absolute path. -/
def mappingsFromMinidumpLinuxMaps : List MapInfo → Result (List Mapping)
  | [] => return []
  | info :: rest =>
      match info.absolutePath with
      | none => mappingsFromMinidumpLinuxMaps rest
      | some filename => do
          let mapping ← Mapping.new info.address.1 info.address.2
            ⟨info.isReadable, info.isWritable, info.isExecutable⟩
          let mappings ← mappingsFromMinidumpLinuxMaps rest
          return mapping.withFile filename info.offset :: mappings

/-! ## Kernel text through the minidump reader -/

/-- The record that the minidump reader is assumed to make of an entry that it
keeps: the path is the whole name without whitespace at the ends. -/
def MapsEntry.mapInfo (entry : MapsEntry) : MapInfo where
  address := (entry.startAddress, entry.endAddress)
  isReadable := entry.permissions.read
  isWritable := entry.permissions.write
  isExecutable := entry.permissions.execute
  offset := entry.offset
  pathname :=
    if entry.isPath then .path (String.ofList (trim entry.name)) else .other

/-- The mapping made from the record of an entry with a path. -/
def MapsEntry.streamed (entry : MapsEntry) : Option Mapping :=
  if entry.isPath then some (entry.mapping (trim entry.name)) else none

/-- A path begins with its slash. -/
theorem MapsEntry.name_of_isPath
    {entry : MapsEntry}
    (path : entry.isPath = true) :
    ∃ tail, entry.name = '/' :: tail := by
  unfold isPath at path
  cases name : entry.name with
  | nil =>
      rw [name] at path
      contradiction
  | cons head tail =>
      rw [name] at path
      have slash : head = '/' := by simpa using path
      exact ⟨tail, by rw [slash]⟩

/-- A trimmed path is absolute. -/
theorem head?_trim_slash (tail : List Char) :
    (trim ('/' :: tail)).head? = some '/' := by
  have solid : isWhitespace '/' = false := by decide
  have word := firstWord_trim solid tail
  rw [firstWord_cons solid] at word
  cases trimmed : trim ('/' :: tail) with
  | nil =>
      rw [trimmed] at word
      contradiction
  | cons head rest =>
      obtain ⟨spaces, _, parts⟩ := exists_trim_append solid tail
      rw [trimmed, List.cons_append] at parts
      rw [List.head?_cons, (List.cons.inj parts).1]

/-- The mappings made from the records of entries. -/
theorem mappingsFromMinidumpLinuxMaps_mapInfo
    {entries : List MapsEntry}
    (printable : ∀ entry ∈ entries, entry.Printable) :
    mappingsFromMinidumpLinuxMaps (entries.map MapsEntry.mapInfo) =
      .ok (entries.filterMap MapsEntry.streamed) := by
  induction entries with
  | nil => rfl
  | cons entry rest inductionHypothesis =>
      obtain ⟨first, others⟩ := List.forall_mem_cons.mp printable
      have remaining := inductionHypothesis others
      rw [List.map_cons, mappingsFromMinidumpLinuxMaps, List.filterMap_cons]
      by_cases path : entry.isPath = true
      · obtain ⟨tail, name⟩ := entry.name_of_isPath path
        have made : Mapping.new entry.startAddress entry.endAddress
            entry.permissions = .ok _ :=
          Mapping.new_eq_ok.mpr ⟨first.ordered, rfl⟩
        have absolute : entry.mapInfo.absolutePath =
            some (String.ofList (trim entry.name)) := by
          simp [MapInfo.absolutePath, MapsEntry.mapInfo, path, name,
            head?_trim_slash]
        simp only [absolute, MapsEntry.streamed, path, if_true, bind_eq_ok,
          pure_eq_ok]
        exact ⟨_, made, _, remaining, rfl⟩
      · have absent : entry.mapInfo.absolutePath = none := by
          simp [MapInfo.absolutePath, MapsEntry.mapInfo, path]
        simp only [absent, MapsEntry.streamed, path, Bool.false_eq_true,
          if_false]
        exact remaining

/-- The range of an entry ends below the start of another one. -/
def MapsEntry.Below (entry other : MapsEntry) : Prop :=
  entry.endAddress < other.startAddress

instance : DecidableRel MapsEntry.Below :=
  fun entry other => inferInstanceAs (Decidable (entry.endAddress < other.startAddress))

/-- The entries of which the minidump reader is assumed to give records. It counts
the end of a range as one of its addresses, and drops an entry that meets the last
one kept. -/
def keptEntries (entries : List MapsEntry) : List MapsEntry :=
  entries.destutter MapsEntry.Below

theorem keptEntries_sublist (entries : List MapsEntry) :
    (keptEntries entries).Sublist entries :=
  List.destutter_sublist MapsEntry.Below entries

/-- Every entry is kept when no two neighbours touch. -/
theorem keptEntries_eq_self
    {entries : List MapsEntry}
    (apart : entries.IsChain MapsEntry.Below) :
    keptEntries entries = entries :=
  List.destutter_of_isChain MapsEntry.Below entries apart

/-! ## Agreement of the two readers -/

/-- The mapping with its file name cut at the first whitespace. -/
def Mapping.cutFilename (mapping : Mapping) : Mapping :=
  { mapping with
    filename := mapping.filename.map fun name =>
      String.ofList (firstWord name.toList) }

/-- The ranges are ascending and disjoint. -/
def Ascending (entries : List MapsEntry) : Prop :=
  entries.Pairwise fun first second =>
    first.endAddress.toNat ≤ second.startAddress.toNat

/-- No entry occurs twice. -/
theorem Ascending.nodup
    {entries : List MapsEntry}
    (ascending : Ascending entries)
    (printable : ∀ entry ∈ entries, entry.Printable) :
    entries.Nodup := by
  refine List.Pairwise.imp_of_mem ?_ ascending
  rintro first second member _ below rfl
  exact absurd (printable first member).ordered (Nat.not_lt.mpr below)

/-- The raw reader cuts the file name of what the stream gives. -/
theorem MapsEntry.parsed_eq_map (entry : MapsEntry) :
    entry.parsed = entry.streamed.map Mapping.cutFilename := by
  unfold parsed streamed
  by_cases path : entry.isPath = true
  · obtain ⟨tail, name⟩ := entry.name_of_isPath path
    rw [if_pos path, if_pos path, Option.map_some, Option.some.injEq, name,
      mapping, mapping, Mapping.cutFilename, Option.map_some,
      String.toList_ofList, firstWord_trim (by decide) tail]
  · rw [if_neg path, if_neg path, Option.map_none]

/-- Cutting changes no file name exactly when the path has no whitespace. -/
theorem MapsEntry.cutFilename_mapping_iff (entry : MapsEntry) :
    (entry.mapping (trim entry.name)).cutFilename =
        entry.mapping (trim entry.name) ↔
      ∀ char ∈ trim entry.name, isWhitespace char = false := by
  rw [← firstWord_eq_self_iff]
  simp [mapping, Mapping.cutFilename, String.ofList_inj]

/-- The mappings of the stream are those of the entries with a path. -/
theorem filterMap_streamed (entries : List MapsEntry) :
    entries.filterMap MapsEntry.streamed =
      (entries.filter MapsEntry.isPath).map fun entry =>
        entry.mapping (trim entry.name) := by
  rw [← List.filterMap_eq_map, List.filterMap_filter]
  exact List.filterMap_congr fun _ _ => rfl

/-- What the raw reader gives is cut from what the stream gives. -/
theorem filterMap_parsed (entries : List MapsEntry) :
    entries.filterMap MapsEntry.parsed =
      (entries.filterMap MapsEntry.streamed).map Mapping.cutFilename := by
  rw [List.map_filterMap]
  exact List.filterMap_congr fun entry _ => entry.parsed_eq_map

/-- A sublist has every path exactly when it has as many of them. -/
theorem filter_isPath_eq_iff
    {entries kept : List MapsEntry}
    (sublist : kept.Sublist entries)
    (nodup : entries.Nodup) :
    entries.filter MapsEntry.isPath = kept.filter MapsEntry.isPath ↔
      ∀ entry ∈ entries, entry.isPath = true → entry ∈ kept := by
  constructor
  · intro same entry member path
    have listed : entry ∈ entries.filter MapsEntry.isPath :=
      List.mem_filter.mpr ⟨member, path⟩
    rw [same] at listed
    exact List.mem_of_mem_filter listed
  · intro every
    have included : entries.filter MapsEntry.isPath ⊆ kept.filter MapsEntry.isPath := by
      intro entry listed
      obtain ⟨member, path⟩ := List.mem_filter.mp listed
      exact List.mem_filter.mpr ⟨every entry member path, path⟩
    have few := (List.subperm_of_subset (nodup.filter _) included).length_le
    exact ((sublist.filter _).eq_of_length_le few).symm

/-- On a kernel text with ascending ranges, the reader of raw maps text gives the
mappings of all entries with a path, and the maps stream those of the kept ones: with
its file names cut at the first whitespace it is the raw reader on these, and on the
whole text when no two neighbours touch. The two readers agree exactly when no entry
with a path is dropped and no path has whitespace other than at its end. -/
theorem parseLinuxMaps_eq_cutFilename
    (byAddr : List UInt8 → List MapInfo)
    (entries : List MapsEntry)
    (printable : ∀ entry ∈ entries, entry.Printable)
    (ascending : Ascending entries)
    (reads : Ascending entries →
      byAddr (mapsBytes entries) = (keptEntries entries).map MapsEntry.mapInfo) :
    ∃ mappings texts,
      mappingsFromMinidumpLinuxMaps (byAddr (mapsBytes entries)) = .ok mappings ∧
      parseLinuxMaps (mapsBytes entries) = .ok texts ∧
      texts = entries.filterMap MapsEntry.parsed ∧
      mappings.map Mapping.cutFilename =
        (keptEntries entries).filterMap MapsEntry.parsed ∧
      (entries.IsChain MapsEntry.Below →
        texts = mappings.map Mapping.cutFilename) ∧
      (parseLinuxMaps (mapsBytes entries) =
          mappingsFromMinidumpLinuxMaps (byAddr (mapsBytes entries)) ↔
        ∀ entry ∈ entries, entry.isPath = true →
          entry ∈ keptEntries entries ∧
            ∀ char ∈ trim entry.name, isWhitespace char = false) := by
  have sublist := keptEntries_sublist entries
  have streamed := mappingsFromMinidumpLinuxMaps_mapInfo fun entry member =>
    printable entry (sublist.subset member)
  rw [← reads ascending] at streamed
  have parsed := parseLinuxMaps_mapsBytes fun entry member =>
    (printable entry member).readable
  refine ⟨_, _, streamed, parsed, rfl, (filterMap_parsed _).symm, ?_, ?_⟩
  · intro apart
    rw [keptEntries_eq_self apart, filterMap_parsed]
  · rw [parsed, streamed, Except.ok.injEq]
    have paths := filter_isPath_eq_iff sublist (ascending.nodup printable)
    constructor
    · intro same entry member path
      -- The raw reader gives a mapping for every path, so equality drops none.
      have equal : entries.filter MapsEntry.isPath =
          (keptEntries entries).filter MapsEntry.isPath := by
        refine ((sublist.filter _).eq_of_length ?_).symm
        have lengths := congrArg List.length same
        simpa only [filterMap_parsed, filterMap_streamed, List.length_map] using
          lengths.symm
      refine ⟨paths.mp equal entry member path, ?_⟩
      rw [filterMap_parsed, filterMap_streamed, filterMap_streamed, ← equal,
        List.map_map, List.map_inj_left] at same
      exact entry.cutFilename_mapping_iff.mp
        (same entry (List.mem_filter.mpr ⟨member, path⟩))
    · intro all
      rw [filterMap_parsed, filterMap_streamed, filterMap_streamed,
        ← paths.mpr fun entry member path => (all entry member path).1, List.map_map,
        List.map_inj_left]
      intro entry listed
      obtain ⟨member, path⟩ := List.mem_filter.mp listed
      exact entry.cutFilename_mapping_iff.mpr (all entry member path).2

/-- A mapping of a file that has been deleted. -/
def sampleDeleted : MapsEntry where
  startAddress := 0x7f001000
  endAddress := 0x7f002000
  permissions := ⟨true, false, true⟩
  shared := false
  offset := 0
  major := 8
  minor := 2
  inode := 1234
  gap := 1
  name := "/lib/foo.so (deleted)".toList

theorem sampleDeleted_printable : sampleDeleted.Printable := by
  refine ⟨by decide, Or.inr (Or.inr ⟨by decide, by decide⟩), by decide, by decide⟩

/-- On the line of a deleted file the two readers give different file names. -/
theorem exists_readers_differ :
    ¬∀ (byAddr : List UInt8 → List MapInfo) (entries : List MapsEntry),
      (∀ entry ∈ entries, entry.Printable) → Ascending entries →
        (Ascending entries →
          byAddr (mapsBytes entries) = entries.map MapsEntry.mapInfo) →
          parseLinuxMaps (mapsBytes entries) =
            mappingsFromMinidumpLinuxMaps (byAddr (mapsBytes entries)) := by
  intro always
  have printable : ∀ entry ∈ [sampleDeleted], entry.Printable := by
    simpa using sampleDeleted_printable
  have same := always (fun _ => [sampleDeleted].map MapsEntry.mapInfo)
    [sampleDeleted] printable (List.pairwise_singleton _ _) fun _ => rfl
  rw [parseLinuxMaps_mapsBytes fun entry member =>
      (printable entry member).readable,
    mappingsFromMinidumpLinuxMaps_mapInfo printable, Except.ok.injEq] at same
  have names := congrArg (List.map Mapping.filename) same
  exact absurd names (by decide)

/-- The lines of a file, of a part of it that touches the former, and of a deleted
file, read through a reader that gives the records of the kept ones. -/
theorem parseLinuxMaps_eq_cutFilename_sample :
    let file := { sampleDeleted with name := "/lib/foo.so".toList }
    let part := { file with startAddress := 0x7f002000, endAddress := 0x7f003000 }
    let deleted :=
      { sampleDeleted with startAddress := 0x7f003000, endAddress := 0x7f004000 }
    let entries := [file, part, deleted]
    let byAddr : List UInt8 → List MapInfo :=
      fun _ => [file, deleted].map MapsEntry.mapInfo
    ∃ mappings texts,
      mappingsFromMinidumpLinuxMaps (byAddr (mapsBytes entries)) = .ok mappings ∧
      parseLinuxMaps (mapsBytes entries) = .ok texts ∧
      texts = entries.filterMap MapsEntry.parsed ∧
      mappings.map Mapping.cutFilename =
        (keptEntries entries).filterMap MapsEntry.parsed ∧
      (entries.IsChain MapsEntry.Below →
        texts = mappings.map Mapping.cutFilename) ∧
      (parseLinuxMaps (mapsBytes entries) =
          mappingsFromMinidumpLinuxMaps (byAddr (mapsBytes entries)) ↔
        ∀ entry ∈ entries, entry.isPath = true →
          entry ∈ keptEntries entries ∧
            ∀ char ∈ trim entry.name, isWhitespace char = false) := by
  intro file part deleted entries byAddr
  apply parseLinuxMaps_eq_cutFilename byAddr entries
  · simp only [entries, List.forall_mem_cons]
    refine ⟨?_, ?_, ?_, fun _ member => absurd member List.not_mem_nil⟩ <;>
      exact ⟨by decide, .inr (.inr ⟨rfl, by decide⟩), by decide, by decide⟩
  · unfold Ascending
    decide
  · intro _
    rfl

end Md2Core
