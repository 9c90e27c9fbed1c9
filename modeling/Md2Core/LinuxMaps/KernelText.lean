import Md2Core.LinuxMaps

/-!
# The kernel's maps text

The format in which the kernel prints the mappings of a process: the range, the
permissions, the file offset, the device, the inode and, behind any number of
spaces, the name. The reader of maps text takes every column of a printed line
back, and of a path name the part in front of its first whitespace.
-/

namespace Md2Core

open Foundation

/-- One mapping of a process, as the kernel knows it. -/
structure MapsEntry where
  startAddress : UInt64
  endAddress : UInt64
  permissions : MappingPermissions
  /-- A shared mapping is marked `s` and a private one `p`. -/
  shared : Bool
  offset : UInt64
  major : Nat
  minor : Nat
  inode : Nat
  /-- The spaces between the inode and the name. -/
  gap : Nat
  name : List Char
  deriving DecidableEq

namespace MapsEntry

/-- The four permission letters. -/
def permissionText (entry : MapsEntry) : List Char :=
  [if entry.permissions.read then 'r' else '-',
    if entry.permissions.write then 'w' else '-',
    if entry.permissions.execute then 'x' else '-',
    if entry.shared then 's' else 'p']

/-- The address range, in hexadecimal with at least eight digits. -/
def rangeText (entry : MapsEntry) : List Char :=
  hexText 8 entry.startAddress.toNat ++
    '-' :: hexText 8 entry.endAddress.toNat

/-- The device numbers. -/
def deviceText (entry : MapsEntry) : List Char :=
  hexText 2 entry.major ++ ':' :: hexText 2 entry.minor

/-- The line of a mapping, without its newline. -/
def line (entry : MapsEntry) : List Char :=
  entry.rangeText ++ ' ' :: (entry.permissionText ++ ' ' ::
    (hexText 8 entry.offset.toNat ++ ' ' :: (entry.deviceText ++ ' ' ::
      (Nat.toDigits 10 entry.inode ++
        (List.replicate entry.gap ' ' ++ entry.name)))))

/-- The name is an absolute path. -/
def isPath (entry : MapsEntry) : Bool :=
  entry.name.head? == some '/'

/-- The range is nonempty and the name is empty, or bracketed, or an absolute
path that is no System V segment. A name stands behind a space and has no
newline. -/
structure Printable (entry : MapsEntry) : Prop where
  ordered : entry.startAddress.toNat < entry.endAddress.toNat
  named : entry.name = [] ∨ entry.name.head? = some '[' ∨
    (entry.name.head? = some '/' ∧ ¬"/SYSV".toList <+: entry.name)
  spaced : entry.name ≠ [] → 0 < entry.gap
  oneLine : '\n' ∉ entry.name

/-- The range is nonempty and the name is empty, or bracketed, or an absolute
path. A name stands behind a space and has no newline. -/
structure Readable (entry : MapsEntry) : Prop where
  ordered : entry.startAddress.toNat < entry.endAddress.toNat
  named : entry.name = [] ∨ entry.name.head? = some '[' ∨
    entry.name.head? = some '/'
  spaced : entry.name ≠ [] → 0 < entry.gap
  oneLine : '\n' ∉ entry.name

theorem Printable.readable
    {entry : MapsEntry}
    (printable : entry.Printable) :
    entry.Readable where
  ordered := printable.ordered
  named := printable.named.imp_right (Or.imp_right And.left)
  spaced := printable.spaced
  oneLine := printable.oneLine

end MapsEntry

/-- The text of the mappings of a process. -/
def mapsText (entries : List MapsEntry) : List Char :=
  entries.flatMap fun entry => entry.line ++ ['\n']

/-- The bytes of the text. -/
def mapsBytes (entries : List MapsEntry) : List UInt8 :=
  asBytes (String.ofList (mapsText entries))

/-! ## The columns of a line -/

namespace MapsEntry

theorem rangeText_ne_nil (entry : MapsEntry) : entry.rangeText ≠ [] := by
  simp [rangeText]

theorem permissionText_ne_nil (entry : MapsEntry) :
    entry.permissionText ≠ [] :=
  List.cons_ne_nil _ _

/-- Everything in front of the name is visible ASCII. -/
theorem forall_mem_rangeText
    {property : Char → Prop}
    (digits : ∀ digit < 16, property (Nat.digitChar digit))
    (hyphen : property '-')
    (entry : MapsEntry) :
    ∀ char ∈ entry.rangeText, property char := by
  intro char member
  rcases List.mem_append.mp member with start | behind
  · exact forall_mem_hexText digits 8 _ char start
  · rcases List.mem_cons.mp behind with rfl | ends
    · exact hyphen
    · exact forall_mem_hexText digits 8 _ char ends

theorem forall_mem_deviceText
    {property : Char → Prop}
    (digits : ∀ digit < 16, property (Nat.digitChar digit))
    (colon : property ':')
    (entry : MapsEntry) :
    ∀ char ∈ entry.deviceText, property char := by
  intro char member
  rcases List.mem_append.mp member with major | behind
  · exact forall_mem_hexText digits 2 _ char major
  · rcases List.mem_cons.mp behind with rfl | minor
    · exact colon
    · exact forall_mem_hexText digits 2 _ char minor

/-- What is checked for all letters holds of the permissions. -/
theorem forall_mem_permissionText
    {check : Char → Bool}
    (letters : ['r', 'w', 'x', 's', 'p', '-'].all check = true)
    (entry : MapsEntry) :
    ∀ char ∈ entry.permissionText, check char = true := by
  simp only [permissionText, List.forall_mem_cons]
  have checked := List.all_eq_true.mp letters
  refine ⟨?_, ?_, ?_, ?_, by simp⟩ <;> split <;> apply checked <;> simp

/-- The words of a printed line are its columns and the words of the name. -/
theorem splitWhitespace_line
    {entry : MapsEntry}
    (spaced : entry.name ≠ [] → 0 < entry.gap) :
    splitWhitespace entry.line =
      entry.rangeText :: entry.permissionText ::
        hexText 8 entry.offset.toNat :: entry.deviceText ::
          Nat.toDigits 10 entry.inode :: splitWhitespace entry.name := by
  have space : isWhitespace ' ' = true := by decide
  have digits : ∀ digit < 16, isWhitespace (Nat.digitChar digit) = false := by
    decide
  have inode := @forall_mem_toDigits 10 (fun char => isWhitespace char = false)
    (by decide) (by decide) entry.inode
  have permissions : ∀ char ∈ entry.permissionText,
      isWhitespace char = false := by
    intro char member
    have solid := @forall_mem_permissionText (fun char => !isWhitespace char)
      (by decide) entry char member
    simpa using solid
  rw [line,
    splitWhitespace_word_append entry.rangeText_ne_nil
      (entry.forall_mem_rangeText digits (by decide)) space,
    splitWhitespace_word_append entry.permissionText_ne_nil permissions space,
    splitWhitespace_word_append (hexText_ne_nil _ _)
      (forall_mem_hexText digits _ _) space,
    splitWhitespace_word_append (by simp [deviceText])
      (entry.forall_mem_deviceText digits (by decide)) space]
  congr 4
  cases gap : entry.gap with
  | zero =>
      have empty : entry.name = [] := by
        by_contra named
        exact absurd (spaced named) (by omega)
      rw [empty, List.replicate_zero, List.append_nil, List.append_nil,
        splitWhitespace_nil,
        splitWhitespace_word Nat.toDigits_ne_nil inode]
  | succ count =>
      rw [List.replicate_succ, List.cons_append,
        splitWhitespace_word_append Nat.toDigits_ne_nil inode space,
        splitWhitespace_replicate_append space]

/-- The hyphen separates the two bounds. -/
theorem splitn2_rangeText (entry : MapsEntry) :
    splitn2 '-' entry.rangeText =
      (hexText 8 entry.startAddress.toNat,
        some (hexText 8 entry.endAddress.toNat)) := by
  have digits := @forall_mem_hexText (fun char => (char != '-') = true)
    (by decide) 8 entry.startAddress.toNat
  unfold splitn2 rangeText
  rw [List.dropWhile_append_of_pos digits, List.takeWhile_append_of_pos digits]
  simp

/-- A printed bound is read back. -/
theorem u64FromStrRadix16_hexText (width : Nat) (value : UInt64) :
    u64FromStrRadix16 (hexText width value.toNat) = some value := by
  rw [u64FromStrRadix16, fromStrRadix16_hexText value.toNat_lt, Option.map_some,
    UInt64.ofNat_toNat]

/-- The letters of the permissions are read back. -/
theorem permissions_of_permissionText (entry : MapsEntry) :
    (⟨entry.permissionText.contains 'r', entry.permissionText.contains 'w',
      entry.permissionText.contains 'x'⟩ : MappingPermissions) =
      entry.permissions := by
  obtain ⟨startAddress, endAddress, ⟨read, write, execute⟩, shared, _⟩ := entry
  simp only [permissionText]
  cases read <;> cases write <;> cases execute <;> cases shared <;> rfl

/-- The mapping of an entry under a file name. -/
def mapping (entry : MapsEntry) (filename : List Char) : Mapping :=
  ⟨entry.startAddress, entry.endAddress, entry.offset, entry.permissions,
    some (String.ofList filename), []⟩

/-- What is read from the line of an entry: nothing without a path, and
otherwise a mapping of the path up to its first whitespace. -/
def parsed (entry : MapsEntry) : Option Mapping :=
  if entry.isPath then some (entry.mapping (firstWord entry.name)) else none

/-- A readable name does not start with whitespace. -/
theorem Readable.head_solid
    {entry : MapsEntry}
    (readable : entry.Readable)
    {head : Char}
    {tail : List Char}
    (name : entry.name = head :: tail) :
    isWhitespace head = false := by
  have kinds := readable.named
  rw [name] at kinds
  simp only [List.cons_ne_nil, List.head?_cons, Option.some.injEq,
    false_or] at kinds
  rcases kinds with rfl | rfl <;> decide

/-- A printed line has no newline. -/
theorem Readable.newline_not_mem_line
    {entry : MapsEntry}
    (readable : entry.Readable) :
    '\n' ∉ entry.line := by
  have digits : ∀ digit < 16, Nat.digitChar digit ≠ '\n' := by decide
  have range := @forall_mem_rangeText (· ≠ '\n') digits (by decide) entry
  have permissions : ∀ char ∈ entry.permissionText, char ≠ '\n' := by
    intro char member
    have visible := @forall_mem_permissionText (· != '\n') (by decide) entry
      char member
    simpa using visible
  have offset := @forall_mem_hexText (· ≠ '\n') digits 8 entry.offset.toNat
  have device := @forall_mem_deviceText (· ≠ '\n') digits (by decide) entry
  have inode := @forall_mem_toDigits 10 (· ≠ '\n') (by decide) (by decide)
    entry.inode
  have visible : ∀ char ∈ entry.line, char ≠ '\n' := by
    simp only [line, List.forall_mem_append, List.forall_mem_cons]
    refine ⟨range, by decide, permissions, by decide, offset, by decide, device,
      by decide, inode, ?_, ?_⟩
    · intro char member
      obtain ⟨_, rfl⟩ := List.mem_replicate.mp member
      decide
    · rintro char member rfl
      exact readable.oneLine member
  exact fun member => visible '\n' member rfl

/-- Reading the line of a readable entry. -/
theorem Readable.parseMapsLine_line
    {entry : MapsEntry}
    (readable : entry.Readable) :
    parseMapsLine entry.line = .ok entry.parsed := by
  unfold parseMapsLine parseHexU64
  simp only [splitWhitespace_line readable.spaced, List.getElem?_cons_zero,
    List.getElem?_cons_succ, bind_eq_ok, okOr_eq_ok, Option.some.injEq,
    exists_eq_left', splitn2_rangeText, u64FromStrRadix16_hexText,
    permissions_of_permissionText]
  cases name : entry.name with
  | nil => simp [parsed, isPath, name, pure, Except.pure]
  | cons head tail =>
      have solid := readable.head_solid name
      obtain ⟨others, words⟩ := @splitWhitespace_of_head head tail solid
      have made : Mapping.new entry.startAddress entry.endAddress
          entry.permissions = .ok _ :=
        Mapping.new_eq_ok.mpr ⟨readable.ordered, rfl⟩
      rw [words, List.getElem?_cons_zero, firstWord_cons solid]
      simp only [List.head?_cons, parsed, isPath, name, made, beq_iff_eq,
        firstWord_cons solid]
      by_cases path : head = '/'
      · subst path
        rfl
      · simp [path, pure, Except.pure]

end MapsEntry

/-! ## The whole text -/

/-- The lines of the text are the lines of the entries. -/
theorem lines_mapsText
    {entries : List MapsEntry}
    (readable : ∀ entry ∈ entries, entry.Readable) :
    lines (mapsText entries) =
      entries.map fun entry => stripCarriageReturn entry.line := by
  induction entries with
  | nil => exact lines_nil
  | cons entry rest inductionHypothesis =>
      obtain ⟨first, others⟩ := List.forall_mem_cons.mp readable
      have text : mapsText (entry :: rest) =
          entry.line ++ '\n' :: mapsText rest := by
        simp [mapsText]
      rw [text, lines_append_newline first.newline_not_mem_line,
        inductionHypothesis others, List.map_cons]

/-- Reading the text of readable entries gives the mappings of their paths, in
order, each under the first word of its path. -/
theorem parseLinuxMaps_mapsBytes
    {entries : List MapsEntry}
    (readable : ∀ entry ∈ entries, entry.Readable) :
    parseLinuxMaps (mapsBytes entries) =
      .ok (entries.filterMap MapsEntry.parsed) := by
  have read : ∀ list : List MapsEntry, (∀ entry ∈ list, entry.Readable) →
      parseMapsLines (list.map fun entry => stripCarriageReturn entry.line) =
        .ok (list.filterMap MapsEntry.parsed) := by
    intro list allReadable
    induction list with
    | nil => rfl
    | cons entry rest inductionHypothesis =>
        obtain ⟨first, others⟩ := List.forall_mem_cons.mp allReadable
        have line := parseMapsLine_congr
          (splitWhitespace_stripCarriageReturn entry.line)
          first.parseMapsLine_line
        simp only [List.map_cons, parseMapsLines, bind_eq_ok, pure_eq_ok]
        refine ⟨_, line, _, inductionHypothesis others, ?_⟩
        cases parsed : entry.parsed <;> simp [parsed]
  rw [parseLinuxMaps, mapsBytes, fromUtf8_asBytes]
  simp only [okOr, bind, Except.bind, String.toList_ofList,
    lines_mapsText readable]
  exact read entries readable

/-- Reading the text of readable entries whose paths have no whitespace gives
exactly the entries with a path, in order, each under its whole name. -/
theorem parseLinuxMaps_mapsBytes_solid
    {entries : List MapsEntry}
    (readable : ∀ entry ∈ entries, entry.Readable)
    (solid : ∀ entry ∈ entries, entry.isPath = true →
      ∀ char ∈ entry.name, isWhitespace char = false) :
    parseLinuxMaps (mapsBytes entries) =
      .ok ((entries.filter MapsEntry.isPath).map fun entry =>
        entry.mapping entry.name) := by
  rw [parseLinuxMaps_mapsBytes readable, ← List.filterMap_eq_map,
    List.filterMap_filter]
  congr 1
  apply List.filterMap_congr
  intro entry member
  unfold MapsEntry.parsed
  split
  · next path =>
    have whole := (firstWord_eq_self_iff entry.name).mpr
      (solid entry member path)
    rw [whole]
    rfl
  · rfl

/-- An executable mapping of a file. -/
def sampleMapsEntry : MapsEntry where
  startAddress := 0x400000
  endAddress := 0x452000
  permissions := ⟨true, false, true⟩
  shared := false
  offset := 0
  major := 8
  minor := 2
  inode := 173521
  gap := 1
  name := "/bin/cat".toList

/-- The file is read back and the heap is left out. -/
theorem parseLinuxMaps_mapsBytes_solid_sample :
    parseLinuxMaps (mapsBytes [sampleMapsEntry,
        { sampleMapsEntry with
          startAddress := 0xe1b000
          endAddress := 0xe3c000
          name := "[heap]".toList }]) =
      .ok [⟨0x400000, 0x452000, 0, ⟨true, false, true⟩, some "/bin/cat", []⟩] := by
  rw [parseLinuxMaps_mapsBytes_solid]
  · decide
  · refine List.forall_mem_cons.mpr ⟨?_, List.forall_mem_singleton.mpr ?_⟩
    · exact ⟨by decide, by decide, by decide, by decide⟩
    · exact ⟨by decide, by decide, by decide, by decide⟩
  · refine List.forall_mem_cons.mpr ⟨?_, List.forall_mem_singleton.mpr ?_⟩
    · intro _
      apply (firstWord_eq_self_iff _).mp
      decide
    · intro path
      exact absurd path (by decide)

end Md2Core
