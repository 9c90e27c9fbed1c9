import Md2Core.Foundation.ByteString
import Md2Core.RustMinidump.Ingest

/-!
# The auxiliary vector and maps text

The stream of the auxiliary vector sometimes has maps text instead. The two are
told apart by the first 17 bytes: in maps text they belong to the first range,
and in an auxiliary vector the fourth byte is the high byte of a small type.
-/

namespace Md2Core

open Foundation

/-- An entry of an auxiliary vector. -/
structure AuxvEntry where
  aType : Nat
  aVal : Nat
  deriving DecidableEq

/-- The little-endian word pairs of an auxiliary vector. -/
def encodeAuxv (word : Nat) (vector : List AuxvEntry) : List UInt8 :=
  encodeWords word (vector.flatMap fun entry => [entry.aType, entry.aVal])

/-- The types of the vector are small numbers. -/
def SmallTypes (vector : List AuxvEntry) : Prop :=
  ∀ entry ∈ vector, entry.aType < 2 ^ 24

/-! ## Maps text is recognized -/

/-- A text has at least as many bytes as characters. -/
theorem length_le_flatMap_utf8EncodeChar (text : List Char) :
    text.length ≤ (text.flatMap String.utf8EncodeChar).length := by
  induction text with
  | nil => exact Nat.le_refl 0
  | cons char rest inductionHypothesis =>
      have bytes := char.utf8Size_pos
      rw [List.flatMap_cons, List.length_append, List.length_cons,
        String.length_utf8EncodeChar]
      omega

/-- A byte of a printed range. -/
def isRangeByte (byte : UInt8) : Bool :=
  isAsciiHexdigit byte || byte == 0x2d

/-- A text that continues behind 17 bytes of a range looks like maps text. -/
theorem looksLikeLinuxMaps_append
    {range behind : List UInt8}
    (long : 17 ≤ range.length)
    (allRange : ∀ byte ∈ range, isRangeByte byte = true)
    (continues : behind ≠ []) :
    looksLikeLinuxMaps (range ++ behind) = true := by
  have more := List.length_pos_iff.mpr continues
  unfold looksLikeLinuxMaps
  rw [if_neg (by rw [List.length_append]; omega), List.all_eq_true,
    List.take_append_of_le_length long]
  intro byte member
  exact allRange byte (List.mem_of_mem_take member)

/-- A printed range has two bounds of at least eight digits. -/
theorem MapsEntry.length_rangeText (entry : MapsEntry) :
    17 ≤ entry.rangeText.length := by
  simp only [rangeText, hexText, List.length_append, List.length_cons,
    List.length_replicate]
  omega

/-- Maps text is recognized by the range of its first line. -/
theorem looksLikeLinuxMaps_mapsBytes
    {entries : List MapsEntry}
    (nonempty : entries ≠ []) :
    looksLikeLinuxMaps (mapsBytes entries) = true := by
  obtain ⟨entry, rest, rfl⟩ := List.exists_cons_of_ne_nil nonempty
  have line : ∃ columns, entry.line = entry.rangeText ++ ' ' :: columns :=
    ⟨_, rfl⟩
  obtain ⟨columns, line⟩ := line
  have text : mapsText (entry :: rest) =
      entry.rangeText ++ ' ' :: (columns ++ '\n' :: mapsText rest) := by
    simp [mapsText, line]
  rw [mapsBytes, asBytes_ofList, text, List.flatMap_append]
  apply looksLikeLinuxMaps_append
  · have bytes := length_le_flatMap_utf8EncodeChar entry.rangeText
    have digits := entry.length_rangeText
    omega
  · intro byte member
    obtain ⟨char, inRange, inChar⟩ := List.mem_flatMap.mp member
    have charBytes := @MapsEntry.forall_mem_rangeText
      (fun char => (String.utf8EncodeChar char).all isRangeByte = true)
      (by decide +kernel) (by decide +kernel) entry char inRange
    exact List.all_eq_true.mp charBytes byte inChar
  · rw [List.flatMap_cons]
    exact List.append_ne_nil_of_left_ne_nil String.utf8EncodeChar_ne_nil _

/-! ## Auxiliary vectors are not -/

/-- A zero byte among the first 17 is not maps text. -/
theorem looksLikeLinuxMaps_of_zero
    {front : List UInt8}
    (early : front.length < 17)
    (back : List UInt8) :
    looksLikeLinuxMaps (front ++ 0 :: back) = false := by
  unfold looksLikeLinuxMaps
  split
  · rfl
  · rw [List.all_eq_false]
    refine ⟨0, ?_, by decide⟩
    obtain ⟨more, within⟩ := Nat.exists_eq_add_of_lt early
    have taken : (front ++ 0 :: back).take 17 =
        front ++ 0 :: back.take more := by
      rw [within, Nat.add_assoc, List.take_length_add_append,
        List.take_succ_cons]
    simp [taken]

/-- A word of at least four bytes with a small value has a zero as its fourth
byte. -/
theorem leBytes_of_small
    {word value : Nat}
    (wide : 4 ≤ word)
    (small : value < 2 ^ 24) :
    leBytes word value = leBytes 3 value ++ 0 :: leBytes (word - 4) 0 := by
  obtain ⟨more, rfl⟩ := Nat.exists_eq_add_of_le wide
  have high : value / 256 ^ 3 = 0 := Nat.div_eq_of_lt (by simpa using small)
  rw [show 4 + more = 3 + (more + 1) by omega, leBytes_add, high, leBytes_succ,
    show 3 + (more + 1) - 4 = more by omega]
  rfl

/-- An auxiliary vector is not maps text. -/
theorem looksLikeLinuxMaps_encodeAuxv
    {word : Nat}
    {vector : List AuxvEntry}
    (wide : 4 ≤ word)
    (small : SmallTypes vector) :
    looksLikeLinuxMaps (encodeAuxv word vector) = false := by
  cases vector with
  | nil => rfl
  | cons entry rest =>
      have first := small entry List.mem_cons_self
      rw [encodeAuxv, List.flatMap_cons, List.cons_append, encodeWords_cons,
        leBytes_of_small wide first, List.append_assoc, List.cons_append]
      apply looksLikeLinuxMaps_of_zero
      rw [length_leBytes]
      decide

/-! ## Ingestion -/

/-- Bytes that are not maps text are stored, and no text is parsed. -/
theorem ingestLinuxStreams_stores
    {streams : LinuxStreams}
    {auxv : List UInt8}
    (read : streams.linuxAuxv = .ok (some auxv))
    (noText : looksLikeLinuxMaps auxv = false)
    (process next : CrashedProcess) :
    ingestLinuxStreams streams process = .ok next ↔
      ∃ maps cmdline, streams.mapsMappings = .ok maps ∧
        streams.linuxCmdLine = .ok cmdline ∧
        next = ingestLinuxCmdLine cmdline { process with
          mappings :=
            (maps.foldl CrashedProcess.insertMapping process).mappings
          auxv } := by
  have noMappings : streams.textMappings = .ok [] := by
    unfold LinuxStreams.textMappings
    refine bind_eq_ok.mpr ⟨some auxv, read, ?_⟩
    simp only [noText, Bool.false_eq_true, if_false]
    rfl
  have stored : storedAuxv (some auxv) process = auxv := by
    simp [storedAuxv, noText]
  rw [ingestLinuxStreams_eq_ok]
  simp only [noMappings, read, Except.ok.injEq, exists_eq_left',
    List.append_nil, stored, exists_and_left]

theorem auxv_ingestLinuxCmdLine
    (cmdline : Option (List UInt8))
    (process : CrashedProcess) :
    (ingestLinuxCmdLine cmdline process).auxv = process.auxv := by
  cases cmdline <;> rfl

/-- Maps text is always recognized and an auxiliary vector never is. Ingestion
stores the vector unchanged and takes no mapping from it. -/
theorem looksLikeLinuxMaps_separates :
    (∀ entries : List MapsEntry, entries ≠ [] →
      looksLikeLinuxMaps (mapsBytes entries) = true) ∧
    ∀ (word : Nat) (vector : List AuxvEntry), word = 4 ∨ word = 8 →
      SmallTypes vector →
        looksLikeLinuxMaps (encodeAuxv word vector) = false ∧
        ∀ (streams : LinuxStreams) (process next : CrashedProcess),
          streams.linuxAuxv = .ok (some (encodeAuxv word vector)) →
            (ingestLinuxStreams streams process = .ok next ↔
              ∃ maps cmdline, streams.mapsMappings = .ok maps ∧
                streams.linuxCmdLine = .ok cmdline ∧
                next = ingestLinuxCmdLine cmdline { process with
                  mappings :=
                    (maps.foldl CrashedProcess.insertMapping process).mappings
                  auxv := encodeAuxv word vector }) ∧
            (ingestLinuxStreams streams process = .ok next →
              next.auxv = encodeAuxv word vector) := by
  refine ⟨fun entries => looksLikeLinuxMaps_mapsBytes, ?_⟩
  intro word vector wordSize small
  have wide : 4 ≤ word := by
    rcases wordSize with rfl | rfl <;> decide
  have noText := looksLikeLinuxMaps_encodeAuxv wide small
  refine ⟨noText, ?_⟩
  intro streams process next read
  have stores := ingestLinuxStreams_stores read noText process next
  refine ⟨stores, ?_⟩
  intro ingested
  obtain ⟨maps, cmdline, _, _, rfl⟩ := stores.mp ingested
  exact auxv_ingestLinuxCmdLine cmdline _

/-- A page size, and a value whose bytes are all hexadecimal digits. -/
def sampleAuxv : List AuxvEntry :=
  [⟨6, 4096⟩, ⟨9, 0x6161616161616161⟩]

/-- The streams of a dump with the vector and nothing else. -/
def sampleAuxvStreams : LinuxStreams where
  linuxMaps := none
  linuxAuxv := .ok (some (encodeAuxv 8 sampleAuxv))
  linuxCmdLine := .ok none

/-- The line of a file is text, and the vector is stored. -/
theorem looksLikeLinuxMaps_separates_sample :
    looksLikeLinuxMaps (mapsBytes [sampleMapsEntry]) = true ∧
      looksLikeLinuxMaps (encodeAuxv 8 sampleAuxv) = false ∧
      ∃ next, ingestLinuxStreams sampleAuxvStreams
          (CrashedProcess.new .x86_64) = .ok next ∧
        next.auxv = encodeAuxv 8 sampleAuxv := by
  obtain ⟨texts, vectors⟩ := looksLikeLinuxMaps_separates
  have small : SmallTypes sampleAuxv := by
    unfold SmallTypes
    decide
  obtain ⟨noText, ingestion⟩ := vectors 8 sampleAuxv (Or.inr rfl) small
  refine ⟨texts [sampleMapsEntry] (List.cons_ne_nil _ _), noText, ?_⟩
  obtain ⟨stores, keeps⟩ := ingestion sampleAuxvStreams
    (CrashedProcess.new .x86_64) _ rfl
  have ingested := stores.mpr ⟨[], none, rfl, rfl, rfl⟩
  exact ⟨_, ingested, keeps ingested⟩

end Md2Core
