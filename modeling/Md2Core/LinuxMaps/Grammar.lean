import Md2Core.LinuxMaps
import Md2Core.Foundation.HexNumbers

/-!
# The grammar of maps text

What the reader of maps text accepts: a line has a range of two hexadecimal
numbers, a permission column and a hexadecimal offset, and a line with an
absolute file name has a nonempty range. One line that is not of this form
rejects the whole text.
-/

namespace Md2Core

open Foundation

/-- A line consists of whitespace. -/
def BlankLine (line : List Char) : Prop :=
  ∀ char ∈ line, isWhitespace char = true

instance blankLineDecidable (line : List Char) : Decidable (BlankLine line) :=
  decidable_of_iff (line.all isWhitespace = true) List.all_eq_true

/-- A line of maps text, under a notion of numbers. Its first word is two
numbers joined by a hyphen and its third word is a number, all below `2^64`.
Where the sixth word is an absolute path, the range is nonempty. -/
def MapsLine
    (number : List Char → Nat → Prop)
    (line : List Char) : Prop :=
  ∃ first last permissions offset others startAddress endAddress fileOffset,
    splitWhitespace line =
      (first ++ '-' :: last) :: permissions :: offset :: others ∧
    (number first startAddress ∧ startAddress < 2 ^ 64) ∧
    (number last endAddress ∧ endAddress < 2 ^ 64) ∧
    (number offset fileOffset ∧ fileOffset < 2 ^ 64) ∧
    ∀ filename, others[2]? = some filename → filename.head? = some '/' →
      startAddress < endAddress

/-- Every line of the text that is not blank is a line of maps text. -/
def MapsGrammar
    (number : List Char → Nat → Prop)
    (text : String) : Prop :=
  ∀ line ∈ lines text.toList, ¬BlankLine line → MapsLine number line

/-! ## Accepted lines -/

/-- A text has two parts around its first separator. -/
theorem splitn2_eq_some_iff
    (separator : Char)
    (text first last : List Char) :
    splitn2 separator text = (first, some last) ↔
      text = first ++ separator :: last ∧ separator ∉ first := by
  constructor
  · intro parts
    unfold splitn2 at parts
    split at parts
    · simp at parts
    · next found rest behind =>
      obtain ⟨rfl, rfl⟩ := by simpa using parts
      have whole := @List.takeWhile_append_dropWhile _ (· != separator) text
      have stops := @List.head_dropWhile_not _ (· != separator) text
        (by rw [behind]; exact List.cons_ne_nil _ _)
      simp only [behind, List.head_cons, bne_eq_false_iff_eq] at stops
      subst stops
      rw [behind] at whole
      refine ⟨whole.symm, ?_⟩
      intro member
      have kept := List.mem_takeWhile_imp member
      simp at kept
  · rintro ⟨rfl, absent⟩
    have before : ∀ char ∈ first, (char != separator) = true := by
      rintro char member
      simp only [bne_iff_ne, ne_eq]
      rintro rfl
      exact absent member
    unfold splitn2
    rw [List.dropWhile_append_of_pos before, List.takeWhile_append_of_pos before]
    simp

/-- The reader accepts exactly the numbers below `2^64`. -/
theorem u64FromStrRadix16_eq_some_iff (src : List Char) (word : UInt64) :
    u64FromStrRadix16 src = some word ↔ SignedHexNumber src word.toNat := by
  rw [u64FromStrRadix16, Option.map_eq_some_iff]
  constructor
  · rintro ⟨value, read, rfl⟩
    obtain ⟨number, fits⟩ := (fromStrRadix16_eq_some_iff (by decide) _ _).mp read
    rwa [UInt64.toNat_ofNat_of_lt' fits]
  · intro number
    refine ⟨word.toNat, ?_, UInt64.ofNat_toNat⟩
    exact (fromStrRadix16_eq_some_iff (by decide) _ _).mpr
      ⟨number, word.toNat_lt⟩

theorem parseHexU64_eq_ok_iff
    (value : Option (List Char))
    (line : List Char)
    (word : UInt64) :
    parseHexU64 value line = .ok word ↔
      ∃ src, value = some src ∧ SignedHexNumber src word.toNat := by
  simp only [parseHexU64, bind_eq_ok, okOr_eq_ok, u64FromStrRadix16_eq_some_iff]

/-- The first three words of a line. -/
theorem exists_words_iff
    (words : List (List Char))
    (first second third : List Char) :
    (∃ others, words = first :: second :: third :: others) ↔
      words[0]? = some first ∧ words[1]? = some second ∧
        words[2]? = some third := by
  rcases words with _ | ⟨head, _ | ⟨next, _ | ⟨last, others⟩⟩⟩ <;> simp

/-- A line that is accepted is in the grammar. -/
theorem mapsLine_of_parseMapsLine
    {line : List Char}
    {mapping : Option Mapping}
    (parsed : parseMapsLine line = .ok mapping) :
    MapsLine SignedHexNumber line := by
  simp only [parseMapsLine, bind_eq_ok, okOr_eq_ok, parseHexU64_eq_ok_iff,
    u64FromStrRadix16_eq_some_iff, Option.some.injEq, exists_eq_left'] at parsed
  obtain ⟨range, rangeWord, permissions, permissionWord, offset, offsetWord,
    startAddress, firstNumber, endAddress, ⟨last, behind, lastNumber⟩,
    fileOffset, offsetNumber, rest⟩ := parsed
  obtain ⟨others, words⟩ := (exists_words_iff _ _ _ _).mpr
    ⟨rangeWord, permissionWord, offsetWord⟩
  obtain ⟨joined, _⟩ := (splitn2_eq_some_iff '-' range _ last).mp
    (Prod.ext rfl behind)
  refine ⟨_, last, permissions, offset, others, _, _, _, joined ▸ words,
    ⟨firstNumber, startAddress.toNat_lt⟩, ⟨lastNumber, endAddress.toNat_lt⟩,
    ⟨offsetNumber, fileOffset.toNat_lt⟩, ?_⟩
  intro filename sixth slash
  simp only [words, List.getElem?_cons_succ, sixth, slash, ne_eq,
    not_true_eq_false, if_false, bind_eq_ok] at rest
  obtain ⟨made, built, _⟩ := rest
  exact (Mapping.new_eq_ok.mp built).1

/-- A line in the grammar is accepted. -/
theorem MapsLine.exists_parseMapsLine
    {line : List Char}
    (mapsLine : MapsLine SignedHexNumber line) :
    ∃ mapping, parseMapsLine line = .ok mapping := by
  obtain ⟨first, last, permissions, offset, others, startValue, endValue,
    offsetValue, words, ⟨firstNumber, startFits⟩, ⟨lastNumber, endFits⟩,
    ⟨offsetNumber, offsetFits⟩, ordered⟩ := mapsLine
  obtain ⟨startAddress, _, rfl⟩ := exists_exactU64 startFits
  obtain ⟨endAddress, _, rfl⟩ := exists_exactU64 endFits
  obtain ⟨fileOffset, _, rfl⟩ := exists_exactU64 offsetFits
  have parts := (splitn2_eq_some_iff '-' (first ++ '-' :: last) first last).mpr
    ⟨rfl, firstNumber.hyphen_not_mem⟩
  simp only [parseMapsLine, words, bind_eq_ok, okOr_eq_ok,
    parseHexU64_eq_ok_iff, u64FromStrRadix16_eq_some_iff,
    List.getElem?_cons_zero, List.getElem?_cons_succ, Option.some.injEq,
    exists_eq_left', parts]
  apply Exists.imp fun mapping done =>
    ⟨startAddress, firstNumber, endAddress, lastNumber, fileOffset,
      offsetNumber, done⟩
  cases sixth : others[2]? with
  | none => exact ⟨none, rfl⟩
  | some filename =>
      by_cases slash : filename.head? = some '/'
      · have range := ordered filename sixth slash
        simp only [slash, ne_eq, not_true_eq_false, if_false]
        exact ⟨_, bind_eq_ok.mpr ⟨_, Mapping.new_eq_ok.mpr ⟨range, rfl⟩, rfl⟩⟩
      · simp only [ne_eq, slash, not_false_eq_true, if_true]
        exact ⟨none, rfl⟩

/-- Lines are accepted exactly when each of them is. -/
theorem exists_parseMapsLines_iff (texts : List (List Char)) :
    (∃ mappings, parseMapsLines texts = .ok mappings) ↔
      ∀ line ∈ texts, ∃ mapping, parseMapsLine line = .ok mapping := by
  induction texts with
  | nil =>
      constructor
      · intro _ line member
        contradiction
      · intro _
        exact ⟨[], rfl⟩
  | cons line rest inductionHypothesis =>
      rw [List.forall_mem_cons, ← inductionHypothesis]
      simp only [parseMapsLines, bind_eq_ok, pure_eq_ok]
      constructor
      · rintro ⟨_, mapping, first, mappings, others, _⟩
        exact ⟨⟨mapping, first⟩, mappings, others⟩
      · rintro ⟨⟨mapping, first⟩, mappings, others⟩
        exact ⟨_, mapping, first, mappings, others, rfl⟩

/-- A text is accepted exactly when each of its lines is. -/
theorem exists_parseLinuxMaps_iff (text : String) :
    (∃ mappings, parseLinuxMaps (asBytes text) = .ok mappings) ↔
      ∀ line ∈ lines text.toList, ∃ mapping, parseMapsLine line = .ok mapping := by
  rw [parseLinuxMaps, fromUtf8_asBytes]
  exact exists_parseMapsLines_iff (lines text.toList)

/-- A text without blank lines is accepted exactly when every line is in the
grammar, where a plus sign may stand in front of a number. -/
theorem parseLinuxMaps_accepts_iff
    (text : String)
    (noBlank : ∀ line ∈ lines text.toList, ¬BlankLine line) :
    (∃ mappings, parseLinuxMaps (asBytes text) = .ok mappings) ↔
      MapsGrammar SignedHexNumber text := by
  rw [exists_parseLinuxMaps_iff]
  constructor
  · intro accepted line member _
    obtain ⟨mapping, parsed⟩ := accepted line member
    exact mapsLine_of_parseMapsLine parsed
  · intro grammar line member
    exact (grammar line member (noBlank line member)).exists_parseMapsLine

/-- A file, and the stack under addresses with a plus sign. -/
def sampleMapsText : String :=
  "400000-452000 r-xp 0 08:02 173521 /bin/cat\n+1000-+2000 rw-p +0\n"

/-- The text is accepted, so its lines are in the grammar. -/
theorem parseLinuxMaps_accepts_iff_sample :
    MapsGrammar SignedHexNumber sampleMapsText := by
  apply (parseLinuxMaps_accepts_iff sampleMapsText ?noBlank).mp
  · apply exists_ok_of_isOk
    decide +kernel
  case noBlank =>
    decide +kernel

/-- A number with a plus sign is accepted though it is no string of digits, and
an empty line is rejected though it is blank. -/
theorem exists_text_outside_grammar :
    (∃ text : String,
      (∃ mappings, parseLinuxMaps (asBytes text) = .ok mappings) ∧
        ¬MapsGrammar HexNumber text) ∧
    (∃ text : String,
      (¬∃ mappings, parseLinuxMaps (asBytes text) = .ok mappings) ∧
        MapsGrammar HexNumber text) := by
  refine ⟨⟨"+1000-2000 rw-p 0", ?_, ?_⟩, ⟨"\n", ?_, ?_⟩⟩
  · apply exists_ok_of_isOk
    decide +kernel
  · intro grammar
    obtain ⟨first, last, permissions, offset, others, _, _, _, words,
      ⟨number, _⟩, _⟩ := grammar "+1000-2000 rw-p 0".toList (by decide +kernel)
        (by decide)
    have split : splitWhitespace "+1000-2000 rw-p 0".toList =
        ["+1000-2000".toList, "rw-p".toList, "0".toList] := by
      decide +kernel
    rw [split] at words
    cases first with
    | nil => exact number.nonempty rfl
    | cons head tail =>
        have plus : head = '+' :=
          (List.cons.inj (List.cons.inj words).1).1.symm
        subst plus
        have digit := number.digits '+' List.mem_cons_self
        contradiction
  · rintro ⟨mappings, accepted⟩
    have rejected : (parseLinuxMaps (asBytes "\n")).isOk = false := by
      decide +kernel
    rw [accepted] at rejected
    contradiction
  · intro line member solid
    have blank : ∀ line ∈ lines "\n".toList, BlankLine line := by
      decide +kernel
    exact absurd (blank line member) solid

end Md2Core
