import Mathlib.Data.List.DropRight
import Mathlib.Data.List.TakeWhile
import Mathlib.Tactic.IntervalCases

/-!
# Text as a list of characters

Words between whitespace, lines, and hexadecimal numbers, with the laws by which
a printed text is read back: words split at every space, a line ends at its
newline, and the digits of a number give the number.
-/

namespace Foundation

/-! ## Whitespace and words -/

/-- The Unicode property `White_Space`. -/
def isWhitespace (char : Char) : Bool :=
  let code := char.toNat
  (9 ≤ code && code ≤ 13) || code == 0x20 || code == 0x85 || code == 0xa0 ||
    code == 0x1680 || (0x2000 ≤ code && code ≤ 0x200a) || code == 0x2028 ||
    code == 0x2029 || code == 0x202f || code == 0x205f || code == 0x3000

/-- The nonempty pieces of a text between whitespace. -/
def splitWhitespace (text : List Char) : List (List Char) :=
  (text.splitOnP isWhitespace).filter fun word => !word.isEmpty

@[simp] theorem splitWhitespace_nil : splitWhitespace [] = [] := by
  simp [splitWhitespace]

/-- Words split at every whitespace character. -/
theorem splitWhitespace_append_cons
    {space : Char}
    (isSpace : isWhitespace space = true)
    (front back : List Char) :
    splitWhitespace (front ++ space :: back) =
      splitWhitespace front ++ splitWhitespace back := by
  rw [splitWhitespace, List.splitOnP_append_cons front back isSpace,
    List.filter_append]
  rfl

theorem splitWhitespace_cons
    {space : Char}
    (isSpace : isWhitespace space = true)
    (text : List Char) :
    splitWhitespace (space :: text) = splitWhitespace text := by
  have split := splitWhitespace_append_cons isSpace [] text
  rwa [List.nil_append, splitWhitespace_nil, List.nil_append] at split

/-- Leading spaces belong to no word. -/
theorem splitWhitespace_replicate_append
    {space : Char}
    (isSpace : isWhitespace space = true)
    (count : Nat)
    (text : List Char) :
    splitWhitespace (List.replicate count space ++ text) =
      splitWhitespace text := by
  induction count with
  | zero => rfl
  | succ count inductionHypothesis =>
      rw [List.replicate_succ, List.cons_append, splitWhitespace_cons isSpace,
        inductionHypothesis]

/-- A nonempty text without whitespace is one word. -/
theorem splitWhitespace_word
    {word : List Char}
    (nonempty : word ≠ [])
    (solid : ∀ char ∈ word, isWhitespace char = false) :
    splitWhitespace word = [word] := by
  rw [splitWhitespace, List.splitOnP_eq_singleton solid]
  simp [nonempty]

/-- A word followed by whitespace is the first word. -/
theorem splitWhitespace_word_append
    {word : List Char}
    {space : Char}
    (nonempty : word ≠ [])
    (solid : ∀ char ∈ word, isWhitespace char = false)
    (isSpace : isWhitespace space = true)
    (back : List Char) :
    splitWhitespace (word ++ space :: back) = word :: splitWhitespace back := by
  rw [splitWhitespace_append_cons isSpace, splitWhitespace_word nonempty solid,
    List.singleton_append]

/-- The characters in front of the first whitespace. -/
def firstWord (text : List Char) : List Char :=
  text.takeWhile fun char => !isWhitespace char

theorem firstWord_cons
    {head : Char}
    (solid : isWhitespace head = false)
    (tail : List Char) :
    firstWord (head :: tail) = head :: firstWord tail := by
  simp [firstWord, solid]

theorem firstWord_solid (text : List Char) :
    ∀ char ∈ firstWord text, isWhitespace char = false := by
  intro char member
  have kept := List.mem_takeWhile_imp member
  simpa using kept

/-- A text that does not start with whitespace starts with its first word. -/
theorem splitWhitespace_of_head
    {head : Char}
    {tail : List Char}
    (solid : isWhitespace head = false) :
    ∃ others, splitWhitespace (head :: tail) =
      firstWord (head :: tail) :: others := by
  have nonempty : firstWord (head :: tail) ≠ [] := by
    rw [firstWord_cons solid]
    exact List.cons_ne_nil _ _
  have parts := @List.takeWhile_append_dropWhile _
    (fun char => !isWhitespace char) (head :: tail)
  cases rest : (head :: tail).dropWhile fun char => !isWhitespace char with
  | nil =>
      rw [rest, List.append_nil] at parts
      refine ⟨[], ?_⟩
      have whole : firstWord (head :: tail) = head :: tail := parts
      have word := splitWhitespace_word nonempty (firstWord_solid _)
      rwa [whole] at word ⊢
  | cons space back =>
      have isSpace : isWhitespace space = true := by
        have stopped := List.head_dropWhile_not
          (fun char => !isWhitespace char) (l := head :: tail)
          (by rw [rest]; exact List.cons_ne_nil _ _)
        simpa [rest] using stopped
      refine ⟨splitWhitespace back, ?_⟩
      have split := splitWhitespace_word_append nonempty (firstWord_solid _)
        isSpace back
      rw [rest] at parts
      rw [← split]
      exact congrArg splitWhitespace parts.symm

/-- A text without whitespace is its own first word, and no other text is. -/
theorem firstWord_eq_self_iff (text : List Char) :
    firstWord text = text ↔ ∀ char ∈ text, isWhitespace char = false := by
  rw [firstWord, List.takeWhile_eq_self_iff]
  simp

/-- The text without whitespace at either end. -/
def trim (text : List Char) : List Char :=
  (text.dropWhile isWhitespace).rdropWhile isWhitespace

/-- Whitespace at the end is not part of the first word. -/
theorem firstWord_append_spaces
    {spaces : List Char}
    (allSpaces : ∀ char ∈ spaces, isWhitespace char = true)
    (text : List Char) :
    firstWord (text ++ spaces) = firstWord text := by
  unfold firstWord
  induction text with
  | nil =>
      cases spaces with
      | nil => rfl
      | cons space rest =>
          simp [allSpaces space List.mem_cons_self]
  | cons head tail inductionHypothesis =>
      rw [List.cons_append, List.takeWhile_cons, List.takeWhile_cons,
        inductionHypothesis]

/-- A text without whitespace is trimmed already. -/
theorem trim_solid
    {text : List Char}
    (solid : ∀ char ∈ text, isWhitespace char = false) :
    trim text = text := by
  have visible : ∀ char ∈ text, ¬isWhitespace char = true := fun char member =>
    Bool.eq_false_iff.mp (solid char member)
  have front : text.dropWhile isWhitespace = text :=
    List.dropWhile_eq_self_iff.mpr fun positive => visible _ (List.getElem_mem positive)
  rw [trim, front, List.rdropWhile_eq_self_iff]
  exact fun nonempty => visible _ (List.getLast_mem nonempty)

/-- A text that starts with a word is trimmed at its end only. -/
theorem exists_trim_append
    {head : Char}
    (solid : isWhitespace head = false)
    (tail : List Char) :
    ∃ spaces, (∀ char ∈ spaces, isWhitespace char = true) ∧
      head :: tail = trim (head :: tail) ++ spaces := by
  have kept : trim (head :: tail) =
      (head :: tail).rdropWhile isWhitespace := by
    rw [trim, List.dropWhile_cons, solid]
    rfl
  refine ⟨(head :: tail).rtakeWhile isWhitespace, ?_, ?_⟩
  · intro char member
    exact List.mem_rtakeWhile_imp member
  · rw [kept]
    exact List.rdropWhile_append_rtakeWhile.symm

/-- Trimming keeps the first word of a text that starts with one. -/
theorem firstWord_trim
    {head : Char}
    (solid : isWhitespace head = false)
    (tail : List Char) :
    firstWord (trim (head :: tail)) = firstWord (head :: tail) := by
  obtain ⟨spaces, allSpaces, parts⟩ := exists_trim_append solid tail
  have front := firstWord_append_spaces allSpaces (trim (head :: tail))
  rw [← parts] at front
  exact front.symm

/-! ## Lines -/

/-- A line without a carriage return at its end. -/
def stripCarriageReturn (line : List Char) : List Char :=
  if line.getLast? = some '\r' then line.dropLast else line

/-- The lines among the pieces between newlines: a carriage return in front of a
newline belongs to neither line, and nothing follows the last newline. -/
def linesOfPieces : List (List Char) → List (List Char)
  | [] => []
  | [last] => if last.isEmpty then [] else [last]
  | piece :: next :: rest =>
      stripCarriageReturn piece :: linesOfPieces (next :: rest)

/-- The lines of a text, which end in a newline or at the end of the text. -/
def lines (text : List Char) : List (List Char) :=
  linesOfPieces (text.splitOn '\n')

@[simp] theorem lines_nil : lines [] = [] := by
  simp [lines, linesOfPieces]

/-- A line ends at its newline. -/
theorem lines_append_newline
    {line : List Char}
    (noNewline : '\n' ∉ line)
    (text : List Char) :
    lines (line ++ '\n' :: text) = stripCarriageReturn line :: lines text := by
  rw [lines, List.splitOn_append_cons_self_of_not_mem noNewline text, lines]
  cases pieces : text.splitOn '\n' with
  | nil => exact absurd pieces (List.splitOn_ne_nil _ _)
  | cons piece rest => rfl

/-- The words of a line do not depend on a carriage return at its end. -/
theorem splitWhitespace_stripCarriageReturn (line : List Char) :
    splitWhitespace (stripCarriageReturn line) = splitWhitespace line := by
  unfold stripCarriageReturn
  split
  · next ends =>
    have split := splitWhitespace_append_cons
      (show isWhitespace '\r' = true by decide) line.dropLast []
    rw [splitWhitespace_nil, List.append_nil] at split
    rw [← split, List.dropLast_append_getLast? _ ends]
  · rfl

/-! ## Hexadecimal numbers -/

/-- `char::to_digit(16)`. -/
def hexDigit (char : Char) : Option Nat :=
  if '0' ≤ char ∧ char ≤ '9' then some (char.toNat - 48)
  else if 'a' ≤ char ∧ char ≤ 'f' then some (char.toNat - 87)
  else if 'A' ≤ char ∧ char ≤ 'F' then some (char.toNat - 55)
  else none

/-- Read digits behind a value, without exceeding a limit. -/
def readHexDigits (limit : Nat) : Nat → List Char → Option Nat
  | value, [] => some value
  | value, char :: rest => do
      let digit ← hexDigit char
      if 16 * value + digit < limit then
        readHexDigits limit (16 * value + digit) rest
      else
        none

/-- `from_str_radix(src, 16)` for an unsigned type with a limit. A single sign
and an empty text are no numbers. -/
def fromStrRadix16 (limit : Nat) (src : List Char) : Option Nat :=
  match src with
  | [] | ['+'] | ['-'] => none
  | '+' :: digits => readHexDigits limit 0 digits
  | digits => readHexDigits limit 0 digits

/-- A hexadecimal number, with leading zeros up to a width. -/
def hexText (width value : Nat) : List Char :=
  List.replicate (width - (Nat.toDigits 16 value).length) '0' ++
    Nat.toDigits 16 value

theorem hexDigit_digitChar
    {digit : Nat}
    (small : digit < 16) :
    hexDigit (Nat.digitChar digit) = some digit := by
  interval_cases digit <;> rfl

/-- The digits of a number below the limit are read behind a value of zero. -/
theorem readHexDigits_toDigits
    {limit value : Nat}
    (fits : value < limit)
    (rest : List Char) :
    readHexDigits limit 0 (Nat.toDigits 16 value ++ rest) =
      readHexDigits limit value rest := by
  induction value using Nat.strongRecOn generalizing rest with
  | ind value inductionHypothesis =>
      rw [Nat.toDigits_eq_if (by decide)]
      split
      · next small =>
        rw [List.singleton_append, readHexDigits, hexDigit_digitChar small]
        simp [fits]
      · next large =>
        rw [List.append_assoc, inductionHypothesis (value / 16) (by omega)
          (by omega), List.singleton_append, readHexDigits,
          hexDigit_digitChar (Nat.mod_lt value (by decide))]
        simp [Nat.div_add_mod, fits]

/-- Leading zeros do not change the value. -/
theorem readHexDigits_replicate_zero
    {limit : Nat}
    (positive : 0 < limit)
    (count : Nat)
    (rest : List Char) :
    readHexDigits limit 0 (List.replicate count '0' ++ rest) =
      readHexDigits limit 0 rest := by
  induction count with
  | zero => rfl
  | succ count inductionHypothesis =>
      rw [List.replicate_succ, List.cons_append, readHexDigits,
        show hexDigit '0' = some 0 from rfl]
      simpa [positive] using inductionHypothesis

/-- What holds of every digit holds of the characters of a number. -/
theorem forall_mem_toDigits
    {base : Nat}
    {property : Char → Prop}
    (baseValid : 1 < base)
    (digits : ∀ digit < base, property (Nat.digitChar digit))
    (value : Nat) :
    ∀ char ∈ Nat.toDigits base value, property char := by
  induction value using Nat.strongRecOn with
  | ind value inductionHypothesis =>
      rw [Nat.toDigits_eq_if baseValid]
      split
      · next small => simpa using digits value small
      · next large =>
        intro char member
        rcases List.mem_append.mp member with inFront | last
        · exact inductionHypothesis (value / base)
            (Nat.div_lt_self (by omega) baseValid) char inFront
        · obtain rfl := List.mem_singleton.mp last
          exact digits _ (Nat.mod_lt value (by omega))

theorem forall_mem_hexText
    {property : Char → Prop}
    (digits : ∀ digit < 16, property (Nat.digitChar digit))
    (width value : Nat) :
    ∀ char ∈ hexText width value, property char := by
  intro char member
  rcases List.mem_append.mp member with zero | digit
  · obtain ⟨_, rfl⟩ := List.mem_replicate.mp zero
    exact digits 0 (by decide)
  · exact forall_mem_toDigits (by decide) digits value char digit

theorem hexText_ne_nil (width value : Nat) : hexText width value ≠ [] := by
  rw [hexText]
  exact List.append_ne_nil_of_right_ne_nil _ Nat.toDigits_ne_nil

/-- A printed number below the limit is read back. -/
theorem fromStrRadix16_hexText
    {limit value : Nat}
    (fits : value < limit)
    (width : Nat) :
    fromStrRadix16 limit (hexText width value) = some value := by
  have read : readHexDigits limit 0 (hexText width value) = some value := by
    have digits := readHexDigits_toDigits fits []
    rw [List.append_nil] at digits
    rw [hexText, readHexDigits_replicate_zero (by omega), digits]
    rfl
  have unsigned := @forall_mem_hexText
    (fun char => char ≠ '+' ∧ char ≠ '-') (by decide) width value
  cases text : hexText width value with
  | nil => exact absurd text (hexText_ne_nil width value)
  | cons head tail =>
      rw [text] at read unsigned
      obtain ⟨notPlus, notMinus⟩ := unsigned head List.mem_cons_self
      rw [← read, fromStrRadix16] <;> simp [notPlus, notMinus]

end Foundation
