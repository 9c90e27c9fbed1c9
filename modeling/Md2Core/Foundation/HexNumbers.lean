import Md2Core.Foundation.Text

/-!
# The language of hexadecimal numbers

The texts that a reader of hexadecimal numbers accepts, and their values. The
value of a text is its positional value, independent of how a reader
accumulates it.
-/

namespace Foundation

/-- The positional value of hexadecimal digits behind a value. -/
def hexValueFrom (value : Nat) (digits : List Char) : Nat :=
  digits.foldl (fun front char => 16 * front + (hexDigit char).getD 0) value

/-- A nonempty string of hexadecimal digits and its value. -/
structure HexNumber (text : List Char) (value : Nat) : Prop where
  nonempty : text ≠ []
  digits : ∀ char ∈ text, (hexDigit char).isSome
  value_eq : hexValueFrom 0 text = value

/-- A hexadecimal number in front of which a plus sign may stand. -/
def SignedHexNumber (text : List Char) (value : Nat) : Prop :=
  HexNumber text value ∨
    ∃ digits, text = '+' :: digits ∧ HexNumber digits value

theorem HexNumber.signed
    {text : List Char}
    {value : Nat}
    (number : HexNumber text value) :
    SignedHexNumber text value :=
  Or.inl number

/-- A hyphen is no digit. -/
theorem HexNumber.hyphen_not_mem
    {text : List Char}
    {value : Nat}
    (number : HexNumber text value) :
    '-' ∉ text := by
  intro member
  have digit := number.digits '-' member
  contradiction

theorem SignedHexNumber.hyphen_not_mem
    {text : List Char}
    {value : Nat}
    (number : SignedHexNumber text value) :
    '-' ∉ text := by
  rcases number with unsigned | ⟨digits, rfl, unsigned⟩
  · exact unsigned.hyphen_not_mem
  · simpa using unsigned.hyphen_not_mem

/-- Digits behind a value do not make it smaller. -/
theorem le_hexValueFrom (value : Nat) (digits : List Char) :
    value ≤ hexValueFrom value digits := by
  induction digits generalizing value with
  | nil => exact le_rfl
  | cons char rest inductionHypothesis =>
      have behind := inductionHypothesis (16 * value + (hexDigit char).getD 0)
      unfold hexValueFrom at behind ⊢
      rw [List.foldl_cons]
      omega

/-- Digits are read behind a value exactly when all of them are digits and the
whole value is below the limit. -/
theorem readHexDigits_eq_some_iff
    {limit value : Nat}
    (below : value < limit)
    (text : List Char)
    (result : Nat) :
    readHexDigits limit value text = some result ↔
      (∀ char ∈ text, (hexDigit char).isSome) ∧
        hexValueFrom value text = result ∧ result < limit := by
  induction text generalizing value with
  | nil =>
      simp only [readHexDigits, Option.some.injEq, hexValueFrom, List.foldl_nil,
        List.not_mem_nil, false_implies, implies_true, true_and]
      constructor
      · rintro rfl
        exact ⟨rfl, below⟩
      · exact And.left
  | cons char rest inductionHypothesis =>
      rw [readHexDigits, List.forall_mem_cons]
      cases digit : hexDigit char with
      | none => simp
      | some digitValue =>
          have step : hexValueFrom value (char :: rest) =
              hexValueFrom (16 * value + digitValue) rest := by
            rw [hexValueFrom, List.foldl_cons, digit]
            rfl
          rw [step]
          simp only [Option.bind_eq_bind, Option.bind_some, Option.isSome_some,
            true_and]
          split
          · next fits => exact inductionHypothesis fits
          · next exceeds =>
            have least := le_hexValueFrom (16 * value + digitValue) rest
            constructor
            · intro found
              contradiction
            · rintro ⟨_, rfl, fits⟩
              omega

/-- A nonempty text is read from zero exactly when it is a number below the
limit. -/
theorem readHexDigits_zero_eq_some_iff
    {limit : Nat}
    (positive : 0 < limit)
    {text : List Char}
    (nonempty : text ≠ [])
    (value : Nat) :
    readHexDigits limit 0 text = some value ↔
      HexNumber text value ∧ value < limit := by
  rw [readHexDigits_eq_some_iff positive]
  constructor
  · rintro ⟨digits, value_eq, fits⟩
    exact ⟨⟨nonempty, digits, value_eq⟩, fits⟩
  · rintro ⟨number, fits⟩
    exact ⟨number.digits, number.value_eq, fits⟩

/-- Digits behind a plus sign are read without it. -/
theorem fromStrRadix16_plus
    {digits : List Char}
    (nonempty : digits ≠ [])
    (limit : Nat) :
    fromStrRadix16 limit ('+' :: digits) = readHexDigits limit 0 digits := by
  rw [fromStrRadix16]
  exact nonempty

/-- A text without a plus sign is read as digits. -/
theorem fromStrRadix16_unsigned
    {head : Char}
    (noPlus : head ≠ '+')
    (limit : Nat)
    (tail : List Char) :
    fromStrRadix16 limit (head :: tail) =
      readHexDigits limit 0 (head :: tail) := by
  by_cases hyphen : head :: tail = ['-']
  · rw [hyphen]
    rfl
  · rw [fromStrRadix16]
    · simp
    · simp [noPlus]
    · exact hyphen
    · simp [noPlus]

/-- The empty text is no number. -/
theorem not_signedHexNumber_nil (value : Nat) :
    ¬SignedHexNumber [] value := by
  rintro (number | ⟨digits, text, _⟩)
  · exact number.nonempty rfl
  · contradiction

/-- Behind a plus sign stands a number without a sign. -/
theorem signedHexNumber_plus_iff (digits : List Char) (value : Nat) :
    SignedHexNumber ('+' :: digits) value ↔ HexNumber digits value := by
  constructor
  · rintro (number | ⟨others, text, number⟩)
    · have digit := number.digits '+' List.mem_cons_self
      contradiction
    · rwa [(List.cons.inj text).2]
  · intro number
    exact Or.inr ⟨digits, rfl, number⟩

/-- A number that does not start with a plus sign has no sign. -/
theorem signedHexNumber_unsigned_iff
    {head : Char}
    (noPlus : head ≠ '+')
    (tail : List Char)
    (value : Nat) :
    SignedHexNumber (head :: tail) value ↔
      HexNumber (head :: tail) value := by
  constructor
  · rintro (number | ⟨digits, text, _⟩)
    · exact number
    · exact absurd (List.cons.inj text).1 noPlus
  · exact HexNumber.signed

/-- The reader accepts exactly the hexadecimal numbers below its limit, with or
without a plus sign. -/
theorem fromStrRadix16_eq_some_iff
    {limit : Nat}
    (positive : 0 < limit)
    (src : List Char)
    (value : Nat) :
    fromStrRadix16 limit src = some value ↔
      SignedHexNumber src value ∧ value < limit := by
  cases src with
  | nil =>
      constructor
      · intro found
        contradiction
      · rintro ⟨number, _⟩
        exact absurd number (not_signedHexNumber_nil value)
  | cons head tail =>
      by_cases plus : head = '+'
      · subst plus
        rw [signedHexNumber_plus_iff]
        by_cases empty : tail = []
        · subst empty
          constructor
          · intro found
            contradiction
          · rintro ⟨number, _⟩
            exact absurd rfl number.nonempty
        · rw [fromStrRadix16_plus empty,
            readHexDigits_zero_eq_some_iff positive empty]
      · rw [signedHexNumber_unsigned_iff plus, fromStrRadix16_unsigned plus,
          readHexDigits_zero_eq_some_iff positive (List.cons_ne_nil _ _)]

end Foundation
