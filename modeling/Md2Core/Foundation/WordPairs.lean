import Md2Core.Foundation.ByteString

/-!
# Tables of word pairs

A table of two-word entries, a tag and a value, both little-endian and of one
width. A byte string that ends within an entry has no entry there.
-/

namespace Foundation

/-- The entry of a byte string at an index, or nothing past its last whole
entry. -/
def pairAt (word : Nat) (bytes : List UInt8) (index : Nat) : Option (Nat × Nat) :=
  if index * (2 * word) + 2 * word ≤ bytes.length then
    some (leNat (slice bytes (index * (2 * word)) word),
      leNat (slice bytes (index * (2 * word) + word) word))
  else
    none

theorem pairAt_eq_some
    {word index : Nat}
    {bytes : List UInt8}
    {entry : Nat × Nat} :
    pairAt word bytes index = some entry ↔
      index * (2 * word) + 2 * word ≤ bytes.length ∧
        entry.1 = leNat (slice bytes (index * (2 * word)) word) ∧
        entry.2 = leNat (slice bytes (index * (2 * word) + word) word) := by
  unfold pairAt
  split
  · next inside =>
    rw [Option.some.injEq, Prod.ext_iff]
    exact ⟨fun both => ⟨inside, both.1.symm, both.2.symm⟩,
      fun all => ⟨all.2.1.symm, all.2.2.symm⟩⟩
  · next outside => simp [outside]

/-- The first entry with one of two tags. -/
def FirstTagged
    (word : Nat)
    (bytes : List UInt8)
    (wanted stop : Nat)
    (index : Nat) : Prop :=
  (∃ value, pairAt word bytes index = some (wanted, value)) ∧
    ∀ earlier < index, ∀ entry, pairAt word bytes earlier = some entry →
      entry.1 ≠ wanted ∧ entry.1 ≠ stop

/-- Two words of a row are an entry of the table. -/
theorem pairAt_encodeWords
    {word index tag value : Nat}
    {values : List Nat}
    (tagFound : values[2 * index]? = some tag)
    (valueFound : values[2 * index + 1]? = some value)
    (tagFits : tag < 256 ^ word)
    (valueFits : value < 256 ^ word) :
    pairAt word (encodeWords word values) index = some (tag, value) := by
  have tagRead := readLe_encodeWords_append [] tagFound tagFits
  have valueRead := readLe_encodeWords_append [] valueFound valueFits
  have tagStart : 2 * index * word = index * (2 * word) := by ring
  have valueStart : (2 * index + 1) * word = index * (2 * word) + word := by ring
  rw [List.append_nil, tagStart, readLe] at tagRead
  rw [List.append_nil, valueStart, readLe] at valueRead
  split at tagRead
  · split at valueRead
    · next inside =>
      rw [pairAt, if_pos (by omega), Option.some.inj tagRead,
        Option.some.inj valueRead]
    · contradiction
  · contradiction

/-- Entries before an entry are entries. -/
theorem exists_pairAt_of_le
    {word earlier index : Nat}
    {bytes : List UInt8}
    {entry : Nat × Nat}
    (found : pairAt word bytes index = some entry)
    (before : earlier ≤ index) :
    ∃ entry, pairAt word bytes earlier = some entry := by
  have inside := (pairAt_eq_some.mp found).1
  have scaled := Nat.mul_le_mul_right (2 * word) before
  refine ⟨(_, _), pairAt_eq_some.mpr ⟨?_, rfl, rfl⟩⟩
  omega

/-- One more entry is passed when it has neither tag. -/
theorem passed_succ
    {word wanted stop index : Nat}
    {bytes : List UInt8}
    {next : Nat × Nat}
    (passed : ∀ earlier < index, ∀ entry,
      pairAt word bytes earlier = some entry →
        entry.1 ≠ wanted ∧ entry.1 ≠ stop)
    (here : pairAt word bytes index = some next)
    (neither : next.1 ≠ wanted ∧ next.1 ≠ stop) :
    ∀ earlier < index + 1, ∀ entry,
      pairAt word bytes earlier = some entry →
        entry.1 ≠ wanted ∧ entry.1 ≠ stop := by
  intro earlier before entry found
  rcases Nat.lt_succ_iff_lt_or_eq.mp before with less | rfl
  · exact passed earlier less entry found
  · rw [here, Option.some.injEq] at found
    rwa [← found]

/-- Nothing is found once every entry was passed or a stop tag was met. -/
theorem not_firstTagged_of_stop
    {word wanted stop index : Nat}
    {bytes : List UInt8}
    (different : wanted ≠ stop)
    (passed : ∀ earlier < index, ∀ entry,
      pairAt word bytes earlier = some entry →
        entry.1 ≠ wanted ∧ entry.1 ≠ stop)
    (stops : ∀ entry, pairAt word bytes index = some entry → entry.1 = stop)
    (found : Nat) :
    ¬FirstTagged word bytes wanted stop found := by
  rintro ⟨⟨value, foundEntry⟩, foundPassed⟩
  rcases Nat.lt_trichotomy found index with before | same | behind
  · exact (passed found before _ foundEntry).1 rfl
  · exact different (stops _ (same ▸ foundEntry))
  · obtain ⟨entry, stopEntry⟩ := exists_pairAt_of_le foundEntry behind.le
    exact (foundPassed index behind entry stopEntry).2 (stops entry stopEntry)

/-- There is at most one first entry. -/
theorem FirstTagged.unique
    {word wanted stop first second : Nat}
    {bytes : List UInt8}
    (firstFound : FirstTagged word bytes wanted stop first)
    (secondFound : FirstTagged word bytes wanted stop second) :
    first = second := by
  obtain ⟨⟨firstValue, firstEntry⟩, firstPassed⟩ := firstFound
  obtain ⟨⟨secondValue, secondEntry⟩, secondPassed⟩ := secondFound
  rcases Nat.lt_trichotomy first second with before | same | behind
  · exact absurd rfl (secondPassed first before _ firstEntry).1
  · exact same
  · exact absurd rfl (firstPassed second behind _ secondEntry).1

/-- Overwriting the value of the first tagged entry keeps it the first one. -/
theorem FirstTagged.splice_value
    {word wanted stop index value : Nat}
    {bytes : List UInt8}
    (first : FirstTagged word bytes wanted stop index)
    (fits : value < 256 ^ word) :
    let patched := splice bytes (index * (2 * word) + word) (leBytes word value)
    FirstTagged word patched wanted stop index ∧
      pairAt word patched index = some (wanted, value) := by
  intro patched
  obtain ⟨⟨old, entry⟩, passed⟩ := first
  obtain ⟨inside, tag, _⟩ := pairAt_eq_some.mp entry
  have wordInside : index * (2 * word) + word +
      (leBytes word value).length ≤ bytes.length := by
    rw [length_leBytes]
    omega
  have sameLength : patched.length = bytes.length := length_splice wordInside
  have kept : ∀ start count, start + count ≤ index * (2 * word) + word →
      slice patched start count = slice bytes start count :=
    fun start count before => slice_splice_of_outside wordInside (Or.inl before)
  have written : slice patched (index * (2 * word) + word) word =
      leBytes word value := by
    have spliced := @slice_splice _ bytes (leBytes word value)
      (index * (2 * word) + word) (by omega)
    rwa [length_leBytes] at spliced
  have here : pairAt word patched index = some (wanted, value) := by
    refine pairAt_eq_some.mpr ⟨sameLength ▸ inside, ?_, ?_⟩
    · rw [kept _ _ (Nat.le_refl _), ← tag]
    · rw [written, leNat_leBytes_of_lt fits]
  refine ⟨⟨⟨value, here⟩, ?_⟩, here⟩
  intro earlier before found foundAt
  apply passed earlier before found
  have scaled := Nat.mul_le_mul_right (2 * word) (Nat.succ_le_of_lt before)
  rw [Nat.succ_mul] at scaled
  obtain ⟨foundInside, foundTag, foundValue⟩ := pairAt_eq_some.mp foundAt
  rw [kept _ _ (by omega)] at foundTag foundValue
  exact pairAt_eq_some.mpr ⟨sameLength ▸ foundInside, foundTag, foundValue⟩

end Foundation
