import Md2Core.Foundation.LastSeparator
import Md2Core.RustMinidump.Modules

/-!
# Names of shared libraries

A basename is taken for a library by walking back from its end: version
segments are stripped until a segment is `so`, no dot is left, or a segment is
neither. The walk is total, and the names it accepts are the words of a
grammar: any stem, `.so`, and any number of dotted runs of digits.
-/

namespace Md2Core

open Foundation

/-! ## The walk -/

/-- The loop over the part of a name in front of a position: the segment behind
the last dot decides, or is a version and the loop goes on in front of it. -/
def stripVersionSegments (bytes : List UInt8) (i : Nat) : Bool :=
  match dotPos : rposition (· == 0x2e) (bytes.take i) with
  | none => false
  | some pos =>
      let suffix := (bytes.take i).drop (pos + 1)
      if suffix = [0x73, 0x6f] then
        true
      else if suffix.all fun byte => 0x30 ≤ byte && byte ≤ 0x39 then
        stripVersionSegments bytes pos
      else
        false
termination_by i
decreasing_by
  exact lt_of_rposition_take dotPos

/-! ## The last segment of a name -/

theorem looksLikeSharedLib_of_not_mem
    {name : List UInt8}
    (noDot : 0x2e ∉ name) :
    looksLikeSharedLib name = false := by
  rw [looksLikeSharedLib, List.splitOn_eq_singleton noDot]
  rfl

/-- The segment behind the last dot decides, or what is in front of it does. -/
theorem looksLikeSharedLib_append
    (front : List UInt8)
    {suffix : List UInt8}
    (noDot : 0x2e ∉ suffix) :
    looksLikeSharedLib (front ++ 0x2e :: suffix) =
      if suffix = [0x73, 0x6f] then true
      else if suffix.all fun byte => 0x30 ≤ byte && byte ≤ 0x39 then
        looksLikeSharedLib front
      else false := by
  rw [looksLikeSharedLib, looksLikeSharedLib, List.splitOn_append_cons_self,
    List.splitOn_eq_singleton noDot, List.reverse_append, List.reverse_singleton,
    List.singleton_append]
  cases segments : (front.splitOn 0x2e).reverse with
  | nil => exact absurd (List.reverse_eq_nil_iff.mp segments) (List.splitOn_ne_nil _ _)
  | cons next rest => rw [stripVersions]

/-- The walk from a position decides the part of the name in front of it. -/
theorem stripVersionSegments_eq (bytes : List UInt8) (i : Nat) :
    stripVersionSegments bytes i = looksLikeSharedLib (bytes.take i) := by
  induction i using Nat.strongRecOn with
  | ind i inductionHypothesis =>
      rw [stripVersionSegments]
      split
      · rename_i absent
        exact (looksLikeSharedLib_of_not_mem (not_mem_of_rposition_eq_none absent)).symm
      · rename_i pos dotPos
        obtain ⟨front, suffix, split, length, noDot⟩ :=
          exists_cut_of_rposition_eq_some dotPos
        have before : pos < i := lt_of_rposition_take dotPos
        have behind : (bytes.take i).drop (pos + 1) = suffix := by
          rw [split, ← length, List.drop_length_add_append, List.drop_one, List.tail_cons]
        have inFront : bytes.take pos = front := by
          rw [← Nat.min_eq_left before.le, ← List.take_take, split, ← length,
            List.take_left]
        rw [behind, split, looksLikeSharedLib_append front noDot,
          inductionHypothesis pos before, inFront]

/-! ## The grammar -/

/-- A possibly empty run of ASCII digits. -/
def IsDigitRun (segment : List UInt8) : Prop :=
  ∀ byte ∈ segment, 0x30 ≤ byte ∧ byte ≤ 0x39

/-- A stem, `.so`, and any number of dotted runs of digits. -/
def IsSharedLibName (name : List UInt8) : Prop :=
  ∃ (stem : List UInt8) (segments : List (List UInt8)),
    (∀ segment ∈ segments, IsDigitRun segment) ∧
      name = stem ++ [0x2e, 0x73, 0x6f] ++ segments.flatMap (0x2e :: ·)

theorem isDigitRun_iff_all (segment : List UInt8) :
    (segment.all fun byte => 0x30 ≤ byte && byte ≤ 0x39) = true ↔
      IsDigitRun segment := by
  simp [IsDigitRun]

theorem IsDigitRun.not_mem
    {segment : List UInt8}
    (digits : IsDigitRun segment) :
    0x2e ∉ segment := by
  intro member
  have bounds := digits _ member
  exact absurd bounds.1 (by decide)

theorem not_isSharedLibName_of_not_mem
    {name : List UInt8}
    (noDot : 0x2e ∉ name) :
    ¬IsSharedLibName name := by
  rintro ⟨stem, segments, _, rfl⟩
  exact noDot (by simp)

/-- The last segment of a word of the grammar is `so` itself or a run of digits
behind a shorter word. -/
theorem isSharedLibName_append_iff
    (front : List UInt8)
    {suffix : List UInt8}
    (noDot : 0x2e ∉ suffix) :
    IsSharedLibName (front ++ 0x2e :: suffix) ↔
      suffix = [0x73, 0x6f] ∨ (IsDigitRun suffix ∧ IsSharedLibName front) := by
  constructor
  · rintro ⟨stem, segments, digits, word⟩
    rcases segments.eq_nil_or_concat with rfl | ⟨others, last, rfl⟩
    · left
      rw [List.flatMap_nil, List.append_nil] at word
      exact (append_separator_inj noDot (by decide) word).2
    · right
      rw [List.concat_eq_append] at digits word
      have lastDigits : IsDigitRun last := digits last (by simp)
      have cut :
          front ++ 0x2e :: suffix =
            (stem ++ [0x2e, 0x73, 0x6f] ++ others.flatMap (0x2e :: ·)) ++
              0x2e :: last := by
        rw [word, List.flatMap_append, List.flatMap_singleton, List.append_assoc _ _ (_ :: _)]
      obtain ⟨rfl, rfl⟩ := append_separator_inj noDot lastDigits.not_mem cut
      refine ⟨lastDigits, stem, others, ?_, rfl⟩
      intro segment member
      exact digits segment (List.mem_append_left _ member)
  · rintro (rfl | ⟨digits, stem, segments, others, rfl⟩)
    · exact ⟨front, [], by simp, by simp⟩
    · refine ⟨stem, segments ++ [suffix], ?_, ?_⟩
      · intro segment member
        rcases List.mem_append.mp member with earlier | last
        · exact others segment earlier
        · rw [List.mem_singleton.mp last]
          exact digits
      · rw [List.flatMap_append, List.flatMap_singleton, List.append_assoc _ _ (_ :: _)]

/-- The loop from the end of a name is the test of a library name, and it
accepts exactly the words of the grammar. -/
theorem looksLikeSharedLib_iff_isSharedLibName (basename : List UInt8) :
    stripVersionSegments basename basename.length = looksLikeSharedLib basename ∧
      (looksLikeSharedLib basename = true ↔ IsSharedLibName basename) := by
  constructor
  · rw [stripVersionSegments_eq, List.take_length]
  · induction basename using lastSeparator_induction (0x2e : UInt8) with
    | plain name noDot =>
        simp [looksLikeSharedLib_of_not_mem noDot, not_isSharedLibName_of_not_mem noDot]
    | separated front suffix noDot inductionHypothesis =>
        rw [looksLikeSharedLib_append front noDot,
          isSharedLibName_append_iff front noDot, ← inductionHypothesis,
          ← isDigitRun_iff_all]
        split
        · rename_i isSo
          simp [isSo]
        · rename_i notSo
          simp only [notSo, false_or]
          split
          · rename_i digits
            simp [digits]
          · rename_i notDigits
            simp [notDigits]

end Md2Core
