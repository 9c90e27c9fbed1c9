import Md2Core.Augment.Process
import Md2Core.Foundation.WordPairs

/-!
# What patching `DT_DEBUG` changes

The `_DYNAMIC` data is a table of word pairs. The scan ends at the first entry
that is tagged `DT_DEBUG` or `DT_NULL`, and replaces one value word or nothing.
-/

namespace Md2Core

open Foundation

/-- The first entry tagged `DT_DEBUG` or `DT_NULL` is a `DT_DEBUG`. -/
def DebugEntryAt
    (architecture : Architecture)
    (dynamicData : List UInt8)
    (index : Nat) : Prop :=
  FirstTagged architecture.longSize dynamicData dtDebug.toNat dtNull.toNat index

variable
  {architecture : Architecture}
  {dynamicData : List UInt8}
  {linkMapAddress : UInt64}

/-- An entry is two words long. -/
theorem entrySize_eq (architecture : Architecture) :
    (if architecture.is64bit then 16 else 8) = 2 * architecture.longSize := by
  cases architecture <;> rfl

/-- The tag of an entry is its first word. -/
theorem readWordPair_tag
    (architecture : Architecture)
    (dynamicData : List UInt8)
    (offset : Nat) :
    (readWordPair architecture
        (slice dynamicData offset (2 * architecture.longSize))).1.toNat =
      leNat (slice dynamicData offset architecture.longSize) := by
  have narrow : ∀ bytes : List UInt8, leNat (slice bytes 0 4) < 2 ^ 64 :=
    fun bytes => (leNat_slice_lt bytes 0 4).trans (by norm_num)
  unfold readWordPair Architecture.longSize
  split
  · rw [UInt64.toNat_ofNat_of_lt' (leNat_slice_lt _ 0 8),
      slice_slice dynamicData offset (by omega), Nat.add_zero]
  · rw [UInt64.toNat_ofNat_of_lt' (narrow _),
      slice_slice dynamicData offset (by omega), Nat.add_zero]

/-- A whole entry is an entry of the table. -/
theorem pairAt_readWordPair
    {index : Nat}
    (inside : index * (2 * architecture.longSize) +
      2 * architecture.longSize ≤ dynamicData.length) :
    pairAt architecture.longSize dynamicData index = some
      ((readWordPair architecture (slice dynamicData
          (index * (2 * architecture.longSize))
          (2 * architecture.longSize))).1.toNat,
        leNat (slice dynamicData
          (index * (2 * architecture.longSize) + architecture.longSize)
          architecture.longSize)) :=
  pairAt_eq_some.mpr ⟨inside, readWordPair_tag _ _ _, rfl⟩

/-- There is no entry to patch once every entry was passed or a `DT_NULL` was
met. -/
theorem not_debugEntryAt_of_stop
    {index : Nat}
    (passed : ∀ earlier < index, ∀ entry,
      pairAt architecture.longSize dynamicData earlier = some entry →
        entry.1 ≠ dtDebug.toNat ∧ entry.1 ≠ dtNull.toNat)
    (stops : ∀ entry,
      pairAt architecture.longSize dynamicData index = some entry →
        entry.1 = dtNull.toNat)
    (found : Nat) :
    ¬DebugEntryAt architecture dynamicData found :=
  not_firstTagged_of_stop (by decide) passed stops found

/-- A value that fits the word is written. -/
theorem writeWord_eq_ok_of_lt
    (fits : linkMapAddress.toNat < 256 ^ architecture.longSize) :
    writeWord architecture linkMapAddress =
      .ok (leBytes architecture.longSize linkMapAddress.toNat) := by
  unfold writeWord
  unfold Architecture.longSize at fits ⊢
  split
  · next wide => rfl
  · next narrow =>
    rw [if_neg narrow] at fits
    have value := UInt32.toNat_ofNat_of_lt' fits
    refine bind_eq_ok.mpr ⟨UInt32.ofNat linkMapAddress.toNat, ?_, ?_⟩
    · apply okOr_eq_ok.mpr
      exact u32TryFrom_eq_some.mpr value
    · rw [value]
      rfl

/-- The scan from an entry on, when no entry before it ends the scan. -/
theorem patchDtDebugFrom_eq_ok
    {fuel index : Nat}
    (fits : linkMapAddress.toNat < 256 ^ architecture.longSize)
    (enough : dynamicData.length ≤ fuel + index * (2 * architecture.longSize))
    (passed : ∀ earlier < index, ∀ entry,
      pairAt architecture.longSize dynamicData earlier = some entry →
        entry.1 ≠ dtDebug.toNat ∧ entry.1 ≠ dtNull.toNat) :
    (∃ found, DebugEntryAt architecture dynamicData found ∧
      patchDtDebugFrom architecture linkMapAddress fuel
          (index * (2 * architecture.longSize)) dynamicData =
        .ok (splice dynamicData
          (found * (2 * architecture.longSize) + architecture.longSize)
          (leBytes architecture.longSize linkMapAddress.toNat))) ∨
    ((∀ found, ¬DebugEntryAt architecture dynamicData found) ∧
      patchDtDebugFrom architecture linkMapAddress fuel
          (index * (2 * architecture.longSize)) dynamicData =
        .ok dynamicData) := by
  have wordPositive : 0 < architecture.longSize := by
    rcases architecture.longSize_eq_four_or_eight with four | eight <;> omega
  induction fuel generalizing index with
  | zero =>
      right
      refine ⟨?_, rfl⟩
      apply not_debugEntryAt_of_stop passed
      intro entry found
      have inside := (pairAt_eq_some.mp found).1
      omega
  | succ fuel inductionHypothesis =>
      unfold patchDtDebugFrom
      simp only [entrySize_eq]
      split
      · next inside =>
        have entry := pairAt_readWordPair inside
        split
        · next debug =>
          left
          refine ⟨index, ⟨⟨_, debug ▸ entry⟩, passed⟩, ?_⟩
          rw [Nat.mul_div_cancel_left _ (by omega),
            writeWord_eq_ok_of_lt fits]
          rfl
        · next notDebug =>
          split
          · next null =>
            right
            refine ⟨?_, rfl⟩
            apply not_debugEntryAt_of_stop passed
            intro other found
            rw [entry, Option.some.injEq] at found
            rw [← found, null]
          · next notNull =>
            have next : index * (2 * architecture.longSize) +
                2 * architecture.longSize =
                  (index + 1) * (2 * architecture.longSize) := by ring
            rw [next]
            apply inductionHypothesis
            · omega
            · apply passed_succ passed entry
              exact ⟨fun equal => notDebug (UInt64.toNat_inj.mp equal),
                fun equal => notNull (UInt64.toNat_inj.mp equal)⟩
      · next outside =>
        right
        refine ⟨?_, rfl⟩
        apply not_debugEntryAt_of_stop passed
        intro entry found
        exact absurd (pairAt_eq_some.mp found).1 outside

/-- Patching replaces one value word or nothing. -/
theorem patchDtDebug_eq_ok
    (fits : linkMapAddress.toNat < 256 ^ architecture.longSize) :
    (∃ found, DebugEntryAt architecture dynamicData found ∧
      patchDtDebug architecture dynamicData linkMapAddress =
        .ok (splice dynamicData
          (found * (2 * architecture.longSize) + architecture.longSize)
          (leBytes architecture.longSize linkMapAddress.toNat))) ∨
    ((∀ found, ¬DebugEntryAt architecture dynamicData found) ∧
      patchDtDebug architecture dynamicData linkMapAddress =
        .ok dynamicData) := by
  have scanned := @patchDtDebugFrom_eq_ok architecture dynamicData
    linkMapAddress dynamicData.length 0 fits (by omega) (by simp)
  rwa [Nat.zero_mul] at scanned

/-- Patching succeeds, keeps the length, and changes nothing but the value word
of the first entry that is tagged `DT_DEBUG` or `DT_NULL`, when this is a
`DT_DEBUG`. -/
theorem patchDtDebug_frame
    (architecture : Architecture)
    (dynamicData : List UInt8)
    (linkMapAddress : UInt64)
    (fits : linkMapAddress.toNat < 256 ^ architecture.longSize) :
    ∃ patched, patchDtDebug architecture dynamicData linkMapAddress =
        .ok patched ∧
      patched.length = dynamicData.length ∧
      (∀ index, DebugEntryAt architecture dynamicData index →
        slice patched
            (index * (2 * architecture.longSize) + architecture.longSize)
            architecture.longSize =
          leBytes architecture.longSize linkMapAddress.toNat ∧
        ∀ position,
          position < index * (2 * architecture.longSize) +
              architecture.longSize ∨
            index * (2 * architecture.longSize) + 2 * architecture.longSize ≤
              position →
          patched[position]? = dynamicData[position]?) ∧
      ((∀ index, ¬DebugEntryAt architecture dynamicData index) →
        patched = dynamicData) := by
  rcases @patchDtDebug_eq_ok architecture dynamicData linkMapAddress fits with
    ⟨found, debug, patched⟩ | ⟨none, patched⟩
  · refine ⟨_, patched, ?_, ?_, ?_⟩
    · exact length_patchDtDebugFrom patched
    · intro index debugAt
      obtain rfl := debug.unique debugAt
      obtain ⟨⟨value, entry⟩, _⟩ := debug
      have inside := (pairAt_eq_some.mp entry).1
      constructor
      · have written := @slice_splice _ dynamicData
          (leBytes architecture.longSize linkMapAddress.toNat)
          (found * (2 * architecture.longSize) + architecture.longSize)
          (by omega)
        rwa [length_leBytes] at written
      · intro position outside
        apply getElem?_splice_of_outside
        · rw [length_leBytes]
          omega
        · rw [length_leBytes]
          omega
    · intro absent
      exact absurd debug (absent found)
  · refine ⟨dynamicData, patched, rfl, ?_, fun _ => rfl⟩
    intro index debugAt
    exact absurd debugAt (none index)

/-- The second of three entries is patched, in front of a partial entry. -/
theorem patchDtDebug_frame_sample :
    ∃ patched, patchDtDebug .x86
        (encodeWords 4 [1, 5, 21, 0, 0, 0] ++ [7]) 0x8000 = .ok patched ∧
      patched.length = 25 ∧
      slice patched 12 4 = leBytes 4 0x8000 ∧
      ∀ position, position < 12 ∨ 16 ≤ position →
        patched[position]? =
          (encodeWords 4 [1, 5, 21, 0, 0, 0] ++ [7])[position]? := by
  obtain ⟨patched, succeeded, length, changed, _⟩ := patchDtDebug_frame .x86
    (encodeWords 4 [1, 5, 21, 0, 0, 0] ++ [7]) 0x8000 (by decide)
  obtain ⟨word, frame⟩ := changed 1 ⟨⟨0, by decide⟩, by decide⟩
  exact ⟨patched, succeeded, length, word, frame⟩

end Md2Core
