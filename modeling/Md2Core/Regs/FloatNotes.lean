import Md2Core.Regs

/-!
# The two floating-point notes of an x86 thread

`NT_FPREGSET` copies the control, status and tag words of the legacy save area.
`NT_PRXFPREG` has 16-bit fields for them, and writes zero for a word that does
not fit.
-/

namespace Md2Core

open Foundation

/-- The control, status and tag words of a save area. -/
def FloatingSaveAreaX86.headerWords (save : FloatingSaveAreaX86) : List UInt32 :=
  [save.controlWord, save.statusWord, save.tagWord]

/-- The header fields of `user_fpxregs_struct` are the low halves of those of
`user_fpregs_struct`. -/
def FloatHeadersAgree (fpregs fpxregs : List UInt8) : Prop :=
  readLe fpxregs 0 2 = (readLe fpregs 0 4).map (· % 2 ^ 16) ∧
    readLe fpxregs 2 2 = (readLe fpregs 4 4).map (· % 2 ^ 16) ∧
    readLe fpxregs 4 2 = (readLe fpregs 8 4).map (· % 2 ^ 16)

instance instDecidableFloatHeadersAgree (fpregs fpxregs : List UInt8) :
    Decidable (FloatHeadersAgree fpregs fpxregs) :=
  inferInstanceAs (Decidable (_ ∧ _ ∧ _))

/-- A word that does not fit 16 bits becomes zero. -/
theorem u16OrZero_eq (value : UInt32) :
    u16OrZero value = if value.toNat < 2 ^ 16 then value.toNat else 0 := by
  unfold u16OrZero u16TryFrom
  split
  · next fits => exact UInt16.toNat_ofNat_of_lt' fits
  · rfl

theorem u16OrZero_lt (value : UInt32) : u16OrZero value < 256 ^ 2 :=
  UInt16.toNat_lt _

/-- The field of a word is its low half exactly when the word fits or its low
half is zero. -/
theorem u16OrZero_eq_mod_iff (value : UInt32) :
    u16OrZero value = value.toNat % 2 ^ 16 ↔
      value.toNat < 2 ^ 16 ∨ 2 ^ 16 ∣ value.toNat := by
  rw [u16OrZero_eq]
  split
  · next fits =>
    rw [Nat.mod_eq_of_lt fits]
    exact ⟨fun _ => Or.inl fits, fun _ => rfl⟩
  · next wide => simp only [wide, false_or, Nat.dvd_iff_mod_eq_zero, eq_comm]

/-- The words of `NT_FPREGSET` are read back whole. -/
theorem readLe_x86Fpregs
    {ctx : ContextX86}
    {index : Nat}
    {word : UInt32}
    (found : ctx.floatSave.headerWords[index]? = some word) :
    readLe (x86Fpregs ctx) (index * 4) 4 = some word.toNat := by
  apply readLe_encodeWords_append _ ?_ word.toNat_lt
  obtain ⟨small, rfl⟩ := List.getElem?_eq_some_iff.mp found
  rcases index with _ | _ | _ | index
  · rfl
  · rfl
  · rfl
  · exact absurd small (by simp [FloatingSaveAreaX86.headerWords])

/-- `NT_PRXFPREG` starts with the three narrowed words. -/
theorem exists_x86Fpxregs_eq (ctx : ContextX86) :
    ∃ back, x86Fpxregs ctx =
      encodeWords 2 (ctx.floatSave.headerWords.map u16OrZero) ++ back := by
  have header : ∀ back,
      leBytes 2 (u16OrZero ctx.floatSave.controlWord) ++
        (leBytes 2 (u16OrZero ctx.floatSave.statusWord) ++
          (leBytes 2 (u16OrZero ctx.floatSave.tagWord) ++ back)) =
        encodeWords 2 (ctx.floatSave.headerWords.map u16OrZero) ++ back := by
    intro back
    simp only [FloatingSaveAreaX86.headerWords, List.map_cons, List.map_nil,
      encodeWords_cons, encodeWords_nil, List.append_assoc, List.nil_append]
  unfold x86Fpxregs
  simp only [List.append_assoc, header]
  apply exists_resize_append
  simp [FloatingSaveAreaX86.headerWords]

/-- The fields of `NT_PRXFPREG` are read back as they were narrowed. -/
theorem readLe_x86Fpxregs
    {ctx : ContextX86}
    {index : Nat}
    {word : UInt32}
    (found : ctx.floatSave.headerWords[index]? = some word) :
    readLe (x86Fpxregs ctx) (index * 2) 2 = some (u16OrZero word) := by
  obtain ⟨back, layout⟩ := exists_x86Fpxregs_eq ctx
  rw [layout]
  apply readLe_encodeWords_append back ?_ (u16OrZero_lt word)
  rw [List.getElem?_map, found]
  rfl

/-- The headers of the two notes agree exactly when each of the three words fits
16 bits or has a low half of zero. -/
theorem floatHeadersAgree_iff (ctx : ContextX86) :
    (∃ fpregs fpxregs, toFpregset .x86 (.x86 ctx) = some fpregs ∧
      toPrxfpreg .x86 (.x86 ctx) = some fpxregs ∧
      FloatHeadersAgree fpregs fpxregs) ↔
    ∀ word ∈ ctx.floatSave.headerWords,
      word.toNat < 2 ^ 16 ∨ 2 ^ 16 ∣ word.toNat := by
  have agree : (∃ fpregs fpxregs, toFpregset .x86 (.x86 ctx) = some fpregs ∧
      toPrxfpreg .x86 (.x86 ctx) = some fpxregs ∧
      FloatHeadersAgree fpregs fpxregs) ↔
        FloatHeadersAgree (x86Fpregs ctx) (x86Fpxregs ctx) := by
    constructor
    · rintro ⟨_, _, ⟨rfl⟩, ⟨rfl⟩, agreeing⟩
      exact agreeing
    · intro agreeing
      exact ⟨_, _, rfl, rfl, agreeing⟩
  rw [agree, FloatHeadersAgree, @readLe_x86Fpregs ctx 0 _ rfl,
    @readLe_x86Fpregs ctx 1 _ rfl, @readLe_x86Fpregs ctx 2 _ rfl,
    @readLe_x86Fpxregs ctx 0 _ rfl, @readLe_x86Fpxregs ctx 1 _ rfl,
    @readLe_x86Fpxregs ctx 2 _ rfl]
  simp only [Option.map_some, Option.some.injEq, u16OrZero_eq_mod_iff,
    FloatingSaveAreaX86.headerWords, List.forall_mem_cons, List.not_mem_nil,
    false_implies, implies_true, and_true]

/-- A context whose control word has bits set above the lowest sixteen. -/
def sampleContextX86 : ContextX86 :=
  ⟨0, 0, 0, 0, 0, 0, 0, 0, 0, 0, 0, 0, 0, 0, 0, 0,
    ⟨0xFFFF027F, 0, 0xFFFF, 0, 0, 0, 0, Vector.replicate 80 0⟩,
    Vector.replicate 512 0⟩

/-- `NT_FPREGSET` has the control word and `NT_PRXFPREG` has zero. -/
theorem exists_floatHeaders_disagree :
    ∃ fpregs fpxregs,
      toFpregset .x86 (.x86 sampleContextX86) = some fpregs ∧
      toPrxfpreg .x86 (.x86 sampleContextX86) = some fpxregs ∧
      readLe fpregs 0 4 = some 0xFFFF027F ∧ readLe fpxregs 0 2 = some 0 ∧
      ¬FloatHeadersAgree fpregs fpxregs :=
  ⟨_, _, rfl, rfl, by decide +kernel, by decide +kernel, by decide +kernel⟩

end Md2Core
