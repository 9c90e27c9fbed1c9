import Md2Core.Regs

/-!
# The saved x87 and SSE state in the floating-point notes

`NT_PRXFPREG` and the `NT_FPREGSET` of x86_64 have the layout of the FXSAVE image
they are made from. Both encoders cut pointers: the first reads the 32-bit
instruction and operand pointers as 16 bits, the second writes the 64-bit ones
from their low halves. The opcode, `mxcsr` and both register spaces are kept.
-/

namespace Md2Core

open Foundation

/-! ## Fields copied from an image -/

/-- A field copied at its own width is the part of the image it was read from. -/
theorem leBytes_leField
    {image : List UInt8}
    {offset width : Nat}
    (inside : offset + width ≤ image.length) :
    leBytes width (leField image offset width) = slice image offset width :=
  leBytes_leNat (length_slice_of_le inside)

/-- A field copied to a wider one is followed by zeros. -/
theorem leBytes_add_leField
    {image : List UInt8}
    {offset width : Nat}
    (extra : Nat)
    (inside : offset + width ≤ image.length) :
    leBytes (width + extra) (leField image offset width) =
      slice image offset width ++ List.replicate extra 0 :=
  leBytes_add_leNat (length_slice_of_le inside) extra

/-! ## x86 -/

/-- Opcode, instruction pointer, operand pointer, `mxcsr`, and the register
spaces of `NT_PRXFPREG` are those of the extended registers. -/
def X86FloatStateKept (ctx : ContextX86) : Prop :=
  ∃ fpxregs,
    toPrxfpreg .x86 (.x86 ctx) = some fpxregs ∧
      SameBytes fpxregs ctx.extendedRegisters.toList 6 12 ∧
      SameBytes fpxregs ctx.extendedRegisters.toList 16 20 ∧
      SameBytes fpxregs ctx.extendedRegisters.toList 24 28 ∧
      SameBytes fpxregs ctx.extendedRegisters.toList 32 288

/-- The high halves of the instruction and of the operand pointer are zero. -/
def X86PointersShort (ctx : ContextX86) : Prop :=
  ZeroBytes ctx.extendedRegisters.toList 10 12 ∧
    ZeroBytes ctx.extendedRegisters.toList 18 20

/-- The first three fields of `NT_PRXFPREG`. -/
def fpxregsFront (ctx : ContextX86) : List UInt8 :=
  leBytes 2 (u16OrZero ctx.floatSave.controlWord) ++
    leBytes 2 (u16OrZero ctx.floatSave.statusWord) ++
    leBytes 2 (u16OrZero ctx.floatSave.tagWord)

theorem length_fpxregsFront (ctx : ContextX86) : (fpxregsFront ctx).length = 6 := by
  simp [fpxregsFront]

/-- `NT_PRXFPREG` in pieces of the extended registers, with zeros for the high
halves of four fields. -/
def fpxregsPieces (ctx : ContextX86) : List UInt8 :=
  let ext := ctx.extendedRegisters.toList
  fpxregsFront ctx ++
    (slice ext 6 4 ++ List.replicate 2 0) ++
    (slice ext 12 2 ++ List.replicate 2 0) ++
    (slice ext 16 2 ++ List.replicate 2 0) ++
    (slice ext 20 2 ++ List.replicate 2 0) ++
    slice ext 24 4 ++
    List.replicate 4 0 ++
    slice ext 32 256

theorem x86Fpxregs_eq (ctx : ContextX86) :
    x86Fpxregs ctx = resize (fpxregsPieces ctx) 512 0 := by
  have size := ctx.extendedRegisters.length_toList
  unfold x86Fpxregs fpxregsPieces fpxregsFront
  generalize ctx.extendedRegisters.toList = ext at size
  have opcode : leBytes 2 (leField ext 6 2) = slice ext 6 2 :=
    leBytes_leField (by omega)
  have widened : ∀ offset, offset + 2 ≤ 512 →
      leBytes 4 (leField ext offset 2) = slice ext offset 2 ++ List.replicate 2 0 :=
    fun offset inside => leBytes_add_leField 2 (by omega)
  have mxcsr : leBytes 4 (leField ext 24 4) = slice ext 24 4 :=
    leBytes_leField (by omega)
  have instruction : slice ext 6 4 = slice ext 6 2 ++ slice ext 8 2 :=
    slice_add ext 6 2 2
  have spaces : slice ext 32 256 = slice ext 32 128 ++ slice ext 160 128 :=
    slice_add ext 32 128 128
  simp only [opcode, widened 8 (by decide), widened 12 (by decide),
    widened 16 (by decide), widened 20 (by decide), mxcsr, instruction, spaces,
    leBytes_zero_right, List.append_assoc]

theorem length_x86Fpxregs (ctx : ContextX86) : (x86Fpxregs ctx).length = 512 := by
  rw [x86Fpxregs_eq, length_resize]

/-- Behind its first three fields `NT_PRXFPREG` is the image, but for the high
halves of the two pointers. -/
theorem x86Fpxregs_sameBytes (ctx : ContextX86) :
    let ext := ctx.extendedRegisters.toList
    (SameBytes (x86Fpxregs ctx) ext 6 10 ∧ ZeroBytes (x86Fpxregs ctx) 10 12) ∧
      (SameBytes (x86Fpxregs ctx) ext 16 18 ∧ ZeroBytes (x86Fpxregs ctx) 18 20) ∧
      SameBytes (x86Fpxregs ctx) ext 24 28 ∧
      SameBytes (x86Fpxregs ctx) ext 32 288 := by
  have size := ctx.extendedRegisters.length_toList
  have width : ∀ offset count, offset + count ≤ 512 →
      (slice ctx.extendedRegisters.toList offset count).length = count :=
    fun offset count inside => length_slice_of_le (by omega)
  have held : HoldsAt (x86Fpxregs ctx) 0 (fpxregsPieces ctx) := by
    rw [x86Fpxregs_eq]
    apply holdsAt_resize
    simp [fpxregsPieces, length_fpxregsFront, width]
  simp only [fpxregsPieces, holdsAt_append_iff, length_fpxregsFront,
    List.length_append, List.length_replicate, width 6 4 (by decide),
    width 12 2 (by decide), width 16 2 (by decide), width 20 2 (by decide),
    width 24 4 (by decide)] at held
  obtain ⟨⟨⟨⟨⟨⟨-, opcode, high⟩, -⟩, operand, operandHigh⟩, -⟩, mxcsr⟩, -⟩ := held.1
  refine ⟨⟨?_, ?_⟩, ⟨?_, ?_⟩, ?_, ?_⟩
  · exact sameBytes_of_holdsAt (by omega) opcode
  · exact zeroBytes_of_holdsAt high
  · exact sameBytes_of_holdsAt (by omega) operand
  · exact zeroBytes_of_holdsAt operandHigh
  · exact sameBytes_of_holdsAt (by omega) mxcsr
  · exact sameBytes_of_holdsAt (by omega) held.2

/-- `NT_PRXFPREG` keeps the saved state exactly when both pointers fit 16 bits. -/
theorem x86FloatStateKept_iff (ctx : ContextX86) :
    X86FloatStateKept ctx ↔ X86PointersShort ctx := by
  have size := ctx.extendedRegisters.length_toList
  have noteSize := length_x86Fpxregs ctx
  obtain ⟨⟨opcode, high⟩, ⟨operand, operandHigh⟩, mxcsr, spaces⟩ :=
    x86Fpxregs_sameBytes ctx
  have kept :
      X86FloatStateKept ctx ↔
        SameBytes (x86Fpxregs ctx) ctx.extendedRegisters.toList 6 12 ∧
          SameBytes (x86Fpxregs ctx) ctx.extendedRegisters.toList 16 20 ∧
          SameBytes (x86Fpxregs ctx) ctx.extendedRegisters.toList 24 28 ∧
          SameBytes (x86Fpxregs ctx) ctx.extendedRegisters.toList 32 288 := by
    constructor
    · rintro ⟨_, ⟨rfl⟩, ranges⟩
      exact ranges
    · intro ranges
      exact ⟨_, rfl, ranges⟩
  rw [kept, @sameBytes_iff_of_le _ _ 6 10 12 (by omega) (by omega) (by decide) (by decide),
    @sameBytes_iff_of_le _ _ 16 18 20 (by omega) (by omega) (by decide) (by decide),
    high.sameBytes_iff, operandHigh.sameBytes_iff, X86PointersShort]
  simp only [opcode, operand, mxcsr, spaces, true_and, and_true]

/-! ## x86_64 -/

/-- `XMM_SAVE_AREA32` as it is decoded from consecutive little-endian fields:
two selectors, each with a reserved word, lie behind the two offsets. -/
def preadXmmSaveArea32 (image : List UInt8) : XmmSaveArea32 where
  controlWord := UInt16.ofNat (leField image 0 2)
  statusWord := UInt16.ofNat (leField image 2 2)
  tagWord := UInt8.ofNat (leField image 4 1)
  reserved1 := UInt8.ofNat (leField image 5 1)
  errorOpcode := UInt16.ofNat (leField image 6 2)
  errorOffset := UInt32.ofNat (leField image 8 4)
  dataOffset := UInt32.ofNat (leField image 16 4)
  mxCsr := UInt32.ofNat (leField image 24 4)
  mxCsrMask := UInt32.ofNat (leField image 28 4)
  floatRegisters :=
    Vector.ofFn fun index => BitVec.ofNat 128 (leField image (32 + 16 * index) 16)
  xmmRegisters :=
    Vector.ofFn fun index => BitVec.ofNat 128 (leField image (160 + 16 * index) 16)

/-- `NT_FPREGSET` has the bytes of the save area up to its padding. -/
def Amd64FloatStateKept (ctx : ContextAmd64) (floatSave : Vector UInt8 512) : Prop :=
  ∃ fpregs,
    toFpregset .x86_64 (.amd64 ctx) = some fpregs ∧
      SameBytes fpregs floatSave.toList 0 416

/-- The high halves of the instruction and of the operand pointer are zero. -/
def Amd64PointersShort (floatSave : Vector UInt8 512) : Prop :=
  ZeroBytes floatSave.toList 12 16 ∧ ZeroBytes floatSave.toList 20 24

/-- `NT_FPREGSET` in pieces of the save area, with zeros for the high halves of
the two pointers. -/
def fpregsPieces (image : List UInt8) : List UInt8 :=
  slice image 0 12 ++
    List.replicate 4 0 ++
    slice image 16 4 ++
    List.replicate 4 0 ++
    slice image 24 392

theorem leField_lt (image : List UInt8) (offset width : Nat) :
    leField image offset width < 256 ^ width :=
  leNat_slice_lt image offset width

/-- The tag word and the byte behind it are written back as they were read. -/
theorem leBytes_tag (tag reserved : UInt8) :
    leBytes 2 (tag.toUInt16 ||| (reserved.toUInt16 <<< 8)).toNat =
      [tag, reserved] := by
  have value :
      (tag.toUInt16 ||| (reserved.toUInt16 <<< 8)).toNat =
        leNat [tag, reserved] := by
    have tagBound := tag.toNat_lt
    have reservedBound := reserved.toNat_lt
    have shifted : (reserved.toUInt16 <<< 8).toNat = 2 ^ 8 * reserved.toNat := by
      rw [UInt16.toNat_shiftLeft, UInt8.toNat_toUInt16, Nat.shiftLeft_eq]
      exact (Nat.mod_eq_of_lt (by simp; omega)).trans (Nat.mul_comm _ _)
    rw [UInt16.toNat_or, shifted, UInt8.toNat_toUInt16, Nat.or_comm,
      ← Nat.two_pow_add_eq_or_of_lt tagBound]
    simp [leNat_cons]
    omega
  rw [value]
  exact leBytes_leNat rfl

theorem encodeWords_registers
    (image : List UInt8)
    (count start : Nat)
    (inside : start + 16 * count ≤ image.length) :
    encodeWords 16
        ((Vector.ofFn fun index : Fin count =>
          BitVec.ofNat 128 (leField image (start + 16 * index) 16)).toList.map
            BitVec.toNat) =
      slice image start (16 * count) := by
  rw [← encodeWords_ofFn_slice image 16 count start inside, Vector.toList_ofFn,
    List.map_ofFn]
  congr 2
  funext index
  exact Nat.mod_eq_of_lt (leField_lt image _ 16)

theorem amd64Fpregs_eq
    {ctx : ContextAmd64}
    {image : List UInt8}
    (size : image.length = 512)
    (decoded : ctx.floatSave = some (preadXmmSaveArea32 image)) :
    amd64Fpregs ctx = some (resize (fpregsPieces image) 512 0) := by
  have word : ∀ offset, offset + 2 ≤ 512 →
      leBytes 2 (UInt16.ofNat (leField image offset 2)).toNat =
        slice image offset 2 := by
    intro offset inside
    rw [UInt16.toNat_ofNat_of_lt' (leField_lt image offset 2),
      leBytes_leField (by omega)]
  have tag :
      [UInt8.ofNat (leField image 4 1), UInt8.ofNat (leField image 5 1)] =
        slice image 4 2 := by
    have byte : ∀ offset, offset + 1 ≤ 512 →
        [UInt8.ofNat (leField image offset 1)] = slice image offset 1 :=
      fun offset inside => @leBytes_leField image offset 1 (by omega)
    rw [slice_add image 4 1 1, ← byte 4 (by decide), ← byte 5 (by decide),
      List.singleton_append]
  have dword : ∀ offset, offset + 4 ≤ 512 →
      leBytes 4 (UInt32.ofNat (leField image offset 4)).toNat =
        slice image offset 4 := by
    intro offset inside
    rw [UInt32.toNat_ofNat_of_lt' (leField_lt image offset 4),
      leBytes_leField (by omega)]
  have pointer : ∀ offset, offset + 4 ≤ 512 →
      leBytes 8 (UInt32.ofNat (leField image offset 4)).toUInt64.toNat =
        slice image offset 4 ++ List.replicate 4 0 := by
    intro offset inside
    rw [UInt32.toNat_toUInt64, UInt32.toNat_ofNat_of_lt' (leField_lt image offset 4)]
    exact leBytes_add_leField 4 (by omega)
  have front :
      slice image 0 12 =
        slice image 0 2 ++ (slice image 2 2 ++ (slice image 4 2 ++
          (slice image 6 2 ++ slice image 8 4))) := by
    rw [slice_add image 0 2 10, slice_add image 2 2 8, slice_add image 4 2 6,
      slice_add image 6 2 4]
  have back :
      slice image 24 392 =
        slice image 24 4 ++ (slice image 28 4 ++ (slice image 32 128 ++
          slice image 160 256)) := by
    rw [slice_add image 24 4 388, slice_add image 28 4 384,
      slice_add image 32 128 256]
  rw [amd64Fpregs, decoded]
  simp only [preadXmmSaveArea32, Option.bind_eq_bind, Option.bind_some,
    word 0 (by decide), word 2 (by decide), leBytes_tag, tag, word 6 (by decide),
    pointer 8 (by decide), pointer 16 (by decide), dword 24 (by decide),
    dword 28 (by decide), encodeWords_registers image 8 32 (by omega),
    encodeWords_registers image 16 160 (by omega)]
  rw [fpregsPieces, front, back]
  simp only [List.append_assoc]
  rfl

/-- Up to its padding `NT_FPREGSET` is the save area, but for the high halves of
the two pointers. -/
theorem fpregsPieces_sameBytes
    {image : List UInt8}
    (size : image.length = 512) :
    let fpregs := resize (fpregsPieces image) 512 0
    (SameBytes fpregs image 0 12 ∧ ZeroBytes fpregs 12 16) ∧
      (SameBytes fpregs image 16 20 ∧ ZeroBytes fpregs 20 24) ∧
      SameBytes fpregs image 24 416 := by
  have width : ∀ offset count, offset + count ≤ 512 →
      (slice image offset count).length = count :=
    fun offset count inside => length_slice_of_le (by omega)
  have held : HoldsAt (resize (fpregsPieces image) 512 0) 0 (fpregsPieces image) := by
    apply holdsAt_resize
    simp [fpregsPieces, width]
  nth_rewrite 2 [fpregsPieces] at held
  simp only [holdsAt_append_iff, List.length_append, List.length_replicate,
    width 0 12 (by decide), width 16 4 (by decide)] at held
  obtain ⟨⟨⟨⟨front, high⟩, operand⟩, operandHigh⟩, back⟩ := held
  refine ⟨⟨?_, ?_⟩, ⟨?_, ?_⟩, ?_⟩
  · exact sameBytes_of_holdsAt (by omega) front
  · exact zeroBytes_of_holdsAt high
  · exact sameBytes_of_holdsAt (by omega) operand
  · exact zeroBytes_of_holdsAt operandHigh
  · exact sameBytes_of_holdsAt (by omega) back

/-- `NT_FPREGSET` keeps the saved state exactly when both pointers fit 32
bits. -/
theorem amd64FloatStateKept_iff
    {ctx : ContextAmd64}
    {floatSave : Vector UInt8 512}
    (decoded : ctx.floatSave = some (preadXmmSaveArea32 floatSave.toList)) :
    Amd64FloatStateKept ctx floatSave ↔ Amd64PointersShort floatSave := by
  have size := floatSave.length_toList
  have noteSize := length_resize (fpregsPieces floatSave.toList) 512 0
  obtain ⟨⟨front, high⟩, ⟨operand, operandHigh⟩, back⟩ := fpregsPieces_sameBytes size
  have kept :
      Amd64FloatStateKept ctx floatSave ↔
        SameBytes (resize (fpregsPieces floatSave.toList) 512 0) floatSave.toList 0 416 := by
    rw [Amd64FloatStateKept, toFpregset, amd64Fpregs_eq size decoded]
    simp
  rw [kept, @sameBytes_iff_of_le _ _ 0 12 416 (by omega) (by omega) (by decide) (by decide),
    @sameBytes_iff_of_le _ _ 12 16 416 (by omega) (by omega) (by decide) (by decide),
    @sameBytes_iff_of_le _ _ 16 20 416 (by omega) (by omega) (by decide) (by decide),
    @sameBytes_iff_of_le _ _ 20 24 416 (by omega) (by omega) (by decide) (by decide),
    high.sameBytes_iff, operandHigh.sameBytes_iff, Amd64PointersShort]
  simp only [front, operand, back, true_and, and_true]

/-! ## Both notes -/

/-- The two notes keep the saved floating-point state exactly when the pointers
that they cut are short. -/
theorem floatStateKept_iff
    (x86 : ContextX86)
    (amd64 : ContextAmd64)
    (floatSave : Vector UInt8 512)
    (decoded : amd64.floatSave = some (preadXmmSaveArea32 floatSave.toList)) :
    (X86FloatStateKept x86 ↔ X86PointersShort x86) ∧
      (Amd64FloatStateKept amd64 floatSave ↔ Amd64PointersShort floatSave) :=
  ⟨x86FloatStateKept_iff x86, amd64FloatStateKept_iff decoded⟩

/-- An x86 context with extended registers. -/
def contextX86OfExtendedRegisters (ext : Vector UInt8 512) : ContextX86 :=
  ⟨0, 0, 0, 0, 0, 0, 0, 0, 0, 0, 0, 0, 0, 0, 0, 0,
    ⟨0, 0, 0, 0, 0, 0, 0, Vector.replicate 80 0⟩, ext⟩

/-- An x86_64 context with a decoded save area. -/
def contextAmd64OfFloatSave (floatSave : Vector UInt8 512) : ContextAmd64 :=
  ⟨0, 0, 0, 0, 0, 0, 0, 0, 0, 0, 0, 0, 0, 0, 0, 0, 0, 0, 0, 0, 0, 0, 0, 0,
    some (preadXmmSaveArea32 floatSave.toList)⟩

/-- Both notes of contexts with short pointers keep what was saved. -/
theorem floatStateKept_iff_sample :
    X86FloatStateKept (contextX86OfExtendedRegisters ((Vector.replicate 512 0).set 8 0x40)) ∧
      Amd64FloatStateKept
        (contextAmd64OfFloatSave ((Vector.replicate 512 0).set 8 0x40))
        ((Vector.replicate 512 0).set 8 0x40) := by
  have both := floatStateKept_iff
    (contextX86OfExtendedRegisters ((Vector.replicate 512 0).set 8 0x40))
    (contextAmd64OfFloatSave ((Vector.replicate 512 0).set 8 0x40))
    ((Vector.replicate 512 0).set 8 0x40) rfl
  constructor
  · apply both.1.mpr
    constructor <;> decide +kernel
  · apply both.2.mpr
    constructor <;> decide +kernel

/-- An instruction at 0x40000 is written as one at 0 in `NT_PRXFPREG`, and one at
0x3300000000 in `NT_FPREGSET`. -/
theorem exists_floatState_cut :
    ¬X86FloatStateKept
        (contextX86OfExtendedRegisters ((Vector.replicate 512 0).set 10 0x04)) ∧
      ¬Amd64FloatStateKept
        (contextAmd64OfFloatSave ((Vector.replicate 512 0).set 12 0x33))
        ((Vector.replicate 512 0).set 12 0x33) := by
  constructor
  · rintro ⟨_, ⟨rfl⟩, instruction, -⟩
    exact absurd instruction (by decide +kernel)
  · rintro ⟨_, ⟨rfl⟩, all⟩
    exact absurd all (by decide +kernel)

end Md2Core
