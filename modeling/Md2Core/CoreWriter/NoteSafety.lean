import Md2Core.CoreWriter.Decoding
import Md2Core.CoreWriter.Overflow

/-!
# Writing the notes does not panic

The length of a descriptor has a 32-bit field, and a longer descriptor is a panic. The
descriptors of process information and of threads are short, so that only the auxiliary
vector and the table of files have to fit.
-/

namespace Md2Core

open Foundation

/-- A note whose descriptor fits its length field is written. -/
theorem noPanic_pushNote
    {name desc : List UInt8}
    (nType : UInt32)
    (out : List UInt8)
    (nameFits : (terminatedName name).length < 2 ^ 32)
    (descFits : desc.length < 2 ^ 32) :
    NoPanic (pushNote name nType desc out) :=
  FailsOnly.bind
    (failsOnly_of_ok (Note.build_eq_ok_iff.mpr
      ⟨⟨nameFits, nType.toNat_lt, descFits⟩, rfl⟩))
    fun _ _ => failsOnly_pure _

theorem noPanic_pushOptionalNote
    {name : List UInt8}
    {desc : Option (List UInt8)}
    (nType : UInt32)
    (out : List UInt8)
    (nameFits : (terminatedName name).length < 2 ^ 32)
    (descFits : ∀ payload, desc = some payload → payload.length < 2 ^ 32) :
    NoPanic (pushOptionalNote name nType desc out) := by
  cases desc with
  | none => exact failsOnly_pure out
  | some payload => exact noPanic_pushNote nType out nameFits (descFits payload rfl)

theorem length_pad_lt
    {align : Nat}
    (out : List UInt8)
    (positive : 0 < align) :
    (pad out align).length < out.length + align := by
  have padding := roundUp_sub_lt positive out.length
  rw [pad, padTo_eq, List.length_append, List.length_replicate]
  omega

theorem length_pushLong
    {size : Nat}
    (out : List UInt8)
    (value : UInt64)
    (longSize : size = 4 ∨ size = 8) :
    (pushLong out value size).length = out.length + size := by
  unfold pushLong
  rcases longSize with rfl | rfl <;> simp

/-- A status note is little longer than its registers. -/
theorem length_buildPrstatus_lt
    (architecture : Architecture)
    (tid : UInt32)
    (signal : Int32)
    (prReg : List UInt8)
    (fpValid : Bool) :
    (buildPrstatus architecture tid signal prReg fpValid).length <
      prReg.length + 256 := by
  have longSize := architecture.longSize_eq_four_or_eight
  have positive : 0 < architecture.longSize := by omega
  have front := length_pad_lt (i32LeBytes signal ++ i32LeBytes 0 ++ i32LeBytes 0 ++
    leBytes 2 (cursig signal).toUInt16.toNat) positive
  apply Nat.lt_of_lt_of_le (length_pad_lt _ positive)
  simp only [List.range, List.range.loop, List.foldl_cons, List.foldl_nil,
    List.length_append, length_pushLong _ _ longSize, i32LeBytes,
    length_leBytes] at front ⊢
  omega

theorem length_of_toFpregset
    {architecture : Architecture}
    {context : MinidumpRawContext}
    {payload : List UInt8}
    (found : toFpregset architecture context = some payload) :
    payload.length ≤ 512 := by
  unfold toFpregset at found
  split at found
  · obtain rfl := Option.some.inj found
    simp [x86Fpregs]
  · unfold amd64Fpregs at found
    obtain ⟨xmm, _, made⟩ := Option.bind_eq_some_iff.mp found
    obtain rfl := Option.some.inj made
    rw [length_resize]
  · contradiction

theorem length_of_toPrxfpreg
    {architecture : Architecture}
    {context : MinidumpRawContext}
    {payload : List UInt8}
    (found : toPrxfpreg architecture context = some payload) :
    payload.length ≤ 512 := by
  unfold toPrxfpreg at found
  split at found
  · obtain rfl := Option.some.inj found
    unfold x86Fpxregs
    rw [length_resize]
  · contradiction

theorem noPanic_writeThreadNotes
    (architecture : Architecture)
    (thread : ThreadSnapshot)
    (signal : Int32)
    (contextOverride : Option MinidumpRawContext)
    (out : List UInt8) :
    NoPanic (writeThreadNotes architecture thread signal contextOverride out) := by
  unfold writeThreadNotes
  cases contextOverride.or thread.context with
  | none => exact failsOnly_pure out
  | some context =>
      apply FailsOnly.bind fun _ => toPrReg_error_typed
      intro prReg prRegOk
      have regsLength := length_of_toPrReg prRegOk
      have gregsetSize : architecture.gregsetSize ≤ 360 := by
        cases architecture <;> decide
      have statusLength := length_buildPrstatus_lt architecture thread.tid signal prReg
        (toFpregset architecture context).isSome
      apply FailsOnly.bind (noPanic_pushNote _ _ (by decide) (by omega))
      intro _ _
      apply FailsOnly.bind
      · apply noPanic_pushOptionalNote _ _ (by decide)
        intro payload found
        have short := length_of_toFpregset found
        omega
      · intro _ _
        apply noPanic_pushOptionalNote _ _ (by decide)
        intro payload found
        have short := length_of_toPrxfpreg found
        omega

theorem noPanic_pushThreads
    (process : CrashedProcess)
    (index : Nat)
    (threads : List ThreadSnapshot)
    (out : List UInt8) :
    NoPanic (pushThreads process index threads out) := by
  induction threads generalizing index out with
  | nil => exact failsOnly_pure out
  | cons thread rest inductionHypothesis =>
      unfold pushThreads
      exact (noPanic_writeThreadNotes _ _ _ _ _).bind fun _ _ =>
        inductionHypothesis _ _

theorem length_buildPrpsinfo_lt
    (architecture : Architecture)
    (info : ProcessInfo) :
    (buildPrpsinfo architecture info).length < 256 := by
  rw [buildPrpsinfo_eq]
  cases architecture <;>
  simp [prpsinfoFields, Architecture.longSize, Architecture.is64bit,
    Architecture.elfClass, Architecture.uidSize, Architecture.prpsinfoUidIsU32]

/-- The notes of a process whose auxiliary vector and table of files fit. -/
theorem noPanic_buildNoteSegment
    {process : CrashedProcess}
    (auxvFits : process.auxv.length < 2 ^ 32)
    (filesFit : ∀ payload,
      buildNtFilePayload process.architecture process.mappings = .ok payload →
        payload.length < 2 ^ 32) :
    NoPanic (buildNoteSegment process) := by
  have infoLength := length_buildPrpsinfo_lt process.architecture process.processInfo
  unfold buildNoteSegment
  apply FailsOnly.bind (noPanic_pushNote _ _ (by decide) (by omega))
  intro _ _
  apply FailsOnly.bind (noPanic_pushNote _ _ (by decide) auxvFits)
  intro _ _
  apply FailsOnly.bind fun _ => buildNtFilePayload_error_typed
  intro payload payloadOk
  apply FailsOnly.bind (noPanic_pushNote _ _ (by decide) (filesFit payload payloadOk))
  exact fun _ _ => noPanic_pushThreads _ _ _ _

end Md2Core
