import Md2Core.Foundation.LastSeparator
import Md2Core.Model

/-!
# The strings of the process information

A command line and the path of the main module both write `pr_fname` and
`pr_psargs`. Whatever the order of the two and whatever they carry, both
buffers stay terminated, and a command line replaces what was there by the last
component of its first token and by its own text.
-/

namespace Md2Core

open Foundation

/-! ## Filling a buffer -/

/-- Bytes padded with zeros to a length. -/
def zeroPadded (size : Nat) (source : List UInt8) : List UInt8 :=
  source ++ List.replicate (size - source.length) 0

theorem getElem_copyInto
    {size : Nat}
    (buffer : Vector UInt8 size)
    (source : List UInt8)
    (index : Nat)
    (bound : index < size) :
    (copyInto buffer source)[index] = source[index]?.getD buffer[index] := by
  rw [copyInto, Vector.getElem_ofFn]
  rfl

/-- Bytes behind what was copied stay as they were. -/
theorem getElem_copyInto_of_le
    {size : Nat}
    (buffer : Vector UInt8 size)
    (source : List UInt8)
    (index : Nat)
    (bound : index < size)
    (behind : source.length ≤ index) :
    (copyInto buffer source)[index] = buffer[index] := by
  rw [getElem_copyInto, List.getElem?_eq_none behind, Option.getD_none]

theorem length_zeroPadded
    {size : Nat}
    {source : List UInt8}
    (fits : source.length ≤ size) :
    (zeroPadded size source).length = size := by
  rw [zeroPadded, List.length_append, List.length_replicate]
  omega

/-- A cleared buffer holds what is copied into it, and zeros behind it. -/
theorem toList_copyInto_replicate
    {size : Nat}
    {source : List UInt8}
    (fits : source.length ≤ size) :
    (copyInto (Vector.replicate size 0) source).toList =
      zeroPadded size source := by
  apply List.ext_getElem
  · rw [Vector.length_toList, length_zeroPadded fits]
  · intro index bound paddedBound
    rw [Vector.getElem_toList, getElem_copyInto, Vector.getElem_replicate]
    by_cases copied : index < source.length
    · rw [List.getElem?_eq_getElem copied, Option.getD_some]
      exact (List.getElem_append_left copied).symm
    · rw [List.getElem?_eq_none (by omega), Option.getD_none]
      simp [zeroPadded, List.getElem_append, copied]

/-! ## The parts of a command line -/

/-- A byte that ends the first token of a command line. -/
def IsSeparator (byte : UInt8) : Prop :=
  byte = 0 ∨ byte = 0x20

instance instDecidableIsSeparator (byte : UInt8) : Decidable (IsSeparator byte) :=
  inferInstanceAs (Decidable (byte = 0 ∨ byte = 0x20))

/-- The name is what follows the last slash of a path, or all of a path without
one. -/
def IsLastComponent (path name : List UInt8) : Prop :=
  FollowsLast 0x2f path name

/-- A command line is a token without separators, a separator and the rest. -/
def IsFirstToken (cmdline token : List UInt8) : Prop :=
  (∀ byte ∈ token, ¬IsSeparator byte) ∧
    ∃ separator rest, IsSeparator separator ∧ cmdline = token ++ separator :: rest

theorem exists_isFirstToken
    {cmdline : List UInt8}
    (separated : ∃ byte ∈ cmdline, IsSeparator byte) :
    ∃ token, IsFirstToken cmdline token := by
  have found : (cmdline.find? fun byte => decide (IsSeparator byte)).isSome := by
    simpa using separated
  obtain ⟨separator, first⟩ := Option.isSome_iff_exists.mp found
  rw [List.find?_eq_some_iff_append] at first
  obtain ⟨isSeparator, token, rest, split, before⟩ := first
  refine ⟨token, ?_, separator, rest, by simpa using isSeparator, split⟩
  intro byte member
  simpa using before byte member

/-! ## One call -/

/-- The strings a command line leaves: the last component of its first token,
at most fifteen bytes of it, and its first seventy-nine bytes with spaces for
NULs. -/
structure FollowsCmdline
    (cmdline : List UInt8)
    (info : ProcessInfo) : Prop where
  /-- `pr_fname` is the name of the program. -/
  filename :
    ∃ token name,
      IsFirstToken cmdline token ∧ IsLastComponent token name ∧
        info.filename.toList = zeroPadded 16 (name.take 15)
  /-- `pr_psargs` is the text of the command line. -/
  arguments :
    info.arguments.toList =
      zeroPadded 80 ((cmdline.take 79).map fun byte => if byte = 0 then 0x20 else byte)

/-- Both strings of the process information end within their buffers. -/
structure ProcessInfo.Terminated (info : ProcessInfo) : Prop where
  /-- The last byte of `pr_fname`. -/
  filename : info.filename[15] = 0
  /-- The last byte of `pr_psargs`. -/
  arguments : info.arguments[79] = 0

theorem findIdx?_isFirstToken
    {cmdline token : List UInt8}
    (isToken : IsFirstToken cmdline token) :
    (cmdline.findIdx? fun byte => byte == 0 || byte == 0x20) = some token.length ∧
      cmdline.take token.length = token := by
  obtain ⟨free, separator, rest, isSeparator, rfl⟩ := isToken
  constructor
  · have absent :
        (token.findIdx? fun byte => byte == 0 || byte == 0x20) = none := by
      rw [List.findIdx?_eq_none_iff]
      intro byte member
      simpa [IsSeparator] using free byte member
    rw [List.findIdx?_append, absent, List.findIdx?_cons]
    rcases isSeparator with rfl | rfl <;> simp
  · exact List.take_left

/-- A command line with a first token replaces both strings. -/
theorem ProcessInfo.followsCmdline_applyCmdline
    (info : ProcessInfo)
    {cmdline : List UInt8}
    (separated : ∃ byte ∈ cmdline, IsSeparator byte) :
    FollowsCmdline cmdline (info.applyCmdline cmdline) := by
  obtain ⟨token, isToken⟩ := exists_isFirstToken separated
  obtain ⟨found, taken⟩ := findIdx?_isFirstToken isToken
  have applied :
      info.applyCmdline cmdline =
        { info with
          filename :=
            copyInto (Vector.replicate 16 0)
              ((token.rtakeWhile (· != 0x2f)).take 15)
          arguments :=
            copyInto (Vector.replicate 80 0)
              ((cmdline.take 79).map fun byte => if byte = 0 then 0x20 else byte) } := by
    rw [ProcessInfo.applyCmdline, found]
    simp only [taken]
  rw [applied]
  constructor
  · refine ⟨token, token.rtakeWhile (· != 0x2f), isToken,
      followsLast_rtakeWhile 0x2f token, ?_⟩
    apply toList_copyInto_replicate
    rw [List.length_take]
    omega
  · apply toList_copyInto_replicate
    rw [List.length_map, List.length_take]
    omega

/-- A command line without a separator is not applied. -/
theorem ProcessInfo.applyCmdline_of_not_separated
    (info : ProcessInfo)
    {cmdline : List UInt8}
    (whole : ∀ byte ∈ cmdline, ¬IsSeparator byte) :
    info.applyCmdline cmdline = info := by
  have absent : (cmdline.findIdx? fun byte => byte == 0 || byte == 0x20) = none := by
    rw [List.findIdx?_eq_none_iff]
    intro byte member
    simpa [IsSeparator] using whole byte member
  rw [ProcessInfo.applyCmdline, absent]

theorem ProcessInfo.terminated_new : ProcessInfo.new.Terminated := by
  constructor <;> decide

theorem ProcessInfo.terminated_applyCmdline
    {info : ProcessInfo}
    (terminated : info.Terminated)
    (cmdline : List UInt8) :
    (info.applyCmdline cmdline).Terminated := by
  rw [ProcessInfo.applyCmdline]
  split
  · exact terminated
  · constructor
    · rw [getElem_copyInto_of_le _ _ _ _ (List.length_take_le 15 _)]
      exact Vector.getElem_replicate _
    · rw [getElem_copyInto_of_le]
      · exact Vector.getElem_replicate _
      · rw [List.length_map]
        exact List.length_take_le 79 _

theorem ProcessInfo.terminated_applyModuleNameFallback
    {info : ProcessInfo}
    (terminated : info.Terminated)
    (modulePath : String) :
    (info.applyModuleNameFallback modulePath).Terminated := by
  rw [ProcessInfo.applyModuleNameFallback]
  split
  · exact terminated
  · constructor
    · rw [getElem_copyInto_of_le _ _ _ _ (List.length_take_le 15 _)]
      exact terminated.filename
    · dsimp only
      split
      · rw [getElem_copyInto_of_le _ _ _ _ (List.length_take_le 79 _)]
        exact terminated.arguments
      · exact terminated.arguments

/-! ## Any order of calls -/

/-- A call that may write the strings of the process information. -/
inductive ProcessInfoCall where
  /-- The command line of the process. -/
  | cmdline (bytes : List UInt8)
  /-- The path of the main module. -/
  | moduleName (path : String)

/-- The process information after a call. -/
def ProcessInfo.call (info : ProcessInfo) : ProcessInfoCall → ProcessInfo
  | .cmdline bytes => info.applyCmdline bytes
  | .moduleName path => info.applyModuleNameFallback path

/-- A new record after any number of calls. -/
def ProcessInfo.afterCalls (calls : List ProcessInfoCall) : ProcessInfo :=
  calls.foldl ProcessInfo.call ProcessInfo.new

theorem ProcessInfo.terminated_call
    {info : ProcessInfo}
    (terminated : info.Terminated)
    (call : ProcessInfoCall) :
    (info.call call).Terminated := by
  cases call with
  | cmdline bytes => exact terminated_applyCmdline terminated bytes
  | moduleName path => exact terminated_applyModuleNameFallback terminated path

theorem ProcessInfo.terminated_foldl_call
    (calls : List ProcessInfoCall)
    {info : ProcessInfo}
    (terminated : info.Terminated) :
    (calls.foldl ProcessInfo.call info).Terminated := by
  induction calls generalizing info with
  | nil => exact terminated
  | cons call rest inductionHypothesis =>
      rw [List.foldl_cons]
      apply inductionHypothesis
      exact terminated_call terminated call

/-- After any calls both strings are terminated; a command line with a NUL or a
space then decides both of them, and any other command line changes nothing. -/
theorem ProcessInfo.afterCalls_terminated_and_followsCmdline
    (calls : List ProcessInfoCall)
    (cmdline : List UInt8) :
    (afterCalls calls).Terminated ∧
      ((∃ byte ∈ cmdline, IsSeparator byte) →
        FollowsCmdline cmdline ((afterCalls calls).applyCmdline cmdline)) ∧
      ((∀ byte ∈ cmdline, ¬IsSeparator byte) →
        (afterCalls calls).applyCmdline cmdline = afterCalls calls) := by
  refine ⟨?_, ?_, ?_⟩
  · exact terminated_foldl_call calls terminated_new
  · intro separated
    exact followsCmdline_applyCmdline _ separated
  · intro whole
    exact applyCmdline_of_not_separated _ whole

/-- A fallback to `dash`, then the command lines `a/b c` and `cat`. -/
theorem ProcessInfo.afterCalls_terminated_and_followsCmdline_sample :
    FollowsCmdline [0x61, 0x2f, 0x62, 0x20, 0x63]
        ((afterCalls [.moduleName "/bin/dash"]).applyCmdline
          [0x61, 0x2f, 0x62, 0x20, 0x63]) ∧
      (afterCalls [.moduleName "/bin/dash"]).applyCmdline [0x63, 0x61, 0x74] =
        afterCalls [.moduleName "/bin/dash"] := by
  constructor
  · apply (afterCalls_terminated_and_followsCmdline _ _).2.1
    exact ⟨0x20, by simp, Or.inr rfl⟩
  · apply (afterCalls_terminated_and_followsCmdline _ _).2.2
    simp [IsSeparator]

end Md2Core
