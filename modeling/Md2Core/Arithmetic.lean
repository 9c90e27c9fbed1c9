import Md2Core.Error
import Mathlib.Tactic.NormNum

/-!
# Machine arithmetic

`u64` values are `UInt64`; `usize` values, which count bytes and records, are
natural numbers below `2 ^ 64` on the 64-bit hosts that are modelled. A plain
`+`, `-` or `*` of the source panics when its exact result does not fit. The
`checked_` and `try_from` forms return nothing instead.
-/

namespace Md2Core

open Foundation

/-- `u64::try_from`, for an exact value. -/
def u64TryFrom (value : Nat) : Option UInt64 :=
  if value < 2 ^ 64 then some (UInt64.ofNat value) else none

/-- `u32::try_from`, for an exact value. -/
def u32TryFrom (value : Nat) : Option UInt32 :=
  if value < 2 ^ 32 then some (UInt32.ofNat value) else none

/-- `u16::try_from`, for an exact value. -/
def u16TryFrom (value : Nat) : Option UInt16 :=
  if value < 2 ^ 16 then some (UInt16.ofNat value) else none

theorem u64TryFrom_eq_some {value : Nat} {word : UInt64} :
    u64TryFrom value = some word ↔ word.toNat = value := by
  unfold u64TryFrom
  have bound := word.toNat_lt
  by_cases fits : value < 2 ^ 64
  · rw [if_pos fits, Option.some.injEq, ← UInt64.toNat_inj,
      UInt64.toNat_ofNat_of_lt' fits, eq_comm]
  · rw [if_neg fits]
    simp only [reduceCtorEq, false_iff]
    omega

theorem u32TryFrom_eq_some {value : Nat} {word : UInt32} :
    u32TryFrom value = some word ↔ word.toNat = value := by
  unfold u32TryFrom
  have bound := word.toNat_lt
  by_cases fits : value < 2 ^ 32
  · rw [if_pos fits, Option.some.injEq, ← UInt32.toNat_inj,
      UInt32.toNat_ofNat_of_lt' fits, eq_comm]
  · rw [if_neg fits]
    simp only [reduceCtorEq, false_iff]
    omega

theorem u16TryFrom_eq_some {value : Nat} {word : UInt16} :
    u16TryFrom value = some word ↔ word.toNat = value := by
  unfold u16TryFrom
  have bound := word.toNat_lt
  by_cases fits : value < 2 ^ 16
  · rw [if_pos fits, Option.some.injEq, ← UInt16.toNat_inj,
      UInt16.toNat_ofNat_of_lt' fits, eq_comm]
  · rw [if_neg fits]
    simp only [reduceCtorEq, false_iff]
    omega

/-- `u64::checked_add`. -/
def checkedAdd (left right : UInt64) : Option UInt64 :=
  u64TryFrom (left.toNat + right.toNat)

theorem checkedAdd_eq_some {left right sum : UInt64} :
    checkedAdd left right = some sum ↔
      sum.toNat = left.toNat + right.toNat :=
  u64TryFrom_eq_some

/-- A sum that fits is computed. -/
theorem exists_checkedAdd
    {left right : UInt64}
    (fits : left.toNat + right.toNat < 2 ^ 64) :
    ∃ sum, checkedAdd left right = some sum ∧
      sum.toNat = left.toNat + right.toNat := by
  refine ⟨UInt64.ofNat (left.toNat + right.toNat), ?_,
    UInt64.toNat_ofNat_of_lt' fits⟩
  rw [checkedAdd_eq_some, UInt64.toNat_ofNat_of_lt' fits]

/-- The `u64` value of an exact sum or product, a panic when it overflows. -/
def exactU64 (value : Nat) : Result UInt64 :=
  okOr (u64TryFrom value) (.panic .arithmeticOverflow)

theorem exactU64_eq_ok {value : Nat} {word : UInt64} :
    exactU64 value = .ok word ↔ word.toNat = value := by
  rw [exactU64, okOr_eq_ok, u64TryFrom_eq_some]

/-- A value that fits is computed. -/
theorem exists_exactU64
    {value : Nat}
    (fits : value < 2 ^ 64) :
    ∃ word, exactU64 value = .ok word ∧ word.toNat = value :=
  ⟨UInt64.ofNat value, exactU64_eq_ok.mpr (UInt64.toNat_ofNat_of_lt' fits),
    UInt64.toNat_ofNat_of_lt' fits⟩

/-- `left + right` on `u64`. -/
def addU64 (left right : UInt64) : Result UInt64 :=
  exactU64 (left.toNat + right.toNat)

theorem addU64_eq_ok {left right sum : UInt64} :
    addU64 left right = .ok sum ↔ sum.toNat = left.toNat + right.toNat :=
  exactU64_eq_ok

/-- `left - right` on `u64`. -/
def subU64 (left right : UInt64) : Result UInt64 :=
  if right ≤ left then .ok (left - right) else .error (.panic .arithmeticOverflow)

theorem subU64_eq_ok {left right difference : UInt64} :
    subU64 left right = .ok difference ↔
      left.toNat = right.toNat + difference.toNat := by
  unfold subU64
  by_cases ordered : right ≤ left
  · have orderedNat := UInt64.le_iff_toNat_le.mp ordered
    rw [if_pos ordered, Except.ok.injEq, ← UInt64.toNat_inj,
      UInt64.toNat_sub_of_le _ _ ordered]
    omega
  · have orderedNat : ¬right.toNat ≤ left.toNat :=
      fun le => ordered (UInt64.le_iff_toNat_le.mpr le)
    rw [if_neg ordered]
    simp only [reduceCtorEq, false_iff]
    omega

/-! ## When arithmetic fails -/

theorem checkedAdd_eq_none {left right : UInt64} :
    checkedAdd left right = none ↔ 2 ^ 64 ≤ left.toNat + right.toNat := by
  unfold checkedAdd u64TryFrom
  split
  · simp only [reduceCtorEq, false_iff]
    omega
  · simp only [true_iff]
    omega

theorem subU64_eq_error {left right : UInt64} {fault : Fault} :
    subU64 left right = .error fault ↔
      left.toNat < right.toNat ∧ fault = .panic .arithmeticOverflow := by
  unfold subU64
  by_cases ordered : right ≤ left
  · have orderedNat := UInt64.le_iff_toNat_le.mp ordered
    rw [if_pos ordered]
    simp only [reduceCtorEq, false_iff, not_and]
    omega
  · have orderedNat : ¬right.toNat ≤ left.toNat :=
      fun le => ordered (UInt64.le_iff_toNat_le.mpr le)
    rw [if_neg ordered, Except.error.injEq, eq_comm]
    exact ⟨fun equal => ⟨by omega, equal⟩, And.right⟩

theorem exactU64_eq_error {value : Nat} {fault : Fault} :
    exactU64 value = .error fault ↔
      2 ^ 64 ≤ value ∧ fault = .panic .arithmeticOverflow := by
  unfold exactU64 u64TryFrom
  rw [okOr_eq_error, @eq_comm _ fault]
  split
  · simp only [reduceCtorEq, false_and, false_iff, not_and]
    omega
  · simp only [true_and]
    exact ⟨fun equal => ⟨by omega, equal⟩, And.right⟩

/-! ## Calls that do not panic -/

/-- A call that returns or fails with an error, but does not panic. -/
abbrev NoPanic {α : Type} (computation : Result α) : Prop :=
  FailsOnly Fault.IsTyped computation

theorem noPanic_okOr
    {α : Type}
    (value : Option α)
    (cause : Md2CoreError) :
    NoPanic (okOr value (.error cause)) :=
  failsOnly_okOr value ⟨cause, rfl⟩

theorem noPanic_exactU64
    {value : Nat}
    (fits : value < 2 ^ 64) :
    NoPanic (exactU64 value) :=
  failsOnly_of_ok (exists_exactU64 fits).choose_spec.1

theorem noPanic_subU64
    {left right : UInt64}
    (ordered : right.toNat ≤ left.toNat) :
    NoPanic (subU64 left right) := by
  intro fault failed
  have below := (subU64_eq_error.mp failed).1
  omega

end Md2Core
