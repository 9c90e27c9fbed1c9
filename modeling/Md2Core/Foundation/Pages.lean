import Mathlib.Data.Set.Lattice
import Mathlib.Order.CompletePartialOrder
import Mathlib.Algebra.Order.Group.Nat

/-!
# Pages

Addresses are natural numbers and a page is a block of `page` consecutive
addresses that starts at a multiple of `page`. Rounding an address down or up
gives page boundaries, and the set of pages that a byte range touches decides
which ranges can share a page-granular container.
-/

namespace Foundation

/-- The page boundary at or below an address. -/
def roundDown (page address : Nat) : Nat :=
  address - address % page

/-- The page boundary at or above an address. -/
def roundUp (page address : Nat) : Nat :=
  if address % page = 0 then address else address + (page - address % page)

theorem roundDown_le (page address : Nat) : roundDown page address ≤ address :=
  Nat.sub_le _ _

theorem roundDown_eq_mul (page address : Nat) :
    roundDown page address = page * (address / page) := by
  have parts := Nat.div_add_mod address page
  unfold roundDown
  omega

theorem dvd_roundDown (page address : Nat) : page ∣ roundDown page address := by
  rw [roundDown_eq_mul]
  exact Nat.dvd_mul_right _ _

theorem le_roundUp (page address : Nat) : address ≤ roundUp page address := by
  unfold roundUp
  split <;> omega

theorem dvd_roundUp
    {page : Nat}
    (pagePositive : 0 < page)
    (address : Nat) :
    page ∣ roundUp page address := by
  unfold roundUp
  split
  · next aligned => exact Nat.dvd_of_mod_eq_zero aligned
  · have parts := Nat.div_add_mod address page
    have below := Nat.mod_lt address pagePositive
    refine ⟨address / page + 1, ?_⟩
    rw [Nat.mul_add, Nat.mul_one]
    omega

/-- Rounding up adds less than a page. -/
theorem roundUp_sub_lt
    {page : Nat}
    (pagePositive : 0 < page)
    (address : Nat) :
    roundUp page address - address < page := by
  have below := Nat.mod_lt address pagePositive
  unfold roundUp
  split <;> omega

theorem lt_roundDown_add
    {page : Nat}
    (pagePositive : 0 < page)
    (address : Nat) :
    address < roundDown page address + page := by
  have below := Nat.mod_lt address pagePositive
  unfold roundDown
  omega

/-- Rounding up an offset from a page boundary commutes with adding it. -/
theorem roundUp_add_of_dvd
    {page base : Nat}
    (boundary : page ∣ base)
    (offset : Nat) :
    roundUp page (base + offset) = base + roundUp page offset := by
  obtain ⟨count, rfl⟩ := boundary
  unfold roundUp
  rw [Nat.mul_add_mod]
  split <;> omega

/-- A page boundary at or below an address is at or below its page. -/
theorem le_roundDown_of_dvd
    {page boundary address : Nat}
    (aligned : page ∣ boundary)
    (below : boundary ≤ address) :
    boundary ≤ roundDown page address := by
  obtain ⟨count, rfl⟩ := aligned
  rw [roundDown_eq_mul]
  rcases Nat.eq_zero_or_pos page with rfl | positive
  · simp
  · exact Nat.mul_le_mul_left page
      ((Nat.le_div_iff_mul_le positive).mpr (by rwa [Nat.mul_comm]))

/-- A page boundary above an address is at or above the end of its page. -/
theorem roundDown_add_le_of_dvd
    {page boundary address : Nat}
    (aligned : page ∣ boundary)
    (above : address < boundary) :
    roundDown page address + page ≤ boundary := by
  obtain ⟨count, rfl⟩ := aligned
  rw [roundDown_eq_mul, ← Nat.mul_succ]
  refine Nat.mul_le_mul_left page (Nat.succ_le_of_lt ?_)
  exact Nat.div_lt_of_lt_mul above

/-- A page boundary at or above an address is at or above its round-up. -/
theorem roundUp_le_of_dvd
    {page boundary address : Nat}
    (aligned : page ∣ boundary)
    (above : address ≤ boundary) :
    roundUp page address ≤ boundary := by
  unfold roundUp
  split
  · exact above
  · next unaligned =>
    have strictly : address < boundary := by
      rcases Nat.lt_or_eq_of_le above with less | equal
      · exact less
      · exact absurd (Nat.mod_eq_zero_of_dvd (equal ▸ aligned)) unaligned
    have next := roundDown_add_le_of_dvd aligned strictly
    unfold roundDown at next
    have remainder := Nat.mod_le address page
    omega

/-! ## The pages of a byte range -/

/-- The pages that the addresses of a byte range lie on. -/
def pagesOf (page start length : Nat) : Set Nat :=
  {number | ∃ address,
    start ≤ address ∧ address < start + length ∧ address / page = number}

/-- An address lies on a page of a range exactly when it is within the range
rounded out to page boundaries. -/
theorem div_mem_pagesOf_iff
    {page start length : Nat}
    (pagePositive : 0 < page)
    (lengthPositive : 0 < length)
    (address : Nat) :
    address / page ∈ pagesOf page start length ↔
      roundDown page start ≤ address ∧
        address < roundUp page (start + length) := by
  constructor
  · rintro ⟨inside, startLe, inRange, samePage⟩
    have samePageStart : roundDown page inside = roundDown page address := by
      rw [roundDown_eq_mul, roundDown_eq_mul, samePage]
    constructor
    · have lower := le_roundDown_of_dvd (dvd_roundDown page start)
        (Nat.le_trans (roundDown_le page start) startLe)
      have upper := roundDown_le page address
      omega
    · have above : inside < roundUp page (start + length) :=
        Nat.lt_of_lt_of_le inRange (le_roundUp _ _)
      have pageEnd := roundDown_add_le_of_dvd
        (dvd_roundUp pagePositive (start + length)) above
      have within := lt_roundDown_add pagePositive address
      omega
  · rintro ⟨lower, upper⟩
    -- the first or the last address of the range, or the address itself, is a witness
    by_cases before : address < start
    · refine ⟨start, Nat.le_refl _, by omega, ?_⟩
      have pageStart : roundDown page start ≤ roundDown page address :=
        le_roundDown_of_dvd (dvd_roundDown page start) lower
      have pageEnd := lt_roundDown_add pagePositive start
      rw [roundDown_eq_mul, roundDown_eq_mul] at pageStart
      have divLe := Nat.le_of_mul_le_mul_left pageStart pagePositive
      have divGe := Nat.div_le_div_right (c := page) (Nat.le_of_lt before)
      omega
    · by_cases past : start + length ≤ address
      · refine ⟨start + length - 1, by omega, by omega, ?_⟩
        have notBeyond : ¬roundDown page (start + length - 1) + page ≤ address := by
          intro beyond
          have ends := roundUp_le_of_dvd
            (Nat.dvd_add (dvd_roundDown page (start + length - 1)) (Nat.dvd_refl page))
            (Nat.le_of_lt_succ (by
              have within := lt_roundDown_add pagePositive (start + length - 1)
              omega : start + length <
                (roundDown page (start + length - 1) + page).succ))
          omega
        rw [roundDown_eq_mul] at notBeyond
        have small : address / page < (start + length - 1) / page + 1 := by
          apply Nat.div_lt_of_lt_mul
          rw [Nat.mul_succ]
          omega
        have divGe := Nat.div_le_div_right (c := page)
          (show start + length - 1 ≤ address by omega)
        omega
      · exact ⟨address, by omega, by omega, rfl⟩

/-- Two nonempty byte ranges share no page exactly when one, rounded out to
page boundaries, ends before the other begins. -/
theorem disjoint_pagesOf_iff
    {page firstStart firstLength secondStart secondLength : Nat}
    (pagePositive : 0 < page)
    (firstPositive : 0 < firstLength)
    (secondPositive : 0 < secondLength) :
    Disjoint (pagesOf page firstStart firstLength)
        (pagesOf page secondStart secondLength) ↔
      roundUp page (firstStart + firstLength) ≤ roundDown page secondStart ∨
        roundUp page (secondStart + secondLength) ≤
          roundDown page firstStart := by
  have firstSpan : roundDown page firstStart <
      roundUp page (firstStart + firstLength) := by
    have lower := roundDown_le page firstStart
    have upper := le_roundUp page (firstStart + firstLength)
    omega
  have secondSpan : roundDown page secondStart <
      roundUp page (secondStart + secondLength) := by
    have lower := roundDown_le page secondStart
    have upper := le_roundUp page (secondStart + secondLength)
    omega
  rw [Set.disjoint_left]
  constructor
  · intro apart
    by_contra overlapping
    have shared := apart (a := max (roundDown page firstStart)
        (roundDown page secondStart) / page)
      ((div_mem_pagesOf_iff pagePositive firstPositive _).mpr (by omega))
    exact shared
      ((div_mem_pagesOf_iff pagePositive secondPositive _).mpr (by omega))
  · rintro separated number ⟨address, lower, upper, rfl⟩ inSecond
    have inFirst := (div_mem_pagesOf_iff pagePositive firstPositive address).mp
      ⟨address, lower, upper, rfl⟩
    have bounds := (div_mem_pagesOf_iff pagePositive secondPositive address).mp
      inSecond
    omega

end Foundation
