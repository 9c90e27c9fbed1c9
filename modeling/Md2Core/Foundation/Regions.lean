import Mathlib.Data.Set.Lattice
import Mathlib.Order.CompletePartialOrder
import Mathlib.Logic.Pairwise
import Mathlib.Algebra.GroupWithZero.Nat

/-!
# Families of disjoint regions

A table of regions assigns a set of points to every key, the empty set to a key
that is not in use. These are the laws for replacing the region of one key and
for splitting a region in two while the family stays pairwise disjoint. Ranges
that follow one another are disjoint and cover the range of their list.
-/

namespace Foundation

variable {Key Point : Type*} [DecidableEq Key]

/-- Different keys have disjoint regions. -/
def Separate (regions : Key → Set Point) : Prop :=
  Pairwise (Function.onFun Disjoint regions)

/-- After one region is replaced, the family is pairwise disjoint exactly when
the other regions are, and the new region avoids all of them. -/
theorem separate_update_iff
    {regions : Key → Set Point}
    {key : Key}
    {region : Set Point} :
    Separate (Function.update regions key region) ↔
      (∀ first second, first ≠ key → second ≠ key → first ≠ second →
        Disjoint (regions first) (regions second)) ∧
      ∀ other, other ≠ key → Disjoint region (regions other) := by
  constructor
  · intro separate
    constructor
    · intro first second firstOther secondOther different
      have apart := separate different
      rwa [Function.onFun_apply, Function.update_of_ne firstOther,
        Function.update_of_ne secondOther] at apart
    · intro other different
      have apart := separate (Ne.symm different)
      rwa [Function.onFun_apply, Function.update_self,
        Function.update_of_ne different] at apart
  · rintro ⟨others, avoids⟩ first second different
    rw [Function.onFun_apply]
    by_cases firstHere : first = key
    · subst firstHere
      rw [Function.update_self, Function.update_of_ne (Ne.symm different)]
      exact avoids second (Ne.symm different)
    · by_cases secondHere : second = key
      · subst secondHere
        rw [Function.update_self, Function.update_of_ne firstHere]
        exact (avoids first firstHere).symm
      · rw [Function.update_of_ne firstHere, Function.update_of_ne secondHere]
        exact others first second firstHere secondHere different

/-- Replacing a region by a part of it keeps a family pairwise disjoint. -/
theorem Separate.shrink
    {regions : Key → Set Point}
    (separate : Separate regions)
    {key : Key}
    {region : Set Point}
    (within : region ⊆ regions key) :
    Separate (Function.update regions key region) := by
  refine separate_update_iff.mpr ⟨fun first second _ _ different =>
    separate different, fun other different => ?_⟩
  exact Set.disjoint_of_subset_left within (separate (Ne.symm different))

/-- Splitting the region of a key into two disjoint parts, the second of them
under any key, keeps a family pairwise disjoint. -/
theorem Separate.split
    {regions : Key → Set Point}
    (separate : Separate regions)
    {key fresh : Key}
    {lower upper : Set Point}
    (lowerWithin : lower ⊆ regions key)
    (upperWithin : upper ⊆ regions key)
    (apart : Disjoint lower upper) :
    Separate (Function.update (Function.update regions key lower)
      fresh upper) := by
  refine separate_update_iff.mpr ⟨fun first second _ _ different =>
    separate.shrink lowerWithin different, fun other different => ?_⟩
  by_cases here : other = key
  · subst here
    rw [Function.update_self]
    exact apart.symm
  · rw [Function.update_of_ne here]
    exact Set.disjoint_of_subset_left upperWithin (separate (Ne.symm here))

/-! ## Regions of stored values -/

section Stored

variable {Index Value : Type*} {existing added : Index → Option Value}
  {region : Value → Set Point}

/-- The regions of the values of a store. -/
def storedRegions
    (region : Value → Set Point)
    (store : Index → Option Value)
    (key : Index) : Set Point :=
  {point | ∃ value, store key = some value ∧ point ∈ region value}

theorem storedRegions_of_some
    {store : Index → Option Value}
    {key : Index}
    {value : Value}
    (found : store key = some value) :
    storedRegions region store key = region value := by
  ext point
  simp [storedRegions, found]

/-- The values of a store have disjoint regions exactly when those under
different keys do. -/
theorem separate_storedRegions_iff {store : Index → Option Value} :
    Separate (storedRegions region store) ↔
      ∀ (firstKey secondKey : Index) (first second : Value),
        firstKey ≠ secondKey → store firstKey = some first →
          store secondKey = some second →
            Disjoint (region first) (region second) := by
  constructor
  · intro separate firstKey secondKey first second different firstFound
      secondFound
    have apart := separate different
    rwa [Function.onFun_apply, storedRegions_of_some firstFound,
      storedRegions_of_some secondFound] at apart
  · intro apart firstKey secondKey different
    rw [Function.onFun_apply, Set.disjoint_left]
    rintro point ⟨first, firstFound, inFirst⟩ ⟨second, secondFound, inSecond⟩
    exact Set.disjoint_left.mp
      (apart firstKey secondKey first second different firstFound secondFound)
      inFirst inSecond

/-- When the keys that are not in use get values of a second store, the regions
stay pairwise disjoint exactly when those values avoid all that are there. -/
theorem separate_or_iff
    (existingSeparate : Separate (storedRegions region existing))
    (addedSeparate : Separate (storedRegions region added)) :
    Separate (storedRegions region fun key => (existing key).or (added key)) ↔
      ∀ (key : Index) (fresh : Value),
        existing key = none → added key = some fresh →
          ∀ (other : Index) (value : Value), existing other = some value →
            Disjoint (region fresh) (region value) := by
  rw [separate_storedRegions_iff] at existingSeparate addedSeparate ⊢
  constructor
  · intro separate key fresh free found other value otherFound
    apply separate key other fresh value
    · rintro rfl
      exact Option.some_ne_none _ (otherFound.symm.trans free)
    · rw [free, Option.none_or, found]
    · rw [otherFound, Option.some_or]
  · intro avoids firstKey secondKey first second different firstFound
      secondFound
    rcases Option.or_eq_some_iff.mp firstFound with
      firstThere | ⟨firstFree, firstFresh⟩
    · rcases Option.or_eq_some_iff.mp secondFound with
        secondThere | ⟨secondFree, secondFresh⟩
      · exact existingSeparate _ _ _ _ different firstThere secondThere
      · exact (avoids _ _ secondFree secondFresh _ _ firstThere).symm
    · rcases Option.or_eq_some_iff.mp secondFound with
        secondThere | ⟨_, secondFresh⟩
      · exact avoids _ _ firstFree firstFresh _ _ secondThere
      · exact addedSeparate _ _ _ _ different firstFresh secondFresh

end Stored

/-! ## Consecutive ranges -/

section Consecutive

variable {Item : Type*} {start size : Item → Nat}

/-- The ranges of the items follow one another without a gap. -/
def Consecutive (start size : Item → Nat) : Nat → List Item → Prop
  | _, [] => True
  | position, item :: rest =>
      start item = position ∧
        Consecutive start size (position + size item) rest

/-- Every range lies within the range of the whole list. -/
theorem Consecutive.within
    {position : Nat}
    {items : List Item}
    (consecutive : Consecutive start size position items) :
    ∀ item ∈ items, position ≤ start item ∧
      start item + size item ≤ position + (items.map size).sum := by
  induction items generalizing position with
  | nil => exact fun _ member => absurd member List.not_mem_nil
  | cons head tail inductionHypothesis =>
      obtain ⟨rfl, others⟩ := consecutive
      rw [List.map_cons, List.sum_cons]
      refine List.forall_mem_cons.mpr ⟨?_, ?_⟩
      · omega
      · intro item member
        have bounds := inductionHypothesis others item member
        omega

/-- Every range ends before each later one begins. -/
theorem Consecutive.pairwise
    {position : Nat}
    {items : List Item}
    (consecutive : Consecutive start size position items) :
    items.Pairwise fun first second =>
      start first + size first ≤ start second := by
  induction items generalizing position with
  | nil => exact .nil
  | cons head tail inductionHypothesis =>
      obtain ⟨rfl, others⟩ := consecutive
      refine .cons (fun item member => ?_) (inductionHypothesis others)
      exact (others.within item member).1

/-- The ranges cover the range of the whole list. -/
theorem Consecutive.exists_covering
    {position : Nat}
    {items : List Item}
    (consecutive : Consecutive start size position items)
    (point : Nat)
    (above : position ≤ point)
    (below : point < position + (items.map size).sum) :
    ∃ item ∈ items, start item ≤ point ∧ point < start item + size item := by
  induction items generalizing position with
  | nil =>
      rw [List.map_nil, List.sum_nil] at below
      omega
  | cons head tail inductionHypothesis =>
      obtain ⟨here, others⟩ := consecutive
      rw [List.map_cons, List.sum_cons] at below
      by_cases inHead : point < position + size head
      · exact ⟨head, List.mem_cons_self, by omega, by omega⟩
      · obtain ⟨item, member, covers⟩ := inductionHypothesis others
          (Nat.not_lt.mp inHead) (by omega)
        exact ⟨item, List.mem_cons_of_mem _ member, covers⟩

/-- When the first position and all sizes are multiples of a unit, so are all
starts. -/
theorem Consecutive.dvd_start
    {unit position : Nat}
    {items : List Item}
    (consecutive : Consecutive start size position items)
    (first : unit ∣ position)
    (sizes : ∀ item ∈ items, unit ∣ size item) :
    ∀ item ∈ items, unit ∣ start item := by
  induction items generalizing position with
  | nil => exact fun _ member => absurd member List.not_mem_nil
  | cons head tail inductionHypothesis =>
      obtain ⟨rfl, others⟩ := consecutive
      obtain ⟨headSize, tailSizes⟩ := List.forall_mem_cons.mp sizes
      exact List.forall_mem_cons.mpr ⟨first,
        inductionHypothesis others (Nat.dvd_add first headSize) tailSizes⟩

end Consecutive

end Foundation
