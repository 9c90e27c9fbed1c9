import Mathlib.Logic.Function.Basic

/-!
# Precedence between keyed values

Values from several sources go into one store under their own keys. An insertion
either replaces the value under its key or keeps the one that is there. A list of
replacing insertions leaves the last value under each key, a list of keeping
insertions the first one. A search with a further test may pass over the first
item that a search without it finds.
-/

namespace Foundation

variable {Key Value : Type*} [DecidableEq Key] (keyOf : Value → Key)

/-- The first value under a key. -/
def firstUnder (values : List Value) (key : Key) : Option Value :=
  values.find? fun value => decide (keyOf value = key)

/-- The last value under a key. -/
def lastUnder (values : List Value) (key : Key) : Option Value :=
  firstUnder keyOf values.reverse key

/-- An insertion that replaces the value under its key. -/
def replacing (store : Key → Option Value) (value : Value) : Key → Option Value :=
  Function.update store (keyOf value) (some value)

/-- An insertion that keeps the value under its key. -/
def keeping (store : Key → Option Value) (value : Value) : Key → Option Value :=
  fun key => (store key).or (if keyOf value = key then some value else none)

theorem firstUnder_cons (value : Value) (rest : List Value) (key : Key) :
    firstUnder keyOf (value :: rest) key =
      (if keyOf value = key then some value else none).or
        (firstUnder keyOf rest key) := by
  unfold firstUnder
  rw [List.find?_cons]
  by_cases here : keyOf value = key <;> simp [here]

theorem firstUnder_append (front back : List Value) (key : Key) :
    firstUnder keyOf (front ++ back) key =
      (firstUnder keyOf front key).or (firstUnder keyOf back key) := by
  unfold firstUnder
  rw [List.find?_append]

theorem lastUnder_cons (value : Value) (rest : List Value) (key : Key) :
    lastUnder keyOf (value :: rest) key =
      (lastUnder keyOf rest key).or
        (if keyOf value = key then some value else none) := by
  unfold lastUnder
  rw [List.reverse_cons, firstUnder_append, firstUnder_cons]
  simp [firstUnder]

/-- A change of the values that keeps their keys changes what is found. -/
theorem firstUnder_map
    {Other : Type*}
    {keyOfOther : Other → Key}
    {change : Value → Other}
    (keeps : ∀ value, keyOfOther (change value) = keyOf value)
    (values : List Value)
    (key : Key) :
    firstUnder keyOfOther (values.map change) key =
      (firstUnder keyOf values key).map change := by
  unfold firstUnder
  rw [List.find?_map]
  simp only [Function.comp_def, keeps]

theorem lastUnder_map
    {Other : Type*}
    {keyOfOther : Other → Key}
    {change : Value → Other}
    (keeps : ∀ value, keyOfOther (change value) = keyOf value)
    (values : List Value)
    (key : Key) :
    lastUnder keyOfOther (values.map change) key =
      (lastUnder keyOf values key).map change := by
  rw [lastUnder, ← List.map_reverse, firstUnder_map keyOf keeps]
  rfl

/-- A value under a key is in the list and has the key. -/
theorem mem_of_firstUnder
    {values : List Value}
    {key : Key}
    {value : Value}
    (found : firstUnder keyOf values key = some value) :
    value ∈ values ∧ keyOf value = key := by
  unfold firstUnder at found
  have selected := List.find?_some found
  exact ⟨List.mem_of_find?_eq_some found, of_decide_eq_true selected⟩

/-! ## Positions -/

/-- The first value under a key stands before every other one. -/
theorem exists_index_of_firstUnder
    {values : List Value}
    {key : Key}
    {value : Value}
    (found : firstUnder keyOf values key = some value) :
    ∃ index : Nat, values[index]? = some value ∧ keyOf value = key ∧
      ∀ earlier < index, ∀ other, values[earlier]? = some other →
        keyOf other ≠ key := by
  obtain ⟨holds, index, inside, here, before⟩ :=
    List.find?_eq_some_iff_getElem.mp found
  refine ⟨index, List.getElem?_eq_some_iff.mpr ⟨inside, here⟩,
    of_decide_eq_true holds, ?_⟩
  intro earlier less other found
  obtain ⟨otherInside, rfl⟩ := List.getElem?_eq_some_iff.mp found
  simpa using before earlier less

/-- The last value under a key stands behind every other one. -/
theorem exists_index_of_lastUnder
    {values : List Value}
    {key : Key}
    {value : Value}
    (found : lastUnder keyOf values key = some value) :
    ∃ index : Nat, values[index]? = some value ∧ keyOf value = key ∧
      ∀ later > index, ∀ other, values[later]? = some other →
        keyOf other ≠ key := by
  induction values with
  | nil => contradiction
  | cons head tail inductionHypothesis =>
      rw [lastUnder_cons, Option.or_eq_some_iff] at found
      rcases found with inTail | ⟨notInTail, here⟩
      · obtain ⟨index, at_index, holds, behind⟩ := inductionHypothesis inTail
        refine ⟨index + 1, at_index, holds, ?_⟩
        intro later less other otherAt
        obtain ⟨position, rfl⟩ : ∃ position, later = position + 1 :=
          ⟨later - 1, by omega⟩
        exact behind position (by omega) other otherAt
      · split at here
        · next holds =>
          obtain rfl := Option.some.inj here
          refine ⟨0, rfl, holds, ?_⟩
          intro later less other otherAt same
          obtain ⟨position, rfl⟩ : ∃ position, later = position + 1 :=
            ⟨later - 1, by omega⟩
          rw [lastUnder, firstUnder, List.find?_eq_none] at notInTail
          apply notInTail other
          · exact List.mem_reverse.mpr (List.mem_of_getElem? otherAt)
          · exact decide_eq_true same
        · contradiction

/-- Without a value under a key no position has the key. -/
theorem ne_of_firstUnder_eq_none
    {values : List Value}
    {key : Key}
    (absent : firstUnder keyOf values key = none)
    {index : Nat}
    {value : Value}
    (found : values[index]? = some value) :
    keyOf value ≠ key := by
  intro same
  exact List.find?_eq_none.mp absent value (List.mem_of_getElem? found)
    (decide_eq_true same)

/-! ## Distinct keys -/

/-- No two values of the list have the same key. -/
def DistinctKeys (values : List Value) : Prop :=
  values.Pairwise fun first second => keyOf first ≠ keyOf second

theorem firstUnder_of_mem
    {values : List Value}
    (distinct : DistinctKeys keyOf values)
    {value : Value}
    (member : value ∈ values) :
    firstUnder keyOf values (keyOf value) = some value := by
  induction values with
  | nil => contradiction
  | cons head tail inductionHypothesis =>
      obtain ⟨others, tailDistinct⟩ := List.pairwise_cons.mp distinct
      rw [firstUnder_cons]
      rcases List.mem_cons.mp member with rfl | inTail
      · rw [if_pos rfl, Option.some_or]
      · rw [if_neg (others value inTail), Option.none_or]
        exact inductionHypothesis tailDistinct inTail

theorem lastUnder_of_mem
    {values : List Value}
    (distinct : DistinctKeys keyOf values)
    {value : Value}
    (member : value ∈ values) :
    lastUnder keyOf values (keyOf value) = some value := by
  apply firstUnder_of_mem
  · apply List.pairwise_reverse.mpr
    exact distinct.imp Ne.symm
  · exact List.mem_reverse.mpr member

/-! ## Lists of insertions -/

/-- Replacing insertions leave the last value under each key. -/
theorem foldl_replacing
    (values : List Value)
    (store : Key → Option Value)
    (key : Key) :
    values.foldl (replacing keyOf) store key =
      (lastUnder keyOf values key).or (store key) := by
  induction values generalizing store with
  | nil => rfl
  | cons value rest inductionHypothesis =>
      rw [List.foldl_cons, inductionHypothesis, lastUnder_cons, Option.or_assoc]
      congr 1
      unfold replacing
      by_cases here : keyOf value = key
      · subst here
        rw [Function.update_self, if_pos rfl, Option.some_or]
      · rw [Function.update_of_ne (Ne.symm here), if_neg here, Option.none_or]

/-- Keeping insertions leave the value that was there, or else the first one
under each key. -/
theorem foldl_keeping
    (values : List Value)
    (store : Key → Option Value)
    (key : Key) :
    values.foldl (keeping keyOf) store key =
      (store key).or (firstUnder keyOf values key) := by
  induction values generalizing store with
  | nil => exact (Option.or_none).symm
  | cons value rest inductionHypothesis =>
      rw [List.foldl_cons, inductionHypothesis, firstUnder_cons, keeping,
        Option.or_assoc]

/-- There is a last value under a key exactly when there is a first one. -/
theorem lastUnder_eq_none_iff (values : List Value) (key : Key) :
    lastUnder keyOf values key = none ↔ firstUnder keyOf values key = none := by
  simp [lastUnder, firstUnder]

/-- Where values with the same key are the same, the last value under a key is the
value with the key. -/
theorem lastUnder_eq_some_iff
    {values : List Value}
    (functional : ∀ first ∈ values, ∀ second ∈ values,
      keyOf first = keyOf second → first = second)
    {key : Key}
    {value : Value} :
    lastUnder keyOf values key = some value ↔ value ∈ values ∧ keyOf value = key := by
  constructor
  · intro found
    obtain ⟨member, here⟩ := mem_of_firstUnder keyOf found
    exact ⟨List.mem_reverse.mp member, here⟩
  · rintro ⟨member, rfl⟩
    cases found : lastUnder keyOf values (keyOf value) with
    | none =>
        rw [lastUnder_eq_none_iff, firstUnder, List.find?_eq_none] at found
        exact absurd (decide_eq_true rfl) (found value member)
    | some other =>
        obtain ⟨otherMember, same⟩ := mem_of_firstUnder keyOf found
        rw [functional other (List.mem_reverse.mp otherMember) value member same]

/-- Before a fallback, the last value under a key is the first one exactly when
they agree without it. -/
theorem lastUnder_or_eq_iff
    (values : List Value)
    (key : Key)
    (fallback : Option Value) :
    (lastUnder keyOf values key).or fallback =
        (firstUnder keyOf values key).or fallback ↔
      firstUnder keyOf values key = lastUnder keyOf values key := by
  have absent := lastUnder_eq_none_iff keyOf values key
  cases last : lastUnder keyOf values key with
  | none => simp [absent.mp last]
  | some value =>
      cases first : firstUnder keyOf values key with
      | none => exact absurd (last.symm.trans (absent.mpr first)) (by simp)
      | some other =>
          rw [Option.some_or, Option.some_or]
          exact eq_comm

/-! ## Searches -/

/-- A search finds the value of a member when no other member has another. -/
theorem findSome?_eq_some_of_agree
    {α β : Type*}
    {items : List α}
    {choose : α → Option β}
    {item : α}
    {value : β}
    (member : item ∈ items)
    (found : choose item = some value)
    (agree : ∀ other ∈ items, ∀ another,
      choose other = some another → another = value) :
    items.findSome? choose = some value := by
  have succeeds : (items.findSome? choose).isSome := by
    rw [List.findSome?_isSome_iff]
    exact ⟨item, member, by rw [found]; rfl⟩
  obtain ⟨another, first⟩ := Option.isSome_iff_exists.mp succeeds
  obtain ⟨other, otherMember, otherFound⟩ := List.exists_of_findSome?_eq_some first
  rw [first, agree other otherMember another otherFound]

/-- A search depends on its test at the members only. -/
theorem findSome?_congr
    {α β : Type*}
    {items : List α}
    {choose other : α → Option β}
    (same : ∀ item ∈ items, choose item = other item) :
    items.findSome? choose = items.findSome? other := by
  induction items with
  | nil => rfl
  | cons item rest inductionHypothesis =>
      obtain ⟨first, others⟩ := List.forall_mem_cons.mp same
      rw [List.findSome?_cons, List.findSome?_cons, first, inductionHypothesis others]

/-- A search with a further test on what it returns gives the same as one
without it exactly when what the latter finds passes the test. -/
theorem map_find?_and_eq_iff
    {Item Result : Type*}
    (items : List Item)
    (accepts : Item → Bool)
    (view : Item → Result)
    (test : Result → Bool) :
    (items.find? fun item => accepts item && test (view item)).map view =
        (items.find? accepts).map view ↔
      ∀ item, items.find? accepts = some item → test (view item) = true := by
  induction items with
  | nil => simp
  | cons head tail inductionHypothesis =>
      rw [List.find?_cons, List.find?_cons]
      cases accepted : accepts head with
      | false => simpa using inductionHypothesis
      | true =>
          cases tested : test (view head) with
          | true => simp [tested]
          | false =>
              simp only [Bool.and_false, Option.some.injEq, forall_eq', tested,
                Bool.false_eq_true, iff_false, Option.map_some]
              intro same
              obtain ⟨other, found, equal⟩ := Option.map_eq_some_iff.mp same
              have passed := List.find?_some found
              rw [equal, tested, Bool.and_false] at passed
              contradiction

end Foundation
