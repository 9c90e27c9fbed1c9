import Mathlib.Data.List.DropRight

/-!
# The last separator of a list

A list without a separator is one segment; any other list is cut at its last
separator into a front and a segment, in one way only. Searching from the end
finds that cut, and what is shown for the two cases holds of every list.
-/

namespace Foundation

variable {Item : Type*}

/-! ## Searching from the end -/

/-- Position of the last item that meets a condition. -/
def rposition (condition : Item → Bool) : List Item → Option Nat
  | [] => none
  | item :: rest =>
      match rposition condition rest with
      | some position => some (position + 1)
      | none => if condition item then some 0 else none

theorem forall_of_rposition_eq_none
    {condition : Item → Bool}
    {items : List Item}
    (absent : rposition condition items = none) :
    ∀ item ∈ items, condition item = false := by
  induction items with
  | nil => simp
  | cons head rest inductionHypothesis =>
      rw [rposition] at absent
      cases behind : rposition condition rest with
      | some position => simp [behind] at absent
      | none =>
          have unmet : condition head = false := by
            simpa [behind] using absent
          exact List.forall_mem_cons.mpr ⟨unmet, inductionHypothesis behind⟩

/-- A found position cuts the list in front of an item that meets the condition
and behind which none does. -/
theorem exists_of_rposition_eq_some
    {condition : Item → Bool}
    {items : List Item}
    {position : Nat}
    (found : rposition condition items = some position) :
    ∃ front item back,
      items = front ++ item :: back ∧ front.length = position ∧
        condition item = true ∧ ∀ other ∈ back, condition other = false := by
  induction items generalizing position with
  | nil => simp [rposition] at found
  | cons head rest inductionHypothesis =>
      rw [rposition] at found
      cases behind : rposition condition rest with
      | some last =>
          simp only [behind, Option.some.injEq] at found
          obtain ⟨front, item, back, split, length, met, others⟩ :=
            inductionHypothesis behind
          refine ⟨head :: front, item, back, ?_, ?_, met, others⟩
          · rw [split, List.cons_append]
          · rw [List.length_cons, length, found]
      | none =>
          simp only [behind] at found
          split at found
          · rename_i met
            refine ⟨[], head, rest, rfl, by simpa using found, met, ?_⟩
            exact forall_of_rposition_eq_none behind
          · exact absurd found (by simp)

/-- A position in front of a stop lies before it. -/
theorem lt_of_rposition_take
    {condition : Item → Bool}
    {items : List Item}
    {stop position : Nat}
    (found : rposition condition (items.take stop) = some position) :
    position < stop := by
  obtain ⟨front, item, back, split, rfl, _⟩ := exists_of_rposition_eq_some found
  have lengths := congrArg List.length split
  rw [List.length_take, List.length_append, List.length_cons] at lengths
  omega

/-! ## The cut at the last separator -/

variable [DecidableEq Item]

theorem not_mem_of_rposition_eq_none
    {separator : Item}
    {items : List Item}
    (absent : rposition (· == separator) items = none) :
    separator ∉ items := by
  intro member
  simpa using forall_of_rposition_eq_none absent separator member

/-- The position of the last separator cuts a list at it. -/
theorem exists_cut_of_rposition_eq_some
    {separator : Item}
    {items : List Item}
    {position : Nat}
    (found : rposition (· == separator) items = some position) :
    ∃ front back,
      items = front ++ separator :: back ∧ front.length = position ∧
        separator ∉ back := by
  obtain ⟨front, item, back, split, length, met, others⟩ :=
    exists_of_rposition_eq_some found
  rw [eq_of_beq met] at split
  refine ⟨front, back, split, length, ?_⟩
  intro member
  simpa using others separator member

/-- A list has no separator, or is cut at its last one. -/
theorem lastSeparator_induction
    (separator : Item)
    {motive : List Item → Prop}
    (plain : ∀ items, separator ∉ items → motive items)
    (separated :
      ∀ front back, separator ∉ back → motive front →
        motive (front ++ separator :: back))
    (items : List Item) :
    motive items := by
  induction length : items.length using Nat.strongRecOn generalizing items with
  | ind size inductionHypothesis =>
      cases last : rposition (· == separator) items with
      | none => exact plain items (not_mem_of_rposition_eq_none last)
      | some position =>
          obtain ⟨front, back, rfl, _, noSeparator⟩ :=
            exists_cut_of_rposition_eq_some last
          apply separated front back noSeparator
          apply inductionHypothesis front.length ?_ front rfl
          rw [← length, List.length_append, List.length_cons]
          omega

/-- Two cuts of a list at its last separator are the same cut. -/
theorem append_separator_inj
    {separator : Item}
    {front otherFront back otherBack : List Item}
    (noSeparator : separator ∉ back)
    (otherNoSeparator : separator ∉ otherBack)
    (same : front ++ separator :: back = otherFront ++ separator :: otherBack) :
    front = otherFront ∧ back = otherBack := by
  have pieces := congrArg (List.splitOn separator) same
  simp only [List.splitOn_append_cons_self, List.splitOn_eq_singleton noSeparator,
    List.splitOn_eq_singleton otherNoSeparator] at pieces
  have backs : back = otherBack := by
    simpa using (List.append_inj' pieces rfl).2
  rw [backs] at same
  exact ⟨List.append_cancel_right same, backs⟩

/-! ## The last segment -/

/-- What follows the last separator of a list, or all of a list without one. -/
def FollowsLast (separator : Item) (items segment : List Item) : Prop :=
  separator ∉ segment ∧
    (items = segment ∨ ∃ front, items = front ++ separator :: segment)

theorem rtakeWhile_of_not_mem
    {separator : Item}
    {items : List Item}
    (noSeparator : separator ∉ items) :
    items.rtakeWhile (· != separator) = items := by
  rw [List.rtakeWhile_eq_self_iff]
  intro item member
  simpa using ne_of_mem_of_not_mem member noSeparator

theorem rtakeWhile_append_separator
    {separator : Item}
    (front : List Item)
    {back : List Item}
    (noSeparator : separator ∉ back) :
    (front ++ separator :: back).rtakeWhile (· != separator) = back := by
  have reversed : ∀ item ∈ back.reverse, (item != separator) = true := by
    intro item member
    simpa using ne_of_mem_of_not_mem (List.mem_reverse.mp member) noSeparator
  rw [List.rtakeWhile, List.reverse_append, List.reverse_cons, List.append_assoc,
    List.singleton_append, List.takeWhile_append_of_pos reversed,
    List.takeWhile_cons_of_neg (by simp), List.append_nil, List.reverse_reverse]

/-- The last segment is the longest suffix without a separator. -/
theorem followsLast_rtakeWhile (separator : Item) (items : List Item) :
    FollowsLast separator items (items.rtakeWhile (· != separator)) := by
  induction items using lastSeparator_induction separator with
  | plain items noSeparator =>
      rw [rtakeWhile_of_not_mem noSeparator]
      exact ⟨noSeparator, Or.inl rfl⟩
  | separated front back noSeparator _ =>
      rw [rtakeWhile_append_separator front noSeparator]
      exact ⟨noSeparator, Or.inr ⟨front, rfl⟩⟩

end Foundation
