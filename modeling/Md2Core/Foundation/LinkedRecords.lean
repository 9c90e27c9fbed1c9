import Mathlib.Data.List.Basic

/-!
# Doubly linked records in memory

A record in memory names the addresses of the next and of the previous record,
where address zero ends the list. A reader that follows the next addresses of
a well-linked list visits its records in order and stops.
-/

namespace Foundation

/-- A record read from memory, with its own address and its two links. -/
structure Node (Content : Type*) where
  address : Nat
  next : Nat
  previous : Nat
  content : Content

variable {Content : Type*}

/-- Follow the next addresses until address zero, for at most the given number
of records. -/
def follow (readNode : Nat → Option (Node Content)) :
    Nat → Nat → Option (List (Node Content))
  | 0, address => if address = 0 then some [] else none
  | fuel + 1, address =>
      if address = 0 then some []
      else match readNode address with
        | none => none
        | some node => (follow readNode fuel node.next).map (node :: ·)

/-- The records reached from an address on, each with a link back to the one
before it. -/
inductive Linked (readNode : Nat → Option (Node Content)) :
    Nat → Nat → List (Node Content) → Prop
  | nil (previous : Nat) : Linked readNode previous 0 []
  | cons
      {previous address : Nat}
      {node : Node Content}
      {nodes : List (Node Content)}
      (nonzero : address ≠ 0)
      (read : readNode address = some node)
      (located : node.address = address)
      (linksBack : node.previous = previous)
      (rest : Linked readNode address node.next nodes) :
      Linked readNode previous address (node :: nodes)

/-- Following a well-linked list visits its records in order. -/
theorem Linked.follow_eq
    {readNode : Nat → Option (Node Content)}
    {previous address : Nat}
    {nodes : List (Node Content)}
    (linked : Linked readNode previous address nodes) :
    ∀ fuel, nodes.length ≤ fuel →
      follow readNode fuel address = some nodes := by
  induction linked with
  | nil previous =>
      intro fuel _
      cases fuel <;> rfl
  | cons nonzero read located linksBack rest inductionHypothesis =>
      intro fuel enough
      rw [List.length_cons] at enough
      obtain ⟨fuel, rfl⟩ : ∃ smaller, fuel = smaller + 1 :=
        ⟨fuel - 1, by omega⟩
      simp only [follow, if_neg nonzero, read,
        inductionHypothesis fuel (by omega), Option.map_some]

/-- A reader that reads the same records finds the same list. -/
theorem Linked.mono
    {readNode readMore : Nat → Option (Node Content)}
    {previous address : Nat}
    {nodes : List (Node Content)}
    (linked : Linked readNode previous address nodes)
    (extends_ : ∀ (address : Nat) (node : Node Content),
      readNode address = some node → readMore address = some node) :
    Linked readMore previous address nodes := by
  induction linked with
  | nil previous => exact .nil previous
  | cons nonzero read located linksBack rest inductionHypothesis =>
      exact .cons nonzero (extends_ _ _ read) located linksBack
        inductionHypothesis

/-- Every record of a well-linked list links back to the one before it. -/
theorem Linked.previous_eq
    {readNode : Nat → Option (Node Content)}
    {previous address : Nat}
    {nodes : List (Node Content)}
    (linked : Linked readNode previous address nodes) :
    nodes.map Node.previous =
      (previous :: nodes.map Node.address).take nodes.length := by
  induction linked with
  | nil previous => rfl
  | cons nonzero read located linksBack rest inductionHypothesis =>
      rw [List.map_cons, inductionHypothesis, linksBack, List.map_cons, located,
        List.length_cons, List.take_succ_cons]

end Foundation
