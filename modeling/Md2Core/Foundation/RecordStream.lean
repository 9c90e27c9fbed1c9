import Mathlib.Data.List.Basic

/-!
# Streams of self-delimiting records

A reader takes one record off the front of its input and returns the rest.
Iterating it consumes a whole input. When the reader undoes the encoding of a
record in front of any continuation, the iteration undoes the concatenation of
any number of encoded records.
-/

namespace Foundation

variable {Item Record : Type*}

/-- Read records until the input is used up. Every record takes at least one
item of fuel, so the length of the input suffices. -/
def readAllWithin (readOne : List Item → Option (Record × List Item)) :
    Nat → List Item → Option (List Record)
  | _, [] => some []
  | 0, _ :: _ => none
  | fuel + 1, input =>
      match readOne input with
      | none => none
      | some (record, rest) =>
          (readAllWithin readOne fuel rest).map (record :: ·)

/-- Read a whole input as consecutive records. -/
def readAll
    (readOne : List Item → Option (Record × List Item))
    (input : List Item) : Option (List Record) :=
  readAllWithin readOne input.length input

/-- One record in front of a continuation costs one unit of fuel. -/
theorem readAllWithin_append
    {readOne : List Item → Option (Record × List Item)}
    {encoded rest : List Item}
    {record : Record}
    (nonempty : encoded ≠ [])
    (undoes : readOne (encoded ++ rest) = some (record, rest))
    (fuel : Nat) :
    readAllWithin readOne (fuel + 1) (encoded ++ rest) =
      (readAllWithin readOne fuel rest).map (record :: ·) := by
  cases encoded with
  | nil => exact absurd rfl nonempty
  | cons item items =>
      rw [List.cons_append] at undoes ⊢
      simp only [readAllWithin, undoes]

/-- What may follow a record may follow a whole concatenation. -/
theorem follows_flatMap
    {Value : Type*}
    {encode : Value → List Item}
    {Follows : List Item → Prop}
    {values : List Value}
    (ends : Follows [])
    (follows : ∀ value ∈ values, ∀ rest, Follows rest →
      Follows (encode value ++ rest)) :
    Follows (values.flatMap encode) := by
  induction values with
  | nil => exact ends
  | cons value rest inductionHypothesis =>
      rw [List.flatMap_cons]
      exact follows value List.mem_cons_self _ (inductionHypothesis
        fun other member => follows other (List.mem_cons_of_mem _ member))

/-- A concatenation of encoded records is read back record by record, when each
is read back in front of what may follow it. -/
theorem readAll_flatMap_of_follows
    {Value : Type*}
    {readOne : List Item → Option (Record × List Item)}
    {encode : Value → List Item}
    {view : Value → Record}
    {Follows : List Item → Prop}
    {values : List Value}
    (ends : Follows [])
    (follows : ∀ value ∈ values, ∀ rest, Follows rest →
      Follows (encode value ++ rest))
    (undoes : ∀ value ∈ values, ∀ rest, Follows rest →
      readOne (encode value ++ rest) = some (view value, rest))
    (nonempty : ∀ value ∈ values, encode value ≠ []) :
    readAll readOne (values.flatMap encode) = some (values.map view) := by
  have within : ∀ fuel, (values.flatMap encode).length ≤ fuel →
      readAllWithin readOne fuel (values.flatMap encode) =
        some (values.map view) := by
    induction values with
    | nil =>
        intro fuel _
        cases fuel <;> rfl
    | cons value rest inductionHypothesis =>
        intro fuel enough
        have headNonempty := nonempty value List.mem_cons_self
        have headLength := List.length_pos_iff.mpr headNonempty
        have othersFollow := fun other member =>
          follows other (List.mem_cons_of_mem value member)
        rw [List.flatMap_cons, List.length_append] at enough
        obtain ⟨fuel, rfl⟩ : ∃ smaller, fuel = smaller + 1 :=
          ⟨fuel - 1, by omega⟩
        rw [List.flatMap_cons, readAllWithin_append headNonempty
            (undoes value List.mem_cons_self _
              (follows_flatMap ends othersFollow)),
          inductionHypothesis othersFollow
            (fun other member => undoes other (List.mem_cons_of_mem _ member))
            (fun other member => nonempty other (List.mem_cons_of_mem _ member))
            fuel (by omega)]
        rfl
  exact within _ (Nat.le_refl _)

/-- A concatenation of encoded records is read back record by record. -/
theorem readAll_flatMap
    {Value : Type*}
    {readOne : List Item → Option (Record × List Item)}
    {encode : Value → List Item}
    {view : Value → Record}
    {values : List Value}
    (undoes : ∀ value ∈ values, ∀ rest,
      readOne (encode value ++ rest) = some (view value, rest))
    (nonempty : ∀ value ∈ values, encode value ≠ []) :
    readAll readOne (values.flatMap encode) = some (values.map view) :=
  @readAll_flatMap_of_follows _ _ _ _ _ _ (fun _ => True) _ trivial
    (fun _ _ _ _ => trivial) (fun value member rest _ => undoes value member rest)
    nonempty

/-- Read a given number of records, and return the rest of the input. -/
def readMany (readOne : List Item → Option (Record × List Item)) :
    Nat → List Item → Option (List Record × List Item)
  | 0, input => some ([], input)
  | count + 1, input => do
      let (record, rest) ← readOne input
      let (records, rest) ← readMany readOne count rest
      return (record :: records, rest)

/-- A counted run of records is read back in front of any continuation. -/
theorem readMany_flatMap
    {Value : Type*}
    {readOne : List Item → Option (Record × List Item)}
    {encode : Value → List Item}
    {view : Value → Record}
    {values : List Value}
    (undoes : ∀ value ∈ values, ∀ rest,
      readOne (encode value ++ rest) = some (view value, rest))
    (rest : List Item) :
    readMany readOne values.length (values.flatMap encode ++ rest) =
      some (values.map view, rest) := by
  induction values with
  | nil => rfl
  | cons value others inductionHypothesis =>
      have othersRead := inductionHypothesis fun other member =>
        undoes other (List.mem_cons_of_mem _ member)
      rw [List.length_cons, readMany, List.flatMap_cons, List.append_assoc,
        undoes value List.mem_cons_self]
      simp only [Option.bind_eq_bind, Option.bind_some, othersRead]
      rfl

end Foundation
