import Mathlib.Logic.Function.Basic

/-!
# Chunk stores

A chunk is a run of items placed at a base address, and a store keeps at most
one chunk under each key. The store is read by address, through whichever chunk
covers the address; an address is read unambiguously when every covering chunk
gives the same item. Writing a chunk replaces the one under its key and leaves
the others as they are.
-/

namespace Foundation

/-- Consecutive items, the first one at address `base`. -/
structure Chunk (Item : Type*) where
  /-- Address of the first item. -/
  base : Nat
  /-- The items in address order. -/
  items : List Item

namespace Chunk

/-- The item that a chunk gives an address. -/
def itemAt {Item : Type*} (chunk : Chunk Item) (address : Nat) : Option Item :=
  if chunk.base ≤ address then chunk.items[address - chunk.base]? else none

/-- A chunk covers an address when it gives it an item. -/
def Covers {Item : Type*} (chunk : Chunk Item) (address : Nat) : Prop :=
  chunk.base ≤ address ∧ address < chunk.base + chunk.items.length

instance {Item : Type*} (chunk : Chunk Item) (address : Nat) :
    Decidable (chunk.Covers address) :=
  inferInstanceAs (Decidable (_ ∧ _))

theorem covers_iff_exists
    {Item : Type*}
    {chunk : Chunk Item}
    {address : Nat} :
    chunk.Covers address ↔ ∃ item, chunk.itemAt address = some item := by
  unfold Covers itemAt
  by_cases reached : chunk.base ≤ address
  · rw [if_pos reached, ← Option.isSome_iff_exists,
      isSome_getElem?]
    omega
  · rw [if_neg reached]
    simp [reached]

theorem Covers.of_itemAt
    {Item : Type*}
    {chunk : Chunk Item}
    {address : Nat}
    {item : Item}
    (found : chunk.itemAt address = some item) :
    chunk.Covers address :=
  covers_iff_exists.mpr ⟨item, found⟩

end Chunk

/-- A store keeps at most one chunk under each key. -/
abbrev ChunkStore (Key Item : Type*) := Key → Option (Chunk Item)

namespace ChunkStore

variable {Key Item : Type*}

/-- The chunk under a key gives an address an item. -/
def Supplies
    (store : ChunkStore Key Item)
    (key : Key)
    (address : Nat)
    (item : Item) : Prop :=
  ∃ chunk, store key = some chunk ∧ chunk.itemAt address = some item

/-- An address reads as an item: some chunk gives it, and no chunk gives
another one. -/
def Reads
    (store : ChunkStore Key Item)
    (address : Nat)
    (item : Item) : Prop :=
  (∃ key, store.Supplies key address item) ∧
    ∀ key other, store.Supplies key address other → other = item

variable [DecidableEq Key]

/-- Write a chunk under a key. -/
def write
    (store : ChunkStore Key Item)
    (key : Key)
    (chunk : Chunk Item) : ChunkStore Key Item :=
  Function.update store key (some chunk)

@[simp] theorem write_self
    (store : ChunkStore Key Item)
    (key : Key)
    (chunk : Chunk Item) :
    store.write key chunk key = some chunk := by
  rw [write, Function.update_self]

theorem write_of_ne
    (store : ChunkStore Key Item)
    {key other : Key}
    (chunk : Chunk Item)
    (different : other ≠ key) :
    store.write key chunk other = store other := by
  rw [write, Function.update_of_ne different]

/-- After a write an address is supplied by the new chunk, or by an old chunk
under another key. -/
theorem supplies_write_iff
    {store : ChunkStore Key Item}
    {key other : Key}
    {chunk : Chunk Item}
    {address : Nat}
    {item : Item} :
    (store.write key chunk).Supplies other address item ↔
      (other = key ∧ chunk.itemAt address = some item) ∨
        (other ≠ key ∧ store.Supplies other address item) := by
  unfold Supplies
  by_cases same : other = key
  · subst same
    simp
  · simp [write_of_ne store chunk same, same]

/-! ## Writing several chunks -/

/-- Write chunks one after the other. -/
def writeAll
    (store : ChunkStore Key Item)
    (entries : List (Key × Chunk Item)) : ChunkStore Key Item :=
  entries.foldl (fun store entry => store.write entry.1 entry.2) store

/-- A written chunk is in the store when every write under its key wrote it. -/
theorem writeAll_of_forall_eq
    {store : ChunkStore Key Item}
    {entries : List (Key × Chunk Item)}
    {key : Key}
    {chunk : Chunk Item}
    (written : (key, chunk) ∈ entries ∨ store key = some chunk)
    (same : ∀ entry ∈ entries, entry.1 = key → entry.2 = chunk) :
    store.writeAll entries key = some chunk := by
  induction entries generalizing store with
  | nil => exact written.resolve_left List.not_mem_nil
  | cons entry rest inductionHypothesis =>
      obtain ⟨first, others⟩ := List.forall_mem_cons.mp same
      rw [writeAll, List.foldl_cons, ← writeAll]
      apply inductionHypothesis _ others
      by_cases here : entry.1 = key
      · right
        rw [here, first here, write_self]
      · rw [write_of_ne store entry.2 (Ne.symm here)]
        rcases written with member | before
        · left
          refine (List.mem_cons.mp member).resolve_left ?_
          rintro rfl
          exact here rfl
        · exact Or.inr before

/-- Every chunk of the store was written or was there before. -/
theorem mem_or_of_writeAll
    {store : ChunkStore Key Item}
    {entries : List (Key × Chunk Item)}
    {key : Key}
    {chunk : Chunk Item}
    (found : store.writeAll entries key = some chunk) :
    (key, chunk) ∈ entries ∨ store key = some chunk := by
  induction entries generalizing store with
  | nil => exact Or.inr found
  | cons entry rest inductionHypothesis =>
      rw [writeAll, List.foldl_cons, ← writeAll] at found
      rcases inductionHypothesis found with later | before
      · exact Or.inl (List.mem_cons_of_mem entry later)
      · by_cases same : key = entry.1
        · rw [same, write_self, Option.some.injEq] at before
          rw [same, ← before]
          exact Or.inl List.mem_cons_self
        · rw [write_of_ne store entry.2 same] at before
          exact Or.inr before

end ChunkStore

end Foundation
