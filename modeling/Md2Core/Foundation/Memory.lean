import Md2Core.Foundation.WordPairs

/-!
# Byte-addressed memory

A memory gives every readable address its byte. Words, zero-terminated strings
and tables of word pairs are read byte by byte. Wherever a byte string lies in
memory, these reads agree with reading the byte string itself.
-/

namespace Foundation

/-- The byte at each readable address. -/
abbrev Memory := Nat → Option UInt8

namespace Memory

/-- Read a number of consecutive bytes. -/
def readBytes (memory : Memory) : Nat → Nat → Option (List UInt8)
  | _, 0 => some []
  | address, count + 1 => do
      let byte ← memory address
      let rest ← readBytes memory (address + 1) count
      return byte :: rest

/-- Read a little-endian field. -/
def readWord (memory : Memory) (address width : Nat) : Option Nat :=
  (memory.readBytes address width).map leNat

/-- Read a zero-terminated string of fewer bytes than a limit. -/
def readString (memory : Memory) : Nat → Nat → Option (List UInt8)
  | 0, _ => none
  | limit + 1, address => do
      let byte ← memory address
      if byte = 0 then
        return []
      else do
        let rest ← readString memory limit (address + 1)
        return byte :: rest

/-- Search a table of word pairs for a tag, up to a stop tag, within a number of
entries. The result is the value behind the tag. -/
def findTagged (memory : Memory) (word wanted stop : Nat) :
    Nat → Nat → Option Nat
  | 0, _ => none
  | entries + 1, address => do
      let tag ← memory.readWord address word
      let value ← memory.readWord (address + word) word
      if tag = wanted then
        return value
      else if tag = stop then
        none
      else
        findTagged memory word wanted stop entries (address + 2 * word)

/-- A byte string lies in memory from a base address on. -/
def Holds (memory : Memory) (base : Nat) (bytes : List UInt8) : Prop :=
  ∀ (index : Nat) (byte : UInt8),
    bytes[index]? = some byte → memory (base + index) = some byte

section Reads

variable {memory : Memory} {base : Nat} {bytes : List UInt8}

/-- A suffix lies behind its prefix. -/
theorem Holds.drop
    (holds : memory.Holds base bytes)
    (count : Nat) :
    memory.Holds (base + count) (bytes.drop count) := by
  intro index byte found
  rw [List.getElem?_drop] at found
  rw [Nat.add_assoc]
  exact holds (count + index) byte found

/-- The first byte lies at the base, the others behind it. -/
theorem Holds.uncons
    {byte : UInt8}
    {rest : List UInt8}
    (holds : memory.Holds base (byte :: rest)) :
    memory base = some byte ∧ memory.Holds (base + 1) rest :=
  ⟨holds 0 byte rfl, holds.drop 1⟩

/-- Bytes within the byte string are read. -/
theorem Holds.readBytes_eq
    {offset count : Nat}
    (holds : memory.Holds base bytes)
    (inside : offset + count ≤ bytes.length) :
    memory.readBytes (base + offset) count = some (slice bytes offset count) := by
  induction count generalizing offset with
  | zero => simp [readBytes, slice]
  | succ count inductionHypothesis =>
      have first := holds offset bytes[offset] (List.getElem?_eq_getElem (by omega))
      have others := @inductionHypothesis (offset + 1) (by omega)
      have cut : slice bytes offset (count + 1) =
          bytes[offset] :: slice bytes (offset + 1) count := by
        rw [slice, List.drop_eq_getElem_cons (by omega), List.take_succ_cons]
        rfl
      rw [← Nat.add_assoc] at others
      rw [readBytes, first, Option.bind_eq_bind, Option.bind_some, others, cut]
      rfl

/-- A field of the byte string is read at its address. -/
theorem Holds.readWord_eq
    {address width value : Nat}
    (holds : memory.Holds base bytes)
    (found : readLeAt base bytes address width = some value) :
    memory.readWord address width = some value := by
  unfold readLeAt at found
  split at found
  · next reached =>
    have inside := le_length_of_readLe found
    have read := holds.readBytes_eq inside
    rw [Nat.add_sub_cancel' reached] at read
    rw [readLe, if_pos inside] at found
    rw [readWord, read, Option.map_some, found]
  · contradiction

/-- A string that starts the byte string is read up to its zero byte. -/
theorem Holds.readString_cString
    {limit : Nat}
    (holds : memory.Holds base bytes)
    (terminated : 0 ∈ bytes)
    (enough : bytes.length ≤ limit) :
    memory.readString limit base = some (cString bytes) := by
  induction bytes generalizing base limit with
  | nil => exact absurd terminated List.not_mem_nil
  | cons byte rest inductionHypothesis =>
      obtain ⟨limit, rfl⟩ : ∃ smaller, limit = smaller + 1 :=
        ⟨limit - 1, by rw [List.length_cons] at enough; omega⟩
      obtain ⟨first, others⟩ := holds.uncons
      rw [readString, first, Option.bind_eq_bind, Option.bind_some]
      by_cases zero : byte = 0
      · rw [if_pos zero, cString, List.takeWhile_cons_of_neg (by simpa using zero)]
        rfl
      · have later : 0 ∈ rest :=
          (List.mem_cons.mp terminated).resolve_left (Ne.symm zero)
        rw [if_neg zero, inductionHypothesis others later
          (Nat.le_of_succ_le_succ enough), cString, cString,
          List.takeWhile_cons_of_pos (by simpa using zero)]
        rfl

/-- A string of the byte string is read at its address. -/
theorem Holds.readString_eq
    {address limit : Nat}
    {text : List UInt8}
    (holds : memory.Holds base bytes)
    (found : readCStringAt base bytes address = some text)
    (enough : bytes.length ≤ limit) :
    memory.readString limit address = some text := by
  unfold readCStringAt at found
  split at found
  · next reached =>
    have tail := holds.drop (address - base)
    rw [Nat.add_sub_cancel' reached] at tail
    unfold readCString at found
    split at found
    · next terminated =>
      rw [← Option.some.inj found]
      apply tail.readString_cString terminated
      rw [List.length_drop]
      omega
    · contradiction
  · contradiction

/-- An entry of a table is read at its address. -/
theorem Holds.readPair
    {word index : Nat}
    {entry : Nat × Nat}
    (holds : memory.Holds base bytes)
    (found : pairAt word bytes index = some entry) :
    memory.readWord (base + index * (2 * word)) word = some entry.1 ∧
      memory.readWord (base + index * (2 * word) + word) word =
        some entry.2 := by
  obtain ⟨inside, tag, value⟩ := pairAt_eq_some.mp found
  have tagRead := @holds.readBytes_eq _ _ _ (index * (2 * word)) word (by omega)
  have valueRead := @holds.readBytes_eq _ _ _ (index * (2 * word) + word) word
    (by omega)
  rw [← Nat.add_assoc] at valueRead
  rw [readWord, readWord, tagRead, valueRead, tag, value]
  exact ⟨rfl, rfl⟩

/-- The search from any entry up to the first tagged one finds its value. -/
theorem Holds.findTagged_from
    {word wanted stop index value start entries : Nat}
    (holds : memory.Holds base bytes)
    (first : FirstTagged word bytes wanted stop index)
    (found : pairAt word bytes index = some (wanted, value))
    (before : start ≤ index)
    (enough : index < start + entries) :
    memory.findTagged word wanted stop entries (base + start * (2 * word)) =
      some value := by
  induction entries generalizing start with
  | zero => omega
  | succ entries inductionHypothesis =>
      obtain ⟨entry, here⟩ := exists_pairAt_of_le found before
      obtain ⟨tagRead, valueRead⟩ := holds.readPair here
      rw [findTagged, tagRead, valueRead]
      simp only [Option.bind_eq_bind, Option.bind_some]
      rcases Nat.lt_or_eq_of_le before with earlier | rfl
      · obtain ⟨notWanted, notStop⟩ := first.2 start earlier entry here
        have next : base + start * (2 * word) + 2 * word =
            base + (start + 1) * (2 * word) := by ring
        rw [if_neg notWanted, if_neg notStop, next]
        exact inductionHypothesis earlier (by omega)
      · rw [found, Option.some.injEq] at here
        rw [← here, if_pos rfl]
        rfl

/-- The search from the start of a table finds the value of the first tagged
entry. -/
theorem Holds.findTagged_eq
    {word wanted stop index value entries : Nat}
    (holds : memory.Holds base bytes)
    (first : FirstTagged word bytes wanted stop index)
    (found : pairAt word bytes index = some (wanted, value))
    (enough : index < entries) :
    memory.findTagged word wanted stop entries base = some value := by
  have searched := @holds.findTagged_from _ _ _ word wanted stop index value 0
    entries first found (Nat.zero_le _) (by omega)
  rwa [Nat.zero_mul, Nat.add_zero] at searched

end Reads

end Memory

end Foundation
