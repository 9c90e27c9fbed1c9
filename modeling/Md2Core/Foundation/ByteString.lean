import Mathlib.Data.List.Basic
import Mathlib.Tactic.Ring

/-!
# Byte strings

Byte strings are lists of bytes. This module gives the fixed-width
little-endian encoding of natural numbers, the sub-ranges of a list, and the
bounds-checked field reader that a consumer of a binary format uses. Fields are
located by peeling the pieces of a concatenation from the left. Two byte strings
of one layout are compared range by range.
-/

namespace Foundation

/-- The `width` little-endian bytes of a number. Higher bytes are dropped. -/
def leBytes : Nat → Nat → List UInt8
  | 0, _ => []
  | width + 1, value => UInt8.ofNat value :: leBytes width (value / 256)

/-- The number whose little-endian bytes are given. -/
def leNat : List UInt8 → Nat
  | [] => 0
  | byte :: rest => byte.toNat + 256 * leNat rest

@[simp] theorem leBytes_zero (value : Nat) : leBytes 0 value = [] := rfl

theorem leBytes_succ (width value : Nat) :
    leBytes (width + 1) value =
      UInt8.ofNat value :: leBytes width (value / 256) := rfl

@[simp] theorem leNat_nil : leNat [] = 0 := rfl

@[simp] theorem leNat_cons (byte : UInt8) (rest : List UInt8) :
    leNat (byte :: rest) = byte.toNat + 256 * leNat rest := rfl

@[simp] theorem length_leBytes (width value : Nat) :
    (leBytes width value).length = width := by
  induction width generalizing value with
  | zero => rfl
  | succ width inductionHypothesis =>
      simp [leBytes_succ, inductionHypothesis]

/-- An encoding splits into its lower and its higher bytes. -/
theorem leBytes_add (low high value : Nat) :
    leBytes (low + high) value =
      leBytes low value ++ leBytes high (value / 256 ^ low) := by
  induction low generalizing value with
  | zero => simp
  | succ low inductionHypothesis =>
      rw [Nat.add_right_comm, leBytes_succ, leBytes_succ, inductionHypothesis,
        List.cons_append, Nat.div_div_eq_div_mul, ← pow_succ']

/-- Decoding an encoding keeps the number modulo the range of the width. -/
theorem leNat_leBytes (width value : Nat) :
    leNat (leBytes width value) = value % 256 ^ width := by
  induction width generalizing value with
  | zero => simp [Nat.mod_one]
  | succ width inductionHypothesis =>
      rw [leBytes_succ, leNat_cons, inductionHypothesis, pow_succ',
        Nat.mod_mul, UInt8.toNat_ofNat']

/-- A number that fits the width is recovered from its encoding. -/
theorem leNat_leBytes_of_lt
    {width value : Nat}
    (fits : value < 256 ^ width) :
    leNat (leBytes width value) = value := by
  rw [leNat_leBytes, Nat.mod_eq_of_lt fits]

/-- A decoded number fits the width that it was read from. -/
theorem leNat_lt (bytes : List UInt8) : leNat bytes < 256 ^ bytes.length := by
  induction bytes with
  | nil => simp
  | cons byte rest inductionHypothesis =>
      have bound := byte.toNat_lt
      rw [leNat_cons, List.length_cons, pow_succ']
      omega

theorem leBytes_zero_right (width : Nat) :
    leBytes width 0 = List.replicate width 0 := by
  induction width with
  | zero => rfl
  | succ width inductionHypothesis =>
      rw [leBytes_succ, Nat.zero_div, inductionHypothesis, List.replicate_succ]
      rfl

/-- Re-encoding a decoded byte string gives it back. -/
theorem leBytes_leNat
    {width : Nat}
    {bytes : List UInt8}
    (length : bytes.length = width) :
    leBytes width (leNat bytes) = bytes := by
  subst length
  induction bytes with
  | nil => rfl
  | cons byte rest inductionHypothesis =>
      have bound := byte.toNat_lt
      have low : UInt8.ofNat (byte.toNat + 256 * leNat rest) = byte := by
        apply UInt8.toNat_inj.mp
        rw [UInt8.toNat_ofNat']
        omega
      have high : (byte.toNat + 256 * leNat rest) / 256 = leNat rest := by
        omega
      rw [List.length_cons, leNat_cons, leBytes_succ, low, high,
        inductionHypothesis]

/-- An encoding depends on the number modulo the range of the width. -/
theorem leBytes_mod (width value : Nat) :
    leBytes width (value % 256 ^ width) = leBytes width value := by
  rw [← leNat_leBytes, leBytes_leNat (length_leBytes width value)]

/-- Re-encoding in a wider field appends zeros. -/
theorem leBytes_add_leNat
    {width : Nat}
    {bytes : List UInt8}
    (length : bytes.length = width)
    (extra : Nat) :
    leBytes (width + extra) (leNat bytes) = bytes ++ List.replicate extra 0 := by
  have small : leNat bytes < 256 ^ width := length ▸ leNat_lt bytes
  rw [leBytes_add, leBytes_leNat length, Nat.div_eq_of_lt small,
    leBytes_zero_right]

/-! ## Sub-ranges of a list -/

/-- The `count` items that start at `offset`. Shorter at the end of the list. -/
def slice (items : List α) (offset count : Nat) : List α :=
  (items.drop offset).take count

theorem slice_append_of_le
    {front back : List α}
    {offset : Nat}
    (count : Nat)
    (past : front.length ≤ offset) :
    slice (front ++ back) offset count =
      slice back (offset - front.length) count := by
  unfold slice
  rw [List.drop_append, List.drop_eq_nil_of_le past, List.nil_append]

/-- A slice is cut anywhere into two. -/
theorem slice_add (items : List α) (offset first second : Nat) :
    slice items offset (first + second) =
      slice items offset first ++ slice items (offset + first) second := by
  rw [slice, slice, slice, List.take_add, List.drop_drop]

theorem length_slice_of_le
    {items : List α}
    {offset count : Nat}
    (inside : offset + count ≤ items.length) :
    (slice items offset count).length = count := by
  rw [slice, List.length_take, List.length_drop]
  omega

@[simp] theorem slice_zero_length (items back : List α) :
    slice (items ++ back) 0 items.length = items := by
  simp [slice]

/-- A piece in the middle of a concatenation is the slice at its position. -/
theorem slice_middle (front items back : List α) :
    slice (front ++ (items ++ back)) front.length items.length = items := by
  rw [slice_append_of_le _ (Nat.le_refl _), Nat.sub_self, slice_zero_length]

/-- An item of a slice is an item of the list. -/
theorem getElem?_of_slice
    {items : List α}
    {offset count index : Nat}
    {item : α}
    (found : (slice items offset count)[index]? = some item) :
    items[offset + index]? = some item := by
  rw [slice, List.getElem?_take] at found
  split at found
  · rwa [List.getElem?_drop] at found
  · contradiction

theorem length_slice_le (items : List α) (offset count : Nat) :
    (slice items offset count).length ≤ count :=
  List.length_take_le _ _

theorem leNat_slice_lt (bytes : List UInt8) (offset width : Nat) :
    leNat (slice bytes offset width) < 256 ^ width := by
  calc leNat (slice bytes offset width)
      < 256 ^ (slice bytes offset width).length := leNat_lt _
    _ ≤ 256 ^ width := Nat.pow_le_pow_right (by omega)
        (length_slice_le bytes offset width)

/-- A slice of a slice is a slice of the whole list. -/
theorem slice_slice
    {innerOffset innerCount outerCount : Nat}
    (items : List α)
    (outerOffset : Nat)
    (inside : innerOffset + innerCount ≤ outerCount) :
    slice (slice items outerOffset outerCount) innerOffset innerCount =
      slice items (outerOffset + innerOffset) innerCount := by
  unfold slice
  rw [List.drop_take, List.take_take, List.drop_drop,
    Nat.min_eq_left (by omega)]

/-- Overwrite the items from `offset` on with a chunk. -/
def splice (items : List α) (offset : Nat) (chunk : List α) : List α :=
  items.take offset ++ chunk ++ items.drop (offset + chunk.length)

theorem length_splice
    {items chunk : List α}
    {offset : Nat}
    (fits : offset + chunk.length ≤ items.length) :
    (splice items offset chunk).length = items.length := by
  simp only [splice, List.length_append, List.length_take, List.length_drop]
  omega

/-- Overwriting keeps the items before the chunk and the items after it. -/
theorem getElem?_splice_of_outside
    {items chunk : List α}
    {offset position : Nat}
    (fits : offset + chunk.length ≤ items.length)
    (outside : position < offset ∨ offset + chunk.length ≤ position) :
    (splice items offset chunk)[position]? = items[position]? := by
  have front : (items.take offset).length = offset :=
    List.length_take_of_le (by omega)
  rw [splice, List.append_assoc]
  rcases outside with before | behind
  · rw [List.getElem?_append_left (by omega), List.getElem?_take, if_pos before]
  · rw [List.getElem?_append_right (by omega), front,
      List.getElem?_append_right (by omega), List.getElem?_drop]
    congr 1
    omega

/-- The chunk is found where it was written. -/
theorem slice_splice
    {items chunk : List α}
    {offset : Nat}
    (fits : offset ≤ items.length) :
    slice (splice items offset chunk) offset chunk.length = chunk := by
  have front : (items.take offset).length = offset :=
    List.length_take_of_le fits
  have middle := slice_middle (items.take offset) chunk
    (items.drop (offset + chunk.length))
  rwa [front, ← List.append_assoc] at middle

/-- A slice outside the chunk is kept. -/
theorem slice_splice_of_outside
    {items chunk : List α}
    {offset start count : Nat}
    (fits : offset + chunk.length ≤ items.length)
    (outside : start + count ≤ offset ∨ offset + chunk.length ≤ start) :
    slice (splice items offset chunk) start count = slice items start count := by
  apply List.ext_getElem?
  intro index
  rw [slice, slice, List.getElem?_take, List.getElem?_take]
  split
  · rw [List.getElem?_drop, List.getElem?_drop]
    exact getElem?_splice_of_outside fits (by omega)
  · rfl

/-- `Vec::resize`: cut or extend to a length. -/
def resize (items : List α) (length : Nat) (filler : α) : List α :=
  items.take length ++ List.replicate (length - items.length) filler

@[simp] theorem length_resize (items : List α) (length : Nat) (filler : α) :
    (resize items length filler).length = length := by
  rw [resize, List.length_append, List.length_take, List.length_replicate]
  omega

/-- Resizing keeps a front part that is not longer than the length. -/
theorem exists_resize_append
    {front : List α}
    {length : Nat}
    (back : List α)
    (filler : α)
    (fits : front.length ≤ length) :
    ∃ rest, resize (front ++ back) length filler = front ++ rest := by
  refine ⟨back.take (length - front.length) ++
    List.replicate (length - (front ++ back).length) filler, ?_⟩
  rw [resize, List.take_append, List.take_of_length_le fits, List.append_assoc]

/-! ## Bounds-checked fields -/

/-- Read a little-endian field, or nothing when it leaves the byte string. -/
def readLe (bytes : List UInt8) (offset width : Nat) : Option Nat :=
  if offset + width ≤ bytes.length then
    some (leNat (slice bytes offset width))
  else
    none

/-- A field that is read fits its width. -/
theorem readLe_lt
    {bytes : List UInt8}
    {offset width value : Nat}
    (found : readLe bytes offset width = some value) :
    value < 256 ^ width := by
  unfold readLe at found
  split at found
  · obtain rfl := Option.some.inj found
    exact leNat_slice_lt bytes offset width
  · contradiction

/-- A field within the byte string is read. -/
theorem exists_readLe
    {bytes : List UInt8}
    {offset width : Nat}
    (inside : offset + width ≤ bytes.length) :
    ∃ value, readLe bytes offset width = some value :=
  ⟨_, if_pos inside⟩

/-- A field that is read lies within the byte string. -/
theorem le_length_of_readLe
    {bytes : List UInt8}
    {offset width value : Nat}
    (found : readLe bytes offset width = some value) :
    offset + width ≤ bytes.length := by
  unfold readLe at found
  split at found
  · next inside => exact inside
  · contradiction

theorem readLe_append_of_le
    {front back : List UInt8}
    {offset : Nat}
    (width : Nat)
    (past : front.length ≤ offset) :
    readLe (front ++ back) offset width =
      readLe back (offset - front.length) width := by
  unfold readLe
  rw [slice_append_of_le width past, List.length_append]
  by_cases fits : offset + width ≤ front.length + back.length
  · rw [if_pos fits, if_pos (by omega)]
  · rw [if_neg fits, if_neg (by omega)]

/-- The first field of a concatenation is read back when it fits its width. -/
theorem readLe_leBytes_append
    {width value : Nat}
    (back : List UInt8)
    (fits : value < 256 ^ width) :
    readLe (leBytes width value ++ back) 0 width = some value := by
  have leading : slice (leBytes width value ++ back) 0 width =
      leBytes width value := by
    simpa using slice_zero_length (leBytes width value) back
  unfold readLe
  rw [leading, if_pos (by simp), leNat_leBytes_of_lt fits]

/-- Consecutive fields, each given by its width and its value. -/
def encodeFields (fields : List (Nat × Nat)) : List UInt8 :=
  fields.flatMap fun field => leBytes field.1 field.2

@[simp] theorem length_encodeFields (fields : List (Nat × Nat)) :
    (encodeFields fields).length = (fields.map Prod.fst).sum := by
  simp [encodeFields, List.length_flatMap]

/-- The front part of a field is the value of the field when this fits it. -/
theorem readLe_encodeFields
    {fields : List (Nat × Nat)}
    {index offset width whole value : Nat}
    (front back : List UInt8)
    (found : fields[index]? = some (whole, value))
    (located : offset = front.length + ((fields.take index).map Prod.fst).sum)
    (narrow : width ≤ whole)
    (fits : value < 256 ^ width) :
    readLe (front ++ (encodeFields fields ++ back)) offset width =
      some value := by
  induction fields generalizing front index with
  | nil => exact absurd found (by simp)
  | cons field fields inductionHypothesis =>
      rw [encodeFields, List.flatMap_cons, ← encodeFields, List.append_assoc]
      cases index with
      | zero =>
          obtain rfl : field = (whole, value) := by simpa using found
          obtain ⟨rest, rfl⟩ := Nat.exists_eq_add_of_le narrow
          rw [located, readLe_append_of_le _ (by simp), List.take_zero,
            List.map_nil, List.sum_nil, Nat.add_zero, Nat.sub_self,
            leBytes_add, List.append_assoc, readLe_leBytes_append _ fits]
      | succ index =>
          rw [List.take_succ_cons, List.map_cons, List.sum_cons] at located
          rw [← List.append_assoc]
          refine inductionHypothesis (front ++ leBytes field.1 field.2)
            (by simpa using found) ?_
          rw [located, List.length_append, length_leBytes, Nat.add_assoc]

/-- Fields at the start of a byte string are read back. -/
theorem readLe_encodeFields_append
    {fields : List (Nat × Nat)}
    {index offset width value : Nat}
    (back : List UInt8)
    (found : fields[index]? = some (width, value))
    (located : offset = ((fields.take index).map Prod.fst).sum)
    (fits : value < 256 ^ width) :
    readLe (encodeFields fields ++ back) offset width = some value := by
  rw [← List.nil_append (encodeFields fields ++ back)]
  exact readLe_encodeFields [] back found
    (by rw [located, List.length_nil, Nat.zero_add]) (Nat.le_refl width) fits

/-- A row of words of one width. -/
def encodeWords (word : Nat) (values : List Nat) : List UInt8 :=
  encodeFields (values.map (word, ·))

@[simp] theorem encodeWords_nil (word : Nat) : encodeWords word [] = [] := rfl

@[simp] theorem encodeWords_cons (word value : Nat) (values : List Nat) :
    encodeWords word (value :: values) =
      leBytes word value ++ encodeWords word values := rfl

/-- A row is encoded part by part. -/
theorem encodeWords_append (word : Nat) (front back : List Nat) :
    encodeWords word (front ++ back) =
      encodeWords word front ++ encodeWords word back := by
  unfold encodeWords encodeFields
  rw [List.map_append, List.flatMap_append]

/-- Consecutive words of a byte string are encoded as that part of it. -/
theorem encodeWords_ofFn_slice
    (bytes : List UInt8)
    (word count start : Nat)
    (inside : start + word * count ≤ bytes.length) :
    encodeWords word
        (List.ofFn fun index : Fin count =>
          leNat (slice bytes (start + word * index) word)) =
      slice bytes start (word * count) := by
  induction count generalizing start with
  | zero => rw [List.ofFn_zero, encodeWords_nil, Nat.mul_zero, slice, List.take_zero]
  | succ count inductionHypothesis =>
      rw [Nat.mul_succ] at inside
      have first : (slice bytes start word).length = word :=
        length_slice_of_le (by omega)
      have others := inductionHypothesis (start + word) (by omega)
      have shifted : ∀ index : Fin count,
          start + word * (index.succ : Nat) = start + word + word * index := by
        intro index
        rw [Fin.val_succ, Nat.mul_succ]
        omega
      rw [List.ofFn_succ, encodeWords_cons, Fin.val_zero, Nat.mul_zero,
        Nat.add_zero, leBytes_leNat first]
      simp only [shifted, others]
      rw [Nat.mul_succ, Nat.add_comm (word * count), slice_add]

@[simp] theorem length_encodeWords (word : Nat) (values : List Nat) :
    (encodeWords word values).length = values.length * word := by
  simp [encodeWords, Function.comp_def]

/-- A word of a row is read back where it was put. -/
theorem readLe_encodeWords
    {offset word width index value : Nat}
    {values : List Nat}
    (front back : List UInt8)
    (found : values[index]? = some value)
    (located : offset = front.length + index * word)
    (narrow : width ≤ word)
    (fits : value < 256 ^ width) :
    readLe (front ++ (encodeWords word values ++ back)) offset width =
      some value := by
  have counted : ((values.take index).map fun _ => word).sum = index * word := by
    have inside := (List.getElem?_eq_some_iff.mp found).1
    rw [List.map_const', List.sum_replicate_nat, List.length_take,
      Nat.min_eq_left (Nat.le_of_lt inside)]
  have field : (values.map (word, ·))[index]? = some (word, value) := by
    rw [List.getElem?_map, found]
    rfl
  refine readLe_encodeFields front back field ?_ narrow fits
  rw [← List.map_take, List.map_map, Function.comp_def, counted, located]

/-- A word of a row at the start of a byte string is read back. -/
theorem readLe_encodeWords_append
    {word index value : Nat}
    {values : List Nat}
    (back : List UInt8)
    (found : values[index]? = some value)
    (fits : value < 256 ^ word) :
    readLe (encodeWords word values ++ back) (index * word) word =
      some value := by
  have read := readLe_encodeWords [] back found
    (Nat.zero_add (index * word)).symm (Nat.le_refl word) fits
  rwa [List.nil_append] at read

/-- A word of a row is read back modulo its range, and there is none behind the
row. -/
theorem readLe_encodeWords_slot
    {word : Nat}
    (values : List Nat)
    (index : Nat)
    (positive : 0 < word) :
    readLe (encodeWords word values) (index * word) word =
      values[index]?.map (· % 256 ^ word) := by
  by_cases inside : index < values.length
  · have reduced : encodeWords word values =
        encodeWords word (values.map (· % 256 ^ word)) := by
      unfold encodeWords encodeFields
      simp only [List.map_map, List.flatMap_map, Function.comp_def, leBytes_mod]
    rw [reduced, List.getElem?_eq_getElem inside,
      ← List.append_nil (encodeWords word _)]
    apply readLe_encodeWords_append []
    · rw [List.getElem?_map, List.getElem?_eq_getElem inside]
      rfl
    · exact Nat.mod_lt _ (Nat.pow_pos (by decide))
  · have outside : ¬index * word + word ≤ (encodeWords word values).length := by
      have past := Nat.mul_le_mul_right word (Nat.not_lt.mp inside)
      rw [length_encodeWords]
      omega
    rw [List.getElem?_eq_none (Nat.not_lt.mp inside), readLe, if_neg outside]
    rfl

/-- The items before the first zero byte of a byte string. -/
def cString (bytes : List UInt8) : List UInt8 :=
  bytes.takeWhile (· ≠ 0)

/-- A zero-free string followed by a zero byte is read back. -/
theorem cString_append_zero
    {text : List UInt8}
    (back : List UInt8)
    (zeroFree : 0 ∉ text) :
    cString (text ++ 0 :: back) = text := by
  unfold cString
  rw [List.takeWhile_append_of_pos]
  · simp
  · intro byte member
    have nonzero : byte ≠ 0 := by
      intro equal
      exact zeroFree (equal ▸ member)
    simpa using nonzero

/-- The zero-terminated string at an offset, or nothing when no zero byte
follows. -/
def readCString (bytes : List UInt8) (offset : Nat) : Option (List UInt8) :=
  if 0 ∈ bytes.drop offset then some (cString (bytes.drop offset)) else none

/-- A zero-free string followed by a zero byte is read where it was put. -/
theorem readCString_append
    {text : List UInt8}
    (front back : List UInt8)
    (zeroFree : 0 ∉ text) :
    readCString (front ++ (text ++ 0 :: back)) front.length = some text := by
  unfold readCString
  rw [List.drop_append_length, if_pos (by simp), cString_append_zero back zeroFree]

/-! ## Reading from the front -/

/-- Take a little-endian field off the front. -/
def takeLe (width : Nat) (bytes : List UInt8) : Option (Nat × List UInt8) :=
  if width ≤ bytes.length then
    some (leNat (bytes.take width), bytes.drop width)
  else
    none

theorem takeLe_append
    {width value : Nat}
    (fits : value < 256 ^ width)
    (rest : List UInt8) :
    takeLe width (leBytes width value ++ rest) = some (value, rest) := by
  have front : (leBytes width value ++ rest).take width = leBytes width value :=
    List.take_left' (length_leBytes width value)
  have back : (leBytes width value ++ rest).drop width = rest :=
    List.drop_left' (length_leBytes width value)
  rw [takeLe, if_pos (by simp), front, back, leNat_leBytes_of_lt fits]

/-- Take a zero-terminated string off the front. -/
def takeCString (bytes : List UInt8) : Option (List UInt8 × List UInt8) :=
  if 0 ∈ bytes then
    some (cString bytes, bytes.drop ((cString bytes).length + 1))
  else
    none

theorem takeCString_append
    {text : List UInt8}
    (zeroFree : 0 ∉ text)
    (rest : List UInt8) :
    takeCString (text ++ 0 :: rest) = some (text, rest) := by
  have back : (text ++ 0 :: rest).drop (text.length + 1) = rest := by
    simp
  rw [takeCString, if_pos (by simp), cString_append_zero rest zeroFree, back]

/-! ## Pieces at an offset -/

/-- A list holds a piece at an offset. -/
def HoldsAt (items : List α) (offset : Nat) (piece : List α) : Prop :=
  slice items offset piece.length = piece

instance [DecidableEq α] (items : List α) (offset : Nat) (piece : List α) :
    Decidable (HoldsAt items offset piece) :=
  inferInstanceAs (Decidable (_ = _))

theorem HoldsAt.le_length
    {items piece : List α}
    {offset : Nat}
    (held : HoldsAt items offset piece)
    (nonempty : piece ≠ []) :
    offset + piece.length ≤ items.length := by
  have sliced := congrArg List.length held
  have positive := List.length_pos_iff.mpr nonempty
  rw [slice, List.length_take, List.length_drop] at sliced
  omega

/-- A concatenation is held when its parts are held one after the other. -/
theorem holdsAt_append_iff
    {items first second : List α}
    {offset : Nat} :
    HoldsAt items offset (first ++ second) ↔
      HoldsAt items offset first ∧
        HoldsAt items (offset + first.length) second := by
  unfold HoldsAt
  rw [List.length_append, slice_add]
  constructor
  · intro together
    have lengths := congrArg List.length together
    have firstLe := length_slice_le items offset first.length
    have secondLe := length_slice_le items (offset + first.length) second.length
    rw [List.length_append, List.length_append] at lengths
    exact List.append_inj together (by omega)
  · rintro ⟨firstHeld, secondHeld⟩
    rw [firstHeld, secondHeld]

/-- A concatenation holds its front part at the start. -/
theorem holdsAt_append (piece back : List α) : HoldsAt (piece ++ back) 0 piece :=
  slice_zero_length piece back

/-- A resized list holds what fits its length. -/
theorem holdsAt_resize
    {piece : List α}
    {length : Nat}
    (filler : α)
    (fits : piece.length ≤ length) :
    HoldsAt (resize piece length filler) 0 piece := by
  rw [resize, List.take_of_length_le fits]
  exact holdsAt_append piece _

/-- A field is read where it is held. -/
theorem HoldsAt.readLe_eq
    {bytes : List UInt8}
    {offset width value : Nat}
    (held : HoldsAt bytes offset (leBytes width value))
    (positive : 0 < width)
    (fits : value < 256 ^ width) :
    readLe bytes offset width = some value := by
  have inside := held.le_length
    (List.length_pos_iff.mp (by rwa [length_leBytes]))
  rw [HoldsAt, length_leBytes] at held
  rw [length_leBytes] at inside
  rw [readLe, if_pos inside, held, leNat_leBytes_of_lt fits]

/-! ## Comparing ranges -/

/-- Two byte strings have the same bytes from a start up to an end. -/
def SameBytes (left right : List UInt8) (start stop : Nat) : Prop :=
  slice left start (stop - start) = slice right start (stop - start)

instance instDecidableSameBytes
    (left right : List UInt8)
    (start stop : Nat) :
    Decidable (SameBytes left right start stop) :=
  inferInstanceAs (Decidable (_ = _))

/-- A byte string is zero from a start up to an end. -/
def ZeroBytes (bytes : List UInt8) (start stop : Nat) : Prop :=
  slice bytes start (stop - start) = List.replicate (stop - start) 0

instance instDecidableZeroBytes
    (bytes : List UInt8)
    (start stop : Nat) :
    Decidable (ZeroBytes bytes start stop) :=
  inferInstanceAs (Decidable (_ = _))

/-- A byte string that holds a part of another one at the position of the part has
the same bytes there. -/
theorem sameBytes_of_holdsAt
    {left right : List UInt8}
    {start stop : Nat}
    (inside : start + (stop - start) ≤ right.length)
    (held : HoldsAt left start (slice right start (stop - start))) :
    SameBytes left right start stop := by
  rwa [HoldsAt, length_slice_of_le inside] at held

theorem zeroBytes_of_holdsAt
    {bytes : List UInt8}
    {start stop : Nat}
    (held : HoldsAt bytes start (List.replicate (stop - start) 0)) :
    ZeroBytes bytes start stop := by
  rwa [HoldsAt, List.length_replicate] at held

/-- Where one side is zero, the other is the same exactly when it is zero. -/
theorem ZeroBytes.sameBytes_iff
    {left right : List UInt8}
    {start stop : Nat}
    (zeros : ZeroBytes left start stop) :
    SameBytes left right start stop ↔ ZeroBytes right start stop := by
  rw [SameBytes, show slice left start (stop - start) = _ from zeros, ZeroBytes,
    eq_comm]

/-- A range is compared in two parts. -/
theorem sameBytes_iff_of_le
    {left right : List UInt8}
    {start middle stop : Nat}
    (leftInside : stop ≤ left.length)
    (rightInside : stop ≤ right.length)
    (afterStart : start ≤ middle)
    (beforeStop : middle ≤ stop) :
    SameBytes left right start stop ↔
      SameBytes left right start middle ∧ SameBytes left right middle stop := by
  have cut : ∀ bytes : List UInt8,
      slice bytes start (stop - start) =
        slice bytes start (middle - start) ++ slice bytes middle (stop - middle) := by
    intro bytes
    have together := slice_add bytes start (middle - start) (stop - middle)
    rwa [Nat.add_sub_cancel' afterStart, Nat.add_comm (middle - start),
      Nat.sub_add_sub_cancel beforeStop afterStart] at together
  have lengths :
      (slice left start (middle - start)).length =
        (slice right start (middle - start)).length := by
    rw [length_slice_of_le (by omega), length_slice_of_le (by omega)]
  rw [SameBytes, cut left, cut right]
  constructor
  · intro together
    exact List.append_inj together lengths
  · rintro ⟨first, second⟩
    rw [show slice left start (middle - start) = _ from first,
      show slice left middle (stop - middle) = _ from second]

/-! ## Memory that holds a byte string -/

/-- Read a little-endian field at an address, from memory that holds a byte
string at a base address. -/
def readLeAt (base : Nat) (bytes : List UInt8) (address width : Nat) : Option Nat :=
  if base ≤ address then readLe bytes (address - base) width else none

/-- Read a zero-terminated string at an address. -/
def readCStringAt (base : Nat) (bytes : List UInt8) (address : Nat) :
    Option (List UInt8) :=
  if base ≤ address then readCString bytes (address - base) else none

/-- Reading a word of a row at its address. -/
theorem readLeAt_encodeWords
    {base address word width index value : Nat}
    {values : List Nat}
    (front back : List UInt8)
    (found : values[index]? = some value)
    (located : address = base + front.length + index * word)
    (narrow : width ≤ word)
    (fits : value < 256 ^ width) :
    readLeAt base (front ++ (encodeWords word values ++ back)) address width =
      some value := by
  rw [readLeAt, if_pos (by omega)]
  exact readLe_encodeWords front back found (by omega) narrow fits

/-- Reading a zero-terminated string at its address. -/
theorem readCStringAt_append
    {base address : Nat}
    {text : List UInt8}
    (front back : List UInt8)
    (located : address = base + front.length)
    (zeroFree : 0 ∉ text) :
    readCStringAt base (front ++ (text ++ 0 :: back)) address = some text := by
  rw [readCStringAt, if_pos (by omega),
    show address - base = front.length by omega,
    readCString_append front back zeroFree]

end Foundation
