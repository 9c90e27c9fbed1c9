import Md2Core.Foundation.RecordStream
import Md2Core.Notes

/-!
# Streams of notes

The bytes of any notes, one after the other, are a note segment: a reader that
checks every padding byte finds the same names, types and descriptors in the
same order and ends where the bytes end.
-/

namespace Md2Core

open Foundation

/-- What a note is built from. -/
structure NoteParts where
  /-- The name, with or without a trailing NUL. -/
  name : List UInt8
  /-- The note type. -/
  nType : UInt32
  /-- The descriptor. -/
  desc : List UInt8

namespace NoteParts

/-- The serialized note of some parts. -/
def build (parts : NoteParts) : Result (List UInt8) :=
  Note.build parts.name parts.nType parts.desc

/-- The parts as a reader finds them: the name ends in a NUL. -/
def expected (parts : NoteParts) : ElfNote :=
  expectedNote parts.name parts.nType parts.desc

/-- Name and descriptor are shorter than the largest length a field holds. -/
structure Short (parts : NoteParts) : Prop where
  /-- The name leaves room for a NUL. -/
  name : parts.name.length < 2 ^ 32 - 1
  /-- The descriptor. -/
  desc : parts.desc.length < 2 ^ 32 - 1

theorem length_terminatedName_le (name : List UInt8) :
    (terminatedName name).length ≤ name.length + 1 := by
  rw [terminatedName]
  split
  · exact Nat.le_succ _
  · rw [List.length_append, List.length_singleton]

theorem Short.fits
    {parts : NoteParts}
    (short : parts.Short) :
    parts.expected.Fits where
  name := by
    have bound := length_terminatedName_le parts.name
    have small := short.name
    change (terminatedName parts.name).length < 2 ^ 32
    omega
  type := parts.nType.toNat_lt
  desc := by
    have small := short.desc
    change parts.desc.length < 2 ^ 32
    omega

theorem build_of_fits
    {parts : NoteParts}
    (fits : parts.expected.Fits) :
    parts.build = .ok parts.expected.encode :=
  Note.build_eq_ok_iff.mpr ⟨fits, rfl⟩

end NoteParts

/-- The bytes of notes, one after the other. -/
def buildNotes (notes : List NoteParts) : Result (List UInt8) := do
  let built ← notes.mapM NoteParts.build
  return built.flatten

theorem buildNotes_of_fits
    {notes : List NoteParts}
    (fits : ∀ parts ∈ notes, parts.expected.Fits) :
    buildNotes notes = .ok (notes.flatMap (·.expected.encode)) := by
  have built :
      notes.mapM NoteParts.build = .ok (notes.map (·.expected.encode)) := by
    induction notes with
    | nil => rfl
    | cons parts rest inductionHypothesis =>
        rw [List.mapM_cons,
          NoteParts.build_of_fits (fits parts List.mem_cons_self),
          inductionHypothesis fun other member =>
            fits other (List.mem_cons_of_mem _ member)]
        rfl
  rw [buildNotes, built, List.flatMap_def]
  rfl

/-- Any reader of single notes reads the notes of a segment in order. -/
theorem readAll_flatMap_expected
    {readOne : List UInt8 → Option (ElfNote × List UInt8)}
    {notes : List NoteParts}
    (undoes : ∀ note : ElfNote, note.Fits → ∀ rest,
      readOne (note.encode ++ rest) = some (note, rest))
    (fits : ∀ parts ∈ notes, parts.expected.Fits) :
    readAll readOne (notes.flatMap (·.expected.encode)) =
      some (notes.map (·.expected)) := by
  apply readAll_flatMap
  · intro parts member rest
    exact undoes parts.expected (fits parts member) rest
  · intro parts _
    exact ElfNote.encode_ne_nil _

/-- Notes of any lengths are built, and their bytes are read back as the same
notes in order, to the last byte and with all padding zero. -/
theorem exists_buildNotes_readAll
    (notes : List NoteParts)
    (short : ∀ parts ∈ notes, parts.Short) :
    ∃ bytes,
      buildNotes notes = .ok bytes ∧
        readAll readNote bytes = some (notes.map (·.expected)) ∧
          readAll readPaddedNote bytes = some (notes.map (·.expected)) := by
  have fits : ∀ parts ∈ notes, parts.expected.Fits :=
    fun parts member => (short parts member).fits
  refine ⟨_, buildNotes_of_fits fits, ?_, ?_⟩
  · exact readAll_flatMap_expected (fun _ noteFits => readNote_encode noteFits) fits
  · exact readAll_flatMap_expected (fun _ noteFits => readPaddedNote_encode noteFits) fits

/-- A note without a trailing NUL and one with it. -/
theorem exists_buildNotes_readAll_sample :
    ∃ bytes,
      buildNotes [⟨[0x41, 0x42], 1, [1, 2, 3]⟩, ⟨[0x47, 0], 7, []⟩] = .ok bytes ∧
        readAll readNote bytes =
          some [⟨[0x41, 0x42, 0], 1, [1, 2, 3]⟩, ⟨[0x47, 0], 7, []⟩] ∧
        readAll readPaddedNote bytes =
          some [⟨[0x41, 0x42, 0], 1, [1, 2, 3]⟩, ⟨[0x47, 0], 7, []⟩] := by
  apply exists_buildNotes_readAll [⟨[0x41, 0x42], 1, [1, 2, 3]⟩, ⟨[0x47, 0], 7, []⟩]
  intro parts member
  rcases List.mem_pair.mp member with rfl | rfl <;> constructor <;> decide

end Md2Core
