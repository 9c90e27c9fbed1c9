import Md2Core.RustMinidump.Modules

/-!
# Mangled names

With mangled names a symbol server looks a module up by its build id. The text of a
GUID has a fixed form, so that a mangled name leads back to the build id and to the
basename, and modules of different builds never share a name.
-/

namespace Md2Core

open Foundation

/-! ## The text of a GUID -/

/-- Reading digits does not tell a digit from its capital. -/
theorem readHexDigits_map_toUpper
    {text : List Char}
    (capital : ∀ char ∈ text, hexDigit char.toUpper = hexDigit char)
    (limit value : Nat) :
    readHexDigits limit value (text.map Char.toUpper) =
      readHexDigits limit value text := by
  induction text generalizing value with
  | nil => rfl
  | cons char rest inductionHypothesis =>
      obtain ⟨first, others⟩ := List.forall_mem_cons.mp capital
      rw [List.map_cons, readHexDigits, readHexDigits, first]
      congr 1
      funext digit
      split
      · exact inductionHypothesis others _
      · rfl

/-- A number in capital digits is read back. -/
theorem readHexDigits_upperHex
    {limit value : Nat}
    (fits : value < limit)
    (width : Nat) :
    readHexDigits limit 0 (upperHex width value) = some value := by
  have digits := readHexDigits_toDigits fits []
  rw [List.append_nil] at digits
  rw [upperHex, readHexDigits_map_toUpper (forall_mem_hexText (by decide) width value),
    hexText, readHexDigits_replicate_zero (by omega), digits]
  rfl

theorem upperHex_inj
    {width value other : Nat}
    (same : upperHex width value = upperHex width other) :
    value = other := by
  have read := @readHexDigits_upperHex (value + other + 1) value (by omega) width
  rw [same, readHexDigits_upperHex (by omega), Option.some.injEq] at read
  exact read.symm

/-- A number that fits has as many digits as the width. -/
theorem length_upperHex
    {width value : Nat}
    (positive : 0 < width)
    (fits : value < 16 ^ width) :
    (upperHex width value).length = width := by
  have short := (Nat.length_toDigits_le_iff (by decide) positive).mpr fits
  rw [upperHex, List.length_map, hexText, List.length_append, List.length_replicate]
  omega

/-- A number in a text, with its digits and whether a hyphen stands behind it. -/
structure HexPiece where
  width : Nat
  value : Nat
  hyphen : Bool

namespace HexPiece

/-- The text of a number and of the hyphen behind it. -/
def text (piece : HexPiece) : List Char :=
  upperHex piece.width piece.value ++ if piece.hyphen then ['-'] else []

/-- What does not depend on the value. -/
def shape (piece : HexPiece) : Nat × Bool :=
  (piece.width, piece.hyphen)

/-- The number fits its digits. -/
structure Fits (piece : HexPiece) : Prop where
  positive : 0 < piece.width
  bound : piece.value < 16 ^ piece.width

theorem Fits.length_text
    {piece : HexPiece}
    (fits : piece.Fits) :
    piece.text.length = piece.width + if piece.hyphen then 1 else 0 := by
  rw [text, List.length_append, length_upperHex fits.positive fits.bound]
  cases piece.hyphen <;> rfl

/-- A text of pieces has a length of its own. -/
theorem length_flatMap_text
    {pieces : List HexPiece}
    (fits : ∀ piece ∈ pieces, piece.Fits) :
    (pieces.flatMap text).length =
      ((pieces.map shape).map fun shape => shape.1 + if shape.2 then 1 else 0).sum := by
  rw [List.length_flatMap, List.map_map]
  congr 1
  apply List.map_congr_left
  intro piece member
  exact (fits piece member).length_text

/-- Pieces of the same shapes are told apart by their text. -/
theorem eq_of_flatMap_text
    {pieces others : List HexPiece}
    (fits : ∀ piece ∈ pieces, piece.Fits)
    (othersFit : ∀ piece ∈ others, piece.Fits)
    (shapes : pieces.map shape = others.map shape)
    (same : pieces.flatMap text = others.flatMap text) :
    pieces = others := by
  induction pieces generalizing others with
  | nil => exact (List.map_eq_nil_iff.mp shapes.symm).symm
  | cons piece rest inductionHypothesis =>
      cases others with
      | nil => exact absurd shapes (List.cons_ne_nil _ _)
      | cons other remaining =>
          obtain ⟨first, behind⟩ := List.cons_eq_cons.mp shapes
          obtain ⟨pieceFits, restFit⟩ := List.forall_mem_cons.mp fits
          obtain ⟨otherFits, remainingFit⟩ := List.forall_mem_cons.mp othersFit
          obtain ⟨width, value, hyphen⟩ := piece
          obtain ⟨_, otherValue, _⟩ := other
          obtain ⟨rfl, rfl⟩ := Prod.mk.inj first
          rw [List.flatMap_cons, List.flatMap_cons] at same
          obtain ⟨here, there⟩ := List.append_inj same
            (pieceFits.length_text.trans otherFits.length_text.symm)
          obtain rfl : value = otherValue :=
            upperHex_inj (List.append_cancel_right here)
          rw [inductionHypothesis restFit remainingFit behind there]

end HexPiece

namespace Guid

/-- The GUID of all zeros. -/
def zero : Guid := ⟨0, 0, 0, Vector.replicate 8 0⟩

/-- The numbers of a GUID in the order of its text. -/
def pieces (guid : Guid) : List HexPiece :=
  [⟨8, guid.data1.toNat, true⟩, ⟨4, guid.data2.toNat, true⟩,
    ⟨4, guid.data3.toNat, true⟩, ⟨2, guid.data4[0].toNat, false⟩,
    ⟨2, guid.data4[1].toNat, true⟩, ⟨2, guid.data4[2].toNat, false⟩,
    ⟨2, guid.data4[3].toNat, false⟩, ⟨2, guid.data4[4].toNat, false⟩,
    ⟨2, guid.data4[5].toNat, false⟩, ⟨2, guid.data4[6].toNat, false⟩,
    ⟨2, guid.data4[7].toNat, false⟩]

/-- The text of a GUID. -/
def text (guid : Guid) : List Char :=
  guid.pieces.flatMap HexPiece.text

theorem guidFromModule_eq
    {module : MinidumpModule}
    {guid : Guid}
    (recorded : module.codeviewInfo = some (.pdb70 guid)) :
    guidFromModule module = some (String.ofList guid.text) := by
  unfold guidFromModule
  rw [recorded]
  simp only [text, pieces, HexPiece.text, List.flatMap_cons, List.flatMap_nil, if_true,
    Bool.false_eq_true, if_false, List.append_assoc, List.append_nil, List.cons_append,
    List.nil_append]
  rfl

theorem fits_pieces (guid : Guid) : ∀ piece ∈ guid.pieces, piece.Fits := by
  unfold pieces
  simp only [List.forall_mem_cons]
  have byte : ∀ (value : UInt8) (hyphen : Bool),
      (HexPiece.mk 2 value.toNat hyphen).Fits := fun value _ =>
    ⟨Nat.succ_pos 1, value.toNat_lt⟩
  exact ⟨⟨Nat.succ_pos 7, guid.data1.toNat_lt⟩, ⟨Nat.succ_pos 3, guid.data2.toNat_lt⟩,
    ⟨Nat.succ_pos 3, guid.data3.toNat_lt⟩, byte _ _, byte _ _, byte _ _, byte _ _, byte _ _,
    byte _ _, byte _ _, byte _ _, by simp⟩

/-- The text of a GUID has 36 characters. -/
theorem length_text (guid : Guid) : guid.text.length = 36 :=
  HexPiece.length_flatMap_text guid.fits_pieces

theorem pieces_injective : Function.Injective pieces := by
  intro guid other same
  obtain ⟨data1, data2, data3, data4⟩ := guid
  obtain ⟨other1, other2, other3, other4⟩ := other
  simp only [pieces, List.cons.injEq, HexPiece.mk.injEq, true_and, and_true,
    UInt32.toNat_inj, UInt16.toNat_inj, UInt8.toNat_inj] at same
  obtain ⟨rfl, rfl, rfl, byte0, byte1, byte2, byte3, byte4, byte5, byte6, byte7⟩ := same
  congr 1
  apply Vector.ext
  intro index inside
  match index, inside with
  | 0, _ => exact byte0
  | 1, _ => exact byte1
  | 2, _ => exact byte2
  | 3, _ => exact byte3
  | 4, _ => exact byte4
  | 5, _ => exact byte5
  | 6, _ => exact byte6
  | 7, _ => exact byte7

/-- GUIDs are told apart by their text. -/
theorem text_injective : Function.Injective text := fun guid other same =>
  pieces_injective
    (HexPiece.eq_of_flatMap_text guid.fits_pieces other.fits_pieces rfl same)

end Guid

/-! ## Names -/

/-- The build id of a module, if it has one. -/
def MinidumpModule.buildId (module : MinidumpModule) : Option Guid :=
  match module.codeviewInfo with
  | some (.pdb70 guid) => if guid = Guid.zero then none else some guid
  | _ => none

/-- The directory of mangled names. -/
def mangledDirectory : String := "/var/lib/breakpad/"

/-- The characters of a mangled name. -/
def mangledName (guid : Guid) (basename : String) : List Char :=
  mangledDirectory.toList ++ (guid.text ++ '-' :: (basename.toList ++ basename.toList))

/-- A mangled name leads back to the build id and the basename. -/
theorem mangledName_inj
    {guid other : Guid}
    {name otherName : String}
    (same : mangledName guid name = mangledName other otherName) :
    guid = other ∧ name = otherName := by
  obtain ⟨text, behind⟩ := List.append_inj (List.append_cancel_left same)
    (guid.length_text.trans other.length_text.symm)
  have twice := (List.cons.inj behind).2
  have length : name.toList.length = otherName.toList.length := by
    have lengths := congrArg List.length twice
    rw [List.length_append, List.length_append] at lengths
    omega
  exact ⟨Guid.text_injective text,
    String.toList_inj.mp (List.append_inj twice length).1⟩

section Options

variable {options : ConvertOptions}

/-- With mangled names, a module is listed under its mangled name if it has a build id,
and under its path otherwise. -/
theorem toList_signatureFor
    (mangles : options.mangleSonames = true)
    (noDirectory : options.soBaseDir = none)
    (module : MinidumpModule) :
    (signatureFor module options).toList =
      module.buildId.elim module.name.toList
        (mangledName · (basename module.name)) := by
  have zeroText : String.ofList Guid.zero.text = zeroGuid := by
    decide +kernel
  unfold signatureFor MinidumpModule.buildId
  simp only [noDirectory, mangles, Bool.not_true, Bool.false_eq_true, if_false]
  cases recorded : module.codeviewInfo with
  | none => simp [guidFromModule, recorded]
  | some view =>
      cases view with
      | other => simp [guidFromModule, recorded]
      | pdb70 guid =>
          rw [Guid.guidFromModule_eq recorded, Option.getD_some]
          dsimp only
          by_cases none : guid = Guid.zero
          · rw [none, if_pos zeroText, if_pos rfl]
            rfl
          · have other : String.ofList guid.text ≠ zeroGuid := by
              rw [← zeroText]
              exact fun same => none (Guid.text_injective (String.ofList_injective same))
            rw [if_neg other, if_neg none]
            simp [mangledName, mangledDirectory]

/-- The name of a module without a build id is not in the directory of mangled names. -/
def MinidumpModule.Ordinary (module : MinidumpModule) : Prop :=
  module.buildId = none → ¬mangledDirectory.toList <+: module.name.toList

/-- With mangled names, modules have the same name exactly when both have the same build
id and basename, or both have no build id and the same path. -/
theorem signatureFor_eq_iff
    (first second : MinidumpModule)
    (mangles : options.mangleSonames = true)
    (noDirectory : options.soBaseDir = none)
    (firstOrdinary : first.Ordinary)
    (secondOrdinary : second.Ordinary) :
    signatureFor first options = signatureFor second options ↔
      first.buildId = second.buildId ∧
        if first.buildId.isSome then
          basename first.name = basename second.name
        else
          first.name = second.name := by
  have inDirectory : ∀ (guid : Guid) (name : String),
      mangledDirectory.toList <+: mangledName guid name :=
    fun _ _ => List.prefix_append _ _
  rw [← String.toList_inj, toList_signatureFor mangles noDirectory,
    toList_signatureFor mangles noDirectory]
  cases firstId : first.buildId with
  | none =>
      cases secondId : second.buildId with
      | none => simp [String.toList_inj]
      | some other =>
          have apart : first.name.toList ≠ mangledName other (basename second.name) :=
            fun same => firstOrdinary firstId (same ▸ inDirectory _ _)
          simpa using apart
  | some guid =>
      cases secondId : second.buildId with
      | none =>
          have apart : mangledName guid (basename first.name) ≠ second.name.toList :=
            fun same => secondOrdinary secondId (same ▸ inDirectory _ _)
          simpa using apart
      | some other =>
          simp only [Option.elim_some, Option.some.injEq, Option.isSome_some, if_true]
          constructor
          · exact mangledName_inj
          · rintro ⟨rfl, same⟩
            rw [same]

end Options

/-- A library and its build id. -/
def sampleBuild (data1 : UInt32) : MinidumpModule :=
  { sampleModule 0x50000 0x2000 with
    codeviewInfo := some (.pdb70 { Guid.zero with data1 }) }

/-- Two builds of a library have different names. -/
theorem signatureFor_eq_iff_sample :
    signatureFor (sampleBuild 1) ⟨true, none⟩ ≠
      signatureFor (sampleBuild 2) ⟨true, none⟩ := by
  have ordinary : ∀ data1, data1 ≠ 0 → (sampleBuild data1).Ordinary := by
    intro data1 nonzero none
    simp [sampleBuild, MinidumpModule.buildId, Guid.zero, nonzero] at none
  intro same
  have builds := ((signatureFor_eq_iff (sampleBuild 1) (sampleBuild 2) rfl rfl
    (ordinary 1 (by decide)) (ordinary 2 (by decide))).mp same).1
  exact absurd builds (by decide)

end Md2Core
