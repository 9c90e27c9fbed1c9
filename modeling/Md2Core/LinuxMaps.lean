import Md2Core.Model
import Md2Core.Foundation.Text

/-!
# Linux maps text

The reader of `/proc/<pid>/maps` text that arrives in a raw stream. A line is
split at whitespace: the first three columns are the range, the permissions and
the file offset, and the sixth is the file name. Lines without an absolute file
name yield no mapping.
-/

namespace Md2Core

open Foundation

/-- `u8::is_ascii_hexdigit`. -/
def isAsciiHexdigit (byte : UInt8) : Bool :=
  (0x30 ≤ byte && byte ≤ 0x39) || (0x41 ≤ byte && byte ≤ 0x46) ||
    (0x61 ≤ byte && byte ≤ 0x66)

/-- Whether a byte stream looks like `/proc/<pid>/maps` text. -/
def looksLikeLinuxMaps (data : List UInt8) : Bool :=
  if data.length ≤ 17 then false
  else (data.take 17).all fun byte => isAsciiHexdigit byte || byte == 0x2d

/-- `str::from_utf8`. -/
def fromUtf8 (data : List UInt8) : Option String :=
  String.fromUTF8? ⟨data.toArray⟩

/-- The bytes of a string are read back as the string. -/
theorem fromUtf8_asBytes (text : String) : fromUtf8 (asBytes text) = some text := by
  have bytes : (⟨(asBytes text).toArray⟩ : ByteArray) = text.toByteArray := by
    simp [asBytes]
  rw [fromUtf8, bytes, String.fromUTF8?, dif_pos text.isValidUTF8]
  rfl

/-- The bytes of a text are the bytes of its characters. -/
theorem asBytes_ofList (text : List Char) :
    asBytes (String.ofList text) = text.flatMap String.utf8EncodeChar := by
  simp [asBytes, String.toByteArray_ofList, List.utf8Encode]

/-- `u64::from_str_radix(src, 16)`. -/
def u64FromStrRadix16 (src : List Char) : Option UInt64 :=
  (fromStrRadix16 (2 ^ 64) src).map UInt64.ofNat

/-- `splitn(2, separator)`: the text in front of the separator, and the text
behind it if there is one. -/
def splitn2 (separator : Char) (text : List Char) :
    List Char × Option (List Char) :=
  match text.dropWhile (· != separator) with
  | [] => (text, none)
  | _ :: rest => (text.takeWhile (· != separator), some rest)

/-- The failure that reports a line. -/
def invalidMapsLine (line : List Char) : Fault :=
  .error (.invalidMapsLine (String.ofList line))

/-- A bound of a range. -/
def parseHexU64 (value : Option (List Char)) (line : List Char) :
    Result UInt64 := do
  let value ← okOr value (invalidMapsLine line)
  okOr (u64FromStrRadix16 value) (invalidMapsLine line)

/-- The mapping of one line, if it has an absolute file name. -/
def parseMapsLine (line : List Char) : Result (Option Mapping) := do
  let parts := splitWhitespace line
  let range ← okOr parts[0]? (invalidMapsLine line)
  let permissions ← okOr parts[1]? (invalidMapsLine line)
  let offset ← okOr parts[2]? (invalidMapsLine line)
  let rangeParts := splitn2 '-' range
  let startAddress ← parseHexU64 (some rangeParts.1) line
  let endAddress ← parseHexU64 rangeParts.2 line
  let fileOffset ← okOr (u64FromStrRadix16 offset) (invalidMapsLine line)
  match parts[5]? with
  | none => return none
  | some filename =>
      if filename.head? ≠ some '/' then
        return none
      else do
        let mapping ← Mapping.new startAddress endAddress
          ⟨permissions.contains 'r', permissions.contains 'w',
            permissions.contains 'x'⟩
        return some (mapping.withFile (String.ofList filename) fileOffset)

/-- The mappings of the lines, in order. -/
def parseMapsLines : List (List Char) → Result (List Mapping)
  | [] => return []
  | line :: rest => do
      let mapping ← parseMapsLine line
      let mappings ← parseMapsLines rest
      return mapping.toList ++ mappings

/-- The mappings of a maps text. -/
def parseLinuxMaps (data : List UInt8) : Result (List Mapping) := do
  let text ← okOr (fromUtf8 data) (.error (.invalidUtf8 "MD_LINUX_MAPS"))
  parseMapsLines (lines text.toList)

/-- The words of a line decide what is read from it, up to the line that an
error reports. -/
theorem parseMapsLine_congr
    {line other : List Char}
    {mapping : Option Mapping}
    (sameWords : splitWhitespace line = splitWhitespace other)
    (parsed : parseMapsLine other = .ok mapping) :
    parseMapsLine line = .ok mapping := by
  unfold parseMapsLine parseHexU64 at parsed ⊢
  simp only [sameWords, bind_eq_ok, okOr_eq_ok] at parsed ⊢
  exact parsed

end Md2Core
