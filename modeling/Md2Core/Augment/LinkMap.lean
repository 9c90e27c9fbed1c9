import Md2Core.Foundation.ByteString
import Md2Core.Foundation.LinkedRecords
import Md2Core.Model

/-!
# The synthesized link map

The blob that rebuilds `r_debug` and the `link_map` list of the dynamic linker
from the captured entries, at a fixed address. A debugger that reads the blob at
that address and follows `l_next` from `r_map` finds the captured list.
-/

namespace Md2Core

open Foundation

/-- Address of the synthetic page used to host the rebuilt link map. -/
def linkMapAddr : UInt64 := 4096

/-- Append a value at the word size of the target. -/
def pushWord (out : List UInt8) (value : UInt64) (word : Nat) :
    Result (List UInt8) :=
  if word = 8 then
    return out ++ leBytes 8 value.toNat
  else do
    let value ← okOr (u32TryFrom value.toNat)
      (integerOverflow "32-bit link-map word")
    return out ++ leBytes 4 value.toNat

/-- The size of a file name with its zero padding to a multiple of 8. -/
def filenamePaddedSize (name : String) : Result UInt64 :=
  let n := (asBytes name).length
  let pad := 8 - n % 8
  exactU64 (n + pad)

/-- The address of a `link_map` record placed just before the current data
tail, given the size of the previous file name block. -/
def linkMapRecordAddr
    (base : UInt64)
    (currentData : List UInt8)
    (linkMapSize : Nat)
    (prevNameBlock : UInt64) : Result UInt64 := do
  let tail ← exactU64 (base.toNat + currentData.length)
  let block ← subU64 tail prevNameBlock
  subU64 block (UInt64.ofNat linkMapSize)

/-- The name of an entry, overridden by the signature of its address. -/
def LinkMapEntry.nameFor (entry : LinkMapEntry) (signatures : Signatures) :
    String :=
  signatures[entry.addr]?.getD entry.name

/-- `l_prev`: the address of the previous record, zero for the first. -/
def linkMapPrev
    (linkMapSize : Nat)
    (signatures : Signatures)
    (data : List UInt8) : Option LinkMapEntry → Result UInt64
  | none => return 0
  | some previous => do
      let block ← filenamePaddedSize (previous.nameFor signatures)
      linkMapRecordAddr linkMapAddr data linkMapSize block

/-- `l_next`: the address behind this record and its name, zero for the last. -/
def linkMapNext
    (linkMapSize : Nat)
    (data : List UInt8)
    (filename : String)
    (last : Bool) : Result UInt64 :=
  if last then
    return 0
  else do
    let block ← filenamePaddedSize filename
    exactU64 (linkMapAddr.toNat + data.length + linkMapSize + block.toNat)

/-- The `link_map` records, each followed by its name. The entry before the
first one to be written is passed along. -/
def pushLinkMaps
    (word linkMapSize : Nat)
    (signatures : Signatures) :
    Option LinkMapEntry → List LinkMapEntry → List UInt8 → Result (List UInt8)
  | _, [], data => return data
  | previous, entry :: rest, data => do
      let filename := entry.nameFor signatures
      let nameOffset ← exactU64 (linkMapAddr.toNat + data.length + linkMapSize)
      let prev ← linkMapPrev linkMapSize signatures data previous
      let next ← linkMapNext linkMapSize data filename rest.isEmpty
      let data ← pushWord data entry.addr word
      let data ← pushWord data nameOffset word
      let data ← pushWord data entry.ld word
      let data ← pushWord data next word
      let data ← pushWord data prev word
      let nameBytes := asBytes filename
      let data := data ++ nameBytes
      let pad := 8 - nameBytes.length % 8
      let data := data ++ List.replicate pad 0
      pushLinkMaps word linkMapSize signatures (some entry) rest data

/-- The `r_debug` structure, the sequence of `link_map` records and the name
strings. -/
def buildLinkMapBlob
    (architecture : Architecture)
    (dso : DsoDebug)
    (signatures : Signatures) : Result (List UInt8) := do
  let word := architecture.longSize
  let rDebugSize := if architecture.is64bit then 40 else 20
  let linkMapSize := 5 * word
  let data ← pushWord [] dso.version.toUInt64 word
  let rMap := if dso.linkMap.isEmpty then 0
    else linkMapAddr + UInt64.ofNat rDebugSize
  let data ← pushWord data rMap word
  let data ← pushWord data dso.brk word
  let data ← pushWord data 0 word
  let data ← pushWord data dso.ldbase word
  pushLinkMaps word linkMapSize signatures none dso.linkMap data

/-! ## What a debugger reads -/

/-- The captured content of a `link_map` record. -/
structure LinkMapContent where
  addr : Nat
  name : List UInt8
  ld : Nat
  deriving DecidableEq

/-- Read the `link_map` record at an address of the memory that holds the
blob. -/
def readLinkMap (word : Nat) (blob : List UInt8) (address : Nat) :
    Option (Node LinkMapContent) := do
  let base := linkMapAddr.toNat
  let addr ← readLeAt base blob address word
  let nameAddress ← readLeAt base blob (address + word) word
  let ld ← readLeAt base blob (address + 2 * word) word
  let next ← readLeAt base blob (address + 3 * word) word
  let previous ← readLeAt base blob (address + 4 * word) word
  let name ← readCStringAt base blob nameAddress
  return ⟨address, next, previous, ⟨addr, name, ld⟩⟩

/-- The fields of `r_debug`. -/
structure RDebug where
  version : Nat
  map : Nat
  brk : Nat
  state : Nat
  ldbase : Nat
  deriving DecidableEq

/-- Read `r_debug` at the address of the blob. The version and the state are
C integers of four bytes. -/
def readRDebug (word : Nat) (blob : List UInt8) : Option RDebug := do
  let base := linkMapAddr.toNat
  let version ← readLeAt base blob base 4
  let map ← readLeAt base blob (base + word) word
  let brk ← readLeAt base blob (base + 2 * word) word
  let state ← readLeAt base blob (base + 3 * word) 4
  let ldbase ← readLeAt base blob (base + 4 * word) word
  return ⟨version, map, brk, state, ldbase⟩

/-! ## What the writer appends -/

/-- A successful push appends the word, which fits. -/
theorem pushWord_eq_ok
    {out result : List UInt8}
    {value : UInt64}
    {word : Nat}
    (wordSize : word = 4 ∨ word = 8) :
    pushWord out value word = .ok result ↔
      value.toNat < 256 ^ word ∧ result = out ++ leBytes word value.toNat := by
  have bound := value.toNat_lt
  unfold pushWord
  rcases wordSize with rfl | rfl
  · rw [if_neg (by decide)]
    simp only [bind_eq_ok, okOr_eq_ok, u32TryFrom_eq_some, pure_eq_ok]
    constructor
    · rintro ⟨narrow, value', rfl⟩
      have narrowBound := narrow.toNat_lt
      exact ⟨by omega, by rw [value']⟩
    · rintro ⟨fits, rfl⟩
      exact ⟨UInt32.ofNat value.toNat, UInt32.toNat_ofNat_of_lt' (by omega),
        by rw [UInt32.toNat_ofNat_of_lt' (by omega)]⟩
  · rw [if_pos rfl, pure_eq_ok, eq_comm]
    exact ⟨fun equal => ⟨by omega, equal⟩, And.right⟩

/-- A file name block is longer than the name, and its size is computed as it
is written. -/
theorem filenamePaddedSize_eq_ok {name : String} {size : UInt64} :
    filenamePaddedSize name = .ok size ↔
      size.toNat =
        (asBytes name).length + (8 - (asBytes name).length % 8) :=
  exactU64_eq_ok

theorem linkMapRecordAddr_eq_ok
    {base prevNameBlock result : UInt64}
    {currentData : List UInt8}
    {linkMapSize : Nat}
    (small : linkMapSize < 2 ^ 64)
    (succeeded : linkMapRecordAddr base currentData linkMapSize
      prevNameBlock = .ok result) :
    base.toNat + currentData.length =
      result.toNat + linkMapSize + prevNameBlock.toNat := by
  unfold linkMapRecordAddr at succeeded
  simp only [bind_eq_ok, exactU64_eq_ok, subU64_eq_ok] at succeeded
  obtain ⟨tail, tailValue, block, blockValue, recordValue⟩ := succeeded
  rw [UInt64.toNat_ofNat_of_lt' small] at recordValue
  omega

/-! ## Reading the records back -/

section Records

variable {word : Nat} {signatures : Signatures}

namespace LinkMapEntry

variable (entry : LinkMapEntry) (word : Nat) (signatures : Signatures)
  (address previous : Nat) (last : Bool)

/-- What a debugger is to find for an entry. -/
def content : LinkMapContent :=
  ⟨entry.addr.toNat, asBytes (entry.nameFor signatures), entry.ld.toNat⟩

/-- The name of an entry with its zero padding. -/
def nameBlock : List UInt8 :=
  let name := asBytes (entry.nameFor signatures)
  name ++ List.replicate (8 - name.length % 8) 0

/-- The link to the record behind this one. -/
def next : Nat :=
  if last then 0 else address + 5 * word + (entry.nameBlock signatures).length

/-- The words of the record of an entry. -/
def row : List Nat :=
  [entry.addr.toNat, address + 5 * word, entry.ld.toNat,
    entry.next word signatures address last, previous]

/-- The record of an entry and its name. -/
def written : List UInt8 :=
  encodeWords word (entry.row word signatures address previous last) ++
    entry.nameBlock signatures

/-- The record of an entry as a debugger reads it. -/
def node : Node LinkMapContent :=
  ⟨address, entry.next word signatures address last, previous,
    entry.content signatures⟩

theorem length_nameBlock :
    (entry.nameBlock signatures).length =
      (asBytes (entry.nameFor signatures)).length +
        (8 - (asBytes (entry.nameFor signatures)).length % 8) := by
  simp [nameBlock]

theorem length_written :
    (entry.written word signatures address previous last).length =
      5 * word + (entry.nameBlock signatures).length := by
  rw [written, List.length_append, length_encodeWords]
  rfl

end LinkMapEntry

/-- A record is read back where it was written. -/
theorem readLinkMap_written
    {entry : LinkMapEntry}
    {address previous : Nat}
    {last : Bool}
    (front back : List UInt8)
    (located : address = linkMapAddr.toNat + front.length)
    (zeroFree : 0 ∉ asBytes (entry.nameFor signatures))
    (fits : ∀ value ∈ entry.row word signatures address previous last,
      value < 256 ^ word) :
    readLinkMap word
      (front ++ (entry.written word signatures address previous last ++ back))
      address = some (entry.node word signatures address previous last) := by
  have readWord : ∀ index value,
      (entry.row word signatures address previous last)[index]? = some value →
        readLeAt linkMapAddr.toNat
          (front ++ (entry.written word signatures address previous last ++
            back))
          (address + index * word) word = some value := by
    intro index value found
    rw [LinkMapEntry.written, List.append_assoc]
    exact readLeAt_encodeWords front _ found (by omega) (Nat.le_refl word)
      (fits value (List.mem_of_getElem? found))
  have readName : readCStringAt linkMapAddr.toNat
      (front ++ (entry.written word signatures address previous last ++ back))
      (address + 5 * word) = some (asBytes (entry.nameFor signatures)) := by
    obtain ⟨pad, padValue⟩ : ∃ smaller,
        8 - (asBytes (entry.nameFor signatures)).length % 8 = smaller + 1 :=
      ⟨7 - (asBytes (entry.nameFor signatures)).length % 8, by omega⟩
    rw [LinkMapEntry.written, LinkMapEntry.nameBlock, padValue,
      List.replicate_succ]
    simp only [List.append_assoc, List.cons_append]
    rw [← List.append_assoc front]
    exact readCStringAt_append _ _ (by simp [LinkMapEntry.row]; omega) zeroFree
  have readAddr := readWord 0 entry.addr.toNat rfl
  have readNameAddress := readWord 1 (address + 5 * word) rfl
  rw [Nat.zero_mul, Nat.add_zero] at readAddr
  rw [Nat.one_mul] at readNameAddress
  unfold readLinkMap
  simp only [readAddr, readNameAddress, readWord 2 entry.ld.toNat rfl,
    readWord 3 (entry.next word signatures address last) rfl,
    readWord 4 previous rfl, readName, Option.bind_eq_bind, Option.bind_some]
  rfl

/-- The address of the record that was written last, at the end of the data. -/
def LinksBack
    (word : Nat)
    (signatures : Signatures)
    (data : List UInt8)
    (previous : Nat) : Option LinkMapEntry → Prop
  | none => previous = 0
  | some entry =>
      linkMapAddr.toNat + data.length =
        previous + 5 * word + (entry.nameBlock signatures).length

/-- No record is written before the first. -/
theorem LinksBack.first (data : List UInt8) :
    LinksBack word signatures data 0 none := rfl

/-- Once its record and name are written, an entry is the last one written. -/
theorem LinksBack.of_written
    (entry : LinkMapEntry)
    (data : List UInt8)
    (previous : Nat)
    (last : Bool) :
    LinksBack word signatures
      (data ++ entry.written word signatures
        (linkMapAddr.toNat + data.length) previous last)
      (linkMapAddr.toNat + data.length) (some entry) := by
  simp only [LinksBack, List.length_append, LinkMapEntry.length_written,
    Nat.add_assoc]

/-- `l_prev` is the address of the record before. -/
theorem linkMapPrev_eq_ok
    (wordSize : word = 4 ∨ word = 8)
    {before : Option LinkMapEntry}
    {data : List UInt8}
    {previous : Nat}
    {prev : UInt64}
    (linksBack : LinksBack word signatures data previous before)
    (succeeded : linkMapPrev (5 * word) signatures data before = .ok prev) :
    prev.toNat = previous := by
  cases before with
  | none =>
      obtain rfl := pure_eq_ok.mp succeeded
      exact linksBack.symm
  | some entry =>
      simp only [linkMapPrev, bind_eq_ok, filenamePaddedSize_eq_ok] at succeeded
      obtain ⟨block, blockValue, recordOk⟩ := succeeded
      have recordAddress := linkMapRecordAddr_eq_ok
        (by rcases wordSize with rfl | rfl <;> decide) recordOk
      simp only [LinksBack, LinkMapEntry.length_nameBlock] at linksBack
      omega

/-- `l_next` is the address behind the record and its name. -/
theorem linkMapNext_eq_ok
    {entry : LinkMapEntry}
    {data : List UInt8}
    {last : Bool}
    {following : UInt64}
    (succeeded : linkMapNext (5 * word) data (entry.nameFor signatures) last =
      .ok following) :
    following.toNat =
      entry.next word signatures (linkMapAddr.toNat + data.length) last := by
  unfold LinkMapEntry.next
  cases last with
  | true =>
      obtain rfl := pure_eq_ok.mp succeeded
      rfl
  | false =>
      simp only [linkMapNext, Bool.false_eq_true, if_false, bind_eq_ok,
        filenamePaddedSize_eq_ok, exactU64_eq_ok] at succeeded
      obtain ⟨block, blockValue, sum⟩ := succeeded
      rw [sum, blockValue, if_neg Bool.false_ne_true,
        LinkMapEntry.length_nameBlock]

/-- One entry appends its record, with links to the records before and behind
it, and its name. -/
theorem pushLinkMaps_cons_ok
    (wordSize : word = 4 ∨ word = 8)
    {before : Option LinkMapEntry}
    {entry : LinkMapEntry}
    {rest : List LinkMapEntry}
    {data blob : List UInt8}
    {previous : Nat}
    (linksBack : LinksBack word signatures data previous before)
    (succeeded : pushLinkMaps word (5 * word) signatures before (entry :: rest)
      data = .ok blob) :
    (∀ value ∈ entry.row word signatures (linkMapAddr.toNat + data.length)
        previous rest.isEmpty, value < 256 ^ word) ∧
      pushLinkMaps word (5 * word) signatures (some entry) rest
        (data ++ entry.written word signatures
          (linkMapAddr.toNat + data.length) previous rest.isEmpty) =
        .ok blob := by
  unfold pushLinkMaps at succeeded
  simp only [bind_eq_ok, exactU64_eq_ok, pushWord_eq_ok wordSize] at succeeded
  obtain ⟨nameOffset, nameValue, prev, prevOk, following, followingOk, _,
    ⟨addrFits, rfl⟩, _, ⟨nameFits, rfl⟩, _, ⟨ldFits, rfl⟩, _,
    ⟨nextFits, rfl⟩, _, ⟨prevFits, rfl⟩, continued⟩ := succeeded
  have prevValue := linkMapPrev_eq_ok wordSize linksBack prevOk
  have nextValue := linkMapNext_eq_ok followingOk
  rw [prevValue] at prevFits
  rw [nextValue] at nextFits
  rw [nameValue] at nameFits
  refine ⟨?_, ?_⟩
  · intro value member
    simp only [LinkMapEntry.row, List.mem_cons, List.not_mem_nil,
      or_false] at member
    rcases member with rfl | rfl | rfl | rfl | rfl <;> assumption
  · rw [← continued]
    simp only [LinkMapEntry.written, LinkMapEntry.row, LinkMapEntry.nameBlock,
      encodeWords_cons, encodeWords_nil, List.append_assoc, List.append_nil,
      prevValue, nextValue, nameValue]

/-- Entries are appended to the data. -/
theorem pushLinkMaps_extends
    (wordSize : word = 4 ∨ word = 8)
    {before : Option LinkMapEntry}
    {entries : List LinkMapEntry}
    {data blob : List UInt8}
    {previous : Nat}
    (linksBack : LinksBack word signatures data previous before)
    (succeeded : pushLinkMaps word (5 * word) signatures before entries data =
      .ok blob) :
    ∃ back, blob = data ++ back := by
  induction entries generalizing before data previous with
  | nil =>
      obtain rfl := pure_eq_ok.mp succeeded
      exact ⟨[], (List.append_nil _).symm⟩
  | cons entry rest inductionHypothesis =>
      obtain ⟨_, continued⟩ := pushLinkMaps_cons_ok wordSize linksBack succeeded
      obtain ⟨back, rfl⟩ := inductionHypothesis
        (.of_written entry data previous rest.isEmpty) continued
      exact ⟨_, List.append_assoc _ _ _⟩

/-- The records appended for a list of entries are well-linked, and hold what a
debugger is to find. -/
theorem pushLinkMaps_linked
    (wordSize : word = 4 ∨ word = 8)
    {before : Option LinkMapEntry}
    {entries : List LinkMapEntry}
    {data blob : List UInt8}
    {previous : Nat}
    (linksBack : LinksBack word signatures data previous before)
    (zeroFree : ∀ entry ∈ entries, 0 ∉ asBytes (entry.nameFor signatures))
    (succeeded : pushLinkMaps word (5 * word) signatures before entries data =
      .ok blob) :
    ∃ back nodes, blob = data ++ back ∧
      Linked (readLinkMap word blob) previous
        (if entries.isEmpty then 0 else linkMapAddr.toNat + data.length) nodes ∧
      nodes.map Node.content = entries.map (·.content signatures) := by
  induction entries generalizing before data previous with
  | nil =>
      obtain rfl := pure_eq_ok.mp succeeded
      exact ⟨[], [], (List.append_nil _).symm, .nil previous, rfl⟩
  | cons entry rest inductionHypothesis =>
      obtain ⟨fits, continued⟩ := pushLinkMaps_cons_ok wordSize linksBack
        succeeded
      obtain ⟨back, nodes, rfl, linked, contents⟩ := inductionHypothesis
        (.of_written entry data previous rest.isEmpty)
        (fun other member => zeroFree other (List.mem_cons_of_mem _ member))
        continued
      have read := readLinkMap_written data back rfl
        (zeroFree entry List.mem_cons_self) fits
      rw [List.append_assoc] at linked ⊢
      have behind : (entry.node word signatures
          (linkMapAddr.toNat + data.length) previous rest.isEmpty).next =
            if rest.isEmpty then 0 else linkMapAddr.toNat +
              (data ++ entry.written word signatures
                (linkMapAddr.toNat + data.length) previous
                rest.isEmpty).length := by
        simp only [LinkMapEntry.node, LinkMapEntry.next, List.length_append,
          LinkMapEntry.length_written, Nat.add_assoc]
      rw [← behind] at linked
      refine ⟨_, _ :: nodes, rfl, .cons ?_ read rfl rfl linked, ?_⟩
      · exact Nat.ne_of_gt
          (Nat.lt_of_lt_of_le (by decide) (Nat.le_add_right _ _))
      · rw [List.map_cons, List.map_cons, contents]
        rfl

/-- A row of five words at the start of the blob is read as `r_debug`. -/
theorem readRDebug_append
    (wordSize : word = 4 ∨ word = 8)
    {version map brk ldbase : Nat}
    (back : List UInt8)
    (versionFits : version < 2 ^ 32)
    (mapFits : map < 256 ^ word)
    (brkFits : brk < 256 ^ word)
    (ldbaseFits : ldbase < 256 ^ word) :
    readRDebug word
      (encodeWords word [version, map, brk, 0, ldbase] ++ back) =
        some ⟨version, map, brk, 0, ldbase⟩ := by
  have readField : ∀ index width value,
      [version, map, brk, 0, ldbase][index]? = some value →
        width ≤ word → value < 256 ^ width →
        readLeAt linkMapAddr.toNat
          (encodeWords word [version, map, brk, 0, ldbase] ++ back)
          (linkMapAddr.toNat + index * word) width = some value := by
    intro index width value found narrow fits
    exact readLeAt_encodeWords [] back found (by simp) narrow fits
  have narrow : 4 ≤ word := by omega
  have readVersion := readField 0 4 version rfl narrow (by omega)
  have readMap := readField 1 word map rfl (Nat.le_refl _) mapFits
  rw [Nat.zero_mul, Nat.add_zero] at readVersion
  rw [Nat.one_mul] at readMap
  unfold readRDebug
  simp only [readVersion, readMap,
    readField 2 word brk rfl (Nat.le_refl _) brkFits,
    readField 3 4 0 rfl narrow (by decide),
    readField 4 word ldbase rfl (Nat.le_refl _) ldbaseFits,
    Option.bind_eq_bind, Option.bind_some]
  rfl

end Records

/-- The blob holds at least `r_debug`. -/
theorem buildLinkMapBlob_ne_nil
    {architecture : Architecture}
    {dso : DsoDebug}
    {signatures : Signatures}
    {blob : List UInt8}
    (succeeded : buildLinkMapBlob architecture dso signatures = .ok blob) :
    blob ≠ [] := by
  have wordSize := architecture.longSize_eq_four_or_eight
  unfold buildLinkMapBlob at succeeded
  simp only [bind_eq_ok, pushWord_eq_ok wordSize] at succeeded
  obtain ⟨_, ⟨_, rfl⟩, _, ⟨_, rfl⟩, _, ⟨_, rfl⟩, _, ⟨_, rfl⟩, _, ⟨_, rfl⟩,
    continued⟩ := succeeded
  obtain ⟨back, rfl⟩ := pushLinkMaps_extends wordSize (.first _) continued
  rw [← List.length_pos_iff]
  simp only [List.length_append, length_leBytes]
  omega

/-- The blob starts with `r_debug`, whose `r_map` is the first of a well-linked
list of records with the content of the entries. -/
theorem linked_of_buildLinkMapBlob
    {architecture : Architecture}
    {dso : DsoDebug}
    {signatures : Signatures}
    {blob : List UInt8}
    (zeroFree : ∀ entry ∈ dso.linkMap,
      0 ∉ asBytes (entry.nameFor signatures))
    (built : buildLinkMapBlob architecture dso signatures = .ok blob) :
    ∃ (map : Nat) (nodes : List (Node LinkMapContent)),
      readRDebug architecture.longSize blob =
        some ⟨dso.version.toNat, map, dso.brk.toNat, 0, dso.ldbase.toNat⟩ ∧
      Linked (readLinkMap architecture.longSize blob) 0 map nodes ∧
      nodes.map Node.content = dso.linkMap.map (·.content signatures) := by
  have wordSize := architecture.longSize_eq_four_or_eight
  have rDebugSize : (if architecture.is64bit = true then 40 else 20) =
      5 * architecture.longSize := by
    cases architecture <;> rfl
  have mapValue : (if dso.linkMap.isEmpty = true then 0 else
      linkMapAddr + UInt64.ofNat (5 * architecture.longSize)).toNat =
        if dso.linkMap.isEmpty then 0
        else linkMapAddr.toNat + 5 * architecture.longSize := by
    cases dso.linkMap.isEmpty
    · cases architecture <;> rfl
    · rfl
  unfold buildLinkMapBlob at built
  simp only [bind_eq_ok, pushWord_eq_ok wordSize, rDebugSize] at built
  obtain ⟨_, ⟨_, rfl⟩, _, ⟨mapFits, rfl⟩, _, ⟨brkFits, rfl⟩, _, ⟨_, rfl⟩, _,
    ⟨ldbaseFits, rfl⟩, continued⟩ := built
  obtain ⟨back, nodes, blobValue, linked, contents⟩ :=
    pushLinkMaps_linked wordSize (.first _) zeroFree continued
  have header : [] ++
      leBytes architecture.longSize dso.version.toUInt64.toNat ++
      leBytes architecture.longSize
        (if dso.linkMap.isEmpty = true then 0 else
          linkMapAddr + UInt64.ofNat (5 * architecture.longSize)).toNat ++
      leBytes architecture.longSize dso.brk.toNat ++
      leBytes architecture.longSize (0 : UInt64).toNat ++
      leBytes architecture.longSize dso.ldbase.toNat =
        encodeWords architecture.longSize [dso.version.toNat,
          if dso.linkMap.isEmpty then 0
          else linkMapAddr.toNat + 5 * architecture.longSize,
          dso.brk.toNat, 0, dso.ldbase.toNat] := by
    rw [mapValue]
    simp
  rw [mapValue] at mapFits
  rw [header] at blobValue linked
  rw [length_encodeWords] at linked
  refine ⟨_, nodes, ?_, linked, contents⟩
  rw [blobValue]
  exact readRDebug_append wordSize back dso.version.toNat_lt mapFits brkFits
    ldbaseFits

/-- A debugger that has the blob at its address reads the captured `r_debug`
values, and following `l_next` from `r_map` it visits exactly one record per
entry, in order, with the content of the entry and a link back to the record
before. -/
theorem buildLinkMapBlob_walk
    (architecture : Architecture)
    (dso : DsoDebug)
    (signatures : Signatures)
    (blob : List UInt8)
    (zeroFree : ∀ entry ∈ dso.linkMap,
      0 ∉ asBytes (entry.nameFor signatures))
    (succeeded : buildLinkMapBlob architecture dso signatures = .ok blob) :
    ∃ (map : Nat) (nodes : List (Node LinkMapContent)),
      readRDebug architecture.longSize blob =
        some ⟨dso.version.toNat, map, dso.brk.toNat, 0, dso.ldbase.toNat⟩ ∧
      (dso.linkMap = [] → map = 0) ∧
      (∀ fuel, dso.linkMap.length ≤ fuel →
        follow (readLinkMap architecture.longSize blob) fuel map =
          some nodes) ∧
      nodes.map Node.content = dso.linkMap.map (·.content signatures) ∧
      nodes.map Node.previous =
        (0 :: nodes.map Node.address).take nodes.length := by
  obtain ⟨map, nodes, debug, linked, contents⟩ :=
    linked_of_buildLinkMapBlob zeroFree succeeded
  have visited := congrArg List.length contents
  rw [List.length_map, List.length_map] at visited
  refine ⟨map, nodes, debug, ?_, ?_, contents, linked.previous_eq⟩
  · intro empty
    rw [empty, List.length_nil, List.length_eq_zero_iff] at visited
    rw [visited] at linked
    cases linked
    rfl
  · intro fuel enough
    exact linked.follow_eq fuel (by omega)

/-- Two shared objects, one of them named by a signature, make a blob to which
the result applies. -/
theorem buildLinkMapBlob_walk_sample :
    ∃ (blob : List UInt8) (map : Nat) (nodes : List (Node LinkMapContent)),
      let signatures : Signatures := (∅ : Signatures).insert 0x5000 "libx.so"
      let dso : DsoDebug := ⟨1, 0x7000, 0x6000, 0x4000,
        [⟨0x4000, 0x4100, "/bin/app"⟩, ⟨0x5000, 0x5100, "/lib/x"⟩], []⟩
      buildLinkMapBlob .arm dso signatures = .ok blob ∧
        readRDebug 4 blob = some ⟨1, map, 0x7000, 0, 0x6000⟩ ∧
        (∀ fuel, 2 ≤ fuel → follow (readLinkMap 4 blob) fuel map = some nodes) ∧
        nodes.map Node.content = dso.linkMap.map (·.content signatures) ∧
        nodes.map Node.previous =
          (0 :: nodes.map Node.address).take nodes.length := by
  let signatures : Signatures := (∅ : Signatures).insert 0x5000 "libx.so"
  let dso : DsoDebug := ⟨1, 0x7000, 0x6000, 0x4000,
    [⟨0x4000, 0x4100, "/bin/app"⟩, ⟨0x5000, 0x5100, "/lib/x"⟩], []⟩
  obtain ⟨blob, succeeded⟩ :
      ∃ blob, buildLinkMapBlob .arm dso signatures = .ok blob :=
    exists_ok_of_isOk (by decide +kernel)
  obtain ⟨map, nodes, debug, _, walk, contents, previous⟩ :=
    buildLinkMapBlob_walk .arm dso signatures blob (by decide +kernel) succeeded
  exact ⟨blob, map, nodes, succeeded, debug, walk, contents, previous⟩

end Md2Core
