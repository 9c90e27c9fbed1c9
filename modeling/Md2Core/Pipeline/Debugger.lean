import Md2Core.Augment.DtDebug
import Md2Core.Pipeline.Memory

/-!
# A debugger on the core image

A debugger learns the loaded modules from the memory of the core alone: it
searches `_DYNAMIC` for `DT_DEBUG`, reads `r_debug` at the address it finds there
and follows the link map from `r_map`. The link map, the patched `_DYNAMIC` block
and the load segments of the image fit together, so that this walk finds the
entries that the conversion recorded.
-/

namespace Md2Core

open Foundation

/-! ## The walk -/

/-- Read `r_debug` from memory. -/
def readRDebugIn (memory : Memory) (word address : Nat) : Option RDebug := do
  let version ← memory.readWord address 4
  let map ← memory.readWord (address + word) word
  let brk ← memory.readWord (address + 2 * word) word
  let state ← memory.readWord (address + 3 * word) 4
  let ldbase ← memory.readWord (address + 4 * word) word
  return ⟨version, map, brk, state, ldbase⟩

/-- Read a `link_map` record from memory, with a name of bounded length. -/
def readLinkMapIn (memory : Memory) (word limit address : Nat) :
    Option (Node LinkMapContent) := do
  let addr ← memory.readWord address word
  let nameAddress ← memory.readWord (address + word) word
  let ld ← memory.readWord (address + 2 * word) word
  let next ← memory.readWord (address + 3 * word) word
  let previous ← memory.readWord (address + 4 * word) word
  let name ← memory.readString limit nameAddress
  return ⟨address, next, previous, ⟨addr, name, ld⟩⟩

/-- List the modules of a process from its memory, given the address of its
`_DYNAMIC`. The limit bounds the entries, the records and the names. -/
def listModules (memory : Memory) (word dynamic limit : Nat) :
    Option (RDebug × List (Node LinkMapContent)) := do
  let address ← memory.findTagged word dtDebug.toNat dtNull.toNat limit dynamic
  let debug ← readRDebugIn memory word address
  let nodes ← follow (readLinkMapIn memory word limit) limit debug.map
  return (debug, nodes)

/-! ## Reading the blob in memory -/

section Blob

variable
  {memory : Memory}
  {word limit : Nat}
  {blob : List UInt8}

/-- Where the blob lies in memory, `r_debug` is read from memory. -/
theorem readRDebugIn_of_holds
    {debug : RDebug}
    (holds : memory.Holds linkMapAddr.toNat blob)
    (read : readRDebug word blob = some debug) :
    readRDebugIn memory word linkMapAddr.toNat = some debug := by
  simp only [readRDebug, Option.bind_eq_bind, Option.bind_eq_some_iff] at read
  obtain ⟨version, versionRead, map, mapRead, brk, brkRead, state, stateRead,
    ldbase, ldbaseRead, value⟩ := read
  simp only [readRDebugIn, holds.readWord_eq versionRead,
    holds.readWord_eq mapRead, holds.readWord_eq brkRead,
    holds.readWord_eq stateRead, holds.readWord_eq ldbaseRead,
    Option.bind_eq_bind, Option.bind_some]
  exact value

/-- Where the blob lies in memory, its records are read from memory. -/
theorem readLinkMapIn_of_holds
    (holds : memory.Holds linkMapAddr.toNat blob)
    (enough : blob.length ≤ limit)
    (address : Nat)
    (node : Node LinkMapContent)
    (read : readLinkMap word blob address = some node) :
    readLinkMapIn memory word limit address = some node := by
  simp only [readLinkMap, Option.bind_eq_bind, Option.bind_eq_some_iff] at read
  obtain ⟨addr, addrRead, nameAddress, nameAddressRead, ld, ldRead, next,
    nextRead, previous, previousRead, name, nameRead, value⟩ := read
  simp only [readLinkMapIn, holds.readWord_eq addrRead,
    holds.readWord_eq nameAddressRead, holds.readWord_eq ldRead,
    holds.readWord_eq nextRead, holds.readWord_eq previousRead,
    holds.readString_eq nameRead enough, Option.bind_eq_bind, Option.bind_some]
  exact value

end Blob

/-- Patched `_DYNAMIC` data has the address of the blob behind its first
`DT_DEBUG`. -/
theorem firstTagged_of_patchDtDebug
    {architecture : Architecture}
    {dynamicData patched : List UInt8}
    {index : Nat}
    (debug : DebugEntryAt architecture dynamicData index)
    (succeeded : patchDtDebug architecture dynamicData linkMapAddr =
      .ok patched) :
    FirstTagged architecture.longSize patched dtDebug.toNat dtNull.toNat index ∧
      pairAt architecture.longSize patched index =
        some (dtDebug.toNat, linkMapAddr.toNat) := by
  have fits : linkMapAddr.toNat < 256 ^ architecture.longSize := by
    cases architecture <;> decide
  rcases @patchDtDebug_eq_ok architecture dynamicData linkMapAddr fits with
    ⟨found, foundDebug, replaced⟩ | ⟨none, _⟩
  · obtain rfl := debug.unique foundDebug
    rw [succeeded, Except.ok.injEq] at replaced
    rw [replaced]
    exact debug.splice_value fits
  · exact absurd debug (none index)

/-- A memory that holds the blob at its address and the patched `_DYNAMIC` block
gives a debugger the recorded entries, given enough steps. -/
theorem listModules_of_holds
    {memory : Memory}
    {architecture : Architecture}
    {dso : DsoDebug}
    {signatures : Signatures}
    {blob patched : List UInt8}
    {index : Nat}
    (zeroFree : ∀ entry ∈ dso.linkMap,
      0 ∉ asBytes (entry.nameFor signatures))
    (built : buildLinkMapBlob architecture dso signatures = .ok blob)
    (replaced : patchDtDebug architecture dso.dynamicData linkMapAddr =
      .ok patched)
    (debug : DebugEntryAt architecture dso.dynamicData index)
    (holdsBlob : memory.Holds linkMapAddr.toNat blob)
    (holdsDynamic : memory.Holds dso.dynamic.toNat patched) :
    ∃ map nodes enough, nodes.map Node.content =
        dso.linkMap.map (·.content signatures) ∧
      ∀ limit, enough ≤ limit →
        listModules memory architecture.longSize dso.dynamic.toNat limit =
          some (⟨dso.version.toNat, map, dso.brk.toNat, 0, dso.ldbase.toNat⟩,
            nodes) := by
  obtain ⟨map, nodes, rDebug, linked, contents⟩ :=
    linked_of_buildLinkMapBlob zeroFree built
  obtain ⟨first, value⟩ := firstTagged_of_patchDtDebug debug replaced
  refine ⟨map, nodes, index + 1 + blob.length + nodes.length, contents, ?_⟩
  intro limit enough
  have found := holdsDynamic.findTagged_eq first value
    (show index < limit by omega)
  have walked := (linked.mono (readLinkMapIn_of_holds holdsBlob
    (show blob.length ≤ limit by omega))).follow_eq limit (by omega)
  simp only [listModules, found, readRDebugIn_of_holds holdsBlob rDebug, walked,
    Option.bind_eq_bind, Option.bind_some]
  rfl

/-! ## The captures of the dynamic linker -/

/-- With a `_DYNAMIC` block at a known address the pass captures the blob and the
patched block. -/
theorem exists_dsoCaptures
    {process : CrashedProcess}
    {captures : List Injection}
    (captured : process.captures = .ok captures)
    (data : process.dsoDebug.dynamicData ≠ [])
    (located : process.dsoDebug.dynamic ≠ 0) :
    ∃ blob patched,
      buildLinkMapBlob process.architecture process.dsoDebug
        process.signatures = .ok blob ∧
      patchDtDebug process.architecture process.dsoDebug.dynamicData
        linkMapAddr = .ok patched ∧
      captures = process.stackCaptures ++
        [⟨blob, linkMapAddr⟩, ⟨patched, process.dsoDebug.dynamic⟩] := by
  have filled : process.dsoDebug.dynamicData.isEmpty = false := by
    rw [List.isEmpty_eq_false_iff]
    exact data
  unfold CrashedProcess.captures dsoCaptures at captured
  simp only [filled, Bool.not_false, Bool.or_true, if_true, ne_eq, located,
    not_false_eq_true, decide_true, Bool.and_self, bind_eq_ok,
    pure_eq_ok] at captured
  obtain ⟨_, ⟨blob, built, patched, replaced, rfl⟩, rfl⟩ := captured
  exact ⟨blob, patched, built, replaced, rfl⟩

/-- A process whose link map a debugger can find: its `_DYNAMIC` block is
captured at a known address and has a `DT_DEBUG`, and the names have no zero
bytes. -/
structure CrashedProcess.Debuggable (process : CrashedProcess) : Prop where
  located : process.dsoDebug.dynamic ≠ 0
  debug : ∃ index,
    DebugEntryAt process.architecture process.dsoDebug.dynamicData index
  zeroFree : ∀ entry ∈ process.dsoDebug.linkMap,
    0 ∉ asBytes (entry.nameFor process.signatures)

/-- The blobs of the dynamic linker share no page with another blob. -/
def LinkerIsolated (process : CrashedProcess) (captures : List Injection) :
    Prop :=
  ∀ capture ∈ captures,
    capture.address = linkMapAddr ∨
      capture.address = process.dsoDebug.dynamic → Isolated captures capture

theorem OnDisjointPages.linkerIsolated
    {captures : List Injection}
    (apart : OnDisjointPages captures)
    (process : CrashedProcess) :
    LinkerIsolated process captures :=
  fun _ member _ => apart.isolated member

/-- The memory of the image leads a debugger to the recorded entries. -/
theorem Augments.listModules_imageMemory
    {process augmented : CrashedProcess}
    {captures : List Injection}
    {image : List UInt8}
    (augments : Augments process captures augmented)
    (captured : process.captures = .ok captures)
    (dataless : process.mappings.Dataless)
    (written : writeCore augmented = .ok image)
    (debuggable : process.Debuggable)
    (isolated : LinkerIsolated process captures) :
    ∃ map nodes enough, nodes.map Node.content =
        process.dsoDebug.linkMap.map (·.content process.signatures) ∧
      ∀ limit, enough ≤ limit →
        listModules (imageMemory image) process.architecture.longSize
            process.dsoDebug.dynamic.toNat limit =
          some (⟨process.dsoDebug.version.toNat, map,
            process.dsoDebug.brk.toNat, 0, process.dsoDebug.ldbase.toNat⟩,
            nodes) := by
  obtain ⟨index, debug⟩ := debuggable.debug
  have data : process.dsoDebug.dynamicData ≠ [] := by
    obtain ⟨⟨_, entry⟩, _⟩ := debug
    have inside := (pairAt_eq_some.mp entry).1
    have wordSize := process.architecture.longSize_eq_four_or_eight
    rw [← List.length_pos_iff]
    omega
  obtain ⟨blob, patched, built, replaced, rfl⟩ :=
    exists_dsoCaptures captured data debuggable.located
  have holds : ∀ capture ∈ [⟨blob, linkMapAddr⟩,
      (⟨patched, process.dsoDebug.dynamic⟩ : Injection)],
      (imageMemory image).Holds capture.address.toNat capture.data := by
    intro capture member
    have inCaptures : capture ∈ process.stackCaptures ++
        [⟨blob, linkMapAddr⟩, ⟨patched, process.dsoDebug.dynamic⟩] :=
      List.mem_append_right _ member
    apply augments.holds_of_isolated dataless written inCaptures
    apply isolated capture inCaptures
    rcases List.mem_pair.mp member with rfl | rfl
    · exact Or.inl rfl
    · exact Or.inr rfl
  exact listModules_of_holds debuggable.zeroFree built replaced debug
    (holds ⟨blob, linkMapAddr⟩ (by simp))
    (holds ⟨patched, process.dsoDebug.dynamic⟩ (by simp))

end Md2Core
