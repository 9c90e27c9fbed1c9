import Md2Core.Augment.Process

/-!
# Computing the blobs of the dynamic linker does not panic

The records of the link map are placed by adding lengths to a fixed address, and the
link back to a record is found by subtracting them again. No sum overflows when the
blob ends in the address space, and no difference underflows. The blob is as long as
its records and names.
-/

namespace Md2Core

open Foundation

/-- The bytes of the `link_map` records and names of entries. -/
def linkMapLength
    (word : Nat)
    (signatures : Signatures)
    (entries : List LinkMapEntry) : Nat :=
  (entries.map fun entry => 5 * word + (entry.nameBlock signatures).length).sum

section LinkMap

variable {word : Nat} {signatures : Signatures}

theorem noPanic_pushWord (out : List UInt8) (value : UInt64) (word : Nat) :
    NoPanic (pushWord out value word) := by
  unfold pushWord
  split
  · exact failsOnly_pure _
  · exact (noPanic_okOr _ _).bind fun _ _ => failsOnly_pure _

theorem noPanic_filenamePaddedSize
    {entry : LinkMapEntry}
    (fits : (entry.nameBlock signatures).length < 2 ^ 64) :
    NoPanic (filenamePaddedSize (entry.nameFor signatures)) := by
  rw [LinkMapEntry.length_nameBlock] at fits
  exact noPanic_exactU64 fits

/-- The address of the record before is computed from the end of the data. -/
theorem noPanic_linkMapPrev
    (wordSize : word = 4 ∨ word = 8)
    {before : Option LinkMapEntry}
    {data : List UInt8}
    {previous : Nat}
    (linksBack : LinksBack word signatures data previous before)
    (room : linkMapAddr.toNat + data.length < 2 ^ 64) :
    NoPanic (linkMapPrev (5 * word) signatures data before) := by
  cases before with
  | none => exact failsOnly_pure 0
  | some entry =>
      have small : 5 * word < 2 ^ 64 := by omega
      rw [LinksBack] at linksBack
      unfold linkMapPrev linkMapRecordAddr
      apply FailsOnly.bind (noPanic_filenamePaddedSize (by omega))
      intro block blockOk
      have blockValue := filenamePaddedSize_eq_ok.mp blockOk
      rw [← LinkMapEntry.length_nameBlock] at blockValue
      apply FailsOnly.bind (noPanic_exactU64 room)
      intro tail tailOk
      have tailValue := exactU64_eq_ok.mp tailOk
      apply FailsOnly.bind (noPanic_subU64 (by omega))
      intro behind behindOk
      have behindValue := subU64_eq_ok.mp behindOk
      apply noPanic_subU64
      rw [UInt64.toNat_ofNat_of_lt' small]
      omega

/-- The address of the record behind fits when the records do. -/
theorem noPanic_linkMapNext
    {entry : LinkMapEntry}
    {data : List UInt8}
    (last : Bool)
    (room : linkMapAddr.toNat + data.length +
      (5 * word + (entry.nameBlock signatures).length) < 2 ^ 64) :
    NoPanic (linkMapNext (5 * word) data (entry.nameFor signatures) last) := by
  unfold linkMapNext
  cases last with
  | true => exact failsOnly_pure 0
  | false =>
      apply FailsOnly.bind (noPanic_filenamePaddedSize (by omega))
      intro block blockOk
      have blockValue := filenamePaddedSize_eq_ok.mp blockOk
      rw [← LinkMapEntry.length_nameBlock] at blockValue
      exact noPanic_exactU64 (by omega)

/-- The records are written without a panic when they end in the address space. -/
theorem noPanic_pushLinkMaps
    (wordSize : word = 4 ∨ word = 8)
    {before : Option LinkMapEntry}
    {entries : List LinkMapEntry}
    {data : List UInt8}
    {previous : Nat}
    (linksBack : LinksBack word signatures data previous before)
    (room : linkMapAddr.toNat + data.length +
      linkMapLength word signatures entries < 2 ^ 64) :
    NoPanic (pushLinkMaps word (5 * word) signatures before entries data) := by
  induction entries generalizing before data previous with
  | nil => exact failsOnly_pure data
  | cons entry rest inductionHypothesis =>
      rw [linkMapLength, List.map_cons, List.sum_cons, ← linkMapLength] at room
      unfold pushLinkMaps
      apply FailsOnly.bind (noPanic_exactU64 (by omega))
      intro nameOffset nameOk
      apply FailsOnly.bind (noPanic_linkMapPrev wordSize linksBack (by omega))
      intro prev prevOk
      apply FailsOnly.bind (noPanic_linkMapNext rest.isEmpty (by omega))
      intro next nextOk
      apply FailsOnly.bind (noPanic_pushWord _ _ _)
      intro _ addrOk
      apply FailsOnly.bind (noPanic_pushWord _ _ _)
      intro _ nameWordOk
      apply FailsOnly.bind (noPanic_pushWord _ _ _)
      intro _ ldOk
      apply FailsOnly.bind (noPanic_pushWord _ _ _)
      intro _ nextWordOk
      apply FailsOnly.bind (noPanic_pushWord _ _ _)
      intro written prevWordOk
      have lengthOf : ∀ {out result : List UInt8} {value : UInt64},
          pushWord out value word = .ok result →
            result.length = out.length + word := by
        intro out result value pushed
        rw [((pushWord_eq_ok wordSize).mp pushed).2, List.length_append,
          length_leBytes]
      have recordLength : written.length = data.length + 5 * word := by
        rw [lengthOf prevWordOk, lengthOf nextWordOk, lengthOf ldOk,
          lengthOf nameWordOk, lengthOf addrOk]
        omega
      have nameLength := entry.length_nameBlock signatures
      apply @inductionHypothesis _ _ (linkMapAddr.toNat + data.length)
      · simp only [LinksBack, List.length_append, List.length_replicate]
        omega
      · simp only [List.length_append, List.length_replicate]
        omega

/-- The records and names are as long as computed. -/
theorem length_pushLinkMaps
    (wordSize : word = 4 ∨ word = 8)
    {before : Option LinkMapEntry}
    {entries : List LinkMapEntry}
    {data blob : List UInt8}
    {previous : Nat}
    (linksBack : LinksBack word signatures data previous before)
    (succeeded : pushLinkMaps word (5 * word) signatures before entries data =
      .ok blob) :
    blob.length = data.length + linkMapLength word signatures entries := by
  induction entries generalizing before data previous with
  | nil =>
      obtain rfl := pure_eq_ok.mp succeeded
      rfl
  | cons entry rest inductionHypothesis =>
      obtain ⟨_, continued⟩ := pushLinkMaps_cons_ok wordSize linksBack succeeded
      rw [inductionHypothesis (.of_written entry data previous rest.isEmpty) continued,
        List.length_append, LinkMapEntry.length_written, linkMapLength, linkMapLength,
        List.map_cons, List.sum_cons]
      omega

end LinkMap

/-- The bytes of a link-map blob. -/
def DsoDebug.blobLength
    (architecture : Architecture)
    (dso : DsoDebug)
    (signatures : Signatures) : Nat :=
  5 * architecture.longSize +
    linkMapLength architecture.longSize signatures dso.linkMap

section Blob

variable {architecture : Architecture} {dso : DsoDebug} {signatures : Signatures}

theorem noPanic_buildLinkMapBlob
    (room : linkMapAddr.toNat + dso.blobLength architecture signatures < 2 ^ 64) :
    NoPanic (buildLinkMapBlob architecture dso signatures) := by
  have wordSize := architecture.longSize_eq_four_or_eight
  unfold buildLinkMapBlob
  apply FailsOnly.bind (noPanic_pushWord _ _ _)
  intro _ versionOk
  apply FailsOnly.bind (noPanic_pushWord _ _ _)
  intro _ mapOk
  apply FailsOnly.bind (noPanic_pushWord _ _ _)
  intro _ brkOk
  apply FailsOnly.bind (noPanic_pushWord _ _ _)
  intro _ stateOk
  apply FailsOnly.bind (noPanic_pushWord _ _ _)
  intro front ldbaseOk
  apply noPanic_pushLinkMaps wordSize (.first front)
  rw [pushWord_eq_ok wordSize] at versionOk mapOk brkOk stateOk ldbaseOk
  rw [ldbaseOk.2, stateOk.2, brkOk.2, mapOk.2, versionOk.2]
  simp only [List.length_append, List.length_nil, length_leBytes]
  unfold DsoDebug.blobLength at room
  omega

theorem length_buildLinkMapBlob
    {blob : List UInt8}
    (succeeded : buildLinkMapBlob architecture dso signatures = .ok blob) :
    blob.length = dso.blobLength architecture signatures := by
  have wordSize := architecture.longSize_eq_four_or_eight
  unfold buildLinkMapBlob at succeeded
  simp only [bind_eq_ok, pushWord_eq_ok wordSize] at succeeded
  obtain ⟨_, ⟨_, rfl⟩, _, ⟨_, rfl⟩, _, ⟨_, rfl⟩, _, ⟨_, rfl⟩, _, ⟨_, rfl⟩,
    continued⟩ := succeeded
  rw [length_pushLinkMaps wordSize (.first _) continued]
  simp only [List.length_append, List.length_nil, length_leBytes]
  unfold DsoDebug.blobLength
  omega

theorem noPanic_patchDtDebugFrom
    (linkMapAddress : UInt64)
    (fuel offset : Nat)
    (dynamicData : List UInt8) :
    NoPanic (patchDtDebugFrom architecture linkMapAddress fuel offset
      dynamicData) := by
  induction fuel generalizing offset with
  | zero => exact failsOnly_pure _
  | succ fuel inductionHypothesis =>
      unfold patchDtDebugFrom
      dsimp only
      generalize (if architecture.is64bit = true then 16 else 8) = entry
      split
      · split
        · apply FailsOnly.bind
          · unfold writeWord
            split
            · exact failsOnly_pure _
            · exact (noPanic_okOr _ _).bind fun _ _ => failsOnly_pure _
          · exact fun _ _ => failsOnly_pure _
        · split
          · exact failsOnly_pure _
          · exact inductionHypothesis _
      · exact failsOnly_pure _

end Blob

end Md2Core
