import Md2Core.Augment.BlobSafety
import Md2Core.Augment.Sequence
import Md2Core.CoreWriter.NoteSafety
import Md2Core.Main
import Md2Core.RustMinidump.ReadSafety

/-!
# The conversion does not panic

The addresses and lengths that the augmentation and the writer compute with come from
the minidump. When the allocator grants the room for the link map, the mappings start
at page boundaries, the notes fit their length fields and the image is shorter than the
address space, a conversion ends in an image or in an error.
-/

namespace Md2Core

open Foundation

/-! ## The augmentation -/

/-- A built table whose mappings start at page boundaries. -/
structure MappingTable.StartsOnPages (mappings : MappingTable) : Prop where
  built : mappings.Built
  starts : ∀ (key : UInt64) (mapping : Mapping), mappings[key]? = some mapping →
    4096 ∣ key.toNat

section Pages

variable {before after : MappingTable} {injection : Injection}

/-- The mapping that contains an address starts at or below the page of it. -/
theorem MappingTable.StartsOnPages.startsBelowPage
    (pages : before.StartsOnPages)
    (fits : BufferFits defaultPageSize injection.data injection.address) :
    StartsBelowPage before injection := by
  refine ⟨fits, fun key mapping chosen => ?_⟩
  have found := found_of_containingEntry chosen
  have inside := (Mapping.contains_iff.mp (contains_of_containingEntry chosen)).1
  rw [pages.built.keyed key mapping found] at inside
  exact le_roundDown_of_dvd (pages.starts key mapping found) inside

/-- An injection keeps the starts of mappings at page boundaries. -/
theorem InjectionStep.startsOnPages
    (pages : before.StartsOnPages)
    (step : InjectionStep before injection after) :
    after.StartsOnPages := by
  have boundaryLe := pageStart_default_le injection.address
  have boundaryAligned : 4096 ∣ (pageStart defaultPageSize injection.address).toNat := by
    rw [toNat_pageStart_default]
    exact dvd_roundDown 4096 _
  cases step.injected with
  | split key existing chosen shiftable result =>
      have found := found_of_containingEntry chosen
      have inside := (Mapping.contains_iff.mp (contains_of_containingEntry chosen)).1
      rw [pages.built.keyed key existing found] at inside
      have startLe := le_roundDown_of_dvd (pages.starts key existing found) inside
      rw [← toNat_pageStart_default, ← pages.built.keyed key existing found] at startLe
      refine ⟨pages.built.split chosen boundaryLe startLe result, ?_⟩
      apply forall_entries_of_split pages.starts _ _ result
      · exact boundaryAligned
      · exact fun _ => pages.starts key existing found
  | synthetic endAddress uncovered endValue ordered result =>
      refine ⟨?_, forall_entries_of_insert pages.starts boundaryAligned result⟩
      exact @MappingTable.Built.insert before after
        (.synthetic (pageStart defaultPageSize injection.address) endAddress
          (injectedBytes defaultPageSize injection.data injection.address))
        pages.built ordered result

end Pages

/-- A process whose mappings start at page boundaries, and whose augmentation and
core stay in the address space. -/
structure CrashedProcess.Convertible (process : CrashedProcess) : Prop where
  starts : ∀ (key : UInt64) (mapping : Mapping),
    process.mappings[key]? = some mapping → 4096 ∣ key.toNat
  stacksFit : ∀ thread ∈ process.threads,
    BufferFits defaultPageSize thread.stack thread.stackAddress
  linkMapFits : process.dsoDebug.blobLength process.architecture process.signatures +
    2 ^ 16 < 2 ^ 63
  dynamicFits : BufferFits defaultPageSize process.dsoDebug.dynamicData
    process.dsoDebug.dynamic
  auxvFits : process.auxv.length < 2 ^ 32
  filesFit : ∀ augmented, augmentProcess process = .ok () augmented →
    ∀ payload, buildNtFilePayload augmented.architecture augmented.mappings =
      .ok payload → payload.length < 2 ^ 32
  room : ∀ augmented, augmentProcess process = .ok () augmented → HasRoom augmented

instance (pageSize : UInt64) (data : List UInt8) (address : UInt64) :
    Decidable (BufferFits pageSize data address) :=
  inferInstanceAs (Decidable (_ ∧ _))

instance (process : CrashedProcess) : Decidable (HasRoom process) :=
  decidableForallOk _

/-- Whether a process is convertible is decided by augmenting it. -/
instance (process : CrashedProcess) : Decidable process.Convertible :=
  decidable_of_iff
    ((∀ entry ∈ process.mappings.toList, 4096 ∣ entry.1.toNat) ∧
      (∀ thread ∈ process.threads,
        BufferFits defaultPageSize thread.stack thread.stackAddress) ∧
      process.dsoDebug.blobLength process.architecture process.signatures +
        2 ^ 16 < 2 ^ 63 ∧
      BufferFits defaultPageSize process.dsoDebug.dynamicData
        process.dsoDebug.dynamic ∧
      process.auxv.length < 2 ^ 32 ∧
      (∀ augmented, augmentProcess process = .ok () augmented →
        ∀ payload, buildNtFilePayload augmented.architecture augmented.mappings =
          .ok payload → payload.length < 2 ^ 32) ∧
      ∀ augmented, augmentProcess process = .ok () augmented → HasRoom augmented)
    ⟨fun ⟨starts, stacksFit, linkMapFits, dynamicFits, auxvFits, filesFit, room⟩ =>
      ⟨fun key mapping found => starts (key, mapping)
        (Std.ExtTreeMap.mem_toList_iff_getElem?_eq_some.mpr found),
        stacksFit, linkMapFits, dynamicFits, auxvFits, filesFit, room⟩,
    fun ⟨starts, stacksFit, linkMapFits, dynamicFits, auxvFits, filesFit, room⟩ =>
      ⟨fun entry member => starts entry.1 entry.2
        (Std.ExtTreeMap.mem_toList_iff_getElem?_eq_some.mp member),
        stacksFit, linkMapFits, dynamicFits, auxvFits, filesFit, room⟩⟩

section Augmentation

variable {process : CrashedProcess}

/-- The blobs of the pass fit their buffers, and a blob that is not computed is
reported by an error. -/
theorem CrashedProcess.Convertible.attempts
    (convertible : process.Convertible) :
    (∀ injection ∈ process.attempts.blobs,
      BufferFits defaultPageSize injection.data injection.address) ∧
    ∀ failure, process.attempts.failure = some failure → failure.IsTyped := by
  have stackBlobs : ∀ injection ∈ process.stackCaptures,
      BufferFits defaultPageSize injection.data injection.address := by
    intro injection member
    obtain ⟨thread, kept, rfl⟩ := List.mem_map.mp member
    exact convertible.stacksFit thread (List.mem_filter.mp kept).1
  have linkMapFits := convertible.linkMapFits
  have address : linkMapAddr.toNat = 4096 := rfl
  suffices dso : (∀ injection ∈ (dsoAttempts process.architecture process.dsoDebug
      process.signatures).blobs,
        BufferFits defaultPageSize injection.data injection.address) ∧
      ∀ failure, (dsoAttempts process.architecture process.dsoDebug
        process.signatures).failure = some failure → failure.IsTyped from
    ⟨List.forall_mem_append.mpr ⟨stackBlobs, dso.1⟩, dso.2⟩
  unfold dsoAttempts
  split
  · cases built : buildLinkMapBlob process.architecture process.dsoDebug
        process.signatures with
    | error failure =>
        have typed := noPanic_buildLinkMapBlob (by omega) failure built
        simpa using typed
    | ok blob =>
        have blobFits : BufferFits defaultPageSize blob linkMapAddr := by
          have length := length_buildLinkMapBlob built
          have below := roundUp_sub_lt (show 0 < 4096 by decide) (0 + blob.length)
          refine ⟨by decide, ?_⟩
          change roundUp 4096 (0 + blob.length) < 2 ^ 63
          omega
        dsimp only
        split
        · cases patched : patchDtDebug process.architecture
              process.dsoDebug.dynamicData linkMapAddr with
          | error failure =>
              have typed := noPanic_patchDtDebugFrom _ _ _ _ failure patched
              simpa using ⟨blobFits, typed⟩
          | ok dynData =>
              have dynamicFits : BufferFits defaultPageSize dynData
                  process.dsoDebug.dynamic := by
                unfold BufferFits
                rw [length_patchDtDebugFrom patched]
                exact convertible.dynamicFits
              simpa using ⟨blobFits, dynamicFits⟩
        · simpa using blobFits
  · simp

end Augmentation

/-! ## The whole conversion -/

/-- The augmentation of a convertible process does not panic. -/
theorem CrashedProcess.Convertible.augment
    {process : CrashedProcess}
    (convertible : process.Convertible)
    (built : process.mappings.Built) :
    match augmentProcess process with
    | .ok _ augmented => augmented.mappings.Built
    | .error failure _ => failure.IsTyped := by
  obtain ⟨blobsFit, computed⟩ := convertible.attempts
  have pages : process.mappings.StartsOnPages := ⟨built, convertible.starts⟩
  cases outcome : augmentProcess process with
  | ok value augmented =>
      obtain ⟨captures, _, mappings, runs, rfl⟩ := augmentProcess_ok outcome
      exact (runs.preserves (fun _ _ _ holds step => step.startsOnPages holds) pages).built
  | error failure left =>
      rcases augmentProcess_error outcome with ⟨uncomputed, _⟩ | stops
      · exact computed failure uncomputed
      · obtain ⟨front, rest, capture, between, parts, done, failed, _⟩ := stops
        obtain ⟨mappings, runs, rfl⟩ := done
        have reached := runs.preserves (fun _ _ _ holds step => step.startsOnPages holds)
          pages
        have fits := blobsFit capture
          (parts ▸ List.mem_append_right _ List.mem_cons_self)
        exact (reached.built.of_error (reached.startsBelowPage fits) failed).1

/-- Writing a core does not panic when its notes fit and it has room. -/
theorem noPanic_writeCore
    {process : CrashedProcess}
    (built : process.mappings.Built)
    (auxvFits : process.auxv.length < 2 ^ 32)
    (filesFit : ∀ payload,
      buildNtFilePayload process.architecture process.mappings = .ok payload →
        payload.length < 2 ^ 32)
    (room : HasRoom process) :
    NoPanic (writeCore process) := by
  intro failure failed
  cases notesOk : buildNoteSegment process with
  | error reason =>
      unfold writeCore at failed
      rw [notesOk] at failed
      cases failed
      exact noPanic_buildNoteSegment auxvFits filesFit _ notesOk
  | ok notes => exact writeCore_error_typed built notesOk (room notes notesOk) failed

/-- A conversion ends in an image or in an error, whatever the minidump and the files of
its modules contain, when the minidump is sound, the room for its link map is reserved
and the process that is read from it is convertible. -/
theorem run_noPanic
    (reader : MinidumpReader)
    (files : FileSystem)
    (dump : Minidump)
    (fullFile : List UInt8)
    (options : ConvertOptions)
    (bounded : reader.format.Bounded)
    (fileBound : fullFile.length < 2 ^ 63)
    (sound : dump.Sound)
    (reserves : dump.Reserves reader)
    (scannable : files.ScannableAt (dump.diskPaths options))
    (convertible : ∀ process,
      readProcessFromMinidump reader files dump fullFile options = .ok process →
        process.Convertible) :
    NoPanic (readProcessFromMinidump reader files dump fullFile options) ∧
      NoPanic (run reader files dump fullFile options) := by
  have reads := noPanic_readProcessFromMinidump bounded fileBound sound reserves
    scannable
  refine ⟨reads, reads.bind fun process read => ?_⟩
  have fits := convertible process read
  obtain ⟨_, assembles, _⟩ := readProcessFromMinidump_ok read
  have augmentation := fits.augment assembles.filesOnly.built
  cases outcome : augmentProcess process with
  | error failure left =>
      rw [outcome] at augmentation
      exact failsOnly_throw augmentation
  | ok value augmented =>
      rw [outcome] at augmentation
      obtain ⟨captures, _, mappings, _, rfl⟩ := augmentProcess_ok outcome
      exact noPanic_writeCore augmentation fits.auxvFits (fits.filesFit _ outcome)
        (fits.room _ outcome)

/-- The sample minidump is converted with an executable on the disk. -/
theorem run_noPanic_sample :
    NoPanic (readProcessFromMinidump sampleReader (sampleDisk "/bin/app")
        sampleDump [] plainOptions) ∧
      NoPanic (run sampleReader (sampleDisk "/bin/app") sampleDump []
        plainOptions) :=
  run_noPanic _ _ _ _ _ consecutiveFields_bounded (by decide) sampleDump_sound
    (sampleDump_reserves _) (sampleDisk_scannable _ _) (by decide +kernel)

end Md2Core
