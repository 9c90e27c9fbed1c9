import Md2Core.Main
import Md2Core.RustMinidump.DsoDebug

/-!
# The dynamic-linker stream through a conversion

A crashed process of 32 bits may have its dynamic-linker data in a stream of its own:
a header with the `_DYNAMIC` block behind it, an array of link-map records elsewhere in
the file, and their names elsewhere still. The data goes through the reader, into two
blobs and into the memory of the core, where a debugger finds it again.
-/

namespace Md2Core

open Foundation

theorem Minidump.Assembles.architecture_eq
    {dump : Minidump}
    {reader : MinidumpReader}
    {options : ConvertOptions}
    {auxv : List UInt8}
    {process : CrashedProcess}
    {architecture : Architecture}
    (assembles : dump.Assembles reader options auxv process)
    (isOf : dump.IsOf reader architecture) :
    process.architecture = architecture := by
  obtain ⟨systemInfo, given, made⟩ := assembles.system
  obtain ⟨other, otherGiven, otherMade⟩ := isOf
  rw [given, Except.ok.injEq] at otherGiven
  rw [otherGiven, otherMade, Except.ok.injEq] at made
  exact made.symm

/-- A debugger that starts at the recorded `_DYNAMIC` of a 32-bit process finds in the
memory of the converted core what the dynamic-linker stream holds: the fields of its
`r_debug`, and the entries of the link map in order with their addresses and names. -/
theorem run_listModules_of_stream
    (reader : MinidumpReader)
    (files : FileSystem)
    (dump : Minidump)
    (fullFile : List UInt8)
    (options : ConvertOptions)
    (image : List UInt8)
    (converted : run reader files dump fullFile options = .ok image)
    (documented : reader.format.Documented)
    (architecture : Architecture)
    (isOf : dump.IsOf reader architecture)
    (is32bit : architecture.is64bit = false)
    (dso : DsoDebug)
    (mapRva : UInt32)
    (entries : List (LinkMapEntry × UInt32))
    (stream : List UInt8)
    (streamed : dump.linuxDsoDebug = .ok (some stream))
    (holds : HoldsDso architecture dso mapRva entries stream fullFile)
    (valid : mapRva ≠ invalidMdRva)
    (located : dso.dynamic ≠ 0)
    (index : Nat)
    (debug : DebugEntryAt architecture dso.dynamicData index) :
    ∃ process captures,
      readProcessFromMinidump reader files dump fullFile options =
        .ok process ∧
      process.captures = .ok captures ∧
      ((∀ entry ∈ dso.linkMap, 0 ∉ asBytes (entry.nameFor process.signatures)) →
        LinkerIsolated process captures →
        ∃ map nodes enough, nodes.map Node.content =
            dso.linkMap.map (·.content process.signatures) ∧
          ∀ limit, enough ≤ limit →
            listModules (imageMemory image) architecture.longSize
                dso.dynamic.toNat limit =
              some (⟨dso.version.toNat, map, dso.brk.toNat, 0,
                dso.ldbase.toNat⟩, nodes)) := by
  obtain ⟨process, captures, augmented, _, read, assembles, completes, captured,
    augments, written⟩ := stages_of_run converted
  refine ⟨process, captures, read, captured, fun zeroFree isolated => ?_⟩
  have sameArchitecture := assembles.architecture_eq isOf
  obtain ⟨given, givenStream, completed⟩ := completes
  rw [streamed, Except.ok.injEq] at givenStream
  subst givenStream
  have parsed := completed.1
  rw [sameArchitecture, parseDsoDebug_of_is32bit documented holds is32bit] at parsed
  obtain ⟨invalid, _⟩ | ⟨_, _, parsed⟩ := parsed
  · exact absurd invalid valid
  have debuggable : process.Debuggable := by
    refine ⟨parsed ▸ located, ⟨index, ?_⟩, parsed ▸ zeroFree⟩
    rw [sameArchitecture, parsed]
    exact debug
  have walk := augments.listModules_imageMemory captured assembles.filesOnly.dataless
    written debuggable isolated
  rwa [sameArchitecture, parsed] at walk

/-- The sample minidump with the sample stream. -/
def sampleStreamed : Minidump :=
  { sampleDump with
    linuxDsoDebug := .ok (some (headerBytes .arm sampleDso 6 ++ sampleDso.dynamicData)) }

/-- The entry of the stream is listed. -/
theorem run_listModules_of_stream_sample :
    ∃ image map nodes limit,
      run sampleReader (fun _ => none) sampleStreamed (sampleFile .arm) plainOptions =
        .ok image ∧
      nodes.map Node.content = [⟨0x4000, asBytes "a", 0x5000⟩] ∧
      listModules (imageMemory image) 4 0x3000 limit =
        some (⟨1, map, 0x7000, 0, 0x8000⟩, nodes) := by
  obtain ⟨image, converted⟩ : ∃ image, run sampleReader (fun _ => none) sampleStreamed
      (sampleFile .arm) plainOptions = .ok image :=
    exists_ok_of_isOk (by decide +kernel)
  obtain ⟨process, captures, read, captured, walk⟩ :=
    run_listModules_of_stream _ _ _ _ _ _ converted consecutiveFields_documented .arm
      ⟨_, rfl, rfl⟩ rfl sampleDso 6 _ _ rfl (sampleDso_holds .arm) (by decide) (by decide)
      0 ⟨⟨0, by decide⟩, by simp⟩
  have evaluated : (readProcessFromMinidump sampleReader (fun _ => none) sampleStreamed
      (sampleFile .arm) plainOptions >>= fun process => process.captures.map fun captures =>
        (captureRanges captures, sampleDso.linkMap.map (·.content process.signatures))) =
      .ok ([(0x30010, 3), (4096, 48), (0x3000, 8)], [⟨0x4000, asBytes "a", 0x5000⟩]) := by
    decide +kernel
  have observed := eq_of_evaluated evaluated read captured
  obtain ⟨ranges, contents⟩ := Prod.mk.inj observed
  have zeroFree : ∀ entry ∈ sampleDso.linkMap,
      0 ∉ asBytes (entry.nameFor process.signatures) := by
    intro entry member
    have listed := List.mem_map_of_mem (f := (·.content process.signatures)) member
    rw [contents, List.mem_singleton] at listed
    change 0 ∉ (entry.content process.signatures).name
    rw [listed]
    decide +kernel
  obtain ⟨map, nodes, enough, visited, lists⟩ := walk zeroFree
    ((onDisjointPages_of_ranges ranges (by decide) (by decide)).linkerIsolated process)
  exact ⟨image, map, nodes, enough, converted, visited.trans contents,
    lists enough (Nat.le_refl enough)⟩

end Md2Core
