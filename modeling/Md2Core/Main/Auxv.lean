import Md2Core.Main
import Md2Core.RustMinidump.AuxvStream
import Md2Core.RustMinidump.Executable
import Md2Core.RustMinidump.LoadBias

/-!
# The auxiliary vector of a converted core

A debugger finds the executable through the auxiliary vector. In a converted core this
is the vector that the minidump has, or one that points to the program headers and the
entry point of a file of a module, and never the maps text that some minidumps have in
its place.
-/

namespace Md2Core

open Foundation

/-! ## The synthesized vector -/

section Synthesized

variable
  {architecture : Architecture}
  {bytes payload : List UInt8}
  {exeBase : UInt64}

/-- `AT_PHDR` and `AT_ENTRY`, and the end of the vector. -/
def pointerAuxv (atPhdr atEntry : Nat) : List AuxvEntry :=
  [⟨3, atPhdr⟩, ⟨9, atEntry⟩, ⟨0, 0⟩]

/-- A synthesized vector has the two pointers, and they fit their words. -/
theorem exists_pointers_of_syntheticAuxvOf
    (built : (syntheticAuxvOf architecture bytes exeBase).run =
      .ok (some payload)) :
    ∃ atPhdr atEntry, atPhdr < 256 ^ architecture.longSize ∧
      atEntry < 256 ^ architecture.longSize ∧
      payload = encodeAuxv architecture.longSize (pointerAuxv atPhdr atEntry) := by
  unfold syntheticAuxvOf at built
  simp only [attemptBind_eq_some, present_eq_some] at built
  obtain ⟨is64, classRead, _, _, _, _, _, _, _, _, _, _, atPhdr, _, atEntry, _,
    vector⟩ := built
  obtain ⟨_, _, rfl⟩ := readElfClass_eq_some.mp classRead
  unfold Architecture.longSize
  cases wide : architecture.is64bit with
  | true =>
      simp only [wide, if_true, attemptPure_eq_some] at vector
      exact ⟨atPhdr.toNat, atEntry.toNat, atPhdr.toNat_lt, atEntry.toNat_lt,
        vector.symm⟩
  | false =>
      simp only [wide, Bool.false_eq_true, if_false, attemptBind_eq_some,
        attemptPure_eq_some, present_eq_some] at vector
      obtain ⟨atPhdr32, _, atEntry32, _, rfl⟩ := vector
      exact ⟨atPhdr32.toNat, atEntry32.toNat, atPhdr32.toNat_lt, atEntry32.toNat_lt,
        rfl⟩

/-- The vector points to the program headers and the entry point of a file that is
loaded at a base. -/
def PointsInto
    (architecture : Architecture)
    (bytes : List UInt8)
    (base : Nat)
    (auxv : List UInt8) : Prop :=
  ∃ (table : HeaderTable) (entry loadBias phdrVaddr : Nat),
    table.DescribedIn bytes architecture.is64bit ∧
    readLe bytes 24 architecture.longSize = some entry ∧
    table.BiasAt bytes architecture.is64bit base loadBias ∧
    table.PhdrVaddr bytes architecture.is64bit phdrVaddr ∧
    auxv = encodeAuxv architecture.longSize
      (pointerAuxv (loadBias + phdrVaddr) (loadBias + entry))

theorem pointsInto_of_syntheticAuxvOf
    (built : (syntheticAuxvOf architecture bytes exeBase).run =
      .ok (some payload)) :
    PointsInto architecture bytes exeBase.toNat payload := by
  obtain ⟨atPhdr, atEntry, phdrFits, entryFits, rfl⟩ :=
    exists_pointers_of_syntheticAuxvOf built
  obtain ⟨table, entry, loadBias, phdrVaddr, described, entryRead, biased, phdr,
    phdrFound, entryFound⟩ := exists_of_syntheticAuxvOf built
  have small : 9 < 256 ^ architecture.longSize := by
    cases architecture <;> decide
  have phdrValue := @pairAt_encodeWords architecture.longSize 0 3 atPhdr
    [3, atPhdr, 9, atEntry, 0, 0] rfl rfl (by omega) phdrFits
  have entryValue := @pairAt_encodeWords architecture.longSize 1 9 atEntry
    [3, atPhdr, 9, atEntry, 0, 0] rfl rfl small entryFits
  rw [encodeAuxv] at phdrFound entryFound
  obtain ⟨_, rfl⟩ := Prod.mk.inj (Option.some.inj (phdrValue.symm.trans phdrFound))
  obtain ⟨_, rfl⟩ := Prod.mk.inj (Option.some.inj (entryValue.symm.trans entryFound))
  exact ⟨table, entry, loadBias, phdrVaddr, described, entryRead, biased, phdr, rfl⟩

/-- A vector of pointers is not maps text. -/
theorem PointsInto.notMaps
    {base : Nat}
    {auxv : List UInt8}
    (points : PointsInto architecture bytes base auxv) :
    looksLikeLinuxMaps auxv = false := by
  obtain ⟨_, _, _, _, _, _, _, _, rfl⟩ := points
  have wide : 4 ≤ architecture.longSize := by
    cases architecture <;> decide
  apply looksLikeLinuxMaps_encodeAuxv wide
  simp [SmallTypes, pointerAuxv]

end Synthesized

/-! ## The converted core -/

/-- The vector of the streams is not maps text. -/
theorem Minidump.notMaps_streamedAuxv (stream : Option (List UInt8)) :
    looksLikeLinuxMaps (Minidump.streamedAuxv stream) = false := by
  unfold Minidump.streamedAuxv
  cases stream with
  | none => rfl
  | some bytes =>
      rw [Option.filter_some]
      cases text : looksLikeLinuxMaps bytes with
      | true => rfl
      | false => exact text

/-- Where the auxiliary vector comes from: the streams, if they have one; else the
file of a module, if there is one and there is no dynamic-linker stream. -/
def Minidump.ExplainsAuxv
    (dump : Minidump)
    (files : FileSystem)
    (architecture : Architecture)
    (streamed auxv : List UInt8) : Prop :=
  auxv = streamed ∨
    streamed = [] ∧ dump.linuxDsoDebug = .ok none ∧
      ∃ base path bytes,
        findAuxvExecutable files (dump.modules.getD []) = some (base, path) ∧
        files.read path = some bytes ∧
        PointsInto architecture bytes base.toNat auxv

theorem Minidump.Completes.explainsAuxv
    {dump : Minidump}
    {reader : MinidumpReader}
    {files : FileSystem}
    {fullFile streamed : List UInt8}
    {process : CrashedProcess}
    (completes : dump.Completes reader files fullFile streamed process) :
    dump.ExplainsAuxv files process.architecture streamed process.auxv := by
  obtain ⟨stream, streamRead, sources⟩ := completes
  cases stream with
  | some bytes => exact Or.inl sources.2
  | none =>
      have rest := sources.2
      split at rest
      · next empty =>
        obtain ⟨vector, built, value⟩ := rest
        cases vector with
        | none => exact Or.inl value
        | some payload =>
            obtain ⟨⟨base, path⟩, found, continued⟩ := attemptBind_eq_some.mp built
            obtain ⟨bytes, contents, made⟩ := attemptBind_eq_some.mp continued
            right
            refine ⟨List.isEmpty_iff.mp empty, streamRead, base, path, bytes,
              present_eq_some.mp found, present_eq_some.mp contents, ?_⟩
            rw [value]
            exact pointsInto_of_syntheticAuxvOf made
      · exact Or.inl rest

theorem Minidump.ExplainsAuxv.notMaps
    {dump : Minidump}
    {files : FileSystem}
    {architecture : Architecture}
    {streamed auxv : List UInt8}
    (explains : dump.ExplainsAuxv files architecture streamed auxv)
    (vector : looksLikeLinuxMaps streamed = false) :
    looksLikeLinuxMaps auxv = false := by
  rcases explains with rfl | ⟨_, _, _, _, _, _, _, points⟩
  · exact vector
  · exact points.notMaps

/-- A minidump with an executable on the disk and no auxiliary vector. -/
def sampleExecutableDump : Minidump where
  systemInfo := .ok ⟨.x86_64, .linux⟩
  linuxStreams := {
    linuxMaps := none
    linuxAuxv := .ok none
    linuxCmdLine := .ok none }
  threads := none
  memory := none
  modules := some executableModules
  exception := none
  linuxDsoDebug := .ok none

end Md2Core
