import Md2Core.RustMinidump.DiskAccess

/-!
# The synthesized link map

Without an `MD_LINUX_DSO_DEBUG` stream the dynamic-linker data is made from the
module list: one link-map entry per module in order, under the name that the
options choose, and the `_DYNAMIC` block of the executable from its file.
-/

namespace Md2Core

open Foundation

/-- What the link map is to say about a module: its base, its recorded name, and
the runtime address of its `_DYNAMIC` segment or zero. -/
def MinidumpModule.listed
    (files : FileSystem)
    (architecture : Architecture)
    (options : ConvertOptions)
    (modules : List MinidumpModule)
    (module : MinidumpModule) : LinkMapContent :=
  let name := module.listedName options modules
  let dynamic := elfDynamicRuntimeAddr files architecture name module.baseOfImage
  ⟨module.baseOfImage.toNat, asBytes name,
    (dynamic.run.toOption.join.getD 0).toNat⟩

section Synthesis

variable
  {files : FileSystem}
  {architecture : Architecture}
  {options : ConvertOptions}
  {modules : List MinidumpModule}

/-- The synthesized entry of a module says what is to be said about it. -/
theorem content_of_synthesizeLinkMapEntry
    {signatures : Signatures}
    {module : MinidumpModule}
    {entry : LinkMapEntry}
    (recorded : signatures[module.baseOfImage]? =
      some (module.listedName options modules))
    (made : synthesizeLinkMapEntry files architecture signatures module =
      .ok entry) :
    entry.content signatures = module.listed files architecture options modules := by
  simp only [synthesizeLinkMapEntry, recorded, Option.getD_some, bind_eq_ok,
    pure_eq_ok] at made
  obtain ⟨dynamic, found, rfl⟩ := made
  simp only [LinkMapEntry.content, LinkMapEntry.nameFor, recorded,
    Option.getD_some, MinidumpModule.listed, found, Except.toOption,
    Option.join_some]

/-- With an executable in the list there is dynamic-linker data. -/
theorem exists_of_synthesizeDsoDebug
    {signatures : Signatures}
    {executable : MinidumpModule}
    {result : Option DsoDebug}
    (chosen : mainExecutable modules = some executable)
    (synthesized : synthesizeDsoDebug files architecture modules signatures =
      .ok result) :
    ∃ dso, result = some dso := by
  unfold synthesizeDsoDebug at synthesized
  simp only [findDsoExecutable_eq, chosen, Option.map_some,
    MinidumpModule.baseAndName, bind_eq_ok, pure_eq_ok] at synthesized
  obtain ⟨_, _, _, _, value⟩ := synthesized
  exact ⟨_, value.symm⟩

/-- The synthesized data has an entry for every module, and the `_DYNAMIC` block
of the executable when its file has one. -/
theorem synthesizeDsoDebug_eq_some
    {signatures : Signatures}
    {dso : DsoDebug}
    (recorded : ∀ module ∈ modules, signatures[module.baseOfImage]? =
      some (module.listedName options modules))
    (synthesized : synthesizeDsoDebug files architecture modules signatures =
      .ok (some dso)) :
    ∃ executable found, mainExecutable modules = some executable ∧
      (readExecutableDynamic files architecture executable.name
        executable.baseOfImage).run = .ok found ∧
      (dso.dynamicData, dso.dynamic, dso.ldbase) =
        found.getD ([], 0, executable.baseOfImage) ∧
      dso.version = 1 ∧ dso.brk = 0 ∧
      dso.linkMap.map (·.content signatures) =
        modules.map (·.listed files architecture options modules) := by
  unfold synthesizeDsoDebug at synthesized
  rw [findDsoExecutable_eq] at synthesized
  cases chosen : mainExecutable modules with
  | none =>
      rw [chosen] at synthesized
      exact absurd (pure_eq_ok.mp synthesized) (by simp)
  | some executable =>
      simp only [chosen, Option.map_some, MinidumpModule.baseAndName, bind_eq_ok,
        pure_eq_ok, Option.some.injEq] at synthesized
      obtain ⟨found, read, linkMap, entries, rfl⟩ := synthesized
      refine ⟨executable, found, rfl, read, rfl, rfl, rfl, ?_⟩
      apply map_of_mapM_eq_ok _ entries
      intro module member entry made
      exact content_of_synthesizeLinkMapEntry (recorded module member) made

end Synthesis

end Md2Core
