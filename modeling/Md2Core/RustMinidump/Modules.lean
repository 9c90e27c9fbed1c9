import Mathlib.Data.List.Pairwise
import Mathlib.Order.Interval.Set.Disjoint
import Md2Core.Foundation.Precedence
import Md2Core.Foundation.Regions
import Md2Core.Foundation.Text
import Md2Core.Augment.AddressMap

/-!
# The module list

`ingestModules` supplements the mapping table from the module list of a minidump
and records the name of every module. A module whose base is not the start of a
mapping gets a synthesized mapping. The test is on start addresses only; this
module decides exactly when the ranges of the table stay disjoint.
-/

namespace Md2Core

open Foundation

/-! ## Modules and their names -/

/-- A GUID as CodeView records store it. -/
structure Guid where
  data1 : UInt32
  data2 : UInt16
  data3 : UInt16
  data4 : Vector UInt8 8
  deriving DecidableEq

/-- The CodeView record of a module, with the contents of the kind in use. -/
inductive CodeView
  | pdb70 (signature : Guid)
  | other
  deriving DecidableEq

/-- A module as the minidump reader gives it. -/
structure MinidumpModule where
  baseOfImage : UInt64
  sizeOfImage : UInt32
  name : String
  codeviewInfo : Option CodeView
  deriving DecidableEq

/-- Options that choose the names of modules. -/
structure ConvertOptions where
  mangleSonames : Bool
  soBaseDir : Option String

/-- `{:0width$X}`. -/
def upperHex (width value : Nat) : List Char :=
  (hexText width value).map Char.toUpper

/-- The GUID of a PDB 7.0 record in text form. -/
def guidFromModule (module : MinidumpModule) : Option String :=
  match module.codeviewInfo with
  | some (.pdb70 guid) =>
      let byte := fun index : Fin 8 => upperHex 2 guid.data4[index].toNat
      some (String.ofList (upperHex 8 guid.data1.toNat ++ '-' ::
        (upperHex 4 guid.data2.toNat ++ '-' ::
        (upperHex 4 guid.data3.toNat ++ '-' ::
        (byte 0 ++ byte 1 ++ '-' ::
        (byte 2 ++ byte 3 ++ byte 4 ++ byte 5 ++ byte 6 ++ byte 7))))))
  | _ => none

/-- The GUID that stands for no GUID. -/
def zeroGuid : String := "00000000-0000-0000-0000-000000000000"

/-- The name under which the link map lists a module. -/
def signatureFor (module : MinidumpModule) (options : ConvertOptions) : String :=
  let basename := basename module.name
  match options.soBaseDir with
  | some dir =>
      String.ofList (dir.toList.rdropWhile (· == '/')) ++ "/" ++ basename
  | none =>
      if !options.mangleSonames then
        module.name
      else
        let guid := (guidFromModule module).getD zeroGuid
        if guid = zeroGuid then
          module.name
        else
          "/var/lib/breakpad/" ++ guid ++ "-" ++ basename ++ basename

/-- Strip version segments from the end of a name, given its segments between
dots from the last to the first: `so` in front of them marks a library. -/
def stripVersions : List (List UInt8) → Bool
  | [] | [_] => false
  | suffix :: next :: rest =>
      if suffix = [0x73, 0x6f] then
        true
      else if suffix.all fun byte => 0x30 ≤ byte && byte ≤ 0x39 then
        stripVersions (next :: rest)
      else
        false

/-- Whether a basename looks like a dynamic library name. -/
def looksLikeSharedLib (basename : List UInt8) : Bool :=
  stripVersions (basename.splitOn 0x2e).reverse

/-- The file of a module is named like a library. -/
def MinidumpModule.isLibrary (module : MinidumpModule) : Bool :=
  looksLikeSharedLib (asBytes (basename module.name))

/-! ## Ingestion -/

/-- Synthesize the mapping of a module, unless its base is the start of a
mapping, and record its name. -/
def ingestModule
    (options : ConvertOptions)
    (process : CrashedProcess)
    (module : MinidumpModule) : Result CrashedProcess := do
  let base := module.baseOfImage
  let size := module.sizeOfImage.toUInt64
  let name := signatureFor module options
  let process ←
    if size > 0 then do
      let endAddress ← addU64 base size
      match Mapping.new base endAddress .readOnly with
      | .ok mapping =>
          pure (process.insertMappingIfAbsent (mapping.withFile name 0))
      | .error _ => pure process
    else
      pure process
  return { process with signatures := process.signatures.insert base name }

/-- Supplement the mappings of a process and record the module names. The first
module that is no library names the process if no command line does. -/
def ingestModules
    (process : CrashedProcess)
    (modules : List MinidumpModule)
    (options : ConvertOptions) : Result CrashedProcess := do
  let process ← modules.foldlM (ingestModule options) process
  match modules.find? fun module => !module.isLibrary with
  | some module =>
      return { process with
        processInfo := process.processInfo.applyModuleNameFallback module.name }
  | none => return process

/-! ## What ingestion does to the table -/

/-- The mapping that is synthesized for a module. -/
def MinidumpModule.mapping
    (options : ConvertOptions)
    (module : MinidumpModule) : Option Mapping :=
  if 0 < module.sizeOfImage.toNat then
    some ⟨module.baseOfImage,
      module.baseOfImage + module.sizeOfImage.toUInt64, 0, .readOnly,
      some (signatureFor module options), []⟩
  else
    none

/-- The range of a module does not overflow. -/
def MinidumpModule.Fits (module : MinidumpModule) : Prop :=
  module.baseOfImage.toNat + module.sizeOfImage.toNat < 2 ^ 64

/-- The end of a range that fits. -/
theorem MinidumpModule.toNat_end
    {module : MinidumpModule}
    (fits : module.Fits) :
    (module.baseOfImage + module.sizeOfImage.toUInt64).toNat =
      module.baseOfImage.toNat + module.sizeOfImage.toNat := by
  rw [UInt64.toNat_add, UInt32.toNat_toUInt64, Nat.mod_eq_of_lt fits]

/-- A mapping is synthesized exactly for a module that is not empty. -/
theorem MinidumpModule.mapping_eq_some_iff
    {options : ConvertOptions}
    {module : MinidumpModule}
    {mapping : Mapping} :
    module.mapping options = some mapping ↔
      0 < module.sizeOfImage.toNat ∧
        mapping = ⟨module.baseOfImage,
          module.baseOfImage + module.sizeOfImage.toUInt64, 0, .readOnly,
          some (signatureFor module options), []⟩ := by
  unfold MinidumpModule.mapping
  by_cases positive : 0 < module.sizeOfImage.toNat
  · rw [if_pos positive, Option.some.injEq, eq_comm]
    exact ⟨fun equal => ⟨positive, equal⟩, And.right⟩
  · rw [if_neg positive]
    exact ⟨fun impossible => absurd impossible.symm (Option.some_ne_none _),
      fun both => absurd both.1 positive⟩

/-- A synthesized mapping starts at the base of its module. -/
theorem MinidumpModule.startAddress_mapping
    {options : ConvertOptions}
    {module : MinidumpModule}
    {mapping : Mapping}
    (made : module.mapping options = some mapping) :
    mapping.startAddress = module.baseOfImage := by
  obtain ⟨_, rfl⟩ := mapping_eq_some_iff.mp made
  rfl

/-- The lookup function of a table. -/
def MappingTable.lookup (mappings : MappingTable) : UInt64 → Option Mapping :=
  fun key => mappings[key]?

theorem regions_eq_storedRegions (mappings : MappingTable) :
    mappings.regions = storedRegions Mapping.range mappings.lookup :=
  rfl

theorem lookup_insertMapping (process : CrashedProcess) (mapping : Mapping) :
    (process.insertMapping mapping).mappings.lookup =
      replacing Mapping.startAddress process.mappings.lookup mapping := by
  funext key
  unfold replacing
  simp only [MappingTable.lookup, CrashedProcess.insertMapping]
  rw [MappingTable.getElem?_insert]
  by_cases here : mapping.startAddress = key
  · rw [if_pos here, ← here, Function.update_self]
  · rw [if_neg here, Function.update_of_ne (Ne.symm here)]
    rfl

/-- A table with a mapping, unless its start is in use. -/
def MappingTable.keep (mappings : MappingTable) (mapping : Mapping) :
    MappingTable :=
  mappings.insertIfNew mapping.startAddress mapping

theorem MappingTable.lookup_keep (mappings : MappingTable) (mapping : Mapping) :
    (mappings.keep mapping).lookup =
      keeping Mapping.startAddress mappings.lookup mapping := by
  funext key
  exact MappingTable.getElem?_insertIfNew _ _ _ _

theorem MappingTable.lookup_foldl_keep
    (mappings : MappingTable)
    (list : List Mapping) :
    (list.foldl MappingTable.keep mappings).lookup =
      list.foldl (keeping Mapping.startAddress) mappings.lookup := by
  induction list generalizing mappings with
  | nil => rfl
  | cons mapping rest inductionHypothesis =>
      rw [List.foldl_cons, List.foldl_cons, inductionHypothesis, lookup_keep]

/-- The end of a range is computed exactly when the range fits. -/
theorem MinidumpModule.end_eq_ok
    {module : MinidumpModule}
    {endAddress : UInt64} :
    addU64 module.baseOfImage module.sizeOfImage.toUInt64 = .ok endAddress ↔
      module.Fits ∧
        endAddress = module.baseOfImage + module.sizeOfImage.toUInt64 := by
  rw [addU64_eq_ok, UInt32.toNat_toUInt64]
  constructor
  · intro value
    have bound := endAddress.toNat_lt
    have fits : module.Fits := by
      unfold Fits
      omega
    exact ⟨fits, UInt64.toNat_inj.mp (value.trans (toNat_end fits).symm)⟩
  · rintro ⟨fits, rfl⟩
    exact toNat_end fits

/-- Ingesting a module keeps existing entries. A module without a mapping has
size zero, and one with a mapping has a range that fits. -/
theorem ingestModule_eq_ok
    {options : ConvertOptions}
    {process next : CrashedProcess}
    {module : MinidumpModule} :
    ingestModule options process module = .ok next ↔
      (0 < module.sizeOfImage.toNat → module.Fits) ∧
        next = { process with
          mappings := (module.mapping options).toList.foldl
            MappingTable.keep process.mappings
          signatures := process.signatures.insert module.baseOfImage
            (signatureFor module options) } := by
  have sizePositive : module.sizeOfImage.toUInt64 > 0 ↔
      0 < module.sizeOfImage.toNat := by
    rw [gt_iff_lt, UInt64.lt_iff_toNat_lt, UInt32.toNat_toUInt64]
    rfl
  unfold ingestModule MinidumpModule.mapping
  by_cases positive : 0 < module.sizeOfImage.toNat
  · have made : module.Fits → Mapping.new module.baseOfImage
        (module.baseOfImage + module.sizeOfImage.toUInt64) .readOnly =
          .ok _ := fun fits =>
      Mapping.new_eq_ok.mpr ⟨by rw [MinidumpModule.toNat_end fits]; omega, rfl⟩
    rw [if_pos (sizePositive.mpr positive), if_pos positive]
    simp only [bind_eq_ok, MinidumpModule.end_eq_ok, positive, true_implies]
    constructor
    · rintro ⟨_, ⟨fits, rfl⟩, inserted⟩
      rw [made fits] at inserted
      rw [← pure_eq_ok.mp inserted]
      exact ⟨fits, rfl⟩
    · rintro ⟨fits, rfl⟩
      refine ⟨_, ⟨fits, rfl⟩, ?_⟩
      rw [made fits]
      rfl
  · rw [if_neg (fun size => positive (sizePositive.mp size)), if_neg positive]
    constructor
    · intro recorded
      exact ⟨fun contrary => absurd contrary positive,
        (pure_eq_ok.mp recorded).symm⟩
    · rintro ⟨_, rfl⟩
      rfl

/-- The mappings that are synthesized for a list of modules. -/
def moduleMappings
    (options : ConvertOptions)
    (modules : List MinidumpModule) : List Mapping :=
  modules.filterMap (MinidumpModule.mapping options)

theorem moduleMappings_cons
    (options : ConvertOptions)
    (module : MinidumpModule)
    (rest : List MinidumpModule) :
    moduleMappings options (module :: rest) =
      (module.mapping options).toList ++ moduleMappings options rest := by
  unfold moduleMappings
  cases mapping : module.mapping options with
  | none => rw [List.filterMap_cons_none mapping]; rfl
  | some made => rw [List.filterMap_cons_some mapping]; rfl

/-- Record the name of a module under its base. -/
def recordSignature
    (options : ConvertOptions)
    (signatures : Signatures)
    (module : MinidumpModule) : Signatures :=
  signatures.insert module.baseOfImage (signatureFor module options)

/-- Ingesting modules succeeds exactly when the ranges of those with a size fit,
and it keeps existing entries. -/
theorem foldlM_ingestModule_eq_ok
    {options : ConvertOptions}
    {process next : CrashedProcess}
    {modules : List MinidumpModule} :
    modules.foldlM (ingestModule options) process = .ok next ↔
      (∀ module ∈ modules, 0 < module.sizeOfImage.toNat → module.Fits) ∧
        next = { process with
          mappings := (moduleMappings options modules).foldl
            MappingTable.keep process.mappings
          signatures := modules.foldl (recordSignature options)
            process.signatures } := by
  induction modules generalizing process with
  | nil =>
      simp only [List.foldlM_nil, pure_eq_ok, List.not_mem_nil, false_implies,
        implies_true, true_and]
      exact eq_comm
  | cons module rest inductionHypothesis =>
      simp only [List.foldlM_cons, bind_eq_ok, ingestModule_eq_ok,
        List.forall_mem_cons]
      constructor
      · rintro ⟨_, ⟨fits, rfl⟩, others⟩
        obtain ⟨othersFit, rfl⟩ := inductionHypothesis.mp others
        refine ⟨⟨fits, othersFit⟩, ?_⟩
        simp only [moduleMappings_cons, List.foldl_append, List.foldl_cons]
        rfl
      · rintro ⟨⟨fits, othersFit⟩, rfl⟩
        refine ⟨_, ⟨fits, rfl⟩, inductionHypothesis.mpr ⟨othersFit, ?_⟩⟩
        simp only [moduleMappings_cons, List.foldl_append, List.foldl_cons]
        rfl

/-- What a successful ingestion leaves. -/
theorem ingestModules_eq_ok
    {options : ConvertOptions}
    {process final : CrashedProcess}
    {modules : List MinidumpModule} :
    ingestModules process modules options = .ok final ↔
      (∀ module ∈ modules, 0 < module.sizeOfImage.toNat → module.Fits) ∧
        final = { process with
          mappings := (moduleMappings options modules).foldl
            MappingTable.keep process.mappings
          signatures := modules.foldl (recordSignature options)
            process.signatures
          processInfo :=
            (modules.find? fun module => !module.isLibrary).elim
              process.processInfo fun module =>
                process.processInfo.applyModuleNameFallback module.name } := by
  unfold ingestModules
  simp only [bind_eq_ok, foldlM_ingestModule_eq_ok]
  cases modules.find? fun module => !module.isLibrary with
  | none =>
      simp only [pure_eq_ok, Option.elim_none]
      constructor
      · rintro ⟨_, ⟨fits, rfl⟩, rfl⟩
        exact ⟨fits, rfl⟩
      · rintro ⟨fits, rfl⟩
        exact ⟨_, ⟨fits, rfl⟩, rfl⟩
  | some module =>
      simp only [pure_eq_ok, Option.elim_some]
      constructor
      · rintro ⟨_, ⟨fits, rfl⟩, rfl⟩
        exact ⟨fits, rfl⟩
      · rintro ⟨fits, rfl⟩
        exact ⟨_, ⟨fits, rfl⟩, rfl⟩

theorem exists_ingestModules
    {modules : List MinidumpModule}
    (process : CrashedProcess)
    (options : ConvertOptions)
    (fits : ∀ module ∈ modules, module.Fits) :
    ∃ final, ingestModules process modules options = .ok final :=
  ⟨_, ingestModules_eq_ok.mpr ⟨fun module member _ => fits module member, rfl⟩⟩

/-- Every start address keeps its mapping, and a free one gets the mapping of
the first module there. -/
theorem ingestModules_lookup
    {options : ConvertOptions}
    {process final : CrashedProcess}
    {modules : List MinidumpModule}
    (ingested : ingestModules process modules options = .ok final)
    (key : UInt64) :
    final.mappings[key]? = (process.mappings[key]?).or
      (firstUnder Mapping.startAddress (moduleMappings options modules) key) := by
  obtain ⟨_, rfl⟩ := ingestModules_eq_ok.mp ingested
  have looked := congrFun (MappingTable.lookup_foldl_keep process.mappings
    (moduleMappings options modules)) key
  rw [foldl_keeping] at looked
  exact looked

/-! ## When the ranges stay disjoint -/

/-- The addresses of a module. -/
def MinidumpModule.range (module : MinidumpModule) : Set Nat :=
  Set.Ico module.baseOfImage.toNat
    (module.baseOfImage.toNat + module.sizeOfImage.toNat)

/-- The range of a synthesized mapping is the range of its module. -/
theorem MinidumpModule.range_mapping
    {options : ConvertOptions}
    {module : MinidumpModule}
    {mapping : Mapping}
    (fits : module.Fits)
    (made : module.mapping options = some mapping) :
    mapping.range = module.range := by
  obtain ⟨_, rfl⟩ := mapping_eq_some_iff.mp made
  unfold Mapping.range MinidumpModule.range
  rw [toNat_end fits]

/-- The ranges of a module list are pairwise disjoint. -/
def ModulesApart (modules : List MinidumpModule) : Prop :=
  modules.Pairwise fun first second => Disjoint first.range second.range

theorem ModulesApart.disjoint
    {modules : List MinidumpModule}
    (apart : ModulesApart modules)
    {first second : MinidumpModule}
    (firstMember : first ∈ modules)
    (secondMember : second ∈ modules)
    (different : first ≠ second) :
    Disjoint first.range second.range := by
  have symmetric : Std.Symm fun first second : MinidumpModule =>
      Disjoint first.range second.range := ⟨fun _ _ disjoint => disjoint.symm⟩
  exact List.Pairwise.forall apart firstMember secondMember different

/-- A module of a disjoint list that is not empty shares its base with no other
such module. -/
theorem ModulesApart.eq_of_base_eq
    {modules : List MinidumpModule}
    (apart : ModulesApart modules)
    {first second : MinidumpModule}
    (firstMember : first ∈ modules)
    (secondMember : second ∈ modules)
    (firstSize : 0 < first.sizeOfImage.toNat)
    (secondSize : 0 < second.sizeOfImage.toNat)
    (sameBase : first.baseOfImage = second.baseOfImage) :
    first = second := by
  by_contra different
  have disjoint := apart.disjoint firstMember secondMember different
  have shared : first.baseOfImage.toNat ∈ second.range := by
    rw [sameBase]
    exact ⟨le_refl _, by omega⟩
  exact Set.disjoint_left.mp disjoint ⟨le_refl _, by omega⟩ shared

/-- A synthesized mapping comes from a module. -/
theorem exists_module_of_firstUnder
    {options : ConvertOptions}
    {modules : List MinidumpModule}
    {key : UInt64}
    {mapping : Mapping}
    (found : firstUnder Mapping.startAddress (moduleMappings options modules)
      key = some mapping) :
    mapping.startAddress = key ∧
      ∃ module ∈ modules, module.mapping options = some mapping := by
  obtain ⟨member, start⟩ := mem_of_firstUnder _ found
  exact ⟨start, List.mem_filterMap.mp member⟩

section Separation

variable {options : ConvertOptions} {modules : List MinidumpModule}

/-- The mappings that are synthesized for disjoint modules are disjoint. -/
theorem separate_moduleMappings
    (apart : ModulesApart modules)
    (fits : ∀ module ∈ modules, module.Fits) :
    Separate (storedRegions Mapping.range
      (firstUnder Mapping.startAddress (moduleMappings options modules))) := by
  rw [separate_storedRegions_iff]
  intro firstKey secondKey first second different firstFound secondFound
  obtain ⟨firstStart, firstModule, firstMember, firstMade⟩ :=
    exists_module_of_firstUnder firstFound
  obtain ⟨secondStart, secondModule, secondMember, secondMade⟩ :=
    exists_module_of_firstUnder secondFound
  rw [MinidumpModule.range_mapping (fits firstModule firstMember) firstMade,
    MinidumpModule.range_mapping (fits secondModule secondMember) secondMade]
  apply apart.disjoint firstMember secondMember
  rintro rfl
  apply different
  rw [← firstStart, ← secondStart, MinidumpModule.startAddress_mapping firstMade,
    MinidumpModule.startAddress_mapping secondMade]

/-- The mapping under the base of a module that is not empty is its own. -/
theorem firstUnder_moduleMappings
    (apart : ModulesApart modules)
    (fits : ∀ module ∈ modules, module.Fits)
    {module : MinidumpModule}
    (member : module ∈ modules)
    (positive : 0 < module.sizeOfImage.toNat) :
    ∃ mapping, mapping.range = module.range ∧
      firstUnder Mapping.startAddress (moduleMappings options modules)
        module.baseOfImage = some mapping := by
  have own : module.mapping options = some _ :=
    MinidumpModule.mapping_eq_some_iff.mpr ⟨positive, rfl⟩
  cases found : firstUnder Mapping.startAddress
      (moduleMappings options modules) module.baseOfImage with
  | none =>
      have absent := List.find?_eq_none.mp found _
        (List.mem_filterMap.mpr ⟨module, member, own⟩)
      exact absurd (decide_eq_true (MinidumpModule.startAddress_mapping own))
        absent
  | some mapping =>
      obtain ⟨start, other, otherMember, otherMade⟩ :=
        exists_module_of_firstUnder found
      have otherSize := (MinidumpModule.mapping_eq_some_iff.mp otherMade).1
      have otherBase := MinidumpModule.startAddress_mapping otherMade
      have same : other = module := apart.eq_of_base_eq otherMember member
        otherSize positive (otherBase.symm.trans start)
      refine ⟨mapping, ?_, rfl⟩
      rw [MinidumpModule.range_mapping (fits other otherMember) otherMade, same]

/-- A table that is supplemented from disjoint modules stays disjoint exactly
when every module whose base is not the start of a mapping avoids all mappings
of the table. -/
theorem separate_ingested_iff
    {before after : MappingTable}
    (separate : Separate before.regions)
    (apart : ModulesApart modules)
    (fits : ∀ module ∈ modules, module.Fits)
    (looked : ∀ key : UInt64, after[key]? = (before[key]?).or
      (firstUnder Mapping.startAddress (moduleMappings options modules) key)) :
    Separate after.regions ↔
      ∀ module ∈ modules, before[module.baseOfImage]? = none →
        ∀ (key : UInt64) (mapping : Mapping), before[key]? = some mapping →
          Disjoint module.range mapping.range := by
  have lookupAfter : after.lookup = fun key =>
      (before.lookup key).or (firstUnder Mapping.startAddress
        (moduleMappings options modules) key) := by
    funext key
    exact looked key
  rw [regions_eq_storedRegions] at separate ⊢
  rw [lookupAfter,
    separate_or_iff separate (separate_moduleMappings apart fits)]
  constructor
  · intro avoids module member free key mapping found
    by_cases positive : 0 < module.sizeOfImage.toNat
    · obtain ⟨own, ownRange, ownFound⟩ :=
        firstUnder_moduleMappings apart fits member positive
      rw [← ownRange]
      exact avoids module.baseOfImage own free ownFound key mapping found
    · have empty : module.range = ∅ := by
        unfold MinidumpModule.range
        exact Set.Ico_eq_empty (by omega)
      rw [empty]
      exact Set.empty_disjoint _
  · intro avoids key fresh free found other mapping otherFound
    obtain ⟨start, module, member, made⟩ := exists_module_of_firstUnder found
    rw [MinidumpModule.range_mapping (fits module member) made]
    apply avoids module member _ other mapping otherFound
    rw [← MinidumpModule.startAddress_mapping made, start]
    exact free

/-- Ingesting disjoint modules changes no mapping. The ranges stay disjoint
exactly when every module whose base is not the start of a mapping avoids all
mappings of the table. -/
theorem ingestModules_separate_iff
    (process : CrashedProcess)
    (separate : Separate process.mappings.regions)
    (apart : ModulesApart modules)
    (fits : ∀ module ∈ modules, module.Fits) :
    ∃ final, ingestModules process modules options = .ok final ∧
      (((∀ (key : UInt64) (mapping : Mapping),
          process.mappings[key]? = some mapping →
            final.mappings[key]? = some mapping) ∧
          Separate final.mappings.regions) ↔
        ∀ module ∈ modules, process.mappings[module.baseOfImage]? = none →
          ∀ (key : UInt64) (mapping : Mapping),
            process.mappings[key]? = some mapping →
              Disjoint module.range mapping.range) := by
  obtain ⟨final, ingested⟩ := exists_ingestModules process options fits
  refine ⟨final, ingested, ?_⟩
  have looked := ingestModules_lookup ingested
  rw [separate_ingested_iff separate apart fits looked]
  constructor
  · rintro ⟨_, avoids⟩
    exact avoids
  · intro avoids
    refine ⟨fun key mapping found => ?_, avoids⟩
    rw [looked, found, Option.some_or]

end Separation

/-- A library with a base and a size. -/
def sampleModule (base : UInt64) (size : UInt32) : MinidumpModule where
  baseOfImage := base
  sizeOfImage := size
  name := "/lib/libc.so"
  codeviewInfo := none

/-- Options that keep the names of modules. -/
def plainOptions : ConvertOptions := ⟨false, none⟩

/-- A process with the mapping of one file. -/
def sampleMappedProcess : CrashedProcess :=
  { CrashedProcess.new .x86_64 with
    mappings := .single sampleFileMapping }

/-- A module beside the mapping of a file. -/
theorem ingestModules_separate_iff_sample :
    ∃ final, ingestModules sampleMappedProcess
        [sampleModule 0x1000 0x800, sampleModule 0x8000 0x1000] plainOptions =
          .ok final ∧
      (((∀ (key : UInt64) (mapping : Mapping),
          sampleMappedProcess.mappings[key]? = some mapping →
            final.mappings[key]? = some mapping) ∧
          Separate final.mappings.regions) ↔
        ∀ module ∈ [sampleModule 0x1000 0x800, sampleModule 0x8000 0x1000],
          sampleMappedProcess.mappings[module.baseOfImage]? = none →
            ∀ (key : UInt64) (mapping : Mapping),
              sampleMappedProcess.mappings[key]? = some mapping →
                Disjoint module.range mapping.range) := by
  apply ingestModules_separate_iff
  · exact (MappingTable.wellFormed_single (by decide)).disjoint
  · apply List.pairwise_pair.mpr
    exact Set.Ico_disjoint_Ico.mpr (by decide)
  · simp only [List.forall_mem_cons, MinidumpModule.Fits]
    exact ⟨by decide, by decide, fun _ member => absurd member List.not_mem_nil⟩

/-- A module inside the mapping of a file gets a mapping that overlaps it. -/
theorem exists_module_overlaps :
    ¬∀ (process : CrashedProcess) (modules : List MinidumpModule)
        (options : ConvertOptions) (final : CrashedProcess),
      (∀ (key : UInt64) (mapping : Mapping),
        process.mappings[key]? = some mapping → mapping.startAddress = key) →
      Separate process.mappings.regions →
      ModulesApart modules →
      (∀ module ∈ modules, module.Fits) →
      ingestModules process modules options = .ok final →
        (∀ (key : UInt64) (mapping : Mapping),
          process.mappings[key]? = some mapping →
            final.mappings[key]? = some mapping) ∧
          Separate final.mappings.regions := by
  intro always
  have wellFormed : sampleMappedProcess.mappings.WellFormed :=
    MappingTable.wellFormed_single (by decide)
  have fits : ∀ module ∈ [sampleModule 0x3000 0x1000], module.Fits := by
    rw [List.forall_mem_singleton]
    unfold MinidumpModule.Fits
    decide
  obtain ⟨final, ingested⟩ :=
    exists_ingestModules sampleMappedProcess plainOptions fits
  have apart : ModulesApart [sampleModule 0x3000 0x1000] :=
    List.pairwise_singleton _ _
  obtain ⟨_, separate⟩ := always sampleMappedProcess _ plainOptions final
    wellFormed.keyed wellFormed.disjoint apart fits ingested
  have avoids := (separate_ingested_iff wellFormed.disjoint apart fits
    (ingestModules_lookup ingested)).mp separate
  have mapped : sampleMappedProcess.mappings[(0x1000 : UInt64)]? =
      some sampleFileMapping := by
    unfold sampleMappedProcess
    rw [MappingTable.getElem?_single, if_pos (by decide)]
  have free : sampleMappedProcess.mappings[(0x3000 : UInt64)]? = none := by
    unfold sampleMappedProcess
    rw [MappingTable.getElem?_single, if_neg (by decide)]
  have disjoint := avoids _ List.mem_cons_self free _ _ mapped
  exact absurd (Set.Ico_disjoint_Ico.mp disjoint) (by decide)

end Md2Core
