import Md2Core.Augment.LinkMap
import Md2Core.Notes.FileRecords
import Md2Core.RustMinidump.Ingest

/-!
# Names of modules

A debugger reads the file name of a module in two places. The link map takes it
from the recorded signature of the base, `NT_FILE` from the mapping that starts
there. This module decides exactly when the two agree.
-/

namespace Md2Core

open Foundation

/-! ## What the table and the signatures say -/

/-- The signature of a base is the name of the last module there. -/
theorem getElem?_foldl_recordSignature
    (options : ConvertOptions)
    (modules : List MinidumpModule)
    (signatures : Signatures)
    (key : UInt64) :
    (modules.foldl (recordSignature options) signatures)[key]? =
      ((lastUnder MinidumpModule.baseOfImage modules key).map
        fun module => signatureFor module options).or signatures[key]? := by
  induction modules generalizing signatures with
  | nil => rfl
  | cons module rest inductionHypothesis =>
      rw [List.foldl_cons, inductionHypothesis, lastUnder_cons]
      unfold recordSignature
      rw [getElem?_insert_address]
      cases lastUnder MinidumpModule.baseOfImage rest key with
      | some later => rfl
      | none =>
          by_cases here : module.baseOfImage = key
          · rw [if_pos here, if_pos here]
            rfl
          · rw [if_neg here, if_neg here]
            rfl

/-- The name under which a module of a list is recorded: that of the last module
with its base. -/
def MinidumpModule.listedName
    (options : ConvertOptions)
    (modules : List MinidumpModule)
    (module : MinidumpModule) : String :=
  signatureFor ((lastUnder MinidumpModule.baseOfImage modules
    module.baseOfImage).getD module) options

/-- The recorded name of a listed module. -/
theorem signature_of_mem
    {options : ConvertOptions}
    {modules : List MinidumpModule}
    {module : MinidumpModule}
    (member : module ∈ modules)
    (signatures : Signatures) :
    (modules.foldl (recordSignature options) signatures)[module.baseOfImage]? =
      some (module.listedName options modules) := by
  rw [getElem?_foldl_recordSignature, MinidumpModule.listedName]
  cases last : lastUnder MinidumpModule.baseOfImage modules
      module.baseOfImage with
  | none =>
      obtain ⟨index, found⟩ := List.getElem?_of_mem member
      exact absurd rfl (ne_of_firstUnder_eq_none _
        ((lastUnder_eq_none_iff _ _ _).mp last) found)
  | some named => rfl

/-- A synthesized mapping has the name of its module. -/
theorem MinidumpModule.filename_mapping
    {options : ConvertOptions}
    {module : MinidumpModule}
    {mapping : Mapping}
    (made : module.mapping options = some mapping) :
    mapping.filename = some (signatureFor module options) := by
  obtain ⟨_, rfl⟩ := mapping_eq_some_iff.mp made
  rfl

/-! ## When the names agree -/

section Names

variable {architecture : Architecture} {maps : List Mapping}
  {modules : List MinidumpModule} {options : ConvertOptions}
  {final : CrashedProcess}

/-- The mapping of the maps stream under a start address, or else that of the
module list. -/
theorem getElem?_ingestModules_maps
    (supplemented : ingestModules (maps.foldl CrashedProcess.insertMapping
      (CrashedProcess.new architecture)) modules options = .ok final)
    (key : UInt64) :
    final.mappings[key]? =
      (lastUnder Mapping.startAddress maps key).or
        (firstUnder Mapping.startAddress (moduleMappings options modules)
          key) := by
  have fresh : (CrashedProcess.new architecture).mappings[key]? = none :=
    Std.ExtTreeMap.getElem?_empty
  rw [ingestModules_lookup supplemented, getElem?_foldl_insertMapping, fresh,
    Option.or_none]

/-- Modules with distinct bases have their own names in the link map. -/
theorem nameFor_ingestModules
    {process : CrashedProcess}
    (distinct : DistinctKeys MinidumpModule.baseOfImage modules)
    (supplemented : ingestModules process modules options = .ok final)
    {module : MinidumpModule}
    (member : module ∈ modules)
    {entry : LinkMapEntry}
    (here : entry.addr = module.baseOfImage) :
    entry.nameFor final.signatures = signatureFor module options := by
  obtain ⟨_, rfl⟩ := ingestModules_eq_ok.mp supplemented
  unfold LinkMapEntry.nameFor
  rw [here, getElem?_foldl_recordSignature,
    lastUnder_of_mem MinidumpModule.baseOfImage distinct member]
  rfl

/-- A file at the base of a module has the path of the maps stream, if that has
a mapping there, or else the name of the module. -/
theorem name_of_mem_fileRecords
    (distinct : DistinctKeys MinidumpModule.baseOfImage modules)
    (supplemented : ingestModules (maps.foldl CrashedProcess.insertMapping
      (CrashedProcess.new architecture)) modules options = .ok final)
    {module : MinidumpModule}
    (member : module ∈ modules)
    {record : FileRecord}
    (listed : record ∈ fileRecords final.mappings)
    (here : record.startAddress = module.baseOfImage) :
    some record.name =
      (lastUnder Mapping.startAddress maps module.baseOfImage).elim
        (some (signatureFor module options)) Mapping.filename := by
  obtain ⟨key, mapping, found, made⟩ := mem_fileRecords_iff.mp listed
  obtain ⟨filename, named, rfl⟩ := Option.map_eq_some_iff.mp made
  rw [getElem?_ingestModules_maps supplemented] at found
  cases supplied : lastUnder Mapping.startAddress maps key with
  | some source =>
      rw [supplied, Option.some_or] at found
      obtain rfl := Option.some.inj found
      have start := (mem_of_firstUnder _ supplied).2
      rw [← here, start, supplied]
      exact named.symm
  | none =>
      rw [supplied, Option.none_or] at found
      obtain ⟨start, other, otherMember, otherMade⟩ :=
        exists_module_of_firstUnder found
      have base := MinidumpModule.startAddress_mapping otherMade
      have name := MinidumpModule.filename_mapping otherMade
      have same : module.baseOfImage = other.baseOfImage := here.symm.trans base
      have own := firstUnder_of_mem MinidumpModule.baseOfImage distinct member
      rw [same, firstUnder_of_mem MinidumpModule.baseOfImage distinct
        otherMember] at own
      obtain rfl := Option.some.inj own
      rw [← base, start, supplied, ← name]
      exact named.symm

/-- The link map gives a module the name that the options choose. `NT_FILE`
gives it the same name exactly when the maps stream has no mapping at its base
or has that name for it. -/
theorem ingestModules_names_agree_iff
    {payload : List UInt8}
    (distinct : DistinctKeys MinidumpModule.baseOfImage modules)
    (supplemented : ingestModules (maps.foldl CrashedProcess.insertMapping
      (CrashedProcess.new architecture)) modules options = .ok final)
    (built : buildNtFilePayload architecture final.mappings = .ok payload) :
    payload = encodeFileRecords architecture.longSize
        (fileRecords final.mappings) ∧
      ∀ module ∈ modules, ∀ record ∈ fileRecords final.mappings,
        record.startAddress = module.baseOfImage →
          ∀ entry : LinkMapEntry, entry.addr = module.baseOfImage →
            entry.nameFor final.signatures = signatureFor module options ∧
            (record.name = entry.nameFor final.signatures ↔
              ∀ source, lastUnder Mapping.startAddress maps
                  module.baseOfImage = some source →
                source.filename = some (signatureFor module options)) := by
  refine ⟨(buildNtFilePayload_eq_ok.mp built).2, ?_⟩
  intro module member record listed here entry there
  have linked := nameFor_ingestModules distinct supplemented member there
  have filed := name_of_mem_fileRecords distinct supplemented member listed here
  refine ⟨linked, ?_⟩
  rw [linked]
  cases supplied : lastUnder Mapping.startAddress maps module.baseOfImage with
  | none =>
      rw [supplied, Option.elim_none] at filed
      simpa using Option.some.inj filed
  | some source =>
      rw [supplied, Option.elim_some] at filed
      simp only [Option.some.injEq, forall_eq', ← filed]

end Names

/-- Options that move every module to another directory. -/
def movedOptions : ConvertOptions := ⟨false, some "/symbols/"⟩

/-- A table from the maps stream and a module that is in it, with the payload
that is built for it. -/
theorem exists_sample_payload (modules : List MinidumpModule)
    (succeeds : (do
      let final ← ingestModules ([sampleFileMapping].foldl
        CrashedProcess.insertMapping (CrashedProcess.new .x86_64))
        modules movedOptions
      buildNtFilePayload .x86_64 final.mappings).isOk = true) :
    ∃ final payload,
      ingestModules ([sampleFileMapping].foldl CrashedProcess.insertMapping
        (CrashedProcess.new .x86_64)) modules movedOptions = .ok final ∧
      buildNtFilePayload .x86_64 final.mappings = .ok payload := by
  obtain ⟨payload, computed⟩ := exists_ok_of_isOk succeeds
  obtain ⟨final, supplemented, built⟩ := bind_eq_ok.mp computed
  exact ⟨final, payload, supplemented, built⟩

/-- A module in the maps stream and one beside it. -/
theorem ingestModules_names_agree_iff_sample :
    let modules := [sampleModule 0x1000 0x800, sampleModule 0x8000 0x1000]
    ∃ final payload,
      ingestModules ([sampleFileMapping].foldl CrashedProcess.insertMapping
        (CrashedProcess.new .x86_64)) modules movedOptions = .ok final ∧
      buildNtFilePayload .x86_64 final.mappings = .ok payload ∧
      payload = encodeFileRecords Architecture.x86_64.longSize
        (fileRecords final.mappings) ∧
      ∀ module ∈ modules, ∀ record ∈ fileRecords final.mappings,
        record.startAddress = module.baseOfImage →
          ∀ entry : LinkMapEntry, entry.addr = module.baseOfImage →
            entry.nameFor final.signatures = signatureFor module movedOptions ∧
            (record.name = entry.nameFor final.signatures ↔
              ∀ source, lastUnder Mapping.startAddress [sampleFileMapping]
                  module.baseOfImage = some source →
                source.filename = some (signatureFor module movedOptions)) := by
  intro modules
  obtain ⟨final, payload, supplemented, built⟩ :=
    exists_sample_payload modules (by decide +kernel)
  have distinct : DistinctKeys MinidumpModule.baseOfImage modules :=
    List.pairwise_pair.mpr (by decide)
  exact ⟨final, payload, supplemented, built,
    ingestModules_names_agree_iff distinct supplemented built⟩

/-- A file of the maps stream keeps its path in `NT_FILE` while the link map
moves it. -/
theorem exists_names_differ :
    ¬∀ (architecture : Architecture) (maps : List Mapping)
        (modules : List MinidumpModule) (options : ConvertOptions)
        (final : CrashedProcess) (payload : List UInt8),
      DistinctKeys MinidumpModule.baseOfImage modules →
      ingestModules (maps.foldl CrashedProcess.insertMapping
        (CrashedProcess.new architecture)) modules options = .ok final →
      buildNtFilePayload architecture final.mappings = .ok payload →
        ∀ module ∈ modules, ∀ record ∈ fileRecords final.mappings,
          record.startAddress = module.baseOfImage →
            ∀ entry : LinkMapEntry, entry.addr = module.baseOfImage →
              record.name = entry.nameFor final.signatures := by
  intro always
  obtain ⟨final, payload, supplemented, built⟩ :=
    exists_sample_payload [sampleModule 0x1000 0x800] (by decide +kernel)
  have distinct : DistinctKeys MinidumpModule.baseOfImage
      [sampleModule 0x1000 0x800] := List.pairwise_singleton _ _
  have found : final.mappings[(0x1000 : UInt64)]? = some sampleFileMapping := by
    rw [getElem?_ingestModules_maps supplemented]
    decide
  have listed : ⟨0x1000, 0x5000, 0, "/lib/libc.so"⟩ ∈
      fileRecords final.mappings :=
    mem_fileRecords_iff.mpr ⟨_, _, found, by decide⟩
  have same := always .x86_64 [sampleFileMapping] _ movedOptions final payload
    distinct supplemented built _ List.mem_cons_self _ listed rfl
    ⟨0x1000, 0, ""⟩ rfl
  rw [nameFor_ingestModules distinct supplemented List.mem_cons_self rfl] at same
  exact absurd same (by decide)

end Md2Core
