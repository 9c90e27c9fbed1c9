import Md2Core.RustMinidump.LinuxMaps
import Md2Core.RustMinidump.Modules

/-!
# Sources of mappings

The mapping table is filled from the maps stream of a minidump, from maps text
in place of an auxiliary vector, and from the module list. The first two replace
an existing entry and the last keeps it. This module decides exactly when the
table holds the mapping of the most preferred source at every start address.
-/

namespace Md2Core

open Foundation

/-! ## The Linux streams -/

/-- The Linux streams of a minidump as their readers give them: the memory maps
by address if the typed stream can be read, and two raw streams. -/
structure LinuxStreams where
  linuxMaps : Option (List MapInfo)
  linuxAuxv : Result (Option (List UInt8))
  linuxCmdLine : Result (Option (List UInt8))

/-- The part of `ingest_linux_streams` for `MD_LINUX_MAPS`. -/
def ingestLinuxMaps
    (maps : Option (List MapInfo))
    (process : CrashedProcess) : Result CrashedProcess :=
  match maps with
  | some maps => do
      let mappings ← mappingsFromMinidumpLinuxMaps maps
      return mappings.foldl CrashedProcess.insertMapping process
  | none => return process

/-- The part of `ingest_linux_streams` for `MD_LINUX_AUXV`, which sometimes
contains maps text instead. -/
def ingestLinuxAuxv
    (auxv : Option (List UInt8))
    (process : CrashedProcess) : Result CrashedProcess :=
  match auxv with
  | some auxv =>
      if looksLikeLinuxMaps auxv then do
        let mappings ← parseLinuxMaps auxv
        return mappings.foldl CrashedProcess.insertMapping process
      else
        return { process with auxv }
  | none => return process

/-- The part of `ingest_linux_streams` for `MD_LINUX_CMD_LINE`. -/
def ingestLinuxCmdLine
    (cmdline : Option (List UInt8))
    (process : CrashedProcess) : CrashedProcess :=
  match cmdline with
  | some cmdline =>
      { process with processInfo := process.processInfo.applyCmdline cmdline }
  | none => process

/-- Fill a process from the Linux streams. -/
def ingestLinuxStreams
    (streams : LinuxStreams)
    (process : CrashedProcess) : Result CrashedProcess := do
  let process ← ingestLinuxMaps streams.linuxMaps process
  let auxv ← streams.linuxAuxv
  let process ← ingestLinuxAuxv auxv process
  let cmdline ← streams.linuxCmdLine
  return ingestLinuxCmdLine cmdline process

/-! ## The mappings of each source -/

/-- The mappings of the maps stream. -/
def LinuxStreams.mapsMappings (streams : LinuxStreams) : Result (List Mapping) :=
  match streams.linuxMaps with
  | some maps => mappingsFromMinidumpLinuxMaps maps
  | none => return []

/-- The mappings of maps text in place of the auxiliary vector. -/
def LinuxStreams.textMappings (streams : LinuxStreams) :
    Result (List Mapping) := do
  match ← streams.linuxAuxv with
  | some auxv => if looksLikeLinuxMaps auxv then parseLinuxMaps auxv else return []
  | none => return []

theorem lookup_foldl_insertMapping
    (process : CrashedProcess)
    (list : List Mapping) :
    (list.foldl CrashedProcess.insertMapping process).mappings.lookup =
      list.foldl (replacing Mapping.startAddress) process.mappings.lookup := by
  induction list generalizing process with
  | nil => rfl
  | cons mapping rest inductionHypothesis =>
      rw [List.foldl_cons, List.foldl_cons, inductionHypothesis,
        lookup_insertMapping]

/-- Inserted mappings replace what is under their start addresses. -/
theorem getElem?_foldl_insertMapping
    (process : CrashedProcess)
    (list : List Mapping)
    (key : UInt64) :
    (list.foldl CrashedProcess.insertMapping process).mappings[key]? =
      (lastUnder Mapping.startAddress list key).or (process.mappings[key]?) := by
  have looked := congrFun (lookup_foldl_insertMapping process list) key
  rw [foldl_replacing] at looked
  exact looked

/-- Insertions change the table only. -/
theorem foldl_insertMapping
    (process : CrashedProcess)
    (list : List Mapping) :
    list.foldl CrashedProcess.insertMapping process =
      { process with
        mappings :=
          (list.foldl CrashedProcess.insertMapping process).mappings } := by
  induction list generalizing process with
  | nil => rfl
  | cons mapping rest inductionHypothesis =>
      rw [List.foldl_cons, inductionHypothesis]
      rfl

theorem ingestLinuxMaps_eq_ok
    {streams : LinuxStreams}
    {process next : CrashedProcess} :
    ingestLinuxMaps streams.linuxMaps process = .ok next ↔
      ∃ maps, streams.mapsMappings = .ok maps ∧
        next = maps.foldl CrashedProcess.insertMapping process := by
  unfold ingestLinuxMaps LinuxStreams.mapsMappings
  cases streams.linuxMaps with
  | none =>
      simp only [pure_eq_ok, exists_eq_left']
      exact eq_comm
  | some maps =>
      simp only [bind_eq_ok, pure_eq_ok]
      exact exists_congr fun mappings => and_congr_right fun _ => eq_comm

/-- The auxiliary vector that the bytes of its stream leave: maps text is none. -/
def storedAuxv (auxv : Option (List UInt8)) (process : CrashedProcess) :
    List UInt8 :=
  match auxv with
  | some auxv => if looksLikeLinuxMaps auxv then process.auxv else auxv
  | none => process.auxv

theorem ingestLinuxAuxv_eq_ok
    {streams : LinuxStreams}
    {auxv : Option (List UInt8)}
    {process next : CrashedProcess}
    (read : streams.linuxAuxv = .ok auxv) :
    ingestLinuxAuxv auxv process = .ok next ↔
      ∃ texts, streams.textMappings = .ok texts ∧
        next = { process with
          mappings :=
            (texts.foldl CrashedProcess.insertMapping process).mappings
          auxv := storedAuxv auxv process } := by
  unfold ingestLinuxAuxv LinuxStreams.textMappings storedAuxv
  rw [read]
  cases auxv with
  | none =>
      change Except.ok process = .ok next ↔
        ∃ texts, (Except.ok [] : Result (List Mapping)) = .ok texts ∧ _
      simp only [Except.ok.injEq, exists_eq_left']
      exact eq_comm
  | some auxv =>
      by_cases text : looksLikeLinuxMaps auxv = true
      · simp only [text, if_true, bind_eq_ok, pure_eq_ok, Except.ok.injEq,
          exists_eq_left']
        apply exists_congr
        intro texts
        rw [foldl_insertMapping process texts]
        exact and_congr_right fun _ => eq_comm
      · simp only [text, Bool.false_eq_true, if_false, bind_eq_ok, pure_eq_ok,
          Except.ok.injEq, exists_eq_left']
        exact eq_comm

@[simp] theorem mappings_ingestLinuxCmdLine
    (cmdline : Option (List UInt8))
    (process : CrashedProcess) :
    (ingestLinuxCmdLine cmdline process).mappings = process.mappings := by
  cases cmdline <;> rfl

/-- Ingestion succeeds exactly when every stream can be read and parsed. -/
theorem ingestLinuxStreams_eq_ok
    {streams : LinuxStreams}
    {process next : CrashedProcess} :
    ingestLinuxStreams streams process = .ok next ↔
      ∃ maps texts auxv cmdline, streams.mapsMappings = .ok maps ∧
        streams.textMappings = .ok texts ∧
        streams.linuxAuxv = .ok auxv ∧
        streams.linuxCmdLine = .ok cmdline ∧
        next = ingestLinuxCmdLine cmdline { process with
          mappings := ((maps ++ texts).foldl CrashedProcess.insertMapping
            process).mappings
          auxv := storedAuxv auxv process } := by
  unfold ingestLinuxStreams
  simp only [bind_eq_ok, pure_eq_ok, ingestLinuxMaps_eq_ok, List.foldl_append]
  constructor
  · rintro ⟨_, ⟨maps, mapsParsed, rfl⟩, auxv, read, _, filled, cmdline,
      cmdlineRead, rfl⟩
    obtain ⟨texts, textsParsed, rfl⟩ := (ingestLinuxAuxv_eq_ok read).mp filled
    refine ⟨maps, texts, auxv, cmdline, mapsParsed, textsParsed, read,
      cmdlineRead, ?_⟩
    rw [foldl_insertMapping process maps]
    rfl
  · rintro ⟨maps, texts, auxv, cmdline, mapsParsed, textsParsed, read,
      cmdlineRead, rfl⟩
    refine ⟨_, ⟨maps, mapsParsed, rfl⟩, auxv, read, _,
      (ingestLinuxAuxv_eq_ok read).mpr ⟨texts, textsParsed, rfl⟩, cmdline,
      cmdlineRead, ?_⟩
    rw [foldl_insertMapping process maps]
    rfl

/-! ## Precedence of the sources -/

section Sources

variable {streams : LinuxStreams} {architecture : Architecture}
  {ingested final : CrashedProcess} {modules : List MinidumpModule}
  {options : ConvertOptions}

/-- The table after all sources are ingested. -/
theorem ingest_lookup
    {maps texts : List Mapping}
    (threads : List ThreadSnapshot)
    (mapsParsed : streams.mapsMappings = .ok maps)
    (textsParsed : streams.textMappings = .ok texts)
    (linux : ingestLinuxStreams streams (CrashedProcess.new architecture) =
      .ok ingested)
    (supplemented : ingestModules { ingested with threads } modules options =
      .ok final)
    (start : UInt64) :
    final.mappings[start]? =
      (lastUnder Mapping.startAddress (maps ++ texts) start).or
        (firstUnder Mapping.startAddress (moduleMappings options modules)
          start) := by
  obtain ⟨otherMaps, otherTexts, _, cmdline, mapsAgain, textsAgain, _, _, rfl⟩ :=
    ingestLinuxStreams_eq_ok.mp linux
  obtain rfl := Except.ok.inj (mapsParsed.symm.trans mapsAgain)
  obtain rfl := Except.ok.inj (textsParsed.symm.trans textsAgain)
  have fresh : (CrashedProcess.new architecture).mappings[start]? = none :=
    Std.ExtTreeMap.getElem?_empty
  rw [ingestModules_lookup supplemented, mappings_ingestLinuxCmdLine,
    getElem?_foldl_insertMapping, fresh, Option.or_none]

/-- After all sources are ingested, the table holds the first mapping at each
start address, by order of preference, exactly when the maps stream and the maps
text give no start address a last mapping other than the first. -/
theorem ingest_firstUnder_iff
    (threads : List ThreadSnapshot)
    (linux : ingestLinuxStreams streams (CrashedProcess.new architecture) =
      .ok ingested)
    (supplemented : ingestModules { ingested with threads } modules options =
      .ok final) :
    ∃ maps texts, streams.mapsMappings = .ok maps ∧
      streams.textMappings = .ok texts ∧
      ((∀ start : UInt64, final.mappings[start]? =
          firstUnder Mapping.startAddress
            (maps ++ texts ++ moduleMappings options modules) start) ↔
        ∀ start : UInt64,
          firstUnder Mapping.startAddress (maps ++ texts) start =
            lastUnder Mapping.startAddress (maps ++ texts) start) := by
  obtain ⟨maps, texts, _, _, mapsParsed, textsParsed, _⟩ :=
    ingestLinuxStreams_eq_ok.mp linux
  refine ⟨maps, texts, mapsParsed, textsParsed, forall_congr' fun start => ?_⟩
  rw [ingest_lookup threads mapsParsed textsParsed linux supplemented,
    firstUnder_append _ (maps ++ texts), lastUnder_or_eq_iff]

end Sources

/-- The streams of a dump with the same line of a deleted file as a record of
the maps stream and as text in place of the auxiliary vector. -/
def sampleStreams : LinuxStreams where
  linuxMaps := some [sampleDeleted.mapInfo]
  linuxAuxv := .ok (some (mapsBytes [sampleDeleted]))
  linuxCmdLine := .ok none

theorem mapsMappings_sampleStreams :
    sampleStreams.mapsMappings =
      .ok [sampleDeleted.mapping "/lib/foo.so (deleted)".toList] :=
  mappingsFromMinidumpLinuxMaps_mapInfo
    (List.forall_mem_singleton.mpr sampleDeleted_printable)

theorem textMappings_sampleStreams :
    sampleStreams.textMappings =
      .ok [sampleDeleted.mapping "/lib/foo.so".toList] := by
  have text : looksLikeLinuxMaps (mapsBytes [sampleDeleted]) = true := by
    decide +kernel
  have parsed := parseLinuxMaps_mapsBytes
    (List.forall_mem_singleton.mpr sampleDeleted_printable.readable)
  unfold LinuxStreams.textMappings sampleStreams
  refine bind_eq_ok.mpr ⟨some (mapsBytes [sampleDeleted]), rfl, ?_⟩
  simp only [text, if_true, parsed]
  rfl

theorem exists_ingestLinuxStreams_sampleStreams :
    ∃ ingested, ingestLinuxStreams sampleStreams
      (CrashedProcess.new .x86_64) = .ok ingested :=
  ⟨_, ingestLinuxStreams_eq_ok.mpr ⟨_, _, _, _, mapsMappings_sampleStreams,
    textMappings_sampleStreams, rfl, rfl, rfl⟩⟩

/-- A record and a text for one mapping, and a module elsewhere. -/
theorem ingest_firstUnder_iff_sample :
    ∃ ingested final,
      ingestLinuxStreams sampleStreams (CrashedProcess.new .x86_64) =
        .ok ingested ∧
      ingestModules ingested [sampleModule 0x8000 0x1000] plainOptions =
        .ok final ∧
      ∃ maps texts, sampleStreams.mapsMappings = .ok maps ∧
        sampleStreams.textMappings = .ok texts ∧
        ((∀ start : UInt64, final.mappings[start]? =
            firstUnder Mapping.startAddress
              (maps ++ texts ++
                moduleMappings plainOptions [sampleModule 0x8000 0x1000])
              start) ↔
          ∀ start : UInt64,
            firstUnder Mapping.startAddress (maps ++ texts) start =
              lastUnder Mapping.startAddress (maps ++ texts) start) := by
  obtain ⟨ingested, linux⟩ := exists_ingestLinuxStreams_sampleStreams
  have fits : ∀ module ∈ [sampleModule 0x8000 0x1000], module.Fits := by
    rw [List.forall_mem_singleton]
    unfold MinidumpModule.Fits
    decide
  obtain ⟨final, supplemented⟩ :=
    exists_ingestModules ingested plainOptions fits
  exact ⟨ingested, final, linux, supplemented,
    ingest_firstUnder_iff ingested.threads linux supplemented⟩

/-- The text of a deleted file replaces the record that is preferred. -/
theorem exists_text_replaces_record :
    ¬∀ (streams : LinuxStreams) (architecture : Architecture)
        (threads : List ThreadSnapshot) (modules : List MinidumpModule)
        (options : ConvertOptions) (ingested final : CrashedProcess)
        (maps texts : List Mapping),
      streams.mapsMappings = .ok maps →
      streams.textMappings = .ok texts →
      ingestLinuxStreams streams (CrashedProcess.new architecture) =
        .ok ingested →
      ingestModules { ingested with threads } modules options = .ok final →
        ∀ start : UInt64, final.mappings[start]? =
          firstUnder Mapping.startAddress
            (maps ++ texts ++ moduleMappings options modules) start := by
  intro always
  obtain ⟨ingested, linux⟩ := exists_ingestLinuxStreams_sampleStreams
  obtain ⟨final, supplemented⟩ := exists_ingestModules ingested plainOptions
    fun module member => absurd member (@List.not_mem_nil _ module)
  have preferred := always sampleStreams .x86_64 ingested.threads [] plainOptions
    ingested final _ _ mapsMappings_sampleStreams textMappings_sampleStreams
    linux supplemented 0x7f001000
  rw [ingest_lookup ingested.threads mapsMappings_sampleStreams
    textMappings_sampleStreams linux supplemented] at preferred
  have names := congrArg (Option.map Mapping.filename) preferred
  exact absurd names (by decide)

end Md2Core
