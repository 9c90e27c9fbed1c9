import Md2Core.CoreWriter
import Md2Core.Foundation.ByteSink

/-!
# Writing the core to a sink

The source passes the image to a sink field by field, so that an error leaves a
part of it behind. This module follows its calls to the sink in order and shows
that together they are the image, that an error of the conversion comes before
the first byte behind the program headers, and that a failing sink has received a
prefix of the image.
-/

namespace Md2Core

open Foundation Emission

/-- Write byte strings one by one. -/
def emitAll : List (List UInt8) → Emission Fault Unit
  | [] => return ()
  | chunk :: rest => do
      emit chunk
      emitAll rest

/-- Write a byte string under a condition. -/
def emitIf (condition : Bool) (chunk : List UInt8) : Emission Fault Unit :=
  if condition then emit chunk else return ()

/-- The fields of the file header. -/
def ElfHeader.emit (header : ElfHeader) : Emission Fault Unit := do
  Emission.emit (elfMag ++ [header.elfClass, elfData2Lsb, evCurrent] ++
    List.replicate 9 0)
  Emission.emit (leBytes 2 etCore.toNat)
  Emission.emit (leBytes 2 header.machine.toNat)
  Emission.emit (leBytes 4 evCurrent.toNat)
  let ehsize := header.size.toNat
  let phentsize := header.phdrSize.toNat
  let shentsize := if header.elfClass = 2 then 64 else 40
  if header.elfClass = 2 then
    emitAll [leBytes 8 0, leBytes 8 ehsize, leBytes 8 0]
  else
    emitAll [leBytes 4 0, leBytes 4 ((u32TryFrom ehsize).getD 0).toNat, leBytes 4 0]
  emitAll [leBytes 4 0, leBytes 2 ((u16TryFrom ehsize).getD 0).toNat,
    leBytes 2 ((u16TryFrom phentsize).getD 0).toNat,
    leBytes 2 header.phnum.toNat,
    leBytes 2 ((u16TryFrom shentsize).getD 0).toNat, leBytes 2 0, leBytes 2 0]

/-- A field of a 32-bit program header, checked right before it is written. -/
def emitElf32Word (value : UInt64) (field : String) : Emission Fault Unit := do
  let word ← elf32Word value field
  Emission.emit (leBytes 4 word.toNat)

/-- The fields of a program header. -/
def ProgramHeader.emit (header : ProgramHeader) (elfClass : UInt8) :
    Emission Fault Unit :=
  if elfClass = 2 then
    emitAll [leBytes 4 header.pType.toNat, leBytes 4 header.pFlags.toNat,
      leBytes 8 header.pOffset.toNat, leBytes 8 header.pVaddr.toNat,
      leBytes 8 header.pPaddr.toNat, leBytes 8 header.pFilesz.toNat,
      leBytes 8 header.pMemsz.toNat, leBytes 8 header.pAlign.toNat]
  else do
    Emission.emit (leBytes 4 header.pType.toNat)
    emitElf32Word header.pOffset "ELF32 p_offset"
    emitElf32Word header.pVaddr "ELF32 p_vaddr"
    emitElf32Word header.pPaddr "ELF32 p_paddr"
    emitElf32Word header.pFilesz "ELF32 p_filesz"
    emitElf32Word header.pMemsz "ELF32 p_memsz"
    Emission.emit (leBytes 4 header.pFlags.toNat)
    emitElf32Word header.pAlign "ELF32 p_align"

/-- The `PT_LOAD` program headers from a running file offset on. -/
def emitLoadHeaders
    (elfClass : UInt8)
    (emptyLoadOffset : UInt64) :
    UInt64 → List Mapping → Emission Fault Unit
  | _, [] => return ()
  | loadOffset, mapping :: rest => do
      let memsz ← subU64 mapping.endAddress mapping.startAddress
      let (pOffset, pFilesz, next) ←
        loadRange emptyLoadOffset loadOffset mapping
      ProgramHeader.emit {
        pType := ptLoad
        pFlags := loadFlags mapping.permissions
        pOffset
        pVaddr := mapping.startAddress
        pPaddr := 0
        pFilesz
        pMemsz := memsz
        pAlign := ptLoadAlignment } elfClass
      emitLoadHeaders elfClass emptyLoadOffset next rest

/-- The captured bytes of the mappings that have some. -/
def emitData : List Mapping → Emission Fault Unit
  | [] => return ()
  | mapping :: rest => do
      emitIf (!mapping.data.isEmpty) mapping.data
      emitData rest

/-- The bytes behind the program headers: the notes, the padding and the data. -/
def emitContents
    (noteBytes : List UInt8)
    (notePad : UInt64)
    (mappings : List Mapping) : Emission Fault Unit := do
  Emission.emit noteBytes
  emitIf (decide (0 < notePad)) (List.replicate notePad.toNat 0)
  emitData mappings

/-- Write the full ELF core image of a process. -/
def emitCore (process : CrashedProcess) : Emission Fault Unit := do
  let architecture := process.architecture
  let noteBytes ← buildNoteSegment process
  let phnum := 1 + process.mappings.size
  let phnumU16 ← okOr (u16TryFrom phnum) (integerOverflow "phnum exceeds u16")
  let header : ElfHeader := {
    elfClass := architecture.elfClass
    machine := architecture.elfMachine
    phnum := phnumU16 }
  let ehdrSize := header.size.toUInt64
  let phdrSize := header.phdrSize.toUInt64
  let phdrTableSize ← exactU64 (phdrSize.toNat * phnum)
  let ptNoteOffset ← addU64 ehdrSize phdrTableSize
  let ptNoteFilesz ← lenU64 noteBytes
  let ptNoteEnd ← addU64 ptNoteOffset ptNoteFilesz
  let rem := ptNoteEnd % ptLoadAlignment
  let notePad := if rem = 0 then 0 else ptLoadAlignment - rem
  let loadOffset ← addU64 ptNoteEnd notePad
  let totalData ← exactU64
    (process.mappings.values.map fun mapping => mapping.data.length).sum
  let emptyLoadOffset ← addU64 loadOffset totalData
  header.emit
  ProgramHeader.emit {
    pType := ptNote
    pFlags := 0
    pOffset := ptNoteOffset
    pVaddr := 0
    pPaddr := 0
    pFilesz := ptNoteFilesz
    pMemsz := 0
    pAlign := 0 } header.elfClass
  emitLoadHeaders header.elfClass emptyLoadOffset loadOffset
    process.mappings.values
  emitContents noteBytes notePad process.mappings.values

/-! ## The whole output -/

@[simp] theorem collect_emitAll (chunks : List (List UInt8)) :
    (emitAll chunks).collect = .ok chunks.flatten := by
  induction chunks with
  | nil => rfl
  | cons chunk rest inductionHypothesis =>
      rw [emitAll, collect_emit_bind, inductionHypothesis]
      rfl

theorem ElfHeader.collect_emit (header : ElfHeader) :
    header.emit.collect = .ok header.write := by
  unfold ElfHeader.emit ElfHeader.write
  split <;> simp [collect_bind, pure, Except.pure]

theorem collect_emitElf32Word
    (value : UInt64)
    (field : String) :
    (emitElf32Word value field).collect = do
      let word ← elf32Word value field
      return leBytes 4 word.toNat := by
  rw [emitElf32Word, collect_lift_bind]
  simp only [Emission.collect_emit]
  rfl

theorem ProgramHeader.collect_emit
    (header : ProgramHeader)
    (elfClass : UInt8) :
    (header.emit elfClass).collect = header.write elfClass := by
  unfold ProgramHeader.emit ProgramHeader.write
  split
  · simp [pure, Except.pure]
  · simp only [collect_bind, collect_emitElf32Word, Emission.collect_emit,
      bind_assoc, pure_bind, ok_bind, List.append_assoc]

theorem collect_emitLoadHeaders
    (elfClass : UInt8)
    (emptyLoadOffset loadOffset : UInt64)
    (mappings : List Mapping) :
    (emitLoadHeaders elfClass emptyLoadOffset loadOffset mappings).collect =
      writeLoadHeaders elfClass emptyLoadOffset loadOffset mappings := by
  induction mappings generalizing loadOffset with
  | nil => rfl
  | cons mapping rest inductionHypothesis =>
      rw [emitLoadHeaders, writeLoadHeaders]
      simp only [collect_lift_bind, collect_bind, ProgramHeader.collect_emit,
        inductionHypothesis]

theorem collect_emitIf
    {condition : Bool}
    {chunk : List UInt8}
    (empty : condition = false → chunk = []) :
    (emitIf condition chunk).collect = .ok chunk := by
  cases condition with
  | true => exact Emission.collect_emit chunk
  | false =>
      rw [empty rfl]
      rfl

theorem collect_emitData (mappings : List Mapping) :
    (emitData mappings).collect =
      .ok (mappings.flatMap fun mapping => mapping.data) := by
  induction mappings with
  | nil => rfl
  | cons mapping rest inductionHypothesis =>
      rw [emitData, collect_bind, collect_emitIf (by simp), inductionHypothesis]
      rfl

/-- Nothing fails behind the program headers. -/
theorem collect_emitContents
    (noteBytes : List UInt8)
    (notePad : UInt64)
    (mappings : List Mapping) :
    (emitContents noteBytes notePad mappings).collect =
      .ok (noteBytes ++ List.replicate notePad.toNat 0 ++
        mappings.flatMap fun mapping => mapping.data) := by
  have padding : decide (0 < notePad) = false →
      List.replicate notePad.toNat (0 : UInt8) = [] := by
    intro none
    rw [UInt64.le_zero_iff.mp (UInt64.not_lt.mp (of_decide_eq_false none))]
    rfl
  rw [emitContents, collect_bind, Emission.collect_emit, collect_bind,
    collect_emitIf padding, collect_emitData, List.append_assoc]
  rfl

/-- Together, the calls to the sink write the image. -/
theorem collect_emitCore (process : CrashedProcess) :
    (emitCore process).collect = writeCore process := by
  unfold emitCore writeCore
  simp only [collect_lift_bind, collect_bind, ElfHeader.collect_emit,
    ProgramHeader.collect_emit, collect_emitLoadHeaders, collect_emitContents,
    ok_bind, bind_assoc, pure_bind, List.append_assoc]

/-! ## What is left behind -/

/-- The size of the file header and the program headers. -/
def headersSize (process : CrashedProcess) : Nat :=
  (if process.architecture.elfClass = 2 then 64 else 52) +
    (1 + process.mappings.size) *
      Segment.headerSize (process.architecture.elfClass == 2)

theorem atMost_emitElf32Word (value : UInt64) (field : String) :
    (emitElf32Word value field).AtMost 4 := by
  apply AtMost.lift_bind
  intro word
  exact length_leBytes 4 word.toNat ▸ atMost_emit _

/-- A program header is written as far as its fields fit. -/
theorem ProgramHeader.atMost_emit
    (header : ProgramHeader)
    (elfClass : UInt8) :
    (header.emit elfClass).AtMost (Segment.headerSize (elfClass == 2)) := by
  unfold ProgramHeader.emit
  by_cases wide : elfClass = 2
  · rw [if_pos wide, wide]
    exact atMost_of_collect (collect_emitAll _) (by simp [Segment.headerSize])
  · rw [if_neg wide, beq_eq_false_iff_ne.mpr wide]
    have first := length_leBytes 4 header.pType.toNat ▸
      Emission.atMost_emit (ε := Fault) (leBytes 4 header.pType.toNat)
    have flags := length_leBytes 4 header.pFlags.toNat ▸
      Emission.atMost_emit (ε := Fault) (leBytes 4 header.pFlags.toNat)
    exact first.bind fun _ =>
      (atMost_emitElf32Word header.pOffset _).bind fun _ =>
      (atMost_emitElf32Word header.pVaddr _).bind fun _ =>
      (atMost_emitElf32Word header.pPaddr _).bind fun _ =>
      (atMost_emitElf32Word header.pFilesz _).bind fun _ =>
      (atMost_emitElf32Word header.pMemsz _).bind fun _ =>
      flags.bind fun _ => atMost_emitElf32Word header.pAlign _

theorem atMost_emitLoadHeaders
    (elfClass : UInt8)
    (emptyLoadOffset loadOffset : UInt64)
    (mappings : List Mapping) :
    (emitLoadHeaders elfClass emptyLoadOffset loadOffset mappings).AtMost
      (mappings.length * Segment.headerSize (elfClass == 2)) := by
  induction mappings generalizing loadOffset with
  | nil =>
      rw [List.length_nil, Nat.zero_mul]
      exact atMost_pure ()
  | cons mapping rest inductionHypothesis =>
      rw [emitLoadHeaders, List.length_cons, Nat.succ_mul, Nat.add_comm]
      apply AtMost.lift_bind
      intro memsz
      apply AtMost.lift_bind
      rintro ⟨pOffset, pFilesz, next⟩
      exact (ProgramHeader.atMost_emit _ elfClass).bind fun _ =>
        inductionHypothesis next

/-- The writer fails before the first byte behind the program headers. -/
theorem failsWithin_emitCore (process : CrashedProcess) :
    (emitCore process).FailsWithin (headersSize process) := by
  unfold emitCore
  apply FailsWithin.lift_bind
  intro noteBytes _
  apply FailsWithin.lift_bind
  intro phnum _
  apply FailsWithin.lift_bind
  intro tableSize _
  apply FailsWithin.lift_bind
  intro noteOffset _
  apply FailsWithin.lift_bind
  intro noteFilesz _
  apply FailsWithin.lift_bind
  intro noteEnd _
  apply FailsWithin.lift_bind
  intro loadOffset _
  apply FailsWithin.lift_bind
  intro totalData _
  apply FailsWithin.lift_bind
  intro emptyLoadOffset _
  have total : headersSize process =
      (if process.architecture.elfClass = 2 then 64 else 52) +
        (Segment.headerSize (process.architecture.elfClass == 2) +
          (process.mappings.values.length *
            Segment.headerSize (process.architecture.elfClass == 2) + 0)) := by
    rw [headersSize, MappingTable.length_values, Nat.add_mul]
    omega
  rw [total]
  apply AtMost.failsWithin_bind
  · apply atMost_of_collect (ElfHeader.collect_emit _)
    rw [ElfHeader.length_write, ElfHeader.size]
    split <;> exact Nat.le_refl _
  · intro _
    refine (ProgramHeader.atMost_emit _ _).failsWithin_bind fun _ => ?_
    refine (atMost_emitLoadHeaders _ _ _ _).failsWithin_bind fun _ => ?_
    exact failsWithin_of_ok
      (collect_eq_ok.mp (collect_emitContents noteBytes _ _)).1 0

/-- Writing a core to any sink. A call that returns has passed exactly the image
on. When the conversion fails, at most the headers were written. When the sink
fails, it has received a prefix of the image, if there is one. -/
theorem emitCore_runOn
    {Cause : Type}
    (sink : Sink Cause)
    (process : CrashedProcess)
    (before : sink.State) :
    match (emitCore process).runOn sink before with
    | .ok () after => ∃ image, writeCore process = .ok image ∧
        sink.received after = sink.received before ++ image
    | .error (.inl failure) after => writeCore process = .error failure ∧
        ∃ front, front.length ≤ headersSize process ∧
          sink.received after = sink.received before ++ front
    | .error (.inr _) after => ∃ front,
        sink.received after = sink.received before ++ front ∧
        ∀ image, writeCore process = .ok image → front <+: image := by
  have whole := collect_emitCore process
  split
  · next after ran =>
    obtain ⟨collected, received⟩ := collect_of_runOn_ok ran
    exact ⟨_, whole.symm.trans collected, received⟩
  · next failure after ran =>
    obtain ⟨failed, received⟩ := collect_of_runOn_failure ran
    refine ⟨?_, _, failsWithin_emitCore process failure failed, received⟩
    rw [← whole, collect, failed]
    rfl
  · next cause after ran =>
    obtain ⟨front, cut, received⟩ := received_of_runOn_cause ran
    refine ⟨front, received, ?_⟩
    intro image written
    rw [← (collect_eq_ok.mp (whole.trans written)).2]
    exact cut

/-- A process of a 32-bit target with a mapping. -/
def sampleMappedAt (start : UInt64) : CrashedProcess :=
  { CrashedProcess.new .arm with
    mappings := (∅ : MappingTable).insert start
      ⟨start, start + 0x1000, 0, .readWrite, none, [7]⟩ }

/-- A sink with room gets the image and a full one a prefix of it. A mapping beyond
the 32-bit addresses stops the writer within the headers. -/
theorem emitCore_runOn_sample :
    (∃ image, writeCore (sampleMappedAt 0x1000) = .ok image ∧
      (emitCore (sampleMappedAt 0x1000)).runOn (boundedSink 65536) [] =
        .ok () image) ∧
    (∃ image, writeCore (sampleMappedAt 0x1000) = .ok image ∧
      [0x7f, 0x45, 0x4c, 0x46, 1] <+: image ∧
      (emitCore (sampleMappedAt 0x1000)).runOn (boundedSink 5) [] =
        .error (.inr ()) [0x7f, 0x45, 0x4c, 0x46, 1]) ∧
    ∃ failure front, writeCore (sampleMappedAt 0x100000000) = .error failure ∧
      front.length = 92 ∧
      (emitCore (sampleMappedAt 0x100000000)).runOn (boundedSink 65536) [] =
        .error (.inl failure) front := by
  -- The processes are named, so that only `decide` evaluates the writer.
  obtain ⟨process, named⟩ : ∃ process, process = sampleMappedAt 0x1000 := ⟨_, rfl⟩
  obtain ⟨wide, wideNamed⟩ : ∃ process, process = sampleMappedAt 0x100000000 :=
    ⟨_, rfl⟩
  rw [← named, ← wideNamed]
  refine ⟨?_, ?_, ?_⟩
  · have observed : (match (emitCore process).runOn (boundedSink 65536) [] with
      | .ok () _ => true
      | .error _ _ => false) = true := by
      rw [named]
      decide +kernel
    have result := emitCore_runOn (boundedSink 65536) process []
    split at observed
    · next after ran =>
      rw [ran] at result
      obtain ⟨image, written, received⟩ := result
      obtain rfl : after = image := received
      exact ⟨after, written, ran⟩
    · contradiction
  · have observed : (match (emitCore process).runOn (boundedSink 5) [] with
      | .error (.inr ()) after =>
          (boundedSink 5).received after == [0x7f, 0x45, 0x4c, 0x46, 1]
      | _ => false) = true := by
      rw [named]
      decide +kernel
    obtain ⟨image, written⟩ : ∃ image, writeCore process = .ok image :=
      exists_ok_of_isOk (by rw [named]; decide +kernel)
    have result := emitCore_runOn (boundedSink 5) process []
    split at observed
    · next after ran =>
      rw [ran] at result
      obtain ⟨front, received, cut⟩ := result
      have five := eq_of_beq observed
      obtain rfl : after = [0x7f, 0x45, 0x4c, 0x46, 1] := five
      obtain rfl : [0x7f, 0x45, 0x4c, 0x46, 1] = front := received
      exact ⟨image, written, cut image written, ran⟩
    · contradiction
  · have observed : (match (emitCore wide).runOn (boundedSink 65536) [] with
      | .error (.inl _) after => ((boundedSink 65536).received after).length == 92
      | _ => false) = true := by
      rw [wideNamed]
      decide +kernel
    have result := emitCore_runOn (boundedSink 65536) wide []
    split at observed
    · next failure after ran =>
      rw [ran] at result
      exact ⟨failure, after, result.1, eq_of_beq observed, ran⟩
    · contradiction

end Md2Core
