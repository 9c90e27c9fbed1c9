import Md2Core.CoreWriter.Streaming
import Md2Core.Foundation.BufferedSink
import Md2Core.Main

/-!
# The program

The program reads a minidump from a path, converts it and writes the core through a
buffer to a file or to standard output. The output is not touched before the process is
read and augmented, and a program that succeeds has written exactly the image.
-/

namespace Md2Core

open Foundation

variable {Cause : Type}

/-- Where the core goes: a file, which is created first and loses its content then, or
standard output. -/
structure Output (Cause : Type) where
  sink : Sink Cause
  truncates : Bool
  create : EStateM Cause sink.State Unit
  flush : EStateM Cause sink.State Unit
  created : ∀ before after, create before = .ok () after →
    sink.received after = if truncates then [] else sink.received before
  notCreated : ∀ cause before after, create before = .error cause after →
    sink.received after = sink.received before
  flushed : ∀ before after, flush before = .ok () after →
    sink.received after = sink.received before
  notFlushed : ∀ cause before after, flush before = .error cause after →
    sink.received after = sink.received before

/-- What is left of the content of an output when writing begins. -/
def Output.start (output : Output Cause) (before : output.sink.State) : List UInt8 :=
  if output.truncates then [] else output.sink.received before

/-- A failure of the output beside the failures of the conversion. -/
def liftCause
    {σ α : Type}
    (computation : EStateM Cause σ α) : EStateM (Fault ⊕ Cause) σ α := fun before =>
  match computation before with
  | .ok value after => .ok value after
  | .error cause after => .error (.inr cause) after

/-- The augmented process. What a failed augmentation leaves is dropped. -/
def augmented (process : CrashedProcess) : Result CrashedProcess :=
  match augmentProcess process with
  | .error failure _ => throw failure
  | .ok _ augmented => return augmented

/-- Read the process of the minidump in a file. -/
def readProcessFromPath
    (reader : MinidumpReader)
    (files : FileSystem)
    (parse : List UInt8 → Except Cause Minidump)
    (input : Except Cause (List UInt8))
    (options : ConvertOptions) : Except (Fault ⊕ Cause) CrashedProcess := do
  let bytes ← input.mapError Sum.inr
  let dump ← (parse bytes).mapError Sum.inr
  (readProcessFromMinidump reader files dump bytes options).mapError Sum.inl

/-- What the program does before it turns to the output. -/
def prepare
    (reader : MinidumpReader)
    (files : FileSystem)
    (parse : List UInt8 → Except Cause Minidump)
    (input : Except Cause (List UInt8))
    (options : ConvertOptions) : Except (Fault ⊕ Cause) CrashedProcess := do
  let process ← readProcessFromPath reader files parse input options
  (augmented process).mapError Sum.inl

/-- The capacity of a buffer that is made without one. -/
def defaultBufSize : Nat := 8192

/-- Convert the minidump of a file to a core in an output. -/
def runTo
    (reader : MinidumpReader)
    (files : FileSystem)
    (parse : List UInt8 → Except Cause Minidump)
    (input : Except Cause (List UInt8))
    (options : ConvertOptions)
    (output : Output Cause) : EStateM (Fault ⊕ Cause) output.sink.State Unit := do
  let process ← prepare reader files parse input options
  liftCause output.create
  (emitCore process).runBuffered output.sink defaultBufSize (by decide)
  liftCause output.flush

/-! ## What a call does -/

section Calls

variable {σ α : Type} {before after : σ}

theorem liftCause_eq_ok
    {computation : EStateM Cause σ α}
    {value : α} :
    liftCause computation before = .ok value after ↔
      computation before = .ok value after := by
  unfold liftCause
  cases computation before <;> simp

theorem liftCause_eq_error
    {computation : EStateM Cause σ α}
    {failure : Fault ⊕ Cause} :
    liftCause computation before = .error failure after ↔
      ∃ cause, failure = .inr cause ∧ computation before = .error cause after := by
  unfold liftCause
  cases computation before <;> simp [and_comm, eq_comm]

theorem mapError_eq_ok
    {ε δ : Type}
    {computation : Except ε α}
    {change : ε → δ}
    {value : α} :
    computation.mapError change = .ok value ↔ computation = .ok value := by
  cases computation <;> simp [Except.mapError]

end Calls

/-- What was prepared is the process whose core is the image. -/
theorem prepare_ok
    {reader : MinidumpReader}
    {files : FileSystem}
    {parse : List UInt8 → Except Cause Minidump}
    {input : Except Cause (List UInt8)}
    {options : ConvertOptions}
    {process : CrashedProcess}
    (prepared : prepare reader files parse input options = .ok process) :
    ∃ bytes dump, input = .ok bytes ∧ parse bytes = .ok dump ∧
      run reader files dump bytes options = writeCore process := by
  unfold prepare readProcessFromPath at prepared
  simp only [bind_eq_ok, mapError_eq_ok] at prepared
  obtain ⟨process, ⟨bytes, found, dump, parsed, read⟩, injected⟩ := prepared
  refine ⟨bytes, dump, found, parsed, ?_⟩
  unfold augmented at injected
  unfold run
  rw [read, ok_bind]
  cases outcome : augmentProcess process with
  | error failure left => rw [outcome] at injected; contradiction
  | ok value after =>
      rw [outcome] at injected
      obtain rfl := pure_eq_ok.mp injected
      rfl

section RunTo

variable
  {reader : MinidumpReader}
  {files : FileSystem}
  {parse : List UInt8 → Except Cause Minidump}
  {input : Except Cause (List UInt8)}
  {options : ConvertOptions}
  {output : Output Cause}
  {before after : output.sink.State}

/-- A program that succeeds has written the image. -/
theorem runTo_ok
    (ran : runTo reader files parse input options output before = .ok () after) :
    ∃ bytes dump image, input = .ok bytes ∧ parse bytes = .ok dump ∧
      run reader files dump bytes options = .ok image ∧
      output.sink.received after = output.start before ++ image := by
  unfold runTo at ran
  obtain ⟨process, _, loaded, ran⟩ := stateBind_eq_ok.mp ran
  obtain ⟨prepared, rfl⟩ := liftState_eq_ok.mp loaded
  obtain ⟨_, opened, created, ran⟩ := stateBind_eq_ok.mp ran
  obtain ⟨_, written, wrote, ran⟩ := stateBind_eq_ok.mp ran
  have begun := output.created _ _ (liftCause_eq_ok.mp created)
  obtain ⟨collected, received⟩ := collect_of_runBuffered_ok wrote
  obtain ⟨bytes, dump, found, parsed, image⟩ := prepare_ok prepared
  refine ⟨bytes, dump, (emitCore process).bytes, found, parsed, ?_, ?_⟩
  · rw [image, ← collect_emitCore]
    exact collected
  · rw [output.flushed _ _ (liftCause_eq_ok.mp ran), received, begun, Output.start]

/-- What a failed program leaves behind when it had turned to the output. -/
def Leaves
    (process : CrashedProcess)
    (output : Output Cause)
    (before after : output.sink.State) : Fault ⊕ Cause → Prop
  | .inl fault => writeCore process = .error fault ∧
      ∃ front, front.length ≤ headersSize process ∧
        output.sink.received after = output.start before ++ front
  | .inr _ => output.sink.received after = output.sink.received before ∨
      ∃ front, output.sink.received after = output.start before ++ front ∧
        ∀ image, writeCore process = .ok image → front <+: image

/-- A program that fails has not touched the output, or it has written a part. -/
theorem runTo_error
    {failure : Fault ⊕ Cause}
    (ran : runTo reader files parse input options output before =
      .error failure after) :
    (prepare reader files parse input options = .error failure ∧ after = before) ∨
      ∃ process, prepare reader files parse input options = .ok process ∧
        Leaves process output before after failure := by
  unfold runTo at ran
  rcases stateBind_eq_error.mp ran with unprepared | ⟨process, _, loaded, ran⟩
  · obtain ⟨failed, rfl⟩ := liftState_eq_error.mp unprepared
    exact Or.inl ⟨failed, rfl⟩
  obtain ⟨prepared, rfl⟩ := liftState_eq_ok.mp loaded
  refine Or.inr ⟨process, prepared, ?_⟩
  rcases stateBind_eq_error.mp ran with uncreated | ⟨_, opened, created, ran⟩
  · obtain ⟨cause, rfl, failed⟩ := liftCause_eq_error.mp uncreated
    exact Or.inl (output.notCreated _ _ _ failed)
  have begun : output.sink.received opened = output.start before :=
    output.created _ _ (liftCause_eq_ok.mp created)
  have whole := collect_emitCore process
  rcases stateBind_eq_error.mp ran with unwritten | ⟨_, written, wrote, ran⟩
  · cases failure with
    | inl fault =>
        obtain ⟨failed, front, cut, received⟩ :=
          received_of_runBuffered_failure unwritten
        refine ⟨?_, front, ?_, by rw [received, begun]⟩
        · rw [← whole, Emission.collect, failed]
          rfl
        · exact cut.length_le.trans (failsWithin_emitCore process fault failed)
    | inr cause =>
        obtain ⟨front, cut, received⟩ := received_of_runBuffered_cause unwritten
        refine Or.inr ⟨front, by rw [received, begun], fun image imaged => ?_⟩
        rwa [← (Emission.collect_eq_ok.mp (whole.trans imaged)).2]
  · obtain ⟨cause, rfl, failed⟩ := liftCause_eq_error.mp ran
    obtain ⟨_, received⟩ := collect_of_runBuffered_ok wrote
    refine Or.inr ⟨(emitCore process).bytes, ?_, fun image imaged => ?_⟩
    · rw [output.notFlushed _ _ _ failed, received, begun]
    · rw [(Emission.collect_eq_ok.mp (whole.trans imaged)).2]

end RunTo

/-- A file on a disk with room for a number of bytes. -/
def diskFile (room : Nat) : Output Unit where
  sink := boundedSink room
  truncates := true
  create := fun _ => .ok () []
  flush := fun before => .ok () before
  created := by
    intro before after created
    cases created
    rfl
  notCreated := fun _ _ _ failed => nomatch failed
  flushed := by
    intro before after flushed
    cases flushed
    rfl
  notFlushed := fun _ _ _ failed => nomatch failed

end Md2Core
