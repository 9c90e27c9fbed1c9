import Md2Core.CoreWriter.CrashAttribution
import Md2Core.Main
import Md2Core.Regs.GeneralRegisters

/-!
# The threads of a converted core

A debugger that opens a converted core finds every thread that the minidump has a
context of, once and the crashing thread first. The crashing thread has the fatal
signal and the registers of the crash, every other thread its own registers and no
signal.
-/

namespace Md2Core

open Foundation

/-! ## Signals -/

section Signals

variable {process : CrashedProcess}

/-- The fatal signal is that of the crashing thread. -/
def CrashedProcess.signalOf (process : CrashedProcess) (tid : UInt32) : Int32 :=
  if some tid = process.crashingTid then process.fatalSignal else 0

/-- Behind position 0 no thread is reported with a signal. -/
theorem signal_of_mem_reportsFrom_succ
    {index : Nat}
    {threads : List ThreadSnapshot}
    {report : ThreadReport}
    (member : report ∈ reportsFrom process (index + 1) threads) :
    report.signal = 0 ∧ ∃ thread ∈ threads, thread.tid = report.tid := by
  rw [reportsFrom_succ] at member
  obtain ⟨thread, inThreads, reported⟩ := List.mem_filterMap.mp member
  obtain ⟨context, _, rfl⟩ := Option.map_eq_some_iff.mp reported
  exact ⟨rfl, thread, inThreads, rfl⟩

/-- A listed crashing thread is reported with the fatal signal, and no other one. -/
theorem signal_of_listed
    {thread : ThreadSnapshot}
    {report : ThreadReport}
    (member : thread ∈ process.threads)
    (crashing : some thread.tid = process.crashingTid)
    (reported : report ∈ process.reports) :
    report.signal = process.signalOf report.tid := by
  obtain ⟨first, isCrashing, order⟩ := orderedThreads_of_listed member crashing
  rw [CrashedProcess.reports, order, reportsFrom] at reported
  rcases List.mem_append.mp reported with atFirst | behind
  · obtain ⟨context, _, rfl⟩ := Option.map_eq_some_iff.mp
      (Option.mem_toList.mp atFirst)
    exact (if_pos isCrashing).symm
  · obtain ⟨signal, other, inOthers, tid⟩ := signal_of_mem_reportsFrom_succ behind
    have different := of_decide_eq_true (List.mem_filter.mp inOthers).2
    rw [signal, CrashedProcess.signalOf, if_neg (tid ▸ different)]

/-- Without a fatal signal no thread is reported with one. -/
theorem signal_of_quiet
    {report : ThreadReport}
    (quiet : process.fatalSignal = 0)
    (reported : report ∈ process.reports) :
    report.signal = process.signalOf report.tid := by
  have none : process.signalOf report.tid = 0 := by
    rw [CrashedProcess.signalOf, quiet, ite_self]
  rw [none]
  unfold CrashedProcess.reports at reported
  cases order : orderedThreads process.crashingTid process.threads with
  | nil =>
      rw [order] at reported
      contradiction
  | cons first rest =>
      rw [order, reportsFrom] at reported
      rcases List.mem_append.mp reported with atFirst | behind
      · obtain ⟨context, _, rfl⟩ := Option.map_eq_some_iff.mp
          (Option.mem_toList.mp atFirst)
        exact quiet
      · exact (signal_of_mem_reportsFrom_succ behind).1

end Signals

/-! ## Registers -/

/-- What is read of a thread is its id, a signal and the registers of a context. -/
structure ThreadStatus.Shows
    (status : ThreadStatus)
    (architecture : Architecture)
    (tid : UInt32)
    (signal : Int32)
    (context : MinidumpRawContext) : Prop where
  pid : status.prstatus.pid = tid.toNat
  signo : status.prstatus.signo = signal.toUInt32.toNat
  registers : ∀ register,
    readRegister architecture status.prstatus.reg register =
      (context.register register).map (· % 256 ^ architecture.longSize)

/-- The status of a report shows it. -/
theorem ThreadReport.shows_status
    {architecture : Architecture}
    {report : ThreadReport}
    (matching : toPrReg architecture report.context =
      .ok (report.regs architecture)) :
    (report.status architecture).Shows architecture report.tid report.signal
      report.context :=
  ⟨rfl, rfl, readRegister_of_toPrReg matching⟩

/-- In the statuses of the reports, every thread with a context is shown once, the
crashing thread first. -/
theorem shows_threadContexts
    {process : CrashedProcess}
    (distinct : (process.threads.map (·.tid)).Nodup)
    (listed : ∀ tid, process.crashingTid = some tid →
      tid ∈ process.threads.map (·.tid))
    (attributed : process.exceptionContext.isSome → process.crashingTid.isSome)
    (quiet : process.crashingTid = none → process.fatalSignal = 0)
    (matching : ∀ report ∈ process.reports,
      toPrReg process.architecture report.context =
        .ok (report.regs process.architecture)) :
    List.Forall₂ (fun thread status =>
        ThreadStatus.Shows status process.architecture thread.1
          (process.signalOf thread.1) thread.2)
      process.threadContexts
      (process.reports.map (·.status process.architecture)) := by
  rw [← reports_eq_threadContexts distinct listed attributed,
    List.forall₂_map_left_iff, List.forall₂_map_right_iff, List.forall₂_same]
  intro report member
  have signal : report.signal = process.signalOf report.tid := by
    cases crashing : process.crashingTid with
    | none => exact signal_of_quiet (quiet crashing) member
    | some tid =>
        obtain ⟨thread, inThreads, same⟩ := List.mem_map.mp (listed tid crashing)
        exact signal_of_listed inThreads (by rw [crashing, same]) member
  rw [← signal]
  exact ThreadReport.shows_status (matching report member)

/-- The threads of a converted core are those that the minidump has a context of,
each once and the crashing thread first. A debugger reads the fatal signal and the
registers of the exception, if it has any, from the crashing thread, and from every
other thread its own registers and no signal. -/
theorem run_threads
    (reader : MinidumpReader)
    (files : FileSystem)
    (dump : Minidump)
    (fullFile : List UInt8)
    (options : ConvertOptions)
    (image : List UInt8)
    (distinct : ((dump.snapshots reader).map (·.tid)).Nodup)
    (listed : ∀ exception, dump.exception = some exception →
      exception.threadId ∈ (dump.snapshots reader).map (·.tid))
    (converted : run reader files dump fullFile options = .ok image) :
    ∃ process auxv,
      readProcessFromMinidump reader files dump fullFile options =
        .ok process ∧
      dump.Assembles reader options auxv process ∧
      ∃ core, decodeCore image = some core ∧
        core.architecture = process.architecture ∧
        List.Forall₂ (fun thread status =>
            ThreadStatus.Shows status core.architecture thread.1
              (process.signalOf thread.1) thread.2)
          process.threadContexts core.threads := by
  obtain ⟨process, captures, augmented, auxv, read, assembles, _, _, augments,
    written⟩ := stages_of_run converted
  obtain ⟨files, decoded, _⟩ := augments.exists_decodeCore written
  refine ⟨process, auxv, read, assembles, _, decoded, rfl, ?_⟩
  apply shows_threadContexts
  · rwa [assembles.threads]
  · intro tid crashing
    rw [assembles.crashingTid] at crashing
    obtain ⟨exception, raised, rfl⟩ := Option.map_eq_some_iff.mp crashing
    rw [assembles.threads]
    exact listed exception raised
  · rw [assembles.exceptionContext, assembles.crashingTid, Option.isSome_map]
    intro overridden
    obtain ⟨context, found⟩ := Option.isSome_iff_exists.mp overridden
    obtain ⟨exception, raised, _⟩ := Option.bind_eq_some_iff.mp found
    rw [raised]
    rfl
  · rw [assembles.crashingTid, assembles.fatalSignal]
    intro absent
    rw [Option.map_eq_none_iff.mp absent]
    rfl
  · obtain ⟨mappings, _, rfl⟩ := augments
    obtain ⟨_, _, _, notesOk, _⟩ := writeCore_ok written
    obtain ⟨_, _, _, matching⟩ := buildNoteSegment_ok notesOk
    rw [CrashedProcess.reports, reportsFrom_mappings] at matching
    exact matching

/-- The thread of the sample minidump is shown with the signal and the program counter
of its exception. -/
theorem run_threads_sample :
    ∃ image core status, run sampleReader (fun _ => none) sampleDump []
        plainOptions = .ok image ∧
      decodeCore image = some core ∧
      core.threads = [status] ∧
      status.prstatus.pid = 7 ∧
      status.prstatus.signo = 11 ∧
      readRegister core.architecture status.prstatus.reg .programCounter =
        some 3 := by
  obtain ⟨image, converted⟩ : ∃ image,
      run sampleReader (fun _ => none) sampleDump [] plainOptions = .ok image :=
    exists_ok_of_isOk (by decide +kernel)
  obtain ⟨process, _, read, _, core, decoded, sameArchitecture, threads⟩ :=
    run_threads _ _ _ _ _ _ (by decide)
      (by
        intro exception raised
        obtain rfl := Option.some.inj raised
        decide)
      converted
  have evaluated : (readProcessFromMinidump sampleReader (fun _ => none) sampleDump
      [] plainOptions).map (fun process =>
        (process.architecture, process.threadContexts, process.signalOf 7)) =
      .ok (.arm, [(7, .arm ⟨Vector.replicate 16 3, 4⟩)], 11) := by
    decide +kernel
  simp only [read, Except.map, Except.ok.injEq, Prod.mk.injEq] at evaluated
  obtain ⟨architecture, contexts, signal⟩ := evaluated
  rw [contexts] at threads
  obtain ⟨status, rest, shows, none, both⟩ := List.forall₂_cons_left_iff.mp threads
  obtain rfl := List.forall₂_nil_left_iff.mp none
  rw [signal] at shows
  refine ⟨image, core, status, converted, decoded, both, shows.pid, shows.signo, ?_⟩
  rw [shows.registers, sameArchitecture, architecture]
  rfl

end Md2Core
