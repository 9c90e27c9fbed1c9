import Md2Core.CoreWriter.ThreadNotes

/-!
# Attribution of the crash

The fatal signal and the context of the exception record belong to the crashing
thread. The writer gives them to the first thread of its order, whatever its
thread id is. This module decides exactly when no other thread gets them.
-/

namespace Md2Core

open Foundation

/-- Only the crashing thread carries a signal or registers that are not its
own: every other `NT_PRSTATUS` has signal 0 and the registers of the context
that a listed thread with its id was captured with. -/
def CrashAttributed (process : CrashedProcess) (notes : List ElfNote) : Prop :=
  ∀ note ∈ notes, note.type = ntPrstatus.toNat →
    ∀ prstatus, readPrstatus process.architecture.longSize
        process.architecture.gregsetSize note.desc = some prstatus →
      process.crashingTid.map UInt32.toNat ≠ some prstatus.pid →
        prstatus.signo = 0 ∧ prstatus.cursig = 0 ∧
          ∃ thread ∈ process.threads, thread.tid.toNat = prstatus.pid ∧
            ∃ context, thread.context = some context ∧
              toPrReg process.architecture context = .ok prstatus.reg

/-- The crashing thread is listed; or the first thread gets no status note; or
there is no fatal signal, and the exception context, if there is one, has the
registers of a thread with the id of the first thread. -/
def AttributionSafe (process : CrashedProcess) : Prop :=
  (∃ thread ∈ process.threads, some thread.tid = process.crashingTid) ∨
    ∀ first, process.threads.head? = some first →
      process.exceptionContext.or first.context = none ∨
      (process.fatalSignal = 0 ∧
        ∀ exception, process.exceptionContext = some exception →
          ∃ thread ∈ process.threads, thread.tid = first.tid ∧
            ∃ own, thread.context = some own ∧
              toPrReg process.architecture own =
                toPrReg process.architecture exception)

/-- What a report contributes to the attribution of the crash. -/
def ThreadReport.Attributed
    (process : CrashedProcess)
    (report : ThreadReport) : Prop :=
  process.crashingTid ≠ some report.tid →
    report.signal = 0 ∧
      ∃ thread ∈ process.threads, thread.tid = report.tid ∧
        ∃ context, thread.context = some context ∧
          toPrReg process.architecture context =
            toPrReg process.architecture report.context

/-- The status notes of a walk are those of the reports. -/
theorem mem_notes_prstatus_iff
    {process : CrashedProcess}
    {payload : List UInt8}
    {note : ElfNote} :
    (note ∈ processNotes process payload ++
        process.reports.flatMap (·.notes process.architecture) ∧
      note.type = ntPrstatus.toNat) ↔
      ∃ report ∈ process.reports, report.prstatus process.architecture = note := by
  constructor
  · rintro ⟨member, status⟩
    rcases List.mem_append.mp member with inFront | inThreads
    · simp only [processNotes, List.mem_cons, List.not_mem_nil, or_false]
        at inFront
      rcases inFront with rfl | rfl | rfl
      · exact absurd status (by decide : ntPrpsinfo.toNat ≠ ntPrstatus.toNat)
      · exact absurd status (by decide : ntAuxv.toNat ≠ ntPrstatus.toNat)
      · exact absurd status (by decide : ntFile.toNat ≠ ntPrstatus.toNat)
    · obtain ⟨report, inReports, inNotes⟩ := List.mem_flatMap.mp inThreads
      rcases List.mem_cons.mp inNotes with rfl | inFloat
      · exact ⟨report, inReports, rfl⟩
      · exact absurd status (ThreadReport.type_of_mem_floatNotes inFloat)
  · rintro ⟨report, inReports, rfl⟩
    exact ⟨List.mem_append_right _ (List.mem_flatMap.mpr
      ⟨report, inReports, List.mem_cons_self⟩), rfl⟩

theorem toNat_toUInt32_eq_zero_iff (signal : Int32) :
    signal.toUInt32.toNat = 0 ↔ signal = 0 := by
  rw [← UInt32.toNat_zero, UInt32.toNat_inj]
  exact ⟨congrArg Int32.ofUInt32, congrArg Int32.toUInt32⟩

/-- The crash is attributed in the notes as it is in the reports. -/
theorem crashAttributed_iff_reports
    {process : CrashedProcess}
    {bytes : List UInt8}
    {notes : List ElfNote}
    (succeeded : buildNoteSegment process = .ok bytes)
    (walk : readAll readNote bytes = some notes) :
    CrashAttributed process notes ↔
      ∀ report ∈ process.reports, report.Attributed process := by
  obtain ⟨payload, _, read, matching⟩ := buildNoteSegment_ok succeeded
  rw [walk, Option.some.injEq] at read
  subst read
  constructor
  · intro attributed report member notCrashing
    obtain ⟨inNotes, status⟩ := mem_notes_prstatus_iff.mpr ⟨report, member, rfl⟩
    obtain ⟨signo, _, thread, inThreads, tid, context, own, regs⟩ :=
      attributed _ inNotes status _ (readPrstatus_prstatus (matching report member))
        (by
          intro same
          obtain ⟨crashing, found, value⟩ := Option.map_eq_some_iff.mp same
          rw [UInt32.toNat_inj.mp value] at found
          exact notCrashing found)
    refine ⟨(toNat_toUInt32_eq_zero_iff _).mp signo, thread, inThreads,
      UInt32.toNat_inj.mp tid, context, own, ?_⟩
    rw [regs, matching report member]
  · intro attributed note inNotes status prstatus readBack notCrashing
    obtain ⟨report, member, rfl⟩ := mem_notes_prstatus_iff.mp ⟨inNotes, status⟩
    rw [readPrstatus_prstatus (matching report member),
      Option.some.injEq] at readBack
    subst readBack
    obtain ⟨signal, thread, inThreads, tid, context, own, regs⟩ :=
      attributed report member (by
        intro same
        exact notCrashing (by rw [same, Option.map_some]))
    refine ⟨(toNat_toUInt32_eq_zero_iff _).mpr signal, ?_, thread, inThreads,
      by rw [tid], context, own, ?_⟩
    · rw [signal]
      rfl
    · rw [regs, matching report member]

/-- Behind position 0, every thread reports its own context and no signal. -/
theorem reportsFrom_succ
    (process : CrashedProcess)
    (index : Nat)
    (threads : List ThreadSnapshot) :
    reportsFrom process (index + 1) threads =
      threads.filterMap fun thread =>
        thread.context.map (ThreadReport.mk thread.tid 0) := by
  induction threads generalizing index with
  | nil => rfl
  | cons thread rest inductionHypothesis =>
      rw [reportsFrom, inductionHypothesis, List.filterMap_cons]
      simp only [Nat.add_eq_zero_iff, one_ne_zero, and_false, if_false,
        Option.none_or]
      cases thread.context <;> rfl

/-- Behind position 0, every report is attributed. -/
theorem attributed_of_mem_reportsFrom_succ
    {process : CrashedProcess}
    {index : Nat}
    {threads : List ThreadSnapshot}
    (listed : ∀ thread ∈ threads, thread ∈ process.threads)
    {report : ThreadReport}
    (member : report ∈ reportsFrom process (index + 1) threads) :
    report.Attributed process := by
  rw [reportsFrom_succ] at member
  obtain ⟨thread, inThreads, reported⟩ := List.mem_filterMap.mp member
  obtain ⟨context, own, rfl⟩ := Option.map_eq_some_iff.mp reported
  intro _
  exact ⟨rfl, thread, listed thread inThreads, rfl, context, own, rfl⟩

/-- When the crashing thread is not listed, the threads keep their order. -/
theorem orderedThreads_of_not_listed
    {crashing : Option UInt32}
    {threads : List ThreadSnapshot}
    (absent : ∀ thread ∈ threads, some thread.tid ≠ crashing) :
    orderedThreads crashing threads = threads := by
  have all : threads.filter
      (fun thread => decide (some thread.tid ≠ crashing)) = threads := by
    rw [List.filter_eq_self]
    intro thread member
    exact decide_eq_true (absent thread member)
  unfold orderedThreads
  rw [all]
  cases crashing with
  | none => rfl
  | some tid =>
      have missing : threads.find? (fun thread => thread.tid == tid) = none := by
        rw [List.find?_eq_none]
        intro thread member same
        exact absent thread member (congrArg some (beq_iff_eq.mp same))
      simp only [missing, Option.toList_none, List.nil_append]

/-- When the crashing thread is listed, every report is attributed. -/
theorem attributed_of_listed
    {process : CrashedProcess}
    {thread : ThreadSnapshot}
    (member : thread ∈ process.threads)
    (crashing : some thread.tid = process.crashingTid) :
    ∀ report ∈ process.reports, report.Attributed process := by
  obtain ⟨first, isCrashing, order⟩ := orderedThreads_of_listed member crashing
  intro report inReports
  rw [CrashedProcess.reports, order, reportsFrom] at inReports
  rcases List.mem_append.mp inReports with atFirst | behind
  · obtain ⟨context, _, rfl⟩ := Option.map_eq_some_iff.mp
      (Option.mem_toList.mp atFirst)
    intro notCrashing
    exact absurd isCrashing.symm notCrashing
  · apply attributed_of_mem_reportsFrom_succ _ behind
    intro other inOthers
    exact (List.mem_filter.mp inOthers).1

/-- All reports are attributed exactly when the process is safe. -/
theorem attributed_iff_attributionSafe (process : CrashedProcess) :
    (∀ report ∈ process.reports, report.Attributed process) ↔
      AttributionSafe process := by
  by_cases listed :
      ∃ thread ∈ process.threads, some thread.tid = process.crashingTid
  · obtain ⟨thread, member, crashing⟩ := listed
    exact ⟨fun _ => .inl ⟨thread, member, crashing⟩,
      fun _ => attributed_of_listed member crashing⟩
  · have absent : ∀ thread ∈ process.threads,
        some thread.tid ≠ process.crashingTid :=
      fun thread member crashing => listed ⟨thread, member, crashing⟩
    rw [AttributionSafe, or_iff_right listed, CrashedProcess.reports,
      orderedThreads_of_not_listed absent]
    cases threads : process.threads with
    | nil => simp [reportsFrom]
    | cons first rest =>
        have firstMember : first ∈ process.threads :=
          threads ▸ List.mem_cons_self
        have othersAttributed : ∀ report ∈ reportsFrom process (0 + 1) rest,
            report.Attributed process := fun report behind =>
          attributed_of_mem_reportsFrom_succ (fun other inRest =>
            threads ▸ List.mem_cons_of_mem first inRest) behind
        simp only [reportsFrom, if_true, List.forall_mem_append,
          and_iff_left othersAttributed, List.head?_cons, Option.some.injEq,
          forall_eq']
        simp only [← threads]
        cases chosen : process.exceptionContext.or first.context with
        | none => simp
        | some context =>
            simp only [Option.map_some, Option.toList_some,
              List.forall_mem_singleton, ThreadReport.Attributed, ne_eq,
              Ne.symm (absent first firstMember), not_false_eq_true,
              forall_const, reduceCtorEq, false_or]
            refine and_congr_right fun _ => ?_
            cases exception : process.exceptionContext with
            | none =>
                rw [exception, Option.none_or] at chosen
                simp only [reduceCtorEq, false_implies, implies_true, iff_true]
                exact ⟨first, firstMember, rfl, context, chosen, rfl⟩
            | some override =>
                rw [exception, Option.some_or, Option.some.injEq] at chosen
                subst chosen
                simp

/-- In the notes that a walk over the note segment yields, the crash is
attributed to the crashing thread only, exactly when the process is safe. -/
theorem crashAttributed_iff_attributionSafe
    (process : CrashedProcess)
    (bytes : List UInt8)
    (notes : List ElfNote)
    (succeeded : buildNoteSegment process = .ok bytes)
    (walk : readAll readNote bytes = some notes) :
    CrashAttributed process notes ↔ AttributionSafe process := by
  rw [crashAttributed_iff_reports succeeded walk,
    attributed_iff_attributionSafe process]

/-- A process whose crashing thread is not listed. -/
def sampleUnlisted : CrashedProcess :=
  { CrashedProcess.new .arm with
    threads := [⟨7, 0, [], some (.arm ⟨Vector.replicate 16 1, 2⟩)⟩]
    crashingTid := some 99
    fatalSignal := 11 }

/-- The fatal signal is attributed to a thread that did not crash. -/
theorem exists_crash_misattributed :
    ¬∀ (process : CrashedProcess) (bytes : List UInt8) (notes : List ElfNote),
      buildNoteSegment process = .ok bytes →
        readAll readNote bytes = some notes →
          CrashAttributed process notes := by
  intro always
  obtain ⟨bytes, succeeded⟩ : ∃ bytes,
      buildNoteSegment sampleUnlisted = .ok bytes :=
    exists_ok_of_isOk (by decide +kernel)
  obtain ⟨_, _, walk, _⟩ := buildNoteSegment_ok succeeded
  have attributed := (crashAttributed_iff_reports succeeded walk).mp
    (always sampleUnlisted bytes _ succeeded walk)
  have signal := (attributed
    ⟨7, 11, .arm ⟨Vector.replicate 16 1, 2⟩⟩ List.mem_cons_self
    (by decide)).1
  exact absurd signal (by decide)

/-- A process whose crashing thread is listed meets the equivalence. -/
theorem crashAttributed_iff_attributionSafe_sample :
    ∃ (bytes : List UInt8) (notes : List ElfNote),
      buildNoteSegment sampleThreads = .ok bytes ∧
      readAll readNote bytes = some notes ∧
      (CrashAttributed sampleThreads notes ↔
        AttributionSafe sampleThreads) := by
  obtain ⟨bytes, succeeded⟩ : ∃ bytes,
      buildNoteSegment sampleThreads = .ok bytes :=
    exists_ok_of_isOk (by decide +kernel)
  obtain ⟨_, _, walk, _⟩ := buildNoteSegment_ok succeeded
  exact ⟨bytes, _, succeeded, walk,
    crashAttributed_iff_attributionSafe sampleThreads bytes _ succeeded walk⟩

end Md2Core
