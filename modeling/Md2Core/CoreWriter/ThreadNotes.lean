import Md2Core.CoreWriter
import Md2Core.Foundation.RecordStream

/-!
# The thread notes of a core image

A consumer walks the note segment note by note. This module determines the notes
that the walk yields and shows that they report every thread with a context
once, the crashing thread first.
-/

namespace Md2Core

open Foundation

/-! ## What the writer appends -/

/-- Notes appended to an output, all of them readable. -/
structure Appends (out : List UInt8) (notes : List ElfNote)
    (result : List UInt8) : Prop where
  written : result = out ++ notes.flatMap ElfNote.encode
  fits : ∀ note ∈ notes, note.Fits

theorem Appends.refl (out : List UInt8) : Appends out [] out :=
  ⟨(List.append_nil out).symm, by simp⟩

theorem Appends.append
    {out between result : List UInt8}
    {front back : List ElfNote}
    (first : Appends out front between)
    (second : Appends between back result) :
    Appends out (front ++ back) result := by
  refine ⟨?_, List.forall_mem_append.mpr ⟨first.fits, second.fits⟩⟩
  rw [second.written, first.written, List.flatMap_append, List.append_assoc]

/-- A pushed note is the given one. -/
theorem pushNote_ok
    {name desc out result : List UInt8}
    {nType : UInt32}
    (terminated : name.getLast? = some 0)
    (succeeded : pushNote name nType desc out = .ok result) :
    Appends out [⟨name, nType.toNat, desc⟩] result := by
  obtain ⟨note, built, appended⟩ := bind_eq_ok.mp succeeded
  obtain rfl := pure_eq_ok.mp appended
  obtain ⟨rfl, fits⟩ := Note.build_eq_ok terminated built
  exact ⟨by simp, by simpa using fits⟩

theorem pushOptionalNote_ok
    {name out result : List UInt8}
    {nType : UInt32}
    {desc : Option (List UInt8)}
    (terminated : name.getLast? = some 0)
    (succeeded : pushOptionalNote name nType desc out = .ok result) :
    Appends out (desc.map (ElfNote.mk name nType.toNat)).toList result := by
  cases desc with
  | none =>
      obtain rfl := pure_eq_ok.mp succeeded
      exact .refl out
  | some payload => exact pushNote_ok terminated succeeded

/-- What the notes of one thread report. -/
structure ThreadReport where
  tid : UInt32
  signal : Int32
  context : MinidumpRawContext

namespace ThreadReport

variable (architecture : Architecture) (report : ThreadReport)

/-- The registers of a report, whose context is one of the architecture. -/
def regs : List UInt8 :=
  (toPrReg architecture report.context).toOption.getD []

/-- The `NT_PRSTATUS` note of a report. -/
def prstatus : ElfNote :=
  ⟨coreName, ntPrstatus.toNat,
    buildPrstatus architecture report.tid report.signal
      (report.regs architecture)
      (toFpregset architecture report.context).isSome⟩

/-- The floating-point notes of a report. -/
def floatNotes : List ElfNote :=
  ((toFpregset architecture report.context).map
    (ElfNote.mk coreName ntFpregset.toNat)).toList ++
  ((toPrxfpreg architecture report.context).map
    (ElfNote.mk linuxName ntPrxfpreg.toNat)).toList

/-- The notes of a report. -/
def notes : List ElfNote :=
  report.prstatus architecture :: report.floatNotes architecture

end ThreadReport

/-- The reports of threads from a position on: position 0 carries the fatal
signal and prefers the context of the exception record. -/
def reportsFrom (process : CrashedProcess) :
    Nat → List ThreadSnapshot → List ThreadReport
  | _, [] => []
  | index, thread :: rest =>
      let signal := if index = 0 then process.fatalSignal else 0
      let contextOverride :=
        if index = 0 then process.exceptionContext else none
      ((contextOverride.or thread.context).map
        (ThreadReport.mk thread.tid signal)).toList ++
        reportsFrom process (index + 1) rest

/-- The reports of a process in the order of the notes. -/
def CrashedProcess.reports (process : CrashedProcess) : List ThreadReport :=
  reportsFrom process 0 (orderedThreads process.crashingTid process.threads)

theorem writeThreadNotes_ok
    {architecture : Architecture}
    {thread : ThreadSnapshot}
    {signal : Int32}
    {contextOverride : Option MinidumpRawContext}
    {out result : List UInt8}
    (succeeded : writeThreadNotes architecture thread signal contextOverride
      out = .ok result) :
    let reports := ((contextOverride.or thread.context).map
      (ThreadReport.mk thread.tid signal)).toList
    Appends out (reports.flatMap (·.notes architecture)) result ∧
      ∀ report ∈ reports,
        toPrReg architecture report.context = .ok (report.regs architecture) := by
  unfold writeThreadNotes at succeeded
  cases chosen : contextOverride.or thread.context with
  | none =>
      rw [chosen] at succeeded
      obtain rfl := pure_eq_ok.mp succeeded
      exact ⟨.refl out, by simp⟩
  | some context =>
      rw [chosen] at succeeded
      simp only [bind_eq_ok] at succeeded
      obtain ⟨regs, regsOk, _, statusOk, _, fpOk, xfpOk⟩ := succeeded
      have regsValue : ThreadReport.regs architecture
          ⟨thread.tid, signal, context⟩ = regs := by
        rw [ThreadReport.regs, regsOk]
        rfl
      have status := pushNote_ok rfl statusOk
      have fp := pushOptionalNote_ok rfl fpOk
      have xfp := pushOptionalNote_ok rfl xfpOk
      refine ⟨?_, by simpa [regsValue] using regsOk⟩
      have all := status.append (fp.append xfp)
      simpa [ThreadReport.notes, ThreadReport.prstatus,
        ThreadReport.floatNotes, regsValue] using all

/-- The notes of all threads are those of their reports. -/
theorem pushThreads_ok
    {process : CrashedProcess}
    {index : Nat}
    {threads : List ThreadSnapshot}
    {out result : List UInt8}
    (succeeded : pushThreads process index threads out = .ok result) :
    Appends out ((reportsFrom process index threads).flatMap
        (·.notes process.architecture)) result ∧
      ∀ report ∈ reportsFrom process index threads,
        toPrReg process.architecture report.context =
          .ok (report.regs process.architecture) := by
  induction threads generalizing index out with
  | nil =>
      obtain rfl := pure_eq_ok.mp succeeded
      exact ⟨.refl out, by simp [reportsFrom]⟩
  | cons thread rest inductionHypothesis =>
      obtain ⟨between, first, others⟩ := bind_eq_ok.mp succeeded
      obtain ⟨firstNotes, firstRegs⟩ := writeThreadNotes_ok first
      obtain ⟨otherNotes, otherRegs⟩ := inductionHypothesis others
      rw [reportsFrom, List.flatMap_append]
      exact ⟨firstNotes.append otherNotes,
        List.forall_mem_append.mpr ⟨firstRegs, otherRegs⟩⟩

/-- The notes in front of the thread notes. -/
def processNotes (process : CrashedProcess) (payload : List UInt8) :
    List ElfNote :=
  [⟨coreName, ntPrpsinfo.toNat,
      buildPrpsinfo process.architecture process.processInfo⟩,
    ⟨coreName, ntAuxv.toNat, process.auxv⟩,
    ⟨coreName, ntFile.toNat, payload⟩]

/-- A walk over the note segment consumes it and yields the process notes and
the notes of the reports. -/
theorem buildNoteSegment_ok
    {process : CrashedProcess}
    {bytes : List UInt8}
    (succeeded : buildNoteSegment process = .ok bytes) :
    ∃ payload,
      buildNtFilePayload process.architecture process.mappings = .ok payload ∧
      readAll readNote bytes = some (processNotes process payload ++
        process.reports.flatMap (·.notes process.architecture)) ∧
      ∀ report ∈ process.reports,
        toPrReg process.architecture report.context =
          .ok (report.regs process.architecture) := by
  unfold buildNoteSegment at succeeded
  simp only [bind_eq_ok] at succeeded
  obtain ⟨_, prpsinfoOk, _, auxvOk, payload, payloadOk, _, fileOk, threadsOk⟩ :=
    succeeded
  obtain ⟨threadNotes, regs⟩ := pushThreads_ok threadsOk
  have all := (((pushNote_ok rfl prpsinfoOk).append
    (pushNote_ok rfl auxvOk)).append (pushNote_ok rfl fileOk)).append threadNotes
  refine ⟨payload, payloadOk, ?_, regs⟩
  have read := @readAll_flatMap UInt8 ElfNote ElfNote readNote ElfNote.encode id
    (processNotes process payload ++
      process.reports.flatMap (·.notes process.architecture))
    (fun note member rest => readNote_encode (all.fits note member) rest)
    (fun note _ => note.encode_ne_nil)
  rw [List.map_id] at read
  rw [all.written]
  exact read

/-! ## Reading the reports -/

/-- The note is an `NT_PRSTATUS`. -/
def isPrstatus (note : ElfNote) : Bool :=
  note.type == 1

section Reading

variable {architecture : Architecture}

/-- The type of a floating-point note is not `NT_PRSTATUS`. -/
theorem ThreadReport.type_of_mem_floatNotes
    {report : ThreadReport}
    {note : ElfNote}
    (member : note ∈ report.floatNotes architecture) :
    note.type ≠ 1 := by
  rcases List.mem_append.mp member with fp | xfp
  · obtain ⟨payload, _, rfl⟩ := Option.map_eq_some_iff.mp
      (Option.mem_toList.mp fp)
    exact (by decide : ntFpregset.toNat ≠ 1)
  · obtain ⟨payload, _, rfl⟩ := Option.map_eq_some_iff.mp
      (Option.mem_toList.mp xfp)
    exact (by decide : ntPrxfpreg.toNat ≠ 1)

/-- Among the notes of reports, the `NT_PRSTATUS` notes are one per report. -/
theorem filter_notes_eq_map_prstatus (reports : List ThreadReport) :
    (reports.flatMap (·.notes architecture)).filter isPrstatus =
      reports.map (·.prstatus architecture) := by
  induction reports with
  | nil => rfl
  | cons report rest inductionHypothesis =>
      have others : (report.floatNotes architecture).filter isPrstatus = [] := by
        rw [List.filter_eq_nil_iff]
        intro note member
        simpa [isPrstatus] using ThreadReport.type_of_mem_floatNotes member
      have status : isPrstatus (report.prstatus architecture) = true := rfl
      rw [List.flatMap_cons, List.filter_append, ThreadReport.notes,
        List.filter_cons_of_pos status, others, inductionHypothesis]
      rfl

/-- The status note of a report is read back. -/
theorem readPrstatus_prstatus
    {report : ThreadReport}
    (matching : toPrReg architecture report.context =
      .ok (report.regs architecture)) :
    readPrstatus architecture.longSize architecture.gregsetSize
        (report.prstatus architecture).desc =
      some ⟨report.signal.toUInt32.toNat,
        (cursig report.signal).toUInt16.toNat, report.tid.toNat,
        report.regs architecture,
        fpvalidFlag (toFpregset architecture report.context).isSome⟩ :=
  readPrstatus_build report.tid report.signal _ (length_of_toPrReg matching)

/-- The notes of reports do not begin with floating-point registers. -/
theorem type_head_notes_ne
    (reports : List ThreadReport) :
    ((reports.flatMap (·.notes architecture))[0]?).map ElfNote.type ≠
      some 2 := by
  cases reports with
  | nil => simp
  | cons report rest =>
      exact (by decide : some ntPrstatus.toNat ≠ some 2)

/-- A status note is followed by floating-point registers exactly when its
report has them. -/
theorem type_next_eq_iff
    (report : ThreadReport)
    (rest : List ThreadReport) :
    ((report.floatNotes architecture ++
        rest.flatMap (·.notes architecture))[0]?).map ElfNote.type = some 2 ↔
      fpvalidFlag (toFpregset architecture report.context).isSome = 1 := by
  have notBehind := @type_head_notes_ne architecture rest
  unfold ThreadReport.floatNotes
  cases toFpregset architecture report.context with
  | some fp =>
      exact ⟨fun _ => rfl, fun _ => (by decide : some ntFpregset.toNat = some 2)⟩
  | none =>
      refine ⟨fun follows => absurd follows ?_, fun marked => absurd marked ?_⟩
      · cases toPrxfpreg architecture report.context with
        | none => exact notBehind
        | some xfp => exact (by decide : some ntPrxfpreg.toNat ≠ some 2)
      · decide

/-- Every status note is marked by whether floating-point registers follow. -/
theorem fpvalid_marks_next
    {reports : List ThreadReport}
    (matching : ∀ report ∈ reports, toPrReg architecture report.context =
      .ok (report.regs architecture))
    {index : Nat}
    {note : ElfNote}
    (found : (reports.flatMap (·.notes architecture))[index]? = some note)
    (status : note.type = 1) :
    ∃ prstatus, readPrstatus architecture.longSize architecture.gregsetSize
        note.desc = some prstatus ∧
      (prstatus.fpvalid = 1 ↔
        ((reports.flatMap (·.notes architecture))[index + 1]?).map
          ElfNote.type = some 2) := by
  induction reports generalizing index with
  | nil => simp at found
  | cons report rest inductionHypothesis =>
      rw [List.flatMap_cons, ThreadReport.notes, List.cons_append] at found ⊢
      cases index with
      | zero =>
          obtain rfl : report.prstatus architecture = note := by
            simpa using found
          refine ⟨_, readPrstatus_prstatus (matching report List.mem_cons_self),
            ?_⟩
          rw [List.getElem?_cons_succ, type_next_eq_iff]
      | succ index =>
          rw [List.getElem?_cons_succ] at found ⊢
          by_cases inFloat : index < (report.floatNotes architecture).length
          · rw [List.getElem?_append_left inFloat] at found
            exact absurd status (ThreadReport.type_of_mem_floatNotes
              (List.mem_of_getElem? found))
          · rw [Nat.not_lt] at inFloat
            rw [List.getElem?_append_right inFloat] at found
            rw [List.getElem?_append_right (Nat.le_succ_of_le inFloat),
              Nat.succ_sub inFloat]
            exact inductionHypothesis
              (fun other member => matching other
                (List.mem_cons_of_mem _ member)) found

end Reading

/-! ## Every thread once, the crashing thread first -/

/-- The context of a thread: the exception record overrides that of the
crashing thread. -/
def CrashedProcess.contextOf
    (process : CrashedProcess)
    (thread : ThreadSnapshot) : Option MinidumpRawContext :=
  if some thread.tid = process.crashingTid then
    process.exceptionContext.or thread.context
  else
    thread.context

/-- The crashing thread, then the others in list order. -/
def CrashedProcess.crashFirst (process : CrashedProcess) :
    List ThreadSnapshot :=
  process.threads.filter
      (fun thread => decide (some thread.tid = process.crashingTid)) ++
    process.threads.filter
      (fun thread => decide (some thread.tid ≠ process.crashingTid))

/-- What the thread notes are to report: the id and the context of every thread
that has one. -/
def CrashedProcess.threadContexts (process : CrashedProcess) :
    List (UInt32 × MinidumpRawContext) :=
  process.crashFirst.filterMap fun thread =>
    (process.contextOf thread).map (thread.tid, ·)

/-- With distinct ids, finding the first thread with an id finds all of them. -/
theorem toList_find?_eq_filter
    {threads : List ThreadSnapshot}
    (tid : UInt32)
    (distinct : (threads.map (·.tid)).Nodup) :
    (threads.find? fun thread => thread.tid == tid).toList =
      threads.filter fun thread => decide (some thread.tid = some tid) := by
  induction threads with
  | nil => rfl
  | cons thread rest inductionHypothesis =>
      rw [List.map_cons, List.nodup_cons] at distinct
      by_cases here : thread.tid = tid
      · have others : rest.filter
            (fun thread => decide (some thread.tid = some tid)) = [] := by
          rw [List.filter_eq_nil_iff]
          intro other member
          simp only [Option.some.injEq, decide_eq_true_eq]
          intro same
          exact distinct.1 (List.mem_map.mpr ⟨other, member, same.trans here.symm⟩)
        rw [List.find?_cons_of_pos (by simpa using here),
          List.filter_cons_of_pos (by simpa using here), others]
        rfl
      · rw [List.find?_cons_of_neg (by simpa using here),
          List.filter_cons_of_neg (by simpa using here),
          inductionHypothesis distinct.2]

/-- With distinct ids, the threads are ordered crashing thread first. -/
theorem orderedThreads_eq_crashFirst
    {process : CrashedProcess}
    (distinct : (process.threads.map (·.tid)).Nodup) :
    orderedThreads process.crashingTid process.threads =
      process.crashFirst := by
  unfold orderedThreads CrashedProcess.crashFirst
  cases process.crashingTid with
  | none => simp
  | some tid =>
      rw [← toList_find?_eq_filter tid distinct]

/-- A listed thread with the crashing id comes first. -/
theorem orderedThreads_of_listed
    {crashing : Option UInt32}
    {threads : List ThreadSnapshot}
    {thread : ThreadSnapshot}
    (member : thread ∈ threads)
    (listed : some thread.tid = crashing) :
    ∃ first, some first.tid = crashing ∧
      orderedThreads crashing threads = first :: threads.filter
        (fun other => decide (some other.tid ≠ crashing)) := by
  subst listed
  have isSome : (threads.find? fun other => other.tid == thread.tid).isSome :=
    List.find?_isSome.mpr ⟨thread, member, by simp⟩
  obtain ⟨first, found⟩ := Option.isSome_iff_exists.mp isSome
  have firstTid : first.tid = thread.tid := by
    simpa using List.find?_some found
  refine ⟨first, congrArg some firstTid, ?_⟩
  simp only [orderedThreads, found, Option.toList_some, List.singleton_append]

theorem CrashedProcess.contextOf_of_ne
    {process : CrashedProcess}
    {thread : ThreadSnapshot}
    (different : some thread.tid ≠ process.crashingTid) :
    process.contextOf thread = thread.context := by
  rw [CrashedProcess.contextOf, if_neg different]

/-- Behind position 0, and without an exception context, every thread reports
its own context. -/
theorem reportsFrom_own
    {process : CrashedProcess}
    {index : Nat}
    (own : index ≠ 0 ∨ process.exceptionContext = none)
    (threads : List ThreadSnapshot) :
    (reportsFrom process index threads).map
        (fun report => (report.tid, report.context)) =
      threads.filterMap fun thread =>
        thread.context.map (thread.tid, ·) := by
  induction threads generalizing index with
  | nil => rfl
  | cons thread rest inductionHypothesis =>
      have override : (if index = 0 then process.exceptionContext else none) =
          none := by
        rcases own with behind | absent
        · rw [if_neg behind]
        · rw [absent, ite_self]
      rw [reportsFrom, List.map_append, override, Option.none_or,
        inductionHypothesis (Or.inl (Nat.succ_ne_zero index)),
        List.filterMap_cons]
      cases thread.context <;> rfl

/-- The reports are those of every thread with a context, the crashing thread
first. -/
theorem reports_eq_threadContexts
    {process : CrashedProcess}
    (distinct : (process.threads.map (·.tid)).Nodup)
    (listed : ∀ tid, process.crashingTid = some tid →
      tid ∈ process.threads.map (·.tid))
    (attributed : process.exceptionContext.isSome →
      process.crashingTid.isSome) :
    process.reports.map (fun report => (report.tid, report.context)) =
      process.threadContexts := by
  rw [CrashedProcess.reports, orderedThreads_eq_crashFirst distinct]
  unfold CrashedProcess.threadContexts
  cases crashing : process.crashingTid with
  | none =>
      have absent : process.exceptionContext = none := by
        rw [crashing] at attributed
        simpa using attributed
      rw [reportsFrom_own (Or.inr absent)]
      apply List.filterMap_congr
      intro thread _
      rw [CrashedProcess.contextOf_of_ne (by simp [crashing])]
  | some tid =>
      obtain ⟨thread, member, tidValue⟩ := List.mem_map.mp (listed tid crashing)
      obtain ⟨first, isCrashing, order⟩ := orderedThreads_of_listed member
        (show some thread.tid = process.crashingTid by rw [crashing, tidValue])
      rw [orderedThreads_eq_crashFirst distinct] at order
      have others : (process.threads.filter fun thread =>
            decide (some thread.tid ≠ process.crashingTid)).filterMap
              (fun thread => (process.contextOf thread).map (thread.tid, ·)) =
          (process.threads.filter fun thread =>
            decide (some thread.tid ≠ process.crashingTid)).filterMap
              (fun thread => thread.context.map (thread.tid, ·)) := by
        apply List.filterMap_congr
        intro thread inOthers
        rw [CrashedProcess.contextOf_of_ne
          (by simpa using (List.mem_filter.mp inOthers).2)]
      rw [order, reportsFrom, List.map_append, if_pos rfl, if_pos rfl,
        reportsFrom_own (Or.inl (Nat.succ_ne_zero 0)), List.filterMap_cons,
        CrashedProcess.contextOf, if_pos isCrashing, others]
      cases process.exceptionContext.or first.context <;> rfl

/-- A walk over the note segment consumes it exactly. It yields `NT_PRPSINFO`,
`NT_AUXV` and `NT_FILE`, then the thread notes, among which there is one
`NT_PRSTATUS` for every thread with a context, the crashing thread first, with
its id and its registers. Each of them is marked by whether floating-point
registers follow. -/
theorem buildNoteSegment_reports
    (process : CrashedProcess)
    (bytes : List UInt8)
    (distinct : (process.threads.map (·.tid)).Nodup)
    (listed : ∀ tid, process.crashingTid = some tid →
      tid ∈ process.threads.map (·.tid))
    (attributed : process.exceptionContext.isSome →
      process.crashingTid.isSome)
    (succeeded : buildNoteSegment process = .ok bytes) :
    let long := process.architecture.longSize
    let gregsetSize := process.architecture.gregsetSize
    ∃ (payload : List UInt8) (threadNotes : List ElfNote),
      buildNtFilePayload process.architecture process.mappings = .ok payload ∧
      readAll readNote bytes = some
        (⟨coreName, ntPrpsinfo.toNat,
            buildPrpsinfo process.architecture process.processInfo⟩ ::
          ⟨coreName, ntAuxv.toNat, process.auxv⟩ ::
          ⟨coreName, ntFile.toNat, payload⟩ :: threadNotes) ∧
      (threadNotes.filter isPrstatus).map (fun note =>
          (readPrstatus long gregsetSize note.desc).map fun prstatus =>
            (prstatus.pid, (Except.ok prstatus.reg : Result (List UInt8)))) =
        process.threadContexts.map (fun (tid, context) =>
          some (tid.toNat, toPrReg process.architecture context)) ∧
      ∀ (index : Nat) (note : ElfNote), threadNotes[index]? = some note →
        note.type = ntPrstatus.toNat →
          ∃ prstatus, readPrstatus long gregsetSize note.desc =
              some prstatus ∧
            (prstatus.fpvalid = 1 ↔
              (threadNotes[index + 1]?).map ElfNote.type =
                some ntFpregset.toNat) := by
  obtain ⟨payload, payloadOk, walk, matching⟩ := buildNoteSegment_ok succeeded
  refine ⟨payload,
    process.reports.flatMap (ThreadReport.notes process.architecture),
    payloadOk, walk, ?_, ?_⟩
  · rw [filter_notes_eq_map_prstatus,
      ← reports_eq_threadContexts distinct listed attributed, List.map_map,
      List.map_map]
    apply List.map_congr_left
    intro report member
    simp only [Function.comp_apply, readPrstatus_prstatus (matching report member),
      Option.map_some, matching report member]
  · intro index note found status
    exact fpvalid_marks_next matching found status

/-- Two threads of a 32-bit ARM process, the second one crashing with an
exception context. -/
def sampleThreads : CrashedProcess :=
  let context : MinidumpRawContext := .arm ⟨Vector.replicate 16 1, 2⟩
  { CrashedProcess.new .arm with
    threads := [⟨7, 0, [], some context⟩, ⟨9, 0, [], none⟩]
    crashingTid := some 9
    exceptionContext := some context
    fatalSignal := 11 }

/-- The notes of the two threads are walked. -/
theorem buildNoteSegment_reports_sample :
    ∃ (bytes payload : List UInt8) (threadNotes : List ElfNote),
      buildNoteSegment sampleThreads = .ok bytes ∧
      readAll readNote bytes = some
        (⟨coreName, ntPrpsinfo.toNat,
            buildPrpsinfo .arm sampleThreads.processInfo⟩ ::
          ⟨coreName, ntAuxv.toNat, []⟩ ::
          ⟨coreName, ntFile.toNat, payload⟩ :: threadNotes) ∧
      (threadNotes.filter isPrstatus).map (fun note =>
          (readPrstatus 4 72 note.desc).map fun prstatus =>
            (prstatus.pid, (Except.ok prstatus.reg : Result (List UInt8)))) =
        sampleThreads.threadContexts.map (fun (tid, context) =>
          some (tid.toNat, toPrReg .arm context)) := by
  obtain ⟨bytes, succeeded⟩ : ∃ bytes,
      buildNoteSegment sampleThreads = .ok bytes :=
    exists_ok_of_isOk (by decide +kernel)
  obtain ⟨payload, threadNotes, _, walk, reports, _⟩ :=
    buildNoteSegment_reports sampleThreads bytes (by decide)
      (by
        intro tid crashing
        obtain rfl := Option.some.inj crashing
        decide)
      (by decide) succeeded
  exact ⟨bytes, payload, threadNotes, succeeded, walk, reports⟩

end Md2Core
