import Md2Core.Augment.Failure
import Md2Core.CoreWriter.Layout

/-!
# Address arithmetic of injections and of the writer

Injections and the segment loop of the writer subtract addresses without a
check. In a table whose mappings have their start below their end, this module
shows that no subtraction or addition underflows or overflows over a sequence of
calls and the writing of the image after it, when the mapping that contains the
address of a blob always starts at or below the page of the address.
-/

namespace Md2Core

open Foundation

/-! ## Sequences of calls -/

/-- One call: the table it leaves when it returns `Ok` or an error, its panic
otherwise. -/
def callReturns
    (mappings : MappingTable)
    (injection : Injection) : Except Panic MappingTable :=
  match addDataToMapping injection.data injection.address defaultPageSize
      mappings with
  | .ok _ after => .ok after
  | .error (.error _) after => .ok after
  | .error (.panic cause) _ => .error cause

/-- Calls one after the other, also after a call that returned an error. -/
def callsReturn : MappingTable → List Injection → Except Panic MappingTable
  | mappings, [] => .ok mappings
  | mappings, injection :: rest => do
      let next ← callReturns mappings injection
      callsReturn next rest

/-- Every call of a sequence meets a condition on the table before it. -/
def AllCalls (allowed : MappingTable → Injection → Prop) :
    MappingTable → List Injection → Prop
  | _, [] => True
  | mappings, injection :: rest =>
      allowed mappings injection ∧
        ∀ next, callReturns mappings injection = .ok next →
          AllCalls allowed next rest

/-- The first mapping that contains the address starts at or below the page of
the address, and the buffer of the blob can be allocated. -/
def StartsBelowPage (mappings : MappingTable) (injection : Injection) : Prop :=
  BufferFits defaultPageSize injection.data injection.address ∧
    ∀ (key : UInt64) (mapping : Mapping),
      containingEntry mappings injection.address = some (key, mapping) →
        key.toNat ≤ roundDown 4096 injection.address.toNat

section Call

variable {before after : MappingTable} {injection : Injection} {fault : Fault}

/-- A successful call that meets the condition leaves a built table. -/
theorem MappingTable.Built.of_ok
    (built : before.Built)
    (allowed : StartsBelowPage before injection)
    (succeeded : addDataToMapping injection.data injection.address
      defaultPageSize before = .ok () after) :
    after.Built := by
  have boundaryLe := pageStart_default_le injection.address
  cases (addDataToMapping_ok succeeded).2 with
  | split key existing chosen shiftable result =>
      apply built.split chosen boundaryLe _ result
      rw [built.keyed key existing (found_of_containingEntry chosen),
        toNat_pageStart_default]
      exact allowed.2 key existing chosen
  | synthetic endAddress uncovered endValue ordered result =>
      exact @MappingTable.Built.insert before after
        (.synthetic (pageStart defaultPageSize injection.address) endAddress
          (injectedBytes defaultPageSize injection.data injection.address))
        built ordered result

/-- A failing call that meets the condition returns an error and leaves a built
table. -/
theorem MappingTable.Built.of_error
    (built : before.Built)
    (allowed : StartsBelowPage before injection)
    (failed : addDataToMapping injection.data injection.address
      defaultPageSize before = .error fault after) :
    fault.IsTyped ∧ after.Built := by
  cases addDataToMapping_error failed with
  | unpadded reason unchanged => exact absurd allowed.1 reason
  | uncovered outside typed unchanged => exact ⟨typed, unchanged ▸ built⟩
  | unshiftable key existing fits chosen backed different reason trimmed =>
      have found := found_of_containingEntry chosen
      have startLe := allowed.2 key existing chosen
      rw [← toNat_pageStart_default] at startLe
      have apart : (pageStart defaultPageSize injection.address).toNat ≠
          key.toNat := fun equal => different (UInt64.toNat_inj.mp equal)
      have result : ∀ other : UInt64, after[other]? =
          if key = other then
            some (existing.lowerPart
              (pageStart defaultPageSize injection.address))
          else before[other]? := by
        intro other
        rw [trimmed, MappingTable.getElem?_modify]
        by_cases there : key = other
        · rw [if_pos there, if_pos there, ← there, found, Option.map_some]
        · rw [if_neg there, if_neg there]
      have keyed := built.keyed key existing found
      constructor
      · rcases reason with ⟨below, _⟩ | ⟨_, _, rfl⟩
        · omega
        · exact ⟨_, rfl⟩
      · constructor
        · apply forall_entries_of_insert built.keyed _ result
          exact keyed
        · apply forall_entries_of_insert built.ordered _ result
          simp only [Mapping.lowerPart, keyed]
          omega

/-- A call that meets the condition returns and leaves a built table. -/
theorem exists_callReturns
    (built : before.Built)
    (allowed : StartsBelowPage before injection) :
    ∃ after, callReturns before injection = .ok after ∧ after.Built := by
  unfold callReturns
  cases outcome : addDataToMapping injection.data injection.address
      defaultPageSize before with
  | ok value after => exact ⟨after, rfl, built.of_ok allowed outcome⟩
  | error fault after =>
      obtain ⟨⟨cause, rfl⟩, stays⟩ := built.of_error allowed outcome
      exact ⟨after, rfl, stays⟩

end Call

/-- A sequence of calls that all meet the condition returns and leaves a built
table. -/
theorem exists_callsReturn
    {mappings : MappingTable}
    {injections : List Injection}
    (built : mappings.Built)
    (allowed : AllCalls StartsBelowPage mappings injections) :
    ∃ after, callsReturn mappings injections = .ok after ∧ after.Built := by
  induction injections generalizing mappings with
  | nil => exact ⟨mappings, rfl, built⟩
  | cons injection rest inductionHypothesis =>
      obtain ⟨first, others⟩ := allowed
      obtain ⟨next, returned, stays⟩ := exists_callReturns built first
      obtain ⟨after, restReturned, kept⟩ :=
        inductionHypothesis stays (others next returned)
      refine ⟨after, ?_, kept⟩
      rw [callsReturn, returned]
      exact restReturned

/-! ## The segment loop -/

theorem elf32Word_error_typed
    {value : UInt64}
    {field : String}
    {fault : Fault}
    (failed : elf32Word value field = .error fault) :
    fault.IsTyped :=
  ⟨_, (okOr_eq_error.mp failed).2.symm⟩

/-- Writing a program header does not panic. -/
theorem ProgramHeader.write_error_typed
    {header : ProgramHeader}
    {elfClass : UInt8}
    {fault : Fault}
    (failed : header.write elfClass = .error fault) :
    fault.IsTyped := by
  unfold ProgramHeader.write at failed
  split at failed
  · exact absurd failed (pure_ne_error _ _)
  · simp only [bind_eq_error, pure_ne_error, and_false, exists_false,
      or_false] at failed
    rcases failed with word | ⟨_, _, word | ⟨_, _, word | ⟨_, _, word |
      ⟨_, _, word | ⟨_, _, word⟩⟩⟩⟩⟩ <;>
      exact elf32Word_error_typed word

/-- The bytes that the mappings carry. -/
def totalDataLength (mappings : List Mapping) : Nat :=
  (mappings.map fun mapping => mapping.data.length).sum

/-- Only a length from `2 ^ 64` on is no `u64`. -/
theorem le_length_of_lenU64_error
    {items : List UInt8}
    {fault : Fault}
    (failed : lenU64 items = .error fault) :
    2 ^ 64 ≤ items.length := by
  have absent := (okOr_eq_error.mp failed).1
  unfold u64TryFrom at absent
  by_contra short
  rw [if_pos (by omega)] at absent
  contradiction

/-- Placing the data of a mapping does not panic while the file offsets fit. -/
theorem loadRange_error_typed
    {emptyLoadOffset loadOffset : UInt64}
    {mapping : Mapping}
    {fault : Fault}
    (room : loadOffset.toNat + mapping.data.length < 2 ^ 64)
    (failed : loadRange emptyLoadOffset loadOffset mapping = .error fault) :
    fault.IsTyped := by
  unfold loadRange at failed
  split at failed
  · exact absurd failed (pure_ne_error _ _)
  · simp only [bind_eq_error, pure_ne_error, and_false, exists_false,
      or_false] at failed
    rcases failed with long | ⟨filesz, fileszOk, overflow⟩
    · have large := le_length_of_lenU64_error long
      omega
    · have large := (exactU64_eq_error.mp overflow).1
      rw [lenU64_eq_ok.mp fileszOk] at large
      omega

/-- The segment loop does not panic when every mapping has its start at or below
its end and the file offsets fit. -/
theorem writeLoadHeaders_error_typed
    {elfClass : UInt8}
    {emptyLoadOffset loadOffset : UInt64}
    {mappings : List Mapping}
    {fault : Fault}
    (ordered : ∀ mapping ∈ mappings,
      mapping.startAddress.toNat < mapping.endAddress.toNat)
    (room : loadOffset.toNat + totalDataLength mappings < 2 ^ 64)
    (failed : writeLoadHeaders elfClass emptyLoadOffset loadOffset mappings =
      .error fault) :
    fault.IsTyped := by
  induction mappings generalizing loadOffset with
  | nil => exact absurd failed (pure_ne_error _ _)
  | cons mapping rest inductionHypothesis =>
      obtain ⟨first, others⟩ := List.forall_mem_cons.mp ordered
      rw [totalDataLength, List.map_cons, List.sum_cons] at room
      unfold writeLoadHeaders at failed
      simp only [bind_eq_error, pure_ne_error, and_false, exists_false,
        or_false, Prod.exists] at failed
      rcases failed with underflow | ⟨memsz, _, overflow |
        ⟨pOffset, pFilesz, next, range, header | ⟨_, _, remaining⟩⟩⟩
      · have below := (subU64_eq_error.mp underflow).1
        omega
      · exact loadRange_error_typed (by omega) overflow
      · exact ProgramHeader.write_error_typed header
      · have nextValue := (loadRange_eq_ok range).2.2
        apply inductionHypothesis others _ remaining
        rw [nextValue, totalDataLength]
        omega

/-! ## The whole writer -/

/-- The only panics of a note are those of its length fields. -/
def Fault.IsLengthPanic (fault : Fault) : Prop :=
  ∃ message, fault = .panic (.expected message)

theorem Note.build_error
    {name desc : List UInt8}
    {nType : UInt32}
    {fault : Fault}
    (failed : Note.build name nType desc = .error fault) :
    fault.IsLengthPanic := by
  unfold Note.build at failed
  simp only [bind_eq_error, pure_ne_error, and_false, exists_false, or_false,
    okOr_eq_error] at failed
  rcases failed with ⟨_, rfl⟩ | ⟨_, _, _, rfl⟩ <;> exact ⟨_, rfl⟩

theorem pushNote_error
    {name desc out : List UInt8}
    {nType : UInt32}
    {fault : Fault}
    (failed : pushNote name nType desc out = .error fault) :
    fault.IsLengthPanic := by
  simp only [pushNote, bind_eq_error, pure_ne_error, and_false, exists_false,
    or_false] at failed
  exact Note.build_error failed

theorem pushOptionalNote_error
    {name out : List UInt8}
    {nType : UInt32}
    {desc : Option (List UInt8)}
    {fault : Fault}
    (failed : pushOptionalNote name nType desc out = .error fault) :
    fault.IsLengthPanic := by
  cases desc with
  | none => exact absurd failed (pure_ne_error _ _)
  | some bytes => exact pushNote_error failed

theorem tryPushLong_error_typed
    {out : List UInt8}
    {value : UInt64}
    {size : Nat}
    {field : String}
    {fault : Fault}
    (failed : tryPushLong out value size field = .error fault) :
    fault.IsTyped := by
  unfold tryPushLong at failed
  split at failed
  · exact absurd failed (pure_ne_error _ _)
  · simp only [bind_eq_error, pure_ne_error, and_false, exists_false,
      or_false, okOr_eq_error] at failed
    exact ⟨_, failed.2.symm⟩

theorem pushFileRanges_error_typed
    {word : Nat}
    {entries : List (Mapping × String)}
    {out : List UInt8}
    {fault : Fault}
    (failed : pushFileRanges word entries out = .error fault) :
    fault.IsTyped := by
  induction entries generalizing out with
  | nil => exact absurd failed (pure_ne_error _ _)
  | cons entry rest inductionHypothesis =>
      simp only [pushFileRanges, bind_eq_error] at failed
      rcases failed with start | ⟨_, _, ends | ⟨_, _, offset |
        ⟨_, _, remaining⟩⟩⟩
      · exact tryPushLong_error_typed start
      · exact tryPushLong_error_typed ends
      · exact tryPushLong_error_typed offset
      · exact inductionHypothesis remaining

theorem buildNtFilePayload_error_typed
    {architecture : Architecture}
    {mappings : MappingTable}
    {fault : Fault}
    (failed : buildNtFilePayload architecture mappings = .error fault) :
    fault.IsTyped := by
  simp only [buildNtFilePayload, bind_eq_error, pure_ne_error, and_false,
    exists_false, or_false, okOr_eq_error] at failed
  rcases failed with ⟨_, rfl⟩ | ⟨_, _, count | ⟨_, _, page | ⟨_, _, ranges⟩⟩⟩
  · exact ⟨_, rfl⟩
  · exact tryPushLong_error_typed count
  · exact tryPushLong_error_typed page
  · exact pushFileRanges_error_typed ranges

theorem toPrReg_error_typed
    {architecture : Architecture}
    {context : MinidumpRawContext}
    {fault : Fault}
    (failed : toPrReg architecture context = .error fault) :
    fault.IsTyped := by
  unfold toPrReg at failed
  split at failed <;>
    first
    | contradiction
    | exact ⟨_, (Except.error.inj failed).symm⟩

/-- Writing the notes of a thread does not overflow an address. -/
theorem writeThreadNotes_error
    {architecture : Architecture}
    {thread : ThreadSnapshot}
    {signal : Int32}
    {contextOverride : Option MinidumpRawContext}
    {out : List UInt8}
    {fault : Fault}
    (failed : writeThreadNotes architecture thread signal contextOverride out =
      .error fault) :
    fault.IsTyped ∨ fault.IsLengthPanic := by
  unfold writeThreadNotes at failed
  split at failed
  · exact absurd failed (pure_ne_error _ _)
  · simp only [bind_eq_error] at failed
    rcases failed with registers | ⟨_, _, status | ⟨_, _, floating |
      ⟨_, _, extended⟩⟩⟩
    · exact .inl (toPrReg_error_typed registers)
    · exact .inr (pushNote_error status)
    · exact .inr (pushOptionalNote_error floating)
    · exact .inr (pushOptionalNote_error extended)

theorem pushThreads_error
    {process : CrashedProcess}
    {index : Nat}
    {threads : List ThreadSnapshot}
    {out : List UInt8}
    {fault : Fault}
    (failed : pushThreads process index threads out = .error fault) :
    fault.IsTyped ∨ fault.IsLengthPanic := by
  induction threads generalizing index out with
  | nil => exact absurd failed (pure_ne_error _ _)
  | cons thread rest inductionHypothesis =>
      rw [pushThreads, bind_eq_error] at failed
      rcases failed with written | ⟨_, _, remaining⟩
      · exact writeThreadNotes_error written
      · exact inductionHypothesis remaining

/-- Building the note segment does not overflow an address. -/
theorem buildNoteSegment_error
    {process : CrashedProcess}
    {fault : Fault}
    (failed : buildNoteSegment process = .error fault) :
    fault.IsTyped ∨ fault.IsLengthPanic := by
  simp only [buildNoteSegment, bind_eq_error] at failed
  rcases failed with info | ⟨_, _, auxv | ⟨_, _, payload | ⟨_, _, files |
    ⟨_, _, threads⟩⟩⟩⟩
  · exact .inr (pushNote_error info)
  · exact .inr (pushNote_error auxv)
  · exact .inl (buildNtFilePayload_error_typed payload)
  · exact .inr (pushNote_error files)
  · exact pushThreads_error threads

/-- In key order, too, every mapping has its start below its end. -/
theorem MappingTable.Built.ordered_values
    {mappings : MappingTable}
    (built : mappings.Built) :
    ∀ mapping ∈ mappings.values,
      mapping.startAddress.toNat < mapping.endAddress.toNat := by
  intro mapping member
  obtain ⟨key, found⟩ := MappingTable.mem_values.mp member
  exact built.ordered key mapping found

/-- The headers of an image, with the padding behind the notes, take less than
`2 ^ 24` bytes. An image that does not reach `2 ^ 64` bytes leaves room for
them. -/
def HasRoom (process : CrashedProcess) : Prop :=
  ∀ notes, buildNoteSegment process = .ok notes →
    notes.length + totalDataLength process.mappings.values + 2 ^ 24 < 2 ^ 64

/-- A file header is at most 64 bytes long. -/
theorem ElfHeader.size_le (header : ElfHeader) :
    header.size.toUInt64.toNat ≤ 64 := by
  unfold ElfHeader.size
  split <;> decide

/-- A program header is at most 56 bytes long. -/
theorem ElfHeader.phdrSize_le (header : ElfHeader) :
    header.phdrSize.toUInt64.toNat ≤ 56 := by
  unfold ElfHeader.phdrSize
  split <;> decide

/-- Behind its notes, the writer does not panic when every mapping has its start below
its end and the image has room. -/
theorem writeCore_error_typed
    {process : CrashedProcess}
    {notes : List UInt8}
    {fault : Fault}
    (built : process.mappings.Built)
    (notesOk : buildNoteSegment process = .ok notes)
    (small : notes.length + totalDataLength process.mappings.values + 2 ^ 24 < 2 ^ 64)
    (failed : writeCore process = .error fault) :
    fault.IsTyped := by
  have ordered := built.ordered_values
  unfold writeCore at failed
  rw [notesOk, ok_bind] at failed
  simp only [bind_eq_error, pure_ne_error, and_false, exists_false,
    or_false] at failed
  rcases failed with count | ⟨phnum, phnumOk, failed⟩
  · exact ⟨_, (okOr_eq_error.mp count).2.symm⟩
  have phnumValue := u16TryFrom_eq_some.mp (okOr_eq_ok.mp phnumOk)
  have phnumBound := phnum.toNat_lt
  generalize headerValue : ElfHeader.mk process.architecture.elfClass
    process.architecture.elfMachine phnum = header at failed
  have sizeBound := header.size_le
  have tableBound : header.phdrSize.toUInt64.toNat *
      (1 + process.mappings.size) ≤ 56 * 65535 :=
    Nat.mul_le_mul header.phdrSize_le (by omega)
  rcases failed with table | ⟨tableSize, tableOk, failed⟩
  · have large := (exactU64_eq_error.mp table).1
    omega
  have tableValue := exactU64_eq_ok.mp tableOk
  rcases failed with offset | ⟨noteOffset, noteOffsetOk, failed⟩
  · have large := (exactU64_eq_error.mp offset).1
    omega
  have noteOffsetValue := addU64_eq_ok.mp noteOffsetOk
  rcases failed with length | ⟨noteFilesz, noteFileszOk, failed⟩
  · have large := le_length_of_lenU64_error length
    omega
  have noteFileszValue := lenU64_eq_ok.mp noteFileszOk
  rcases failed with noteOverflow | ⟨noteEnd, noteEndOk, failed⟩
  · have large := (exactU64_eq_error.mp noteOverflow).1
    omega
  have noteEndValue := addU64_eq_ok.mp noteEndOk
  have padBound : (if noteEnd % ptLoadAlignment = 0 then 0
      else ptLoadAlignment - noteEnd % ptLoadAlignment).toNat < 4096 := by
    rw [toNat_notePad]
    exact roundUp_sub_lt (by decide) _
  generalize (if noteEnd % ptLoadAlignment = 0 then 0
      else ptLoadAlignment - noteEnd % ptLoadAlignment) = notePad
    at failed padBound
  rcases failed with padOverflow | ⟨loadOffset, loadOffsetOk, failed⟩
  · have large := (exactU64_eq_error.mp padOverflow).1
    omega
  have loadOffsetValue := addU64_eq_ok.mp loadOffsetOk
  rcases failed with total | ⟨totalData, totalOk, failed⟩
  · have large := (exactU64_eq_error.mp total).1
    unfold totalDataLength at small
    omega
  have totalValue : totalData.toNat = totalDataLength process.mappings.values :=
    exactU64_eq_ok.mp totalOk
  rcases failed with emptyOverflow | ⟨emptyOffset, emptyOk, failed⟩
  · have large := (exactU64_eq_error.mp emptyOverflow).1
    omega
  rcases failed with noteHeader | ⟨_, _, loads⟩
  · exact ProgramHeader.write_error_typed noteHeader
  · exact writeLoadHeaders_error_typed ordered (by omega) loads

/-- The writer does not panic on an address or a file offset when every mapping
has its start below its end. -/
theorem writeCore_error
    {process : CrashedProcess}
    {fault : Fault}
    (built : process.mappings.Built)
    (room : HasRoom process)
    (failed : writeCore process = .error fault) :
    fault.IsTyped ∨ fault.IsLengthPanic := by
  cases notesOk : buildNoteSegment process with
  | error reason =>
      unfold writeCore at failed
      rw [notesOk] at failed
      cases failed
      exact buildNoteSegment_error notesOk
  | ok notes =>
      exact .inl (writeCore_error_typed built notesOk (room notes notesOk) failed)

/-! ## The whole run -/

/-- When every call of a sequence finds the mapping of its address to start at
or below the page of the address, no call panics, and the image of the table
after the calls is written without an address or a file offset overflowing. In
particular the segment loop does not panic once the file offset behind all data
has been computed. -/
theorem callsReturn_writeCore
    (process : CrashedProcess)
    (injections : List Injection)
    (built : process.mappings.Built)
    (allowed : AllCalls StartsBelowPage process.mappings injections) :
    ∃ after, callsReturn process.mappings injections = .ok after ∧
      (∀ (elfClass : UInt8) (loadOffset totalData emptyLoadOffset : UInt64)
          (fault : Fault),
        exactU64 (totalDataLength after.values) = .ok totalData →
          addU64 loadOffset totalData = .ok emptyLoadOffset →
            writeLoadHeaders elfClass emptyLoadOffset loadOffset after.values =
                .error fault →
              fault.IsTyped) ∧
      (HasRoom { process with mappings := after } →
        writeCore { process with mappings := after } ≠
          .error (.panic .arithmeticOverflow)) := by
  obtain ⟨after, returned, stays⟩ := exists_callsReturn built allowed
  refine ⟨after, returned, ?_, ?_⟩
  · intro elfClass loadOffset totalData emptyLoadOffset fault total ends failed
    apply writeLoadHeaders_error_typed stays.ordered_values _ failed
    rw [← exactU64_eq_ok.mp total, ← addU64_eq_ok.mp ends]
    exact emptyLoadOffset.toNat_lt
  · intro room failed
    have built : MappingTable.Built
        { process with mappings := after : CrashedProcess }.mappings := stays
    rcases writeCore_error built room failed with ⟨_, typed⟩ | ⟨_, length⟩
    · contradiction
    · cases length

/-- A mapping of a file that starts inside a page, as a module of a minidump
may. -/
def sampleUnaligned : Mapping where
  startAddress := 0x1800
  endAddress := 0x3000
  offset := 0
  permissions := .readOnly
  filename := some "/bin/app"
  data := []

theorem MappingTable.built_single
    {mapping : Mapping}
    (ordered : mapping.startAddress.toNat < mapping.endAddress.toNat) :
    (MappingTable.single mapping).Built where
  keyed := @MappingTable.forall_single mapping
    (fun key other => other.startAddress = key) rfl
  ordered := @MappingTable.forall_single mapping
    (fun _ other => other.startAddress.toNat < other.endAddress.toNat) ordered

/-- A blob in the page in which the mapping starts: the call subtracts the start
from the page below it and panics. -/
theorem exists_call_panics :
    ¬∀ (mappings : MappingTable) (injections : List Injection),
      mappings.Built → (∀ injection ∈ injections, injection.data ≠ []) →
        ∃ after, callsReturn mappings injections = .ok after := by
  intro always
  obtain ⟨after, returned⟩ := always (.single sampleUnaligned)
    [⟨[7], 0x1900⟩] (MappingTable.built_single (by decide)) (by simp)
  have panics : (callsReturn (.single sampleUnaligned)
      [⟨[7], 0x1900⟩]).isOk = false := by decide +kernel
  rw [returned] at panics
  contradiction

/-- A call on a page-aligned file mapping meets the condition. -/
theorem callsReturn_writeCore_sample :
    let process := { CrashedProcess.new .x86_64 with
      mappings := MappingTable.single sampleFileMapping }
    ∃ after, callsReturn process.mappings [⟨[1, 2, 3], 0x3200⟩] = .ok after ∧
      (∀ (elfClass : UInt8) (loadOffset totalData emptyLoadOffset : UInt64)
          (fault : Fault),
        exactU64 (totalDataLength after.values) = .ok totalData →
          addU64 loadOffset totalData = .ok emptyLoadOffset →
            writeLoadHeaders elfClass emptyLoadOffset loadOffset after.values =
                .error fault →
              fault.IsTyped) ∧
      (HasRoom { process with mappings := after } →
        writeCore { process with mappings := after } ≠
          .error (.panic .arithmeticOverflow)) := by
  intro process
  apply callsReturn_writeCore process [⟨[1, 2, 3], 0x3200⟩]
    (MappingTable.built_single (by decide))
  refine ⟨⟨⟨by decide, by decide⟩, ?_⟩, fun _ _ => trivial⟩
  intro key mapping chosen
  have found := found_of_containingEntry chosen
  have start : key = 0x1000 := @MappingTable.forall_single sampleFileMapping
    (fun key _ => key = 0x1000) rfl key mapping found
  rw [start]
  decide

end Md2Core
