import Mathlib.Data.List.Forall2
import Md2Core.Foundation.ChunkStore
import Md2Core.Model

/-!
# Thread stacks

A thread snapshot takes its stack address from the thread's descriptor, and its
stack bytes from the region that the minidump reader finds for the thread. The
two belong together exactly when the region starts at that address.
-/

namespace Md2Core

open Foundation

/-- A captured memory region of a minidump, `UnifiedMemory`. -/
structure MemoryRegion where
  baseAddress : UInt64
  bytes : List UInt8
  deriving DecidableEq

/-- The bytes of a region at their addresses. -/
def MemoryRegion.chunk (region : MemoryRegion) : Chunk UInt8 :=
  ⟨region.baseAddress.toNat, region.bytes⟩

/-- `MinidumpThread`: two fields of its descriptor, its own stack region when the
reader could get it, and its context. The own region starts where the descriptor
says. -/
structure MinidumpThread where
  threadId : UInt32
  startOfMemoryRange : UInt64
  stack : Option MemoryRegion
  context : Option MinidumpRawContext
  stack_starts : ∀ region, stack = some region →
    region.baseAddress = startOfMemoryRange

/-- `MinidumpThread::stack_memory`, given a thread and the memory list. -/
abbrev StackMemory :=
  MinidumpThread → List MemoryRegion → Option MemoryRegion

/-- What `stack_memory` promises: the own region of the thread, and without one a
region of the list that contains the stack address. -/
structure StackMemory.Lawful (stackMemory : StackMemory) : Prop where
  own : ∀ {thread memory region}, thread.stack = some region →
    stackMemory thread memory = some region
  listed : ∀ {thread memory region}, thread.stack = none →
    stackMemory thread memory = some region →
      region ∈ memory ∧
        region.chunk.Covers thread.startOfMemoryRange.toNat

/-- Append a thread snapshot. -/
def CrashedProcess.addThread
    (process : CrashedProcess)
    (thread : ThreadSnapshot) : CrashedProcess :=
  { process with threads := process.threads ++ [thread] }

/-- The snapshot of a thread. -/
def threadSnapshot
    (stackMemory : StackMemory)
    (memory : List MemoryRegion)
    (thread : MinidumpThread) : ThreadSnapshot :=
  let stack := ((stackMemory thread memory).map MemoryRegion.bytes).getD []
  { tid := thread.threadId
    stackAddress := thread.startOfMemoryRange
    stack
    context := thread.context }

/-- Fill a process from the thread list, if there is one. A missing memory list
is empty. -/
def ingestThreads
    (stackMemory : StackMemory)
    (threads : Option (List MinidumpThread))
    (memory : Option (List MemoryRegion))
    (process : CrashedProcess) : CrashedProcess :=
  match threads with
  | some threads =>
      let memory := memory.getD []
      threads.foldl (fun process thread =>
        process.addThread (threadSnapshot stackMemory memory thread)) process
  | none => process

theorem foldl_addThread
    {Thread : Type}
    (process : CrashedProcess)
    (threads : List Thread)
    (snapshot : Thread → ThreadSnapshot) :
    threads.foldl (fun process thread => process.addThread (snapshot thread))
        process =
      { process with threads := process.threads ++ threads.map snapshot } := by
  induction threads generalizing process with
  | nil => simp
  | cons thread rest inductionHypothesis =>
      rw [List.foldl_cons, inductionHypothesis]
      simp [CrashedProcess.addThread]

/-- Ingestion appends the snapshots of the threads in order. -/
theorem ingestThreads_some
    (stackMemory : StackMemory)
    (threads : List MinidumpThread)
    (memory : Option (List MemoryRegion))
    (process : CrashedProcess) :
    ingestThreads stackMemory (some threads) memory process =
      { process with
        threads := process.threads ++
          threads.map (threadSnapshot stackMemory (memory.getD [])) } :=
  foldl_addThread process threads _

/-! ## Captured memory -/

/-- One of some regions captures a byte at an address. -/
def CapturedIn
    (regions : List MemoryRegion)
    (address : Nat)
    (byte : UInt8) : Prop :=
  ∃ region ∈ regions, region.chunk.itemAt address = some byte

/-- The memory that a minidump captured for a thread. -/
def MinidumpThread.captured
    (thread : MinidumpThread)
    (memory : List MemoryRegion) : List MemoryRegion :=
  thread.stack.toList ++ memory

/-- Every stack byte of a snapshot is captured at its address. -/
def ThreadSnapshot.Placed
    (snapshot : ThreadSnapshot)
    (regions : List MemoryRegion) : Prop :=
  ∀ (index : Nat) (byte : UInt8), snapshot.stack[index]? = some byte →
    CapturedIn regions (snapshot.stackAddress.toNat + index) byte

section Lawful

variable
  {stackMemory : StackMemory}
  {memory : List MemoryRegion}
  {thread : MinidumpThread}
  {region : MemoryRegion}

/-- The region of a thread is captured. -/
theorem StackMemory.Lawful.mem_captured
    (lawful : stackMemory.Lawful)
    (found : stackMemory thread memory = some region) :
    region ∈ thread.captured memory := by
  unfold MinidumpThread.captured
  rw [List.mem_append, Option.mem_toList]
  cases own : thread.stack with
  | some ownRegion =>
      left
      rw [lawful.own own] at found
      exact found
  | none =>
      right
      exact (lawful.listed own found).1

/-- The region of a thread starts at the stack address, or contains it past its
start. -/
theorem StackMemory.Lawful.starts_or_covers
    (lawful : stackMemory.Lawful)
    (found : stackMemory thread memory = some region) :
    region.baseAddress = thread.startOfMemoryRange ∨
      region.chunk.Covers thread.startOfMemoryRange.toNat := by
  cases own : thread.stack with
  | some ownRegion =>
      left
      rw [lawful.own own] at found
      exact thread.stack_starts region (own.trans found)
  | none =>
      right
      exact (lawful.listed own found).2

/-- The stack bytes are those of the region. -/
theorem stack_threadSnapshot
    (found : stackMemory thread memory = some region) :
    (threadSnapshot stackMemory memory thread).stack = region.bytes := by
  simp [threadSnapshot, found]

/-- The bytes of a region that starts at the stack address are captured where
the snapshot says. -/
theorem placed_of_starts
    {regions : List MemoryRegion}
    (found : stackMemory thread memory = some region)
    (member : region ∈ regions)
    (starts : region.baseAddress = thread.startOfMemoryRange) :
    (threadSnapshot stackMemory memory thread).Placed regions := by
  intro index byte taken
  rw [stack_threadSnapshot found] at taken
  refine ⟨region, member, ?_⟩
  have base : region.chunk.base =
      (threadSnapshot stackMemory memory thread).stackAddress.toNat :=
    congrArg UInt64.toNat starts
  rw [Chunk.itemAt, base, if_pos (by omega), Nat.add_sub_cancel_left]
  exact taken

/-- When the region starts below the stack address, the last byte of the stack
is placed past the end of the region. -/
theorem starts_of_placed
    {regions : List MemoryRegion}
    (lawful : stackMemory.Lawful)
    (found : stackMemory thread memory = some region)
    (alone : ∀ other ∈ regions,
      other.chunk.Covers
          (thread.startOfMemoryRange.toNat + (region.bytes.length - 1)) →
        other = region)
    (placed : (threadSnapshot stackMemory memory thread).Placed regions) :
    region.baseAddress = thread.startOfMemoryRange := by
  rcases lawful.starts_or_covers found with starts | ⟨below, inside⟩
  · exact starts
  · change _ < region.baseAddress.toNat + region.bytes.length at inside
    change region.baseAddress.toNat ≤ _ at below
    have last : region.bytes.length - 1 < region.bytes.length := by omega
    obtain ⟨other, member, held⟩ := placed (region.bytes.length - 1)
      region.bytes[region.bytes.length - 1]
      (by rw [stack_threadSnapshot found, List.getElem?_eq_getElem last])
    have covers := Chunk.Covers.of_itemAt held
    obtain rfl := alone other member covers
    have within : thread.startOfMemoryRange.toNat +
        (other.bytes.length - 1) <
          other.baseAddress.toNat + other.bytes.length := covers.2
    apply UInt64.toNat_inj.mp
    omega

end Lawful

/-- Every snapshot is taken from a thread of the list. Without a region its stack
is empty. With one, the region holds every stack byte at its address exactly when
it starts at the stack address. That is enough for the whole captured memory, and
necessary when no other region covers the address of the last stack byte. -/
theorem ingestThreads_placed_iff
    (stackMemory : StackMemory)
    (lawful : stackMemory.Lawful)
    (threads : List MinidumpThread)
    (memory : Option (List MemoryRegion))
    (process : CrashedProcess) :
    ∃ snapshots,
      (ingestThreads stackMemory (some threads) memory process).threads =
        process.threads ++ snapshots ∧
      List.Forall₂ (fun thread snapshot =>
        snapshot.stackAddress = thread.startOfMemoryRange ∧
        (stackMemory thread (memory.getD []) = none → snapshot.stack = []) ∧
        ∀ region, stackMemory thread (memory.getD []) = some region →
          snapshot.stack = region.bytes ∧
          (snapshot.Placed [region] ↔
            region.baseAddress = thread.startOfMemoryRange) ∧
          (region.baseAddress = thread.startOfMemoryRange →
            snapshot.Placed (thread.captured (memory.getD []))) ∧
          ((∀ other ∈ thread.captured (memory.getD []),
            other.chunk.Covers (thread.startOfMemoryRange.toNat +
              (region.bytes.length - 1)) → other = region) →
            snapshot.Placed (thread.captured (memory.getD [])) →
              region.baseAddress = thread.startOfMemoryRange))
        threads snapshots := by
  refine ⟨threads.map (threadSnapshot stackMemory (memory.getD [])), ?_, ?_⟩
  · rw [ingestThreads_some]
  · rw [List.forall₂_map_right_iff, List.forall₂_same]
    intro thread _
    refine ⟨rfl, ?_, ?_⟩
    · intro absent
      simp [threadSnapshot, absent]
    · intro region found
      refine ⟨stack_threadSnapshot found, ⟨?_, ?_⟩, ?_, ?_⟩
      · apply starts_of_placed lawful found
        intro other member _
        exact List.mem_singleton.mp member
      · exact placed_of_starts found List.mem_cons_self
      · exact placed_of_starts found (lawful.mem_captured found)
      · exact starts_of_placed lawful found

/-- A thread without a stack region of its own. -/
def sampleThread (startOfMemoryRange : UInt64) : MinidumpThread where
  threadId := 7
  startOfMemoryRange
  stack := none
  context := none
  stack_starts := by simp

/-- `stack_memory` as a search of the memory list. -/
def searchStackMemory : StackMemory := fun thread memory =>
  thread.stack.or (memory.find? fun region =>
    region.chunk.Covers thread.startOfMemoryRange.toNat)

theorem searchStackMemory_lawful : searchStackMemory.Lawful where
  own := by
    intro thread memory region own
    simp [searchStackMemory, own]
  listed := by
    intro thread memory region absent found
    rw [searchStackMemory, absent, Option.none_or] at found
    have covers := List.find?_some found
    rw [decide_eq_true_eq] at covers
    exact ⟨List.mem_of_find?_eq_some found, covers⟩

/-- A stack that starts at its region is placed in the captured memory. -/
theorem ingestThreads_placed_iff_sample :
    ∃ snapshot, (ingestThreads searchStackMemory (some [sampleThread 0x1000])
        (some [⟨0x1000, [1, 2, 3]⟩]) (CrashedProcess.new .x86_64)).threads =
          [snapshot] ∧
      snapshot.stack = [1, 2, 3] ∧ snapshot.stackAddress = 0x1000 ∧
      snapshot.Placed [⟨0x1000, [1, 2, 3]⟩] := by
  obtain ⟨_, recorded, laws⟩ := ingestThreads_placed_iff searchStackMemory
    searchStackMemory_lawful [sampleThread 0x1000]
    (some [⟨0x1000, [1, 2, 3]⟩]) (CrashedProcess.new .x86_64)
  obtain ⟨snapshot, _, ⟨address, _, law⟩, others, rfl⟩ :=
    List.forall₂_cons_left_iff.mp laws
  obtain rfl := List.forall₂_nil_left_iff.mp others
  obtain ⟨bytes, placed, _⟩ := law ⟨0x1000, [1, 2, 3]⟩ (by decide)
  exact ⟨snapshot, recorded, bytes, address, placed.mpr rfl⟩

/-- A stack address inside a region of the memory list gets the bytes from the
start of the region. -/
theorem exists_stack_not_placed :
    ∃ snapshot, (ingestThreads searchStackMemory (some [sampleThread 0x1001])
        (some [⟨0x1000, [1, 2, 3]⟩]) (CrashedProcess.new .x86_64)).threads =
          [snapshot] ∧
      snapshot.stack = [1, 2, 3] ∧ snapshot.stackAddress = 0x1001 ∧
      (⟨0x1000, [1, 2, 3]⟩ : MemoryRegion).chunk.itemAt 0x1001 = some 2 ∧
      ¬snapshot.Placed
        ((sampleThread 0x1001).captured [⟨0x1000, [1, 2, 3]⟩]) := by
  refine ⟨threadSnapshot searchStackMemory [⟨0x1000, [1, 2, 3]⟩]
    (sampleThread 0x1001), rfl, by decide, rfl, by decide, ?_⟩
  intro placed
  obtain ⟨region, member, held⟩ := placed 0 1 (by decide)
  obtain rfl := List.mem_singleton.mp member
  revert held
  decide

end Md2Core
