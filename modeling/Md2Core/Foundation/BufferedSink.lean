import Md2Core.Foundation.ByteSink

/-!
# A sink behind a buffer

A buffered sink keeps short byte strings back until its buffer is full. What was
written to it is what the inner sink has received and the bytes that it keeps back.
When it is given up after a failure, it passes on what the inner sink still takes.
-/

namespace Foundation

variable {ε α Cause : Type}

namespace Sink

variable {sink : Sink Cause} {chunk : List UInt8} {before after : sink.State}

theorem prefix_of_ok
    (written : sink.writeAll chunk before = .ok () after) :
    sink.received before <+: sink.received after :=
  ⟨chunk, (sink.accepts chunk before after written).symm⟩

theorem prefix_of_error
    {cause : Cause}
    (failed : sink.writeAll chunk before = .error cause after) :
    sink.received before <+: sink.received after := by
  obtain ⟨front, _, value⟩ := sink.stops chunk cause before after failed
  exact ⟨front, value.symm⟩

end Sink

/-- The state of a sink and the bytes kept back from it. The sink has received at
least what it had at the start. -/
structure Buffered (sink : Sink Cause) (start : List UInt8) where
  inner : sink.State
  buffer : List UInt8
  grown : start <+: sink.received inner

namespace Buffered

variable {sink : Sink Cause} {start : List UInt8}

/-- The start with an empty buffer. -/
def new (inner : sink.State) : Buffered sink (sink.received inner) :=
  ⟨inner, [], List.prefix_rfl⟩

/-- What was written to the buffered sink. -/
def received (state : Buffered sink start) : List UInt8 :=
  sink.received state.inner ++ state.buffer

/-- Pass the buffer on. When the inner sink fails, what it has not received stays. -/
def flushBuf : EStateM Cause (Buffered sink start) Unit := fun before =>
  match passed : sink.writeAll before.buffer before.inner with
  | .ok () inner => .ok () ⟨inner, [], before.grown.trans (Sink.prefix_of_ok passed)⟩
  | .error cause inner =>
      .error cause ⟨inner,
        before.buffer.drop
          ((sink.received inner).length - (sink.received before.inner).length),
        before.grown.trans (Sink.prefix_of_error passed)⟩

/-- Pass a byte string on to the inner sink, by an empty buffer. -/
def writeInner (chunk : List UInt8) : EStateM Cause (Buffered sink start) Unit :=
  fun before =>
    match passed : sink.writeAll chunk before.inner with
    | .ok () inner => .ok ()
        ⟨inner, before.buffer, before.grown.trans (Sink.prefix_of_ok passed)⟩
    | .error cause inner => .error cause
        ⟨inner, before.buffer, before.grown.trans (Sink.prefix_of_error passed)⟩

/-- Keep a byte string back. -/
def writeToBuffer (chunk : List UInt8) : EStateM Cause (Buffered sink start) Unit :=
  modify fun before => { before with buffer := before.buffer ++ chunk }

/-- Make room for a byte string that is too long for what is left of the buffer. -/
def makeRoom (capacity : Nat) (chunk : List UInt8) :
    EStateM Cause (Buffered sink start) Unit := fun before =>
  if capacity - before.buffer.length < chunk.length then
    flushBuf before
  else
    .ok () before

/-- Write a byte string to a buffer of a capacity. One that is too long for the whole
buffer passes it by. -/
def writeAll (capacity : Nat) (chunk : List UInt8) :
    EStateM Cause (Buffered sink start) Unit := do
  makeRoom capacity chunk
  if capacity ≤ chunk.length then
    writeInner chunk
  else
    writeToBuffer chunk

/-- Give the buffered sink up: flush it, whether that fails or not. -/
def drop (before : Buffered sink start) : Buffered sink start :=
  match flushBuf before with
  | .ok () after => after
  | .error _ after => after

/-! ## What a call does -/

section Calls

variable
  {before after : Buffered sink start}
  {cause : Cause}
  {capacity : Nat}
  {chunk : List UInt8}

/-- A flush that returns leaves the buffer empty. -/
theorem flushBuf_ok
    (flushed : flushBuf before = .ok () after) :
    after.buffer = [] ∧ after.received = before.received := by
  unfold flushBuf at flushed
  split at flushed
  · next inner passed =>
    cases flushed
    refine ⟨rfl, ?_⟩
    rw [received, List.append_nil]
    exact sink.accepts _ _ _ passed
  · contradiction

/-- A flush that fails loses nothing. -/
theorem flushBuf_error
    (failed : flushBuf before = .error cause after) :
    after.received = before.received := by
  unfold flushBuf at failed
  split at failed
  · contradiction
  · next other inner passed =>
    cases failed
    obtain ⟨front, ⟨rest, parts⟩, value⟩ := sink.stops _ _ _ _ passed
    simp only [received, value, List.length_append, Nat.add_sub_cancel_left]
    rw [← parts, List.drop_left, List.append_assoc]

/-- The inner sink of one that is given up has received a part of what was written. -/
theorem received_drop_prefix (state : Buffered sink start) :
    sink.received state.drop.inner <+: state.received := by
  unfold drop
  cases flushed : flushBuf state with
  | ok value after => exact ⟨after.buffer, (flushBuf_ok flushed).2⟩
  | error other after => exact ⟨after.buffer, flushBuf_error flushed⟩

theorem writeInner_ok
    (empty : before.buffer = [])
    (written : writeInner chunk before = .ok () after) :
    after.received = before.received ++ chunk := by
  unfold writeInner at written
  split at written
  · next inner passed =>
    cases written
    simp only [received, empty, List.append_nil, sink.accepts _ _ _ passed]
  · contradiction

theorem writeInner_error
    (empty : before.buffer = [])
    (failed : writeInner chunk before = .error cause after) :
    ∃ front, front <+: chunk ∧ after.received = before.received ++ front := by
  unfold writeInner at failed
  split at failed
  · contradiction
  · next other inner passed =>
    cases failed
    obtain ⟨front, cut, value⟩ := sink.stops _ _ _ _ passed
    refine ⟨front, cut, ?_⟩
    simp only [received, empty, List.append_nil, value]

/-- With room made, the buffer is empty for a byte string that passes it by. -/
theorem makeRoom_ok
    (positive : 0 < capacity)
    (made : makeRoom capacity chunk before = .ok () after) :
    after.received = before.received ∧
      (capacity ≤ chunk.length → after.buffer = []) := by
  unfold makeRoom at made
  split at made
  · obtain ⟨empty, same⟩ := flushBuf_ok made
    exact ⟨same, fun _ => empty⟩
  · cases made
    refine ⟨rfl, fun long => ?_⟩
    apply List.eq_nil_of_length_eq_zero
    omega

theorem makeRoom_error
    (failed : makeRoom capacity chunk before = .error cause after) :
    after.received = before.received := by
  unfold makeRoom at failed
  split at failed
  · exact flushBuf_error failed
  · contradiction

/-- A byte string that was written is received or kept back. -/
theorem writeAll_ok
    (positive : 0 < capacity)
    (written : writeAll capacity chunk before = .ok () after) :
    after.received = before.received ++ chunk := by
  obtain ⟨_, middle, made, rest⟩ := stateBind_eq_ok.mp written
  obtain ⟨same, empty⟩ := makeRoom_ok positive made
  rw [← same]
  split at rest
  · next long => exact writeInner_ok (empty long) rest
  · cases rest
    exact (List.append_assoc _ _ _).symm

/-- When a call fails, a part of the byte string was written. -/
theorem writeAll_error
    (positive : 0 < capacity)
    (failed : writeAll capacity chunk before = .error cause after) :
    ∃ front, front <+: chunk ∧ after.received = before.received ++ front := by
  rcases stateBind_eq_error.mp failed with unmade | ⟨_, middle, made, rest⟩
  · refine ⟨[], List.nil_prefix, ?_⟩
    rw [makeRoom_error unmade, List.append_nil]
  · obtain ⟨same, empty⟩ := makeRoom_ok positive made
    rw [← same]
    split at rest
    · next long => exact writeInner_error (empty long) rest
    · contradiction

end Calls

end Buffered

/-- The sink behind a buffer is a sink. -/
def Sink.buffered
    (sink : Sink Cause)
    (start : List UInt8)
    (capacity : Nat)
    (positive : 0 < capacity) : Sink Cause where
  State := Buffered sink start
  received := Buffered.received
  writeAll := Buffered.writeAll capacity
  accepts _ _ _ written := Buffered.writeAll_ok positive written
  stops _ _ _ _ failed := Buffered.writeAll_error positive failed

/-! ## Running a writer -/

/-- Run a writer on a sink behind a buffer that is flushed at the end. After a failure
the buffer is given up. -/
def Emission.runBuffered
    (emission : Emission ε Unit)
    (sink : Sink Cause)
    (capacity : Nat)
    (positive : 0 < capacity) : EStateM (ε ⊕ Cause) sink.State Unit := fun before =>
  match emission.runOn (sink.buffered (sink.received before) capacity positive)
      (Buffered.new before) with
  | .error failure after => .error failure (Buffered.drop after).inner
  | .ok () after =>
      match Buffered.flushBuf after with
      | .ok () flushed => .ok () flushed.inner
      | .error cause unflushed => .error (.inr cause) (Buffered.drop unflushed).inner

section RunBuffered

variable
  {sink : Sink Cause}
  {capacity : Nat}
  {positive : 0 < capacity}
  {emission : Emission ε Unit}
  {before after : sink.State}

/-- What a given up sink has received lies between the start and what was written. -/
theorem Buffered.received_drop
    {start written : List UInt8}
    {state : Buffered sink start}
    (total : state.received = start ++ written) :
    ∃ front, front <+: written ∧ sink.received state.drop.inner = start ++ front := by
  obtain ⟨front, grown⟩ := state.drop.grown
  have cut := state.received_drop_prefix
  rw [total, ← grown, List.prefix_append_right_inj] at cut
  exact ⟨front, cut, grown.symm⟩

theorem Buffered.received_new :
    (sink.buffered (sink.received before) capacity positive).received
      (Buffered.new before) = sink.received before :=
  List.append_nil _

/-- A run that succeeds has passed the whole output on. -/
theorem collect_of_runBuffered_ok
    (ran : emission.runBuffered sink capacity positive before = .ok () after) :
    emission.collect = .ok emission.bytes ∧
      sink.received after = sink.received before ++ emission.bytes := by
  unfold Emission.runBuffered at ran
  split at ran
  · contradiction
  · next middle written =>
    obtain ⟨collected, total⟩ := collect_of_runOn_ok written
    rw [Buffered.received_new] at total
    split at ran
    · next flushed passed =>
      cases ran
      obtain ⟨empty, same⟩ := Buffered.flushBuf_ok passed
      refine ⟨collected, Eq.trans ?_ (same.trans total)⟩
      rw [Buffered.received, empty, List.append_nil]
    · contradiction

/-- A run in which the writer fails has passed on a part of what it wrote. -/
theorem received_of_runBuffered_failure
    {failure : ε}
    (ran : emission.runBuffered sink capacity positive before =
      .error (.inl failure) after) :
    emission.result = .error failure ∧
      ∃ front, front <+: emission.bytes ∧
        sink.received after = sink.received before ++ front := by
  unfold Emission.runBuffered at ran
  split at ran
  · next stopped middle written =>
    cases ran
    obtain ⟨failed, total⟩ := collect_of_runOn_failure written
    rw [Buffered.received_new] at total
    exact ⟨failed, Buffered.received_drop total⟩
  · split at ran
    · contradiction
    · cases ran

/-- A run in which the sink fails has passed on a part of the output. -/
theorem received_of_runBuffered_cause
    {cause : Cause}
    (ran : emission.runBuffered sink capacity positive before =
      .error (.inr cause) after) :
    ∃ front, front <+: emission.bytes ∧
      sink.received after = sink.received before ++ front := by
  unfold Emission.runBuffered at ran
  split at ran
  · next stopped middle written =>
    cases ran
    obtain ⟨front, cut, total⟩ := received_of_runOn_cause written
    rw [Buffered.received_new] at total
    obtain ⟨part, shorter, value⟩ := Buffered.received_drop total
    exact ⟨part, shorter.trans cut, value⟩
  · next middle written =>
    obtain ⟨_, total⟩ := collect_of_runOn_ok written
    rw [Buffered.received_new] at total
    split at ran
    · contradiction
    · next other unflushed failed =>
      cases ran
      exact Buffered.received_drop ((Buffered.flushBuf_error failed).trans total)

end RunBuffered

end Foundation
