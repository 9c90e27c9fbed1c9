import Md2Core.Foundation.Outcome
import Mathlib.Data.List.Infix

/-!
# Writing to a sink

A writer passes byte strings to a sink one after the other, and may fail between
two of them. What it writes does not depend on the sink, so it is described by
its byte strings and its result alone. A sink that stops accepting bytes cuts the
output off anywhere, also within a byte string.
-/

namespace Foundation

/-- The byte strings that a computation writes, up to its first failure, and its
result. -/
structure Emission (ε α : Type) where
  chunks : List (List UInt8)
  result : Except ε α

namespace Emission

variable {ε α β : Type}

/-- Everything that is written. -/
def bytes (emission : Emission ε α) : List UInt8 :=
  emission.chunks.flatten

/-- One after the other. A failure ends the writing. -/
def andThen (first : Emission ε α) (next : α → Emission ε β) : Emission ε β :=
  match first.result with
  | .ok value => ⟨first.chunks ++ (next value).chunks, (next value).result⟩
  | .error failure => ⟨first.chunks, .error failure⟩

instance : Monad (Emission ε) where
  pure value := ⟨[], .ok value⟩
  bind := andThen

instance : MonadLift (Except ε) (Emission ε) where
  monadLift computation := ⟨[], computation⟩

/-- Write a byte string. -/
def emit (chunk : List UInt8) : Emission ε Unit :=
  ⟨[chunk], .ok ()⟩

/-- The whole output of a writer that does not fail. -/
def collect (emission : Emission ε Unit) : Except ε (List UInt8) :=
  emission.result.map fun _ => emission.bytes

@[simp] theorem collect_pure : (pure () : Emission ε Unit).collect = .ok [] := rfl

@[simp] theorem collect_emit (chunk : List UInt8) :
    (emit chunk : Emission ε Unit).collect = .ok chunk := by
  simp [collect, emit, bytes, Except.map]

/-- The output of two writers is the concatenation. -/
theorem collect_bind
    (first : Emission ε Unit)
    (next : Unit → Emission ε Unit) :
    (first >>= next).collect = do
      let front ← first.collect
      let back ← (next ()).collect
      return front ++ back := by
  change (andThen first next).collect = _
  obtain ⟨chunks, result⟩ := first
  cases result with
  | error failure => rfl
  | ok value =>
      cases second : (next ()).result with
      | error failure =>
          simp only [collect, andThen, bytes, second, Except.map]
          rfl
      | ok other =>
          simp only [collect, andThen, bytes, second, Except.map,
            List.flatten_append]
          rfl

/-- A computation that writes nothing is passed through. -/
theorem collect_lift_bind
    (computation : Except ε α)
    (next : α → Emission ε Unit) :
    ((liftM computation : Emission ε α) >>= next).collect =
      computation >>= fun value => (next value).collect := by
  cases computation <;> rfl

/-- Writing a byte string first puts it in front. -/
theorem collect_emit_bind
    (chunk : List UInt8)
    (next : Unit → Emission ε Unit) :
    (emit chunk >>= next).collect =
      (next ()).collect.map fun back => chunk ++ back := by
  rw [collect_bind, collect_emit]
  cases (next ()).collect <;> rfl

/-- A writer whose whole output is known does not fail. -/
theorem collect_eq_ok
    {emission : Emission ε Unit}
    {output : List UInt8} :
    emission.collect = .ok output ↔
      emission.result = .ok () ∧ emission.bytes = output := by
  unfold collect
  cases emission.result with
  | error failure => simp [Except.map]
  | ok value => simp [Except.map]

/-! ## Where a writer fails -/

/-- The writer writes at most so many bytes, whether it fails or not. -/
def AtMost (limit : Nat) (emission : Emission ε α) : Prop :=
  emission.bytes.length ≤ limit

/-- When the writer fails, it has written at most so many bytes. -/
def FailsWithin (limit : Nat) (emission : Emission ε α) : Prop :=
  ∀ failure, emission.result = .error failure → emission.bytes.length ≤ limit

theorem atMost_pure (value : α) : (pure value : Emission ε α).AtMost 0 :=
  Nat.le_refl 0

theorem atMost_emit (chunk : List UInt8) :
    (emit chunk : Emission ε Unit).AtMost chunk.length := by
  simp [AtMost, bytes, emit]

theorem atMost_of_collect
    {emission : Emission ε Unit}
    {output : List UInt8}
    {limit : Nat}
    (collected : emission.collect = .ok output)
    (short : output.length ≤ limit) :
    emission.AtMost limit := by
  rw [AtMost, (collect_eq_ok.mp collected).2]
  exact short

theorem AtMost.bind
    {first : Emission ε α}
    {next : α → Emission ε β}
    {front back : Nat}
    (firstBound : first.AtMost front)
    (nextBound : ∀ value, (next value).AtMost back) :
    (first >>= next).AtMost (front + back) := by
  change (andThen first next).AtMost (front + back)
  obtain ⟨chunks, result⟩ := first
  cases result with
  | error failure => exact Nat.le_add_right_of_le firstBound
  | ok value =>
      simp only [AtMost, bytes, andThen, List.flatten_append, List.length_append]
      exact Nat.add_le_add firstBound (nextBound value)

theorem AtMost.lift_bind
    {computation : Except ε α}
    {next : α → Emission ε β}
    {limit : Nat}
    (nextBound : ∀ value, (next value).AtMost limit) :
    ((liftM computation : Emission ε α) >>= next).AtMost limit := by
  rw [← Nat.zero_add limit]
  exact AtMost.bind (Nat.le_refl 0) nextBound

theorem AtMost.failsWithin_bind
    {first : Emission ε α}
    {next : α → Emission ε β}
    {front back : Nat}
    (firstBound : first.AtMost front)
    (nextBound : ∀ value, (next value).FailsWithin back) :
    (first >>= next).FailsWithin (front + back) := by
  change (andThen first next).FailsWithin (front + back)
  obtain ⟨chunks, result⟩ := first
  cases result with
  | error failure => exact fun _ _ => Nat.le_add_right_of_le firstBound
  | ok value =>
      intro failure failed
      simp only [bytes, andThen, List.flatten_append, List.length_append]
      exact Nat.add_le_add firstBound (nextBound value failure failed)

theorem FailsWithin.lift_bind
    {computation : Except ε α}
    {next : α → Emission ε β}
    {limit : Nat}
    (nextBound : ∀ value, computation = .ok value →
      (next value).FailsWithin limit) :
    ((liftM computation : Emission ε α) >>= next).FailsWithin limit := by
  cases computation with
  | error failure => exact fun _ _ => Nat.zero_le limit
  | ok value => exact nextBound value rfl

theorem failsWithin_of_ok
    {emission : Emission ε α}
    {value : α}
    (succeeds : emission.result = .ok value)
    (limit : Nat) :
    emission.FailsWithin limit := by
  intro failure failed
  rw [succeeds] at failed
  contradiction

end Emission

/-! ## Sinks -/

/-- A sink, as its state and what it has received. A call that returns has passed
the whole byte string on, a call that fails a part of it. -/
structure Sink (Cause : Type) where
  State : Type
  received : State → List UInt8
  writeAll : List UInt8 → EStateM Cause State Unit
  accepts : ∀ (chunk : List UInt8) (before after : State),
    writeAll chunk before = .ok () after →
      received after = received before ++ chunk
  stops : ∀ (chunk : List UInt8) (cause : Cause) (before after : State),
    writeAll chunk before = .error cause after →
      ∃ front, front <+: chunk ∧ received after = received before ++ front

/-- A sink with room for a number of bytes. -/
def boundedSink (room : Nat) : Sink Unit where
  State := List UInt8
  received := id
  writeAll := fun chunk before =>
    if before.length + chunk.length ≤ room then
      .ok () (before ++ chunk)
    else
      .error () (before ++ chunk.take (room - before.length))
  accepts := by
    intro chunk before after written
    split at written
    · cases written
      rfl
    · contradiction
  stops := by
    intro chunk cause before after failed
    split at failed
    · contradiction
    · cases failed
      exact ⟨_, List.take_prefix _ chunk, rfl⟩

namespace Sink

variable {Cause : Type} (sink : Sink Cause)

/-- Write byte strings until the sink fails. -/
def writeChunks : List (List UInt8) → EStateM Cause sink.State Unit
  | [] => return ()
  | chunk :: rest => do
      sink.writeAll chunk
      writeChunks rest

variable {sink} {chunks : List (List UInt8)} {before after : sink.State}

theorem received_of_writeChunks_ok
    (written : sink.writeChunks chunks before = .ok () after) :
    sink.received after = sink.received before ++ chunks.flatten := by
  induction chunks generalizing before with
  | nil =>
      obtain ⟨_, rfl⟩ := statePure_eq_ok.mp written
      simp
  | cons chunk rest inductionHypothesis =>
      rw [writeChunks, stateBind_eq_ok] at written
      obtain ⟨_, middle, first, others⟩ := written
      rw [inductionHypothesis others, sink.accepts chunk before middle first,
        List.flatten_cons, List.append_assoc]

theorem received_of_writeChunks_error
    {cause : Cause}
    (stopped : sink.writeChunks chunks before = .error cause after) :
    ∃ front, front <+: chunks.flatten ∧
      sink.received after = sink.received before ++ front := by
  induction chunks generalizing before with
  | nil => exact absurd stopped (by rw [writeChunks]; exact fun equal => nomatch equal)
  | cons chunk rest inductionHypothesis =>
      rw [writeChunks, stateBind_eq_error] at stopped
      rcases stopped with first | ⟨_, middle, first, others⟩
      · obtain ⟨front, cut, value⟩ := sink.stops chunk cause before after first
        exact ⟨front, cut.trans (List.prefix_append chunk _), value⟩
      · obtain ⟨front, cut, value⟩ := inductionHypothesis others
        refine ⟨chunk ++ front, (List.prefix_append_right_inj chunk).mpr cut, ?_⟩
        rw [value, sink.accepts chunk before middle first, List.append_assoc]

end Sink

/-- Run a writer on a sink. Its own failure is told apart from that of the
sink. -/
def Emission.runOn
    {ε α Cause : Type}
    (emission : Emission ε α)
    (sink : Sink Cause) : EStateM (ε ⊕ Cause) sink.State α := fun before =>
  match sink.writeChunks emission.chunks before with
  | .error cause after => .error (.inr cause) after
  | .ok () after =>
      match emission.result with
      | .ok value => .ok value after
      | .error failure => .error (.inl failure) after

section RunOn

variable
  {ε Cause : Type}
  {sink : Sink Cause}
  {emission : Emission ε Unit}
  {before after : sink.State}

/-- A run that succeeds has passed the whole output on. -/
theorem collect_of_runOn_ok
    (ran : emission.runOn sink before = .ok () after) :
    emission.collect = .ok emission.bytes ∧
      sink.received after = sink.received before ++ emission.bytes := by
  unfold Emission.runOn at ran
  cases written : sink.writeChunks emission.chunks before with
  | error cause middle => rw [written] at ran; contradiction
  | ok value middle =>
      rw [written] at ran
      cases result : emission.result with
      | error failure => rw [result] at ran; contradiction
      | ok value =>
          rw [result] at ran
          cases ran
          exact ⟨by rw [Emission.collect, result]; rfl,
            Sink.received_of_writeChunks_ok written⟩

/-- A run in which the writer fails has passed on what it wrote before. -/
theorem collect_of_runOn_failure
    {failure : ε}
    (ran : emission.runOn sink before = .error (.inl failure) after) :
    emission.result = .error failure ∧
      sink.received after = sink.received before ++ emission.bytes := by
  unfold Emission.runOn at ran
  cases written : sink.writeChunks emission.chunks before with
  | error cause middle => rw [written] at ran; cases ran
  | ok value middle =>
      rw [written] at ran
      cases result : emission.result with
      | ok value => rw [result] at ran; contradiction
      | error other =>
          rw [result] at ran
          cases ran
          exact ⟨rfl, Sink.received_of_writeChunks_ok written⟩

/-- A run in which the sink fails has passed on a part of the output. -/
theorem received_of_runOn_cause
    {cause : Cause}
    (ran : emission.runOn sink before = .error (.inr cause) after) :
    ∃ front, front <+: emission.bytes ∧
      sink.received after = sink.received before ++ front := by
  unfold Emission.runOn at ran
  cases written : sink.writeChunks emission.chunks before with
  | error other middle =>
      rw [written] at ran
      cases ran
      exact Sink.received_of_writeChunks_error written
  | ok value middle =>
      rw [written] at ran
      cases result : emission.result with
      | ok value => rw [result] at ran; contradiction
      | error other => rw [result] at ran; cases ran

end RunOn

end Foundation
