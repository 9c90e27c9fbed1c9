import Md2Core.Foundation.Outcome

/-!
# Errors and panics

A call of the conversion pipeline returns `Ok`, returns an `Md2CoreError`, or
panics. The model keeps the three apart, so that a result about successful
calls never rests on arithmetic that would have overflowed.
-/

namespace Md2Core

/-- Failure of a typed `scroll` read. -/
inductive ScrollError
  | tooBig (size length : Nat)
  | badOffset (offset : Nat)
  deriving DecidableEq, Repr

/-- `Md2CoreError`, without the variants that only wrap errors of the file
system and of the minidump reader. -/
inductive Md2CoreError
  | rangeOutOfBounds (offset endOffset length : Nat)
  | integerOverflow (quantity : String)
  | invalidAddressRange (startAddress endAddress : UInt64)
  | invalidAlignment
  | invalidUtf8 (stream : String)
  | invalidMapsLine (line : String)
  | missingField (field : String)
  | invalidState (state : String)
  | unsupportedSystem (os cpu : String)
  | contextMismatch (expected found : String)
  | serialize (cause : ScrollError)
  deriving DecidableEq, Repr

/-- Panics of the Rust runtime that a modelled call can reach, and its abort when the
allocator does not grant a number of bytes. -/
inductive Panic
  | arithmeticOverflow
  | indexOutOfRange
  | capacityOverflow
  | allocationFailed (size : Nat)
  | expected (message : String)
  deriving DecidableEq, Repr

/-- Every way in which a call can fail to return `Ok`. -/
inductive Fault
  | error (cause : Md2CoreError)
  | panic (cause : Panic)
  deriving DecidableEq, Repr

/-- The call returned an `Md2CoreError` and did not panic. -/
def Fault.IsTyped (fault : Fault) : Prop :=
  ∃ cause, fault = .error cause

/-- The outcome of a call without mutable arguments. -/
abbrev Result := Except Fault

/-- An `IntegerOverflow` error naming the quantity. -/
def integerOverflow (quantity : String) : Fault :=
  .error (.integerOverflow quantity)

end Md2Core
