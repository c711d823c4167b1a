import HostedEvm.Fault

set_option autoImplicit false

/-!
Why bytes or text give no value.
-/

namespace HostedEvm.Abi

/-- Why bytes or text give no value of a type. -/
inductive Misread
  /-- They spell no value of the type. -/
  | mismatch
  /-- The host gave up while they were read. -/
  | breakdown (cause : Breakdown)
  deriving DecidableEq

namespace Misread

/-- A result that has to be there. -/
def demand {Result : Type} : Option Result → Except Misread Result
  | some result => .ok result
  | none => .error .mismatch

/-- A count that has to fit a counter. -/
def counted {Result : Type} (outcome : Except Breakdown Result) : Except Misread Result :=
  outcome.mapError .breakdown

/-- The fault of an operation that found no value. -/
def toFault (refusal : CodecFault) : Misread → Fault
  | .mismatch => .codec refusal
  | .breakdown cause => .breakdown cause

end Misread

end HostedEvm.Abi
