import HostedEvm.Journal.Controller

set_option autoImplicit false

/-!
The gas refund of the running transaction.

Every change adds the new value to a history, so that a mark is the length of the history.
-/

namespace HostedEvm

/-- The values that the refund has had, newest first. -/
structure Refund where
  history : List Gas := []

namespace Refund

/-- The refund, which is zero before the first change. -/
def value (refund : Refund) : Gas := refund.history.headD 0

def add (refund : Refund) (amount : Gas) : Refund :=
  ⟨refund.value.plus amount :: refund.history⟩

/-- Lower the refund, or change nothing when it is smaller than the amount. -/
def subtract (refund : Refund) (amount : Gas) : Except Fault Unit × Refund :=
  if amount ≤ refund.value then (.ok (), ⟨(refund.value - amount) :: refund.history⟩)
  else (.error (.refundUnderflow refund.value amount), refund)

/-- Forget all values but the oldest `count`. -/
def rewind (count : Nat) (refund : Refund) : Refund :=
  ⟨refund.history.drop (refund.history.length - count)⟩

instance : Checkpointed Refund where
  key := "refund"
  mark refund := (refund.history.length, refund)
  rewind := rewind
  commit _ := {}

end Refund

end HostedEvm
