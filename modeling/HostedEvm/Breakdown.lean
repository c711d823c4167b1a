import HostedEvm.Word

set_option autoImplicit false

/-!
Where the host gives up.

Counters and memory are finite. Where no rule says how to go on beyond their ends, a result that
does not fit ends the whole step at once, and what the step had changed until then stays changed.
-/

namespace HostedEvm

/-- What ends a step in the middle. -/
inductive Breakdown
  /-- The sum of two counters is no counter. -/
  | sum
  /-- The product of two counters is no counter. -/
  | product
  /-- A list would not fit the memory. -/
  | list
  /-- A table would not fit the memory. -/
  | table
  /-- A feed would keep more events than half of what a counter can count. -/
  | channel
  deriving DecidableEq

def Breakdown.message : Breakdown → String
  | .sum => "attempt to add with overflow"
  | .product => "attempt to multiply with overflow"
  | .list => "capacity overflow"
  | .table => "Hash table capacity overflow"
  | .channel => "broadcast channel capacity exceeded `usize::MAX / 2`"

namespace Counter

def sum (a b : Nat) : Except Breakdown Nat :=
  if a + b < UInt64.size then .ok (a + b) else .error .sum

def product (a b : Nat) : Except Breakdown Nat :=
  if a * b < UInt64.size then .ok (a * b) else .error .product

theorem sum_eq_ok_iff {a b c : Nat} : sum a b = .ok c ↔ a + b = c ∧ c < UInt64.size := by
  unfold sum
  split
  · rename_i fits
    simp only [Except.ok.injEq]
    exact ⟨fun same => ⟨same, same ▸ fits⟩, fun same => same.1⟩
  · rename_i exceeds
    simp only [reduceCtorEq, false_iff, not_and]
    exact fun same => same ▸ exceeds

end Counter

end HostedEvm
