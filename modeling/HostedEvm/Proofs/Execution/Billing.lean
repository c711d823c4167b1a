import HostedEvm.Proofs.Execution.Spending
import HostedEvm.Proofs.State.Counter

set_option autoImplicit false

/-!
What a call of a precompile is billed for storage.

The bill is how far the counter of charges moved during the call. As long as the counter does not
run full that is the exact sum of the charges. When it does, it stands below where it stood before,
and the call is billed nothing for storage.
-/

namespace HostedEvm

/-- A call takes an amount from the supplied gas, or fails where that is not enough. -/
def PrecompileResult.Takes (result : PrecompileResult) (amount : Nat) (supplied : Gas) : Prop :=
  (amount ≤ supplied.toNat → result.gasRemaining.toNat = supplied.toNat - amount) ∧
    (supplied.toNat < amount →
      result = ⟨.error (.outOfGas (UInt64.ofNat amount) supplied), 0⟩)

namespace Spending

variable {spending : Spending} {charged : Gas}

theorem reported_of_fits (nonneg : 0 ≤ spending.counted)
    (fits : charged.toNat + spending.counted.toNat < UInt64.size) (required : Gas) :
    spending.reported required charged =
      min (required.toNat + spending.consumed + spending.counted.toNat) Gas.unlimited.toNat := by
  have after : (charged + UInt64.ofInt spending.counted).toNat =
      charged.toNat + spending.counted.toNat := by
    rw [UInt64.toNat_add, Gas.toNat_ofInt nonneg, Nat.add_mod_mod]
    exact Nat.mod_eq_of_lt fits
  rw [reported, after, Nat.add_sub_cancel_left]

theorem reported_of_full (nonneg : 0 ≤ spending.counted)
    (small : spending.counted.toNat < UInt64.size)
    (full : UInt64.size ≤ charged.toNat + spending.counted.toNat) (required : Gas) :
    spending.reported required charged =
      min (required.toNat + spending.consumed) Gas.unlimited.toNat := by
  have bound := charged.toNat_lt
  -- a counter that runs full once is back at most where it was
  have behind : (charged + UInt64.ofInt spending.counted).toNat ≤ charged.toNat := by
    rw [UInt64.toNat_add, Gas.toNat_ofInt nonneg, Nat.add_mod_mod]
    rw [UInt64.size] at small full ⊢
    omega
  rw [reported, Nat.sub_eq_zero_of_le behind, Nat.add_zero]

end Spending

namespace TransferMachine

open StoreCommand

/-- The counter of charges shows the exact sum since the last reset up to multiples of the size of a
word. It is the sum, cut at the greatest word, as long as no word was filled, and a command that
fills one takes it back. A call of a precompile is billed the exact sum of its charges as long as
the counter does not run full, and nothing for storage when it does. -/
theorem charges_counted {start : Store} (fresh : start.charged = 0)
    (commands : List StoreCommand) :
    let after := (runAll commands start).2
    let sum := due commands start 0
    (after.charged.toNat = sum % UInt64.size ∧
      (after.charged.toNat = min sum Gas.unlimited.toNat ↔
        sum < UInt64.size ∨ sum % UInt64.size = Gas.unlimited.toNat) ∧
      ∀ command : StoreCommand, command ≠ .resetCharges →
        ((command.run after).2.charged < after.charged ↔
          UInt64.size ≤ after.charged.toNat +
            (command.cost after.prices after).toNat % UInt64.size)) ∧
    ∀ (registry : Registry) (container : Container) (invocation : Invocation) (remaining : Nat)
      (input : Bytes) (supplied : Gas) (machine : Machine),
      registry.get? invocation.address = some container →
      Returned
        (registry.run (answer registry remaining) invocation input supplied machine).1.output →
      let spent := registry.spending (answer registry remaining) (work registry remaining)
        invocation input machine
      let before := machine.state.store.charged
      let result := (registry.run (answer registry remaining) invocation input supplied machine).1
      let plain := (container.requiredGas input).toNat + spent.consumed
      0 ≤ spent.counted →
        (before.toNat + spent.counted.toNat < UInt64.size →
          result.Takes (min (plain + spent.counted.toNat) Gas.unlimited.toNat) supplied) ∧
        (spent.counted.toNat < UInt64.size →
          UInt64.size ≤ before.toNat + spent.counted.toNat →
            result.Takes (min plain Gas.unlimited.toNat) supplied) := by
  have shows := shows_runAll (congrArg UInt64.toNat fresh : start.Shows 0) commands
  refine ⟨⟨shows, shows_cut_iff shows, fun command charging => charged_run_lt_iff charging⟩, ?_⟩
  intro registry container invocation remaining input supplied machine registered returned spent
    before result plain nonneg
  have billed : result.Takes (spent.reported (container.requiredGas input) before) supplied :=
    run_consumed registered remaining input supplied machine returned
  constructor
  · intro fits
    rwa [Spending.reported_of_fits nonneg fits] at billed
  · intro small full
    rwa [Spending.reported_of_full nonneg small full] at billed

def looking : Handler := fun _ _ =>
  .perform (.store (.exists? 0)) fun _ => .finish (.ok [])

def dearRegistry : Registry where
  containers := (∅ : Map Address Container).insert 9 (single 9 looking)
  prices := { has := Gas.unlimited }

theorem dearRegistry_get : dearRegistry.get? 9 = some (single 9 looking) := by
  unfold Registry.get? dearRegistry
  rw [Map.get_insert, if_pos rfl]

def chargedMachine : Machine := { state := { store := { charged := 1000 } } }

def dearRun : PrecompileResult × Machine :=
  dearRegistry.run (answer dearRegistry 3) ⟨9, 4, 0, false⟩ [0, 0, 0, 1] 100000 chargedMachine

def dearSpending : Spending :=
  dearRegistry.spending (answer dearRegistry 3) (work dearRegistry 3) ⟨9, 4, 0, false⟩ [0, 0, 0, 1]
    chargedMachine

theorem dearSpending_eq : dearSpending = { storage := 18446744073709551615 } := by
  decide +kernel

def dearQuestions : List StoreCommand :=
  [.setPrices { has := Gas.unlimited }, .exists? 0, .exists? 0]

theorem dearRun_returned : Returned dearRun.1.output := by decide +kernel

/-- The counter forgets the first question, and the call of the precompile is billed nothing. -/
theorem dearRun_counted :
    ({} : Store).charged = 0 ∧
      (runAll dearQuestions {}).2.charged.toNat = due dearQuestions {} 0 % UInt64.size ∧
      due dearQuestions {} 0 = 2 * 18446744073709551615 ∧ Returned dearRun.1.output ∧
      dearSpending.counted = 18446744073709551615 ∧ dearRun.1.gasRemaining.toNat = 100000 := by
  have unused : ({} : Store).charged = 0 := rfl
  obtain ⟨⟨shown, -, -⟩, calls⟩ := charges_counted unused dearQuestions
  have billed := calls dearRegistry _ ⟨9, 4, 0, false⟩ 3 [0, 0, 0, 1] 100000 chargedMachine
    dearRegistry_get
  rw [← dearRun, ← dearSpending, dearSpending_eq] at billed
  obtain ⟨left, -⟩ := (billed dearRun_returned (by decide +kernel)).2 (by decide +kernel)
    (by decide +kernel)
  have unbilled : min (((single 9 looking).requiredGas [0, 0, 0, 1]).toNat + 0)
      Gas.unlimited.toNat = 0 := by
    decide +kernel
  refine ⟨unused, shown, by decide +kernel, dearRun_returned, ?_, ?_⟩
  · rw [dearSpending_eq]
    decide +kernel
  · have remaining := left (by decide +kernel)
    rw [unbilled] at remaining
    exact remaining.trans (by decide +kernel)

/-- The counter does not stop at the greatest word. -/
theorem counter_starts_again :
    ¬∀ (store : Store) (commands : List StoreCommand), store.charged = 0 →
      (runAll commands store).2.charged.toNat =
        min (due commands store 0) Gas.unlimited.toNat := by
  intro claimed
  have stopped := claimed {} dearQuestions rfl
  exact absurd stopped (by decide +kernel)

end TransferMachine

end HostedEvm
