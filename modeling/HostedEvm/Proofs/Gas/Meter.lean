import HostedEvm.Gas.Meter
import HostedEvm.Proofs.Word

set_option autoImplicit false

/-!
What a gas meter admits.
-/

namespace HostedEvm

namespace Meter

variable {meter after : Meter} {amount consumed : Gas} {fault : Fault}

theorem admitted_eq_ok_iff :
    meter.admitted amount = .ok consumed ↔
      meter.txConsumed.toNat + amount.toNat = consumed.toNat ∧ consumed ≤ meter.txLimit ∧
        meter.blockConsumed.plus consumed ≤ meter.blockLimit := by
  unfold admitted
  simp only
  constructor
  · intro paid
    split at paid
    · cases paid
    · rename_i fits
      split at paid
      · cases paid
      · rename_i withinTx
        split at paid
        · cases paid
        · rename_i withinBlock
          cases paid
          refine ⟨?_, UInt64.not_lt.mp withinTx, UInt64.not_lt.mp withinBlock⟩
          rw [UInt64.toNat_ofNat_of_lt' (Nat.lt_of_not_ge fits)]
  · rintro ⟨total, withinTx, withinBlock⟩
    have fits : ¬ meter.txConsumed.toNat + amount.toNat ≥ UInt64.size := by
      rw [total]
      exact Nat.not_le_of_lt consumed.toNat_lt
    have same : UInt64.ofNat (meter.txConsumed.toNat + amount.toNat) = consumed := by
      rw [total, UInt64.ofNat_toNat]
    rw [if_neg fits, same, if_neg (UInt64.not_lt.mpr withinTx),
      if_neg (UInt64.not_lt.mpr withinBlock)]

/-- Where the transaction has room for a charge, only the block can refuse it. -/
theorem exceeds_of_refused (within : meter.txConsumed ≤ meter.txLimit)
    (room : amount ≤ meter.remaining) (refused : meter.admitted amount = .error fault) :
    meter.blockLimit < meter.blockConsumed.plus (meter.txConsumed + amount) := by
  apply UInt64.not_le.mp
  intro accepted
  have limit := meter.txLimit.toNat_lt
  rw [UInt64.le_iff_toNat_le] at within room
  rw [remaining, Gas.toNat_minus] at room
  have total : meter.txConsumed.toNat + amount.toNat = (meter.txConsumed + amount).toNat := by
    rw [UInt64.toNat_add, Nat.mod_eq_of_lt (by omega)]
  have withinTx : meter.txConsumed + amount ≤ meter.txLimit := by
    rw [UInt64.le_iff_toNat_le, ← total]
    omega
  have paid := admitted_eq_ok_iff.mpr ⟨total, withinTx, accepted⟩
  rw [refused] at paid
  cases paid

theorem consume_eq_ok (paid : meter.consume amount = (.ok (), after)) :
    ∃ consumed, meter.admitted amount = .ok consumed ∧
      after = { meter with txConsumed := consumed } := by
  unfold consume at paid
  split at paid
  · rename_i consumed admitted
    cases paid
    exact ⟨consumed, admitted, rfl⟩
  · cases paid

theorem consume_eq_error (refused : meter.consume amount = (.error fault, after)) :
    meter.admitted amount = .error fault ∧ after = meter := by
  unfold consume at refused
  split at refused
  · cases refused
  · rename_i fault admitted
    cases refused
    exact ⟨admitted, rfl⟩

theorem consume_within (within : meter.txConsumed ≤ meter.txLimit) (amount : Gas) :
    (meter.consume amount).2.txConsumed ≤ (meter.consume amount).2.txLimit := by
  unfold consume
  split
  · rename_i consumed admitted
    exact (admitted_eq_ok_iff.mp admitted).2.1
  · exact within

/-- Consumption changes nothing but what the transaction has consumed. -/
theorem consume_snd (meter : Meter) (amount : Gas) :
    (meter.consume amount).2 =
      { meter with txConsumed := (meter.consume amount).2.txConsumed } := by
  unfold consume
  split
  · rfl
  · rfl

/-- What has been consumed grows by an amount that is accepted. -/
theorem consume_consumed (meter : Meter) (amount : Gas) :
    (meter.consume amount).2.txConsumed.toNat =
      meter.txConsumed.toNat + if (meter.consume amount).1.isOk then amount.toNat else 0 := by
  unfold consume
  split
  · rename_i consumed admitted
    exact (admitted_eq_ok_iff.mp admitted).1.symm
  · rfl

theorem consume_txLimit (meter : Meter) (amount : Gas) :
    (meter.consume amount).2.txLimit = meter.txLimit := by
  rw [consume_snd]

theorem consume_blockConsumed (meter : Meter) (amount : Gas) :
    (meter.consume amount).2.blockConsumed = meter.blockConsumed := by
  rw [consume_snd]

theorem consume_blockLimit (meter : Meter) (amount : Gas) :
    (meter.consume amount).2.blockLimit = meter.blockLimit := by
  rw [consume_snd]
  rfl

theorem withinBlock_of_consumed (paid : (meter.consume amount).1 = .ok ()) :
    meter.blockConsumed.plus (meter.consume amount).2.txConsumed ≤ meter.blockLimit := by
  unfold consume at paid ⊢
  split at paid
  · rename_i consumed admitted
    exact (admitted_eq_ok_iff.mp admitted).2.2
  · cases paid

theorem consume_withinBlock
    (within : meter.blockConsumed.plus meter.txConsumed ≤ meter.blockLimit) (amount : Gas) :
    meter.blockConsumed.plus (meter.consume amount).2.txConsumed ≤ meter.blockLimit := by
  unfold consume
  split
  · rename_i consumed admitted
    exact (admitted_eq_ok_iff.mp admitted).2.2
  · exact within

theorem le_consume (meter : Meter) (amount : Gas) :
    meter.txConsumed ≤ (meter.consume amount).2.txConsumed := by
  have total := meter.consume_consumed amount
  have more : meter.txConsumed.toNat ≤ (meter.consume amount).2.txConsumed.toNat := by omega
  exact UInt64.le_iff_toNat_le.mpr more

/-- What has been paid is part of what the transaction has consumed. -/
theorem le_of_consumed (paid : (meter.consume amount).1 = .ok ()) :
    amount ≤ (meter.consume amount).2.txConsumed := by
  have total := meter.consume_consumed amount
  have accepted : (meter.consume amount).1.isOk = true := congrArg Except.isOk paid
  rw [if_pos accepted] at total
  have part : amount.toNat ≤ (meter.consume amount).2.txConsumed.toNat := by omega
  exact UInt64.le_iff_toNat_le.mpr part

end Meter

end HostedEvm
