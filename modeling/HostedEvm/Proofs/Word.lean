import HostedEvm.Word

set_option autoImplicit false

/-!
Bounded arithmetic.
-/

namespace HostedEvm

namespace Gas

theorem plus_zero (amount : Gas) : amount.plus 0 = amount := by
  apply UInt64.toNat_inj.mp
  rw [toNat_plus]
  have bound := amount.toNat_lt
  have zero : (0 : Gas).toNat = 0 := rfl
  have greatest : unlimited.toNat = 18446744073709551615 := rfl
  omega

theorem minus_le (first second : Gas) : first.minus second ≤ first := by
  rw [UInt64.le_iff_toNat_le, toNat_minus]
  exact Nat.sub_le _ _

theorem toNat_le_unlimited (amount : Gas) : amount.toNat ≤ unlimited.toNat := by
  have greatest : unlimited.toNat = 18446744073709551615 := rfl
  have bound := amount.toNat_lt
  omega

theorem toNat_lt_of_ne_unlimited {amount : Gas} (limited : amount ≠ unlimited) :
    amount.toNat < unlimited.toNat := by
  apply Nat.lt_of_le_of_ne (toNat_le_unlimited amount)
  intro same
  exact limited (UInt64.toNat_inj.mp same)

theorem le_plus (first second : Gas) : first ≤ first.plus second := by
  have bound := toNat_le_unlimited first
  rw [UInt64.le_iff_toNat_le, toNat_plus]
  omega

theorem ofInt_toNat (price : Gas) : UInt64.ofInt price.toNat = price := by
  apply UInt64.toNat_inj.mp
  have bound := price.toNat_lt
  have same : ((price.toNat : Int) % 2 ^ 64).toNat = price.toNat := by omega
  rw [UInt64.ofInt, same, UInt64.ofNat_toNat]

theorem toNat_ofInt {amount : Int} (nonneg : 0 ≤ amount) :
    (UInt64.ofInt amount).toNat = amount.toNat % UInt64.size := by
  have same : (amount % 2 ^ 64).toNat = amount.toNat % UInt64.size := by
    rw [UInt64.size]
    omega
  rw [UInt64.ofInt, same]
  exact UInt64.toNat_ofNat_of_lt' (Nat.mod_lt _ (by decide))

end Gas

theorem Word.minus_self (word : Word) : word.minus word = 0 := by
  apply BitVec.eq_of_toNat_eq
  simp [toNat_minus]

theorem Word.toNat_le_greatest (word : Word) : word.toNat ≤ Word.greatest.toNat := by
  rw [Word.greatest, BitVec.toNat_allOnes]
  exact Nat.le_pred_of_lt word.isLt

theorem Gas.toNat_le_greatest (amount : Gas) : amount.toNat ≤ Word.greatest.toNat := by
  rw [← Word.toNat_ofGas]
  exact Word.toNat_le_greatest _

end HostedEvm
