import HostedEvm.Proofs.Execution.Settlement
import HostedEvm.Proofs.State.Accounts

set_option autoImplicit false

/-!
The fee of a transaction.

The sender pays the greatest fee before the call or creation and gets back what was not used. Where
the greatest fee is a word, both payments together move exactly the price of the gas used.
-/

namespace HostedEvm.TransferMachine

variable {tx : Transaction} {workspace : Workspace}

def advanced (tx : Transaction) (account : Account) : Account :=
  { account with balance := account.balance.minus (maxFee tx), nonce := account.nonce + 1 }

/-- The accounts behind a transaction that did nothing but pay for its gas. -/
def feePaid (tx : Transaction) (coinbase : Address) (gasUsed : Gas) (accounts : Accounts) :
    Accounts :=
  let debited := accounts.change tx.sender fun account =>
    { account with
      balance := account.balance.minus (feeFor tx gasUsed), nonce := account.nonce + 1 }
  debited.change coinbase fun account =>
    { account with balance := account.balance.plus (feeFor tx gasUsed) }

theorem check_eq_ok {state : JournaledState} (checked : (check tx state).1 = .ok ()) :
    tx.nonce = (state.store.accounts.account tx.sender).nonce ∧
      (maxFee tx).plus tx.value ≤ (state.store.accounts.account tx.sender).balance := by
  unfold check at checked
  simp only at checked
  split at checked
  · cases checked
  · rename_i expected
    split at checked
    · cases checked
    · rename_i funded
      exact ⟨Decidable.not_not.mp expected, BitVec.not_lt.mp funded⟩

theorem charge_eq_ok {state : JournaledState} (charged : (charge tx state).1 = .ok ()) :
    (charge tx state).2 =
      { state with
        store :=
          (state.store.subBalance tx.sender (maxFee tx)).setNonce tx.sender (tx.nonce + 1) } := by
  unfold charge at charged ⊢
  simp only at charged ⊢
  split at charged
  · rename_i next summed
    have total := (Counter.sum_eq_ok_iff.mp summed).1
    have successor : UInt64.ofNat next = tx.nonce + 1 := by
      rw [← total, UInt64.ofNat_add, UInt64.ofNat_toNat]
      rfl
    rw [successor]
  · cases charged

/-- A transaction that was checked and charged has changed its sender alone. -/
theorem started_state (checked : (check tx workspace.state).1 = .ok ())
    (charged : (charge tx (check tx workspace.state).2).1 = .ok ()) :
    ∃ amount, (started tx workspace).state =
      { workspace.state with
        store :=
          { workspace.state.store with
            accounts := workspace.state.store.accounts.change tx.sender (advanced tx)
            charged := amount } } := by
  obtain ⟨nonce, _⟩ := check_eq_ok checked
  obtain ⟨read, same⟩ := check_charged tx workspace.state
  have sender : ((workspace.state.store.accounts.change tx.sender fun account =>
      { account with balance := account.balance.minus (maxFee tx) }).change tx.sender
        fun account => { account with nonce := tx.nonce + 1 }) =
      workspace.state.store.accounts.change tx.sender (advanced tx) := by
    rw [Accounts.change_change]
    apply Accounts.change_congr
    unfold advanced
    rw [nonce]
  unfold started
  rw [charge_eq_ok charged, same, ← sender]
  exact ⟨_, rfl⟩

/-- The accounts once the fee for unused gas is returned and the rest of it is paid. -/
def settled (tx : Transaction) (coinbase : Address) (gasUsed : Gas) (accounts : Accounts) :
    Accounts :=
  let refunded := accounts.change tx.sender fun account =>
    { account with balance := account.balance.plus (feeFor tx (tx.gasLimit.minus gasUsed)) }
  refunded.change coinbase fun account =>
    { account with balance := account.balance.plus (feeFor tx gasUsed) }

/-- Paying the greatest fee and taking back what was not used comes to the fee for what was. -/
theorem balance_settled {balance : Word} {gasUsed : Gas}
    (fits : tx.gasPrice.toNat * tx.gasLimit.toNat ≤ Word.greatest.toNat)
    (within : gasUsed ≤ tx.gasLimit) (funded : maxFee tx ≤ balance) :
    (balance.minus (maxFee tx)).plus (feeFor tx (tx.gasLimit.minus gasUsed)) =
      balance.minus (feeFor tx gasUsed) := by
  have bound := balance.toNat_le_greatest
  have used : tx.gasPrice.toNat * gasUsed.toNat ≤ tx.gasPrice.toNat * tx.gasLimit.toNat :=
    Nat.mul_le_mul_left _ (UInt64.le_iff_toNat_le.mp within)
  have unused : tx.gasPrice.toNat * (tx.gasLimit.toNat - gasUsed.toNat) =
      tx.gasPrice.toNat * tx.gasLimit.toNat - tx.gasPrice.toNat * gasUsed.toNat :=
    Nat.mul_sub ..
  apply BitVec.eq_of_toNat_eq
  unfold maxFee at funded ⊢
  unfold feeFor
  rw [BitVec.le_def] at funded
  simp only [Word.toNat_times, Word.toNat_ofGas, Word.toNat_plus, Word.toNat_minus,
    Gas.toNat_minus, unused] at funded ⊢
  omega

theorem settled_advanced {accounts : Accounts} {coinbase : Address} {gasUsed : Gas}
    (fits : tx.gasPrice.toNat * tx.gasLimit.toNat ≤ Word.greatest.toNat)
    (within : gasUsed ≤ tx.gasLimit)
    (funded : maxFee tx ≤ (accounts.account tx.sender).balance) :
    settled tx coinbase gasUsed (accounts.change tx.sender (advanced tx)) =
      feePaid tx coinbase gasUsed accounts := by
  unfold settled feePaid
  simp only [Accounts.change_change]
  congr 1
  apply Accounts.change_congr
  unfold advanced
  simp only [balance_settled fits within funded]

theorem maxFee_le_of_funded {balance : Word} (funded : (maxFee tx).plus tx.value ≤ balance) :
    maxFee tx ≤ balance := by
  have bound := (maxFee tx).toNat_le_greatest
  rw [BitVec.le_def] at funded ⊢
  rw [Word.toNat_plus] at funded
  omega

end HostedEvm.TransferMachine
