import HostedEvm.Proofs.Chain.Frame
import HostedEvm.Proofs.Chain.Rejection
import HostedEvm.Proofs.Execution.Funds

set_option autoImplicit false

/-!
Funds before and behind a transaction.

A block whose precompiles have no handlers never loses funds. It creates none either, except for a
transaction whose greatest fee is no word: the check of its sender then asks for less than the fee,
and what is returned and what is paid are cut to words one by one.
-/

namespace HostedEvm.Processor

open TransferMachine

variable {processor after : Processor} {block : OpenBlock} {tx : Transaction}

theorem accounts_of_rejected {cause : ChainFault} (opened : processor.openBlock = some block)
    (plain : processor.interpreter = TransferMachine.interpreter)
    (processed : processor.process tx = (.error cause, after)) (ordinary : cause.isFatal = false) :
    after.state.store.accounts = processor.state.store.accounts := by
  have same := rested_of_rejected opened plain processed ordinary
  exact congrArg (fun rested => rested.state.store.accounts) same

/-- An accepted transaction leaves the accounts that its call or creation left, settled. -/
theorem process_accepted {receipt : Receipt} (opened : processor.openBlock = some block)
    (plain : processor.interpreter = TransferMachine.interpreter)
    (handlerless : processor.registry.Handlerless)
    (processed : processor.process tx = (.ok receipt, after))
    (word : processor.state.store.accounts.funds ≤ Word.greatest.toNat) :
    maxFee tx ≤ (processor.state.store.accounts.account tx.sender).balance ∧
      baseGas ≤ receipt.gasUsed ∧ receipt.gasUsed ≤ tx.gasLimit ∧
      ∃ accounts : Accounts,
        accounts.funds + (maxFee tx).toNat = processor.state.store.accounts.funds ∧
          after.state.store.accounts =
            settled tx block.context.coinbase receipt.gasUsed accounts := by
  obtain ⟨execution, left, ran, rfl, rfl⟩ := process_eq_ok opened processed
  rw [plain] at ran
  have executed := interpreter_executed ran
  have funded := maxFee_le_of_funded (check_eq_ok executed.checked).2
  rw [workspace_accounts] at funded
  have charged := funds_advanced funded
  obtain ⟨accounts, _, noneDestroyed⟩ := started_workspace executed.checked executed.charged
  have startedWord :
      (started tx (processor.workspace block.context tx)).state.store.accounts.funds ≤
      Word.greatest.toNat := by
    rw [accounts]
    omega
  have conserved : Conserves (started tx (processor.workspace block.context tx)).state
      (processor.frame block.context tx).2.2 :=
    perform_conserves handlerless startedWord executed.returned
  have settlement := conclude_state executed.concluded
  refine ⟨funded, executed.baseGas_le, executed.gasUsed_le UInt64.zero_le,
    (processor.frame block.context tx).2.2.store.accounts, ?_, ?_⟩
  · rw [conserved.funds, accounts]
    exact charged
  · have spared : left.state.destroyed.order = [] := by
      rw [settlement]
      exact (congrArg DestroyedAccounts.order conserved.destroyed).trans noneDestroyed
    change left.state.finalize.store.accounts = _
    rw [JournaledState.finalize_eq, spared, settlement]
    rfl

theorem funds_of_accepted {receipt : Receipt} (opened : processor.openBlock = some block)
    (plain : processor.interpreter = TransferMachine.interpreter)
    (handlerless : processor.registry.Handlerless)
    (processed : processor.process tx = (.ok receipt, after))
    (word : processor.state.store.accounts.funds ≤ Word.greatest.toNat) :
    processor.state.store.accounts.funds ≤ after.state.store.accounts.funds ∧
      (after.state.store.accounts.funds = processor.state.store.accounts.funds ↔
        tx.gasPrice.toNat * tx.gasLimit.toNat ≤ Word.greatest.toNat ∨
          receipt.gasUsed = tx.gasLimit ∨ block.context.coinbase = tx.sender) := by
  obtain ⟨funded, based, within, accounts, taken, left⟩ :=
    process_accepted opened plain handlerless processed word
  rw [left]
  by_cases fits : tx.gasPrice.toNat * tx.gasLimit.toNat ≤ Word.greatest.toNat
  · have whole := @funds_settled_of_fits tx accounts block.context.coinbase receipt.gasUsed fits
      within (by omega)
    rw [whole, taken]
    exact ⟨Nat.le_refl _, fun _ => .inl fits, fun _ => rfl⟩
  · -- The greatest fee is the greatest word, so the sender held all funds there are.
    have overflows := Nat.lt_of_not_le fits
    have greatest : (maxFee tx).toNat = Word.greatest.toNat := by
      unfold maxFee
      rw [Word.toNat_times, Word.toNat_ofGas]
      exact Nat.min_eq_right (Nat.le_of_lt overflows)
    have held := Accounts.balance_le_funds processor.state.store.accounts tx.sender
    rw [BitVec.le_def, greatest] at funded
    have all : processor.state.store.accounts.funds = Word.greatest.toNat := by omega
    have empty : accounts.funds = 0 := by omega
    have some : 0 < receipt.gasUsed := UInt64.lt_of_lt_of_le (by decide) based
    rw [all, or_iff_right fits]
    exact funds_settled_of_overflow overflows within some empty

/-- A transaction never burns funds. It mints some exactly if it is accepted, its greatest fee is
no word, it leaves gas unused and its fee goes to another account. -/
theorem process_funds {outcome : Except ChainFault Receipt}
    (opened : processor.openBlock = some block)
    (plain : processor.interpreter = TransferMachine.interpreter)
    (handlerless : processor.registry.Handlerless)
    (processed : processor.process tx = (outcome, after))
    (ordinary : ∀ cause, outcome = .error cause → cause.isFatal = false)
    (word : processor.state.store.accounts.funds ≤ Word.greatest.toNat) :
    processor.state.store.accounts.funds ≤ after.state.store.accounts.funds ∧
      (after.state.store.accounts.funds = processor.state.store.accounts.funds ↔
        ∀ receipt, outcome = .ok receipt →
          tx.gasPrice.toNat * tx.gasLimit.toNat ≤ Word.greatest.toNat ∨
            receipt.gasUsed = tx.gasLimit ∨ block.context.coinbase = tx.sender) := by
  cases outcome with
  | error cause =>
      rw [accounts_of_rejected opened plain processed (ordinary cause rfl)]
      refine ⟨Nat.le_refl _, fun _ => ?_, fun _ => rfl⟩
      intro receipt accepted
      cases accepted
  | ok receipt =>
      obtain ⟨more, conserved⟩ := funds_of_accepted opened plain handlerless processed word
      refine ⟨more, ?_⟩
      rw [conserved]
      constructor
      · rintro one found same
        cases same
        exact one
      · intro all
        exact all receipt rfl

def wealthy : Processor :=
  let start : Processor :=
    { state := { store := { accounts := (∅ : Accounts).insert 1 (.funded Word.greatest) } }
      meter := .forBlock 0 30000000
      precompiles := fun _ => builtinPrecompiles
      interpreter := TransferMachine.interpreter }
  (start.prepare {}
    { number := 1, timestamp := 0, coinbase := 7, gasLimit := 30000000, baseFee := 0, chainId := 1
      rules := {} }).2

theorem wealthy_handlerless : wealthy.registry.Handlerless := by
  apply prepare_every
  · intro _ precompile member
    rw [List.mem_singleton.mp member]
    trivial
  · exact Map.every_empty

def overpriced : Transaction where
  sender := 1
  recipient := some 2
  gasLimit := 42000
  gasPrice := Word.greatest
  hash := 1

/-- The sender gets back all it paid, and the coinbase is paid all the same. -/
theorem overpriced_mints : ∃ receipt after,
    wealthy.process overpriced = (.ok receipt, after) ∧
      wealthy.state.store.accounts.funds ≤ Word.greatest.toNat ∧
      wealthy.state.store.accounts.funds < after.state.store.accounts.funds := by
  have ran : (wealthy.process overpriced).1.toOption.map Receipt.gasUsed = some 21000 := by
    decide +kernel
  rcases processed : wealthy.process overpriced with ⟨outcome, after⟩
  rw [processed] at ran
  cases outcome with
  | error cause => cases ran
  | ok receipt =>
      have used : receipt.gasUsed = 21000 := Option.some.inj ran
      have word : wealthy.state.store.accounts.funds ≤ Word.greatest.toNat := by decide +kernel
      obtain ⟨more, conserved⟩ :=
        process_funds rfl rfl wealthy_handlerless processed nofun word
      refine ⟨receipt, after, rfl, word, Nat.lt_of_le_of_ne more ?_⟩
      intro same
      rcases conserved.mp same.symm receipt rfl with fits | whole | own
      · revert fits
        decide +kernel
      · rw [used] at whole
        cases whole
      · revert own
        decide +kernel

end HostedEvm.Processor
