import HostedEvm.Proofs.Chain.Frame

set_option autoImplicit false

/-!
Transactions that are included and fail.

A transaction whose call or creation fails only pays for its gas. One whose call or creation
succeeds fails all the same when the block has no room for the gas it used, and then everything
that the call or creation did stays.
-/

namespace HostedEvm

namespace Processor

open TransferMachine

variable {processor after : Processor} {block : OpenBlock} {tx : Transaction} {receipt : Receipt}

/-- The gas of a successful call or creation is refused only where the block has no room for it. -/
theorem exceeds_of_refused {context : BlockContext} {fault : Fault} {meter : Meter}
    (paid : ((processor.workspace context tx).meter.consume baseGas).1 = .ok ())
    (refused : (started tx (processor.workspace context tx)).meter.consume
      (processor.frame context tx).1.gasUsed = (.error fault, meter)) :
    processor.meter.blockLimit <
      (processor.meter.blockConsumed.plus processor.meter.txConsumed).plus
        (baseGas + (processor.frame context tx).1.gasUsed) := by
  have unused : (processor.workspace context tx).meter.txConsumed ≤
      (processor.workspace context tx).meter.txLimit := by
    rw [workspace_meter]
    exact UInt64.zero_le
  have room : (processor.frame context tx).1.gasUsed ≤
      (started tx (processor.workspace context tx)).meter.remaining :=
    perform_gasUsed_le processor.registry _ _
  have exceeds := Meter.exceeds_of_refused (started_within tx unused) room
    (Meter.consume_eq_error refused).1
  rw [started_workspace_meter paid] at exceeds
  exact exceeds

/-- A call or creation that fails leaves the accounts as it found them, no logs and nothing
destroyed. -/
theorem frame_undone {context : BlockContext} {fault : Fault}
    (wellNested : processor.registry.WellNested)
    (checked : (check tx (processor.workspace context tx).state).1 = .ok ())
    (charged : (charge tx (check tx (processor.workspace context tx).state).2).1 = .ok ())
    (returned : Returned (processor.frame context tx).1.output)
    (failed : (processor.frame context tx).1.output = .error fault) :
    (processor.frame context tx).2.2.store.accounts =
        processor.state.store.accounts.change tx.sender (advanced tx) ∧
      (processor.frame context tx).2.2.logs.entries = [] ∧
      (processor.frame context tx).2.2.destroyed.order = [] := by
  obtain ⟨accounts, logs, destroyed⟩ := started_workspace checked charged
  have atomic := perform_atomic wellNested _ _ returned
  have undone := atomic.undone fault failed
  refine ⟨undone.accounts.trans accounts, ?_, ?_⟩
  · unfold frame TransferMachine.frame
    rw [undone.logs, logs]
  · unfold frame TransferMachine.frame
    rw [undone.destroyed, destroyed]

/-- What a failed transaction leaves. If its call or creation failed, only the fee has moved, which
is the exact price of the gas used where the greatest fee is a word. If its call or creation
succeeded, the block had no room for the gas, and all effects but the status stay. -/
theorem process_failed (opened : processor.openBlock = some block)
    (plain : processor.interpreter = TransferMachine.interpreter)
    (wellNested : processor.registry.WellNested)
    (processed : processor.process tx = (.ok receipt, after)) (failed : receipt.status = false) :
    let made := processor.frame block.context tx
    let coinbase := block.context.coinbase
    let before := processor.state.store.accounts
    receipt.contractAddress = none ∧
      (∀ fault, made.1.output = .error fault →
        receipt.logs = [] ∧
          after.state.store.accounts =
            settled tx coinbase receipt.gasUsed (before.change tx.sender (advanced tx)) ∧
          (tx.gasPrice.toNat * tx.gasLimit.toNat ≤ Word.greatest.toNat →
            after.state.store.accounts = feePaid tx coinbase receipt.gasUsed before)) ∧
      ∀ bytes, made.1.output = .ok bytes →
        processor.meter.blockLimit <
            (processor.meter.blockConsumed.plus processor.meter.txConsumed).plus
              (baseGas + made.1.gasUsed) ∧
          receipt.logs = placeLogs processor.logCount
            (made.2.2.logs.stamped tx.hash 0 block.header.number) ∧
          after.state.store.accounts =
            (settled tx coinbase receipt.gasUsed made.2.2.store.accounts).without
              made.2.2.destroyed.order := by
  intro made coinbase before
  obtain ⟨execution, left, ran, rfl, rfl⟩ := process_eq_ok opened processed
  rw [plain] at ran
  have executed := interpreter_executed ran
  obtain ⟨noContract, settlement, cause⟩ := executed.failed failed
  have accounts : left.state.finalize.store.accounts =
      (settled tx coinbase execution.gasUsed made.2.2.store.accounts).without
        made.2.2.destroyed.order := by
    rw [settlement, JournaledState.finalize_eq]
    exact Store.delete_accounts _ _
  have logs : left.state.logs = made.2.2.logs := by
    rw [settlement]
    rfl
  have stamped : ((processor.behind block.context tx left).receiptOf block.header.number tx
        execution).logs =
      placeLogs processor.logCount (made.2.2.logs.stamped tx.hash 0 block.header.number) := by
    rw [← logs]
    rfl
  refine ⟨noContract, ?_, ?_⟩
  · intro fault framed
    obtain ⟨untouched, noLogs, noneDestroyed⟩ :=
      frame_undone wellNested executed.checked executed.charged executed.returned framed
    have onlyPaid : left.state.finalize.store.accounts =
        settled tx coinbase execution.gasUsed (before.change tx.sender (advanced tx)) := by
      rw [accounts, untouched, noneDestroyed]
      rfl
    refine ⟨?_, onlyPaid, ?_⟩
    · rw [stamped, LogBuffer.stamped, noLogs]
      rfl
    · intro fits
      have funded := maxFee_le_of_funded (check_eq_ok executed.checked).2
      rw [workspace_accounts] at funded
      have within := executed.gasUsed_le UInt64.zero_le
      exact onlyPaid.trans (settled_advanced fits within funded)
  · intro bytes framed
    rcases cause with ⟨fault, refused⟩ | ⟨_, fault, _, refused⟩
    · have clash := framed.symm.trans refused
      cases clash
    · exact ⟨exceeds_of_refused executed.paid refused, stamped, accounts⟩

def crowdedContext : BlockContext where
  number := 1
  timestamp := 0
  coinbase := 7
  gasLimit := 21010
  baseFee := 0
  chainId := 1
  rules := {}

def crowded : Processor :=
  let start : Processor :=
    { state := { store := { accounts := (∅ : Accounts).insert 1 (.funded 50000) } }
      meter := .forBlock 21010 0
      precompiles := fun _ => builtinPrecompiles
      interpreter := TransferMachine.interpreter }
  (start.prepare {} crowdedContext).2

theorem crowded_wellNested : crowded.registry.WellNested := by
  apply prepare_every
  · intro _ precompile member
    rw [List.mem_singleton.mp member]
    trivial
  · exact Map.every_empty

def payment : Transaction where
  sender := 1
  recipient := some 4
  value := 5
  gasLimit := 30000
  gasPrice := 1
  input := [1]
  hash := 1

/-- The payment fails because the block has no room for the gas of the precompile, and the value
stays where it went. -/
theorem payment_crowded : ∃ receipt after,
    crowded.process payment = (.ok receipt, after) ∧ receipt.status = false ∧
      receipt.contractAddress = none ∧ (after.state.store.accounts.account 4).balance = 5 ∧
      crowded.meter.blockLimit <
        (crowded.meter.blockConsumed.plus crowded.meter.txConsumed).plus
          (baseGas + (crowded.frame crowdedContext payment).1.gasUsed) := by
  have ran : (match crowded.process payment, (crowded.frame crowdedContext payment).1.output with
      | (.ok receipt, after), .ok _ =>
        !receipt.status && (after.state.store.accounts.account 4).balance = 5
      | _, _ => false) = true := by
    decide +kernel
  split at ran
  · rename_i receipt after bytes processed made
    rw [Bool.and_eq_true, Bool.not_eq_true', decide_eq_true_eq] at ran
    obtain ⟨failed, paid⟩ := ran
    obtain ⟨noContract, _, kept⟩ := process_failed rfl rfl crowded_wellNested processed failed
    exact ⟨receipt, after, processed, failed, noContract, paid, (kept bytes made).1⟩
  · cases ran

end Processor

end HostedEvm
