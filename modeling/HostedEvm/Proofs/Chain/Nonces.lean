import HostedEvm.Pool.Pool
import HostedEvm.Proofs.Chain.Conservation
import HostedEvm.Proofs.Execution.Nonces
import HostedEvm.Proofs.Gas.Runs

set_option autoImplicit false

/-!
The nonces that the transactions of a block move.

A transaction that gets a receipt had the nonce of its sender, and moves it on by one. No other
nonce changes with a transaction, as far as neither the transaction creates the account nor a
precompile reaches it. So a transaction is turned down for its nonce only where the nonce is not the
one that the state shows.
-/

namespace HostedEvm

def Fresh (spared : Address → Prop) (txs : List Transaction) : Prop :=
  ∀ tx ∈ txs, TransferMachine.Fresh spared tx

/-- An account that a creation gives. -/
theorem createdAddress_sample :
    createdAddress 1 7 = 205456751596770280562090718073322193906149661630 := by
  decide +kernel

namespace Processor

open TransferMachine

def nonceOf (processor : Processor) : NonceOf := processor.state.store.accounts.nonceOf

variable {processor after : Processor} {block : OpenBlock} {tx : Transaction}
  {spared : Address → Prop}

theorem unmarked_workspace (processor : Processor) (context : BlockContext) (tx : Transaction) :
    (processor.workspace context tx).state.destroyed.order = [] := by
  obtain ⟨accessList, same⟩ := processor.workspace_cleared context tx
  rw [same]
  rfl

theorem nonceOf_workspace (processor : Processor) (context : BlockContext) (tx : Transaction) :
    (processor.workspace context tx).state.store.accounts.nonceOf = processor.nonceOf :=
  congrArg Accounts.nonceOf (processor.workspace_accounts context tx)

theorem nonceOf_advanced (accounts : Accounts) (tx : Transaction) (address : Address) :
    (accounts.change tx.sender (advanced tx)).nonceOf address =
      if address = tx.sender then accounts.nonceOf address + 1 else accounts.nonceOf address := by
  by_cases own : address = tx.sender
  · rw [if_pos own, own]
    unfold Accounts.nonceOf
    rw [Accounts.account_change_same]
    rfl
  · rw [if_neg own, Accounts.nonceOf_change_other (Ne.symm own)]

/-- A transaction that gets a receipt had the nonce of its sender, which moves on by one. -/
theorem nonces_of_accepted {receipt : Receipt} (opened : processor.openBlock = some block)
    (plain : processor.interpreter = TransferMachine.interpreter)
    (spares : processor.registry.Spares spared) (fresh : TransferMachine.Fresh spared tx)
    (processed : processor.process tx = (.ok receipt, after)) :
    tx.nonce = processor.nonceOf tx.sender ∧ tx.nonce.toNat + 1 < UInt64.size ∧
      ∀ address, spared address → after.nonceOf address =
        if address = tx.sender then processor.nonceOf address + 1
        else processor.nonceOf address := by
  obtain ⟨execution, left, ran, rfl, rfl⟩ := process_eq_ok opened processed
  rw [plain] at ran
  have executed := interpreter_executed ran
  obtain ⟨accounts, _, unmarked⟩ := started_workspace executed.checked executed.charged
  have expected := (check_eq_ok executed.checked).1
  refine ⟨?_, fits_of_charged executed.charged, ?_⟩
  · rw [← nonceOf_workspace processor block.context tx]
    exact expected
  · intro address safe
    have kept := executed.keepsNonces spares fresh
    have settled := kept.finalize_nonce safe (by rw [unmarked]; exact List.not_mem_nil)
    rw [accounts, nonceOf_advanced] at settled
    exact settled

/-- Whatever comes of a transaction, it moves the nonce of no account but its sender. -/
theorem nonceOf_process_other (opened : processor.openBlock = some block)
    (plain : processor.interpreter = TransferMachine.interpreter)
    (spares : processor.registry.Spares spared) (fresh : TransferMachine.Fresh spared tx)
    {address : Address} (safe : spared address) (other : address ≠ tx.sender) :
    (processor.process tx).2.nonceOf address = processor.nonceOf address := by
  rcases processed : processor.process tx with ⟨outcome, after⟩
  cases outcome with
  | ok receipt =>
      have moved := (nonces_of_accepted opened plain spares fresh processed).2.2 address safe
      rw [if_neg other] at moved
      exact moved
  | error cause =>
      by_cases fatal : cause.isFatal = true
      · rcases process_eq_fatal opened processed fatal with rfl | ⟨fault, left, ran, rfl⟩
        · rfl
        · have kept := @interpreter_keepsOthers spared tx
            ⟨processor.registry, block.context⟩ spares fresh (processor.workspace block.context tx)
          rw [← plain, ran] at kept
          rw [← nonceOf_workspace processor block.context tx]
          exact kept.nonce address ⟨safe, other⟩
      · exact congrArg (fun accounts => Accounts.nonceOf accounts address)
          (accounts_of_rejected opened plain processed (Bool.not_eq_true _ ▸ fatal))

/-- Where the host never gives up in a call, a transaction without a receipt moves no nonce. -/
theorem refused_keepsNonces {cause : ChainFault} (opened : processor.openBlock = some block)
    (plain : processor.interpreter = TransferMachine.interpreter)
    (returns : ∀ gas state, Returned (perform tx processor.registry gas state).1.output)
    (processed : processor.process tx = (.error cause, after)) :
    KeepsNonces spared processor.state after.state := by
  by_cases fatal : cause.isFatal = true
  · rcases process_eq_fatal opened processed fatal with rfl | ⟨fault, left, ran, rfl⟩
    · exact .refl _
    · rw [plain] at ran
      have kept : KeepsNonces spared (processor.workspace block.context tx).state left.state :=
        @interpreter_refused spared tx ⟨processor.registry, block.context⟩ _ left fault returns ran
      refine ⟨fun address safe => ?_, fun address safe marked => ?_⟩
      · exact (kept.nonce address safe).trans
          (congrFun (processor.nonceOf_workspace block.context tx) address)
      · have before := kept.destroyed address safe marked
        rw [unmarked_workspace] at before
        exact absurd before List.not_mem_nil
  · have ordinary : cause.isFatal = false := Bool.eq_false_iff.mpr fatal
    have same := accounts_of_rejected opened plain processed ordinary
    have unmarked := destroyed_of_process opened plain processed (by rintro _ ⟨⟩; exact ordinary)
    refine ⟨fun address _ => congrArg (Accounts.nonceOf · address) same, fun address _ marked => ?_⟩
    rw [unmarked] at marked
    exact absurd marked List.not_mem_nil

theorem consume_ne_invalidNonce {meter left : Meter} {amount : Gas} {expected given : UInt64} :
    meter.consume amount ≠ (.error (.invalidNonce expected given), left) := by
  intro refused
  rcases Meter.admitted_eq_error (Meter.consume_eq_error refused).1 with
    ⟨_, overflow⟩ | ⟨_, _, ⟨_, beyond⟩ | ⟨_, full⟩⟩
  · cases overflow
  · cases beyond
  · cases full

/-- A transaction is turned down for its nonce only where that is not the nonce of its sender. -/
theorem nonce_ne_of_invalidNonce {expected given : UInt64}
    (opened : processor.openBlock = some block)
    (plain : processor.interpreter = TransferMachine.interpreter)
    (processed : processor.process tx = (.error (.vm (.invalidNonce expected given)), after)) :
    tx.nonce ≠ processor.nonceOf tx.sender := by
  obtain ⟨fault, left, ran, _, refused⟩ := process_eq_error opened processed rfl
  have given := (congrArg Prod.fst refused).symm.trans (reject_own _ _ _)
  cases given
  rw [plain] at ran
  intro same
  rw [← nonceOf_workspace processor block.context tx] at same
  unfold TransferMachine.interpreter TransferMachine.interpreterBy at ran
  split at ran
  · rename_i reason state failed
    cases ran
    unfold check at failed
    simp only at failed
    split at failed
    · rename_i differs
      exact differs same
    · split at failed
      · cases failed
      · cases failed
  · split at ran
    · rename_i reason meter payment
      cases ran
      exact consume_ne_invalidNonce payment
    · have fatal := fatal_of_executeChecked ran
      cases fatal

end Processor

end HostedEvm
