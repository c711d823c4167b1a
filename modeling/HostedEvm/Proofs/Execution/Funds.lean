import HostedEvm.Proofs.Execution.Fee
import HostedEvm.Proofs.State.Funds

set_option autoImplicit false

/-!
Where funds go while a transaction runs.

A call or creation moves value between accounts and creates none. Where no precompile has a handler
of its own, nothing else can touch a balance between the payment of the greatest fee and its
settlement.
-/

namespace HostedEvm

/-- The accounts of both states hold as much together, and the same accounts are marked
destroyed. -/
structure Conserves (before after : JournaledState) : Prop where
  funds : after.store.accounts.funds = before.store.accounts.funds
  destroyed : after.destroyed = before.destroyed

theorem Conserves.refl (state : JournaledState) : Conserves state state := ⟨rfl, rfl⟩

theorem Conserves.trans {first second third : JournaledState} (start : Conserves first second)
    (rest : Conserves second third) : Conserves first third :=
  ⟨rest.funds.trans start.funds, rest.destroyed.trans start.destroyed⟩

theorem Conserves.of_sameView {before after : JournaledState} (same : after.SameView before) :
    Conserves before after :=
  ⟨congrArg Accounts.funds same.accounts, same.destroyed⟩

/-- No precompile has a method, so that none can work on the state. -/
abbrev Registry.Handlerless (registry : Registry) : Prop := registry.Every fun _ => False

theorem Registry.Handlerless.wellNested {registry : Registry} (handlerless : registry.Handlerless) :
    registry.WellNested :=
  handlerless.imp fun _ => False.elim

theorem Container.run_handlerless {container : Container}
    (handlerless : container.Every fun _ => False) (scene : Scene) (input : Bytes) (meter : Meter)
    (machine : Machine) : (container.run scene input meter machine).2.2 = machine := by
  cases container with
  | pure contract => rfl
  | dispatching table =>
      unfold run
      split
      · rename_i other same
        cases same
      · rename_i other same
        cases same
        split
        · rfl
        · rename_i bound selected
          obtain ⟨selector, found⟩ := MethodTable.select_mem selected
          exact (handlerless selector bound found).elim

namespace Registry

variable {registry : Registry}

theorem execute_handlerless {container : Container} (handlerless : container.Every fun _ => False)
    (scene : Scene) (input : Bytes) (machine : Machine) :
    (execute container scene input machine).2.2 = machine := by
  unfold execute
  split
  · exact Container.run_handlerless handlerless scene input _ machine
  · rfl

theorem rewindOnFailure_ok {snapshot : Snapshot} {result : PrecompileResult} {machine : Machine}
    {bytes : Bytes}
    (succeeded : (rewindOnFailure snapshot result machine).1.output = .ok bytes) :
    (rewindOnFailure snapshot result machine).2 = machine := by
  unfold rewindOnFailure at succeeded ⊢
  cases output : result.output with
  | ok _ => rfl
  | error fault =>
      simp only [output] at succeeded
      split at succeeded
      · rw [output] at succeeded
        cases succeeded
      · cases succeeded

theorem run_conserves (handlerless : registry.Handlerless) {nested : Answer}
    {invocation : Invocation} {input : Bytes} {supplied : Gas} {machine : Machine} {bytes : Bytes}
    (succeeded : (registry.run nested invocation input supplied machine).1.output = .ok bytes) :
    Conserves machine.state (registry.run nested invocation input supplied machine).2.state := by
  unfold run at succeeded ⊢
  cases registered : registry.get? invocation.address with
  | none => exact .refl machine.state
  | some container =>
      have kept := execute_handlerless (handlerless _ container registered)
        ⟨invocation, container.book?, nested⟩ input
        { machine with state := machine.state.snapshot.2.withPrices registry.prices }
      simp only [registered] at succeeded ⊢
      split at succeeded
      · cases succeeded
      · rw [rewindOnFailure_ok succeeded, kept]
        exact ⟨rfl, rfl⟩

end Registry

namespace TransferMachine

variable {tx : Transaction} {registry : Registry}

theorem transfer_conserves (sender recipient : Address) (value : Word) {state : JournaledState}
    (word : state.store.accounts.funds ≤ Word.greatest.toNat) :
    Conserves state (transfer sender recipient value state).2 := by
  unfold transfer
  split
  · exact .refl state
  · simp only
    split
    · exact ⟨rfl, rfl⟩
    · rename_i funded
      refine ⟨?_, rfl⟩
      have paid := @Accounts.funds_debit state.store.accounts sender
        (fun account => { account with balance := account.balance.minus value }) value rfl
        (BitVec.not_lt.mp funded)
      have received := @Accounts.funds_credit
        (state.store.accounts.change sender
          fun account => { account with balance := account.balance.minus value })
        recipient (fun account => { account with balance := account.balance.plus value }) value rfl
        (by omega)
      exact received.trans paid

theorem execute_conserves (handlerless : registry.Handlerless) {nested : Answer}
    {message : Message} {machine : Machine} {bytes : Bytes}
    (succeeded : (execute registry nested message machine).1.output = .ok bytes) :
    Conserves machine.state (execute registry nested message machine).2.state := by
  have ran := executes registry nested message machine
  generalize execute registry nested message machine = result at ran succeeded ⊢
  cases ran with
  | registered => exact Registry.run_conserves handlerless succeeded
  | still => exact .refl machine.state
  | logged => exact ⟨rfl, rfl⟩

theorem transferAndExecute_eq_ok {nested : Answer} {message : Message} {machine : Machine}
    {bytes : Bytes}
    (succeeded : (transferAndExecute registry nested message machine).1.output = .ok bytes) :
    transferAndExecute registry nested message machine =
      execute registry nested message
        { machine with
          state :=
            (transfer message.caller message.recipient message.value machine.state).2 } := by
  unfold transferAndExecute at succeeded ⊢
  rcases transferred : transfer message.caller message.recipient message.value machine.state with
    ⟨fault | _, state⟩
  · rw [transferred] at succeeded
    cases succeeded
  · rfl

/-- Behind a call that succeeds nothing was taken back. -/
theorem call_eq_ok {nested : Answer} {message : Message} {machine : Machine} {bytes : Bytes}
    (succeeded : (call registry nested message machine).1.output = .ok bytes) :
    call registry nested message machine =
      transferAndExecute registry nested message
        { machine with state := machine.state.snapshot.2 } := by
  unfold call at succeeded ⊢
  simp only at succeeded ⊢
  split at succeeded
  · rfl
  · rename_i fault output
    split at succeeded
    · rw [output] at succeeded
      cases succeeded
    · split at succeeded
      · rw [output] at succeeded
        cases succeeded
      · cases succeeded

theorem call_conserves (handlerless : registry.Handlerless) {nested : Answer}
    (contained : Answer.Contained nested) {message : Message} {machine : Machine}
    (word : machine.state.store.accounts.funds ≤ Word.greatest.toNat)
    (returned : Returned (call registry nested message machine).1.output) :
    Conserves machine.state (call registry nested message machine).2.state := by
  cases output : (call registry nested message machine).1.output with
  | error fault =>
      have atomic := call_atomic handlerless.wellNested.returning contained message machine returned
      exact .of_sameView (atomic.undone fault output)
  | ok bytes =>
      have made := call_eq_ok output
      rw [made] at output ⊢
      have executed := transferAndExecute_eq_ok output
      rw [executed] at output ⊢
      have marked : Conserves machine.state machine.state.snapshot.2 := ⟨rfl, rfl⟩
      rw [← marked.funds] at word
      have moved := transfer_conserves message.caller message.recipient message.value word
      exact (marked.trans moved).trans (execute_conserves handlerless output)

theorem create_conserves (message : Message) {state : JournaledState}
    (word : state.store.accounts.funds ≤ Word.greatest.toNat) :
    Conserves state (create message state).2 := by
  have moved := transfer_conserves message.caller message.recipient message.value word
  unfold create
  simp only
  split
  · exact .refl state
  · split
    · rename_i fault after refused
      rw [refused] at moved
      exact moved
    · rename_i after transferred
      rw [transferred] at moved
      refine moved.trans ⟨?_, rfl⟩
      simp only [Store.create, Store.setNonce, Store.setCode, Store.change, Store.charge]
      rw [Accounts.funds_kept rfl, Accounts.funds_kept rfl]
      exact @Accounts.funds_kept after.store.accounts message.recipient
        (fun account => .funded account.balance) rfl

/-- A call or creation that comes back leaves the sum of all funds as it found it. -/
theorem perform_conserves (handlerless : registry.Handlerless) {gas : Gas} {state : JournaledState}
    (word : state.store.accounts.funds ≤ Word.greatest.toNat)
    (returned : Returned (perform tx registry gas state).1.output) :
    Conserves state (perform tx registry gas state).2.2 := by
  revert returned
  unfold perform performBy callFromTransaction
  split
  · rename_i recipient _
    intro returned
    have contained := answer_contained handlerless.wellNested depthLimit
    exact @call_conserves registry handlerless _ contained _ { state } word returned
  · intro _
    exact create_conserves _ word

theorem funds_advanced {accounts : Accounts}
    (funded : maxFee tx ≤ (accounts.account tx.sender).balance) :
    (accounts.change tx.sender (advanced tx)).funds + (maxFee tx).toNat = accounts.funds :=
  Accounts.funds_debit rfl funded

/-- Where the greatest fee is a word, what is returned and what is paid come to what was taken. -/
theorem funds_settled_of_fits {accounts : Accounts} {coinbase : Address} {gasUsed : Gas}
    (fits : tx.gasPrice.toNat * tx.gasLimit.toNat ≤ Word.greatest.toNat)
    (within : gasUsed ≤ tx.gasLimit)
    (room : accounts.funds + (maxFee tx).toNat ≤ Word.greatest.toNat) :
    (settled tx coinbase gasUsed accounts).funds = accounts.funds + (maxFee tx).toNat := by
  have used : tx.gasPrice.toNat * gasUsed.toNat ≤ tx.gasPrice.toNat * tx.gasLimit.toNat :=
    Nat.mul_le_mul_left _ (UInt64.le_iff_toNat_le.mp within)
  have unused : tx.gasPrice.toNat * (tx.gasLimit.toNat - gasUsed.toNat) =
      tx.gasPrice.toNat * tx.gasLimit.toNat - tx.gasPrice.toNat * gasUsed.toNat :=
    Nat.mul_sub ..
  have parts : (feeFor tx (tx.gasLimit.minus gasUsed)).toNat + (feeFor tx gasUsed).toNat =
      (maxFee tx).toNat := by
    simp only [feeFor, maxFee, Word.toNat_times, Word.toNat_ofGas, Gas.toNat_minus, unused]
    omega
  have returned := @Accounts.funds_credit accounts tx.sender
    (fun account =>
      { account with balance := account.balance.plus (feeFor tx (tx.gasLimit.minus gasUsed)) })
    _ rfl (by omega)
  have paid := @Accounts.funds_credit _ coinbase
    (fun account => { account with balance := account.balance.plus (feeFor tx gasUsed) })
    _ rfl (by rw [returned]; omega)
  unfold settled
  simp only
  omega

/-- Where the greatest fee is cut to a word, both parts of it come to at least that word, and to
more unless one part is nothing. -/
theorem fees_of_overflow {gasUsed : Gas}
    (overflows : Word.greatest.toNat < tx.gasPrice.toNat * tx.gasLimit.toNat)
    (within : gasUsed ≤ tx.gasLimit) (some : 0 < gasUsed) :
    Word.greatest.toNat ≤
        (feeFor tx (tx.gasLimit.minus gasUsed)).toNat + (feeFor tx gasUsed).toNat ∧
      ((feeFor tx (tx.gasLimit.minus gasUsed)).toNat + (feeFor tx gasUsed).toNat =
          Word.greatest.toNat ↔
        gasUsed = tx.gasLimit) := by
  have priced : 0 < tx.gasPrice.toNat := by
    apply Nat.pos_of_ne_zero
    intro free
    rw [free, Nat.zero_mul] at overflows
    exact Nat.not_lt_zero _ overflows
  have usedPrice : 0 < tx.gasPrice.toNat * gasUsed.toNat :=
    Nat.mul_pos priced (UInt64.lt_iff_toNat_lt.mp some)
  have parts : tx.gasPrice.toNat * (tx.gasLimit.toNat - gasUsed.toNat) +
      tx.gasPrice.toNat * gasUsed.toNat = tx.gasPrice.toNat * tx.gasLimit.toNat := by
    rw [← Nat.mul_add, Nat.sub_add_cancel (UInt64.le_iff_toNat_le.mp within)]
  simp only [feeFor, Word.toNat_times, Word.toNat_ofGas, Gas.toNat_minus]
  refine ⟨by omega, ?_⟩
  constructor
  · intro whole
    by_cases same : gasUsed = tx.gasLimit
    · exact same
    · have less : gasUsed.toNat < tx.gasLimit.toNat :=
        Nat.lt_of_le_of_ne (UInt64.le_iff_toNat_le.mp within)
          fun equal => same (UInt64.toNat_inj.mp equal)
      have unusedPrice := Nat.mul_pos priced (Nat.sub_pos_of_lt less)
      have positive : 0 < Word.greatest.toNat := by decide
      omega
  · rintro rfl
    rw [Nat.sub_self, Nat.mul_zero]
    omega

/-- Beyond that the sender has paid the greatest word, and everything it owned with it. What is
returned and what is paid can come to more than that. -/
theorem funds_settled_of_overflow {accounts : Accounts} {coinbase : Address} {gasUsed : Gas}
    (overflows : Word.greatest.toNat < tx.gasPrice.toNat * tx.gasLimit.toNat)
    (within : gasUsed ≤ tx.gasLimit) (some : 0 < gasUsed) (empty : accounts.funds = 0) :
    Word.greatest.toNat ≤ (settled tx coinbase gasUsed accounts).funds ∧
      ((settled tx coinbase gasUsed accounts).funds = Word.greatest.toNat ↔
        gasUsed = tx.gasLimit ∨ coinbase = tx.sender) := by
  obtain ⟨enough, whole⟩ := fees_of_overflow overflows within some
  have returnedWord := (feeFor tx (tx.gasLimit.minus gasUsed)).toNat_le_greatest
  have paidWord := (feeFor tx gasUsed).toNat_le_greatest
  have poor : ∀ address, (accounts.account address).balance.toNat = 0 := by
    intro address
    have held := Accounts.balance_le_funds accounts address
    omega
  have returned := @Accounts.funds_credit accounts tx.sender
    (fun account =>
      { account with balance := account.balance.plus (feeFor tx (tx.gasLimit.minus gasUsed)) })
    _ rfl (by omega)
  have paid := @Accounts.funds_change
    (accounts.change tx.sender fun account =>
      { account with balance := account.balance.plus (feeFor tx (tx.gasLimit.minus gasUsed)) })
    coinbase fun account => { account with balance := account.balance.plus (feeFor tx gasUsed) }
  rw [returned, empty, Nat.zero_add] at paid
  simp only [Word.toNat_plus] at paid
  unfold settled
  simp only
  by_cases own : coinbase = tx.sender
  · -- The one account that gets both parts is cut to the greatest word.
    subst own
    rw [Accounts.account_change_same, Word.toNat_plus, poor, Nat.zero_add,
      Nat.min_eq_left returnedWord, Nat.min_eq_right enough, Nat.add_comm] at paid
    have greatest := Nat.add_left_cancel paid
    rw [greatest]
    exact ⟨Nat.le_refl _, fun _ => .inr rfl, fun _ => rfl⟩
  · rw [Accounts.account_change_other (Ne.symm own), poor, Nat.zero_add,
      Nat.min_eq_left paidWord, Nat.add_zero] at paid
    rw [paid, or_iff_left own]
    exact ⟨enough, whole⟩

end TransferMachine

end HostedEvm
