import HostedEvm.Chain.Processor
import HostedEvm.Proofs.State.Boundary

set_option autoImplicit false

/-!
What the processor does around the interpreter.
-/

namespace HostedEvm.Processor

variable {processor after : Processor} {block : OpenBlock} {tx : Transaction}

def workspace (processor : Processor) (context : BlockContext) (tx : Transaction) : Workspace :=
  let ready := processor.setUp context tx
  ⟨ready.state.snapshot.2, ready.meter⟩

theorem workspace_meter (processor : Processor) (context : BlockContext) (tx : Transaction) :
    (processor.workspace context tx).meter = processor.meter.beginTransaction tx.gasLimit := rfl

def behind (processor : Processor) (context : BlockContext) (tx : Transaction)
    (left : Workspace) : Processor :=
  { processor.setUp context tx with state := left.state, meter := left.meter }

/-- The accounts of the block without journals and charges, with the logs to come stamped. -/
def cleared (processor : Processor) (tx : Transaction) : JournaledState where
  store := processor.state.store.resetCharges
  logs := { txHash := tx.hash, txIndex := UInt64.ofNat processor.transactions.length }

theorem setUp_state (processor : Processor) (context : BlockContext) (tx : Transaction) :
    (processor.setUp context tx).state =
      (processor.cleared tx).prepareAccessList context.rules tx.sender context.coinbase tx.recipient
        processor.registry.active tx.accessList := rfl

theorem setUp_cleared (processor : Processor) (context : BlockContext) (tx : Transaction) :
    ∃ accessList, (processor.setUp context tx).state =
      { processor.cleared tx with accessList } := by
  rw [setUp_state]
  exact JournaledState.warmed_prepareAccessList _ _ _ _ _ _ _

/-- Only the access list of a workspace is not new. -/
theorem workspace_cleared (processor : Processor) (context : BlockContext) (tx : Transaction) :
    ∃ accessList, (processor.workspace context tx).state =
      { processor.cleared tx with accessList }.snapshot.2 := by
  obtain ⟨accessList, ready⟩ := processor.setUp_cleared context tx
  exact ⟨accessList, congrArg (fun state => state.snapshot.2) ready⟩

/-- Setting up a transaction leaves the accounts alone. -/
theorem workspace_accounts (processor : Processor) (context : BlockContext) (tx : Transaction) :
    (processor.workspace context tx).state.store.accounts = processor.state.store.accounts := by
  obtain ⟨accessList, same⟩ := processor.workspace_cleared context tx
  rw [same]
  rfl

/-- A rejection takes the state back to the snapshot, if that is possible, and drops the gas. It is
never a receipt. -/
theorem reject_eq (processor : Processor) (snapshot : Snapshot) (fault : Fault) :
    ∃ cause, processor.reject snapshot fault =
      (.error (.vm cause),
        { processor with
          state := (processor.state.rewound snapshot).2
          meter := processor.meter.discardTransaction }) := by
  unfold reject
  simp only
  split
  · rename_i state taken
    exact ⟨fault, by rw [taken]⟩
  · rename_i foreign state refused
    exact ⟨foreign, by rw [refused]⟩

/-- A rejection to a snapshot of the machine gives the reason of the interpreter. -/
theorem reject_own (processor : Processor) (origin : JournaledState) (fault : Fault) :
    (processor.reject origin.snapshot.1 fault).1 = .error (.vm fault) := by
  have taken := processor.state.rewound_fst origin
  unfold reject
  simp only
  split
  · rfl
  · rename_i foreign state refused
    rw [refused] at taken
    cases taken

def conclude (processor : Processor) (block : OpenBlock) (tx : Transaction)
    (answer : Except Fault Execution × Workspace) : Except ChainFault Receipt × Processor :=
  let after := processor.behind block.context tx answer.2
  match answer.1 with
  | .error fault =>
    if fault.isFatal then (.error (.vm fault), after)
    else after.reject (processor.setUp block.context tx).state.snapshot.1 fault
  | .ok execution =>
    let receipt := after.receiptOf block.header.number tx execution
    (.ok receipt, after.record tx receipt)

def answer (processor : Processor) (block : OpenBlock) (tx : Transaction) :
    Except Fault Execution × Workspace :=
  processor.interpreter tx ⟨processor.registry, block.context⟩
    (processor.workspace block.context tx)

theorem process_of_filled (filled : tx.isEmpty = false) :
    processor.process tx =
      match processor.openBlock with
      | some block => processor.runIn block tx
      | none => (.error (.wrongPhase .accepting .idle), processor) := by
  unfold process
  rw [filled]
  rfl

theorem process_eq_conclude (opened : processor.openBlock = some block)
    (filled : tx.isEmpty = false) :
    processor.process tx = processor.conclude block tx (processor.answer block tx) := by
  rw [process_of_filled filled, opened]
  rfl

/-- What can come of a transaction. -/
inductive Processes (processor : Processor) (tx : Transaction) :
    Except ChainFault Receipt × Processor → Prop
  | unsealed : tx.isEmpty = true → Processes processor tx (.error .emptyTransaction, processor)
  | unopened : processor.openBlock = none →
      Processes processor tx (.error (.wrongPhase .accepting .idle), processor)
  | abandoned {block : OpenBlock} {fault : Fault} {left : Workspace} :
      processor.openBlock = some block → processor.answer block tx = (.error fault, left) →
      fault.isFatal = true →
      Processes processor tx (.error (.vm fault), processor.behind block.context tx left)
  | rejected {block : OpenBlock} {fault cause : Fault} {left : Workspace} {after : Processor} :
      processor.openBlock = some block → processor.answer block tx = (.error fault, left) →
      fault.isFatal = false →
      (processor.behind block.context tx left).reject
          (processor.setUp block.context tx).state.snapshot.1 fault = (.error (.vm cause), after) →
      Processes processor tx (.error (.vm cause), after)
  | executed {block : OpenBlock} {execution : Execution} {left : Workspace} {receipt : Receipt} :
      tx.isEmpty = false → processor.openBlock = some block →
      processor.answer block tx = (.ok execution, left) →
      receipt = (processor.behind block.context tx left).receiptOf block.header.number tx
        execution →
      Processes processor tx
        (.ok receipt, (processor.behind block.context tx left).record tx receipt)

theorem processes (processor : Processor) (tx : Transaction) :
    processor.Processes tx (processor.process tx) := by
  cases filled : tx.isEmpty with
  | true =>
      have refused : processor.process tx = (.error .emptyTransaction, processor) := if_pos filled
      rw [refused]
      exact .unsealed filled
  | false =>
      cases opened : processor.openBlock with
      | none =>
          rw [process_of_filled filled, opened]
          exact .unopened opened
      | some block =>
          rw [process_eq_conclude opened filled]
          rcases answered : processor.answer block tx with ⟨fault | execution, left⟩
          · unfold conclude
            simp only
            split
            · rename_i fatal
              exact .abandoned opened answered fatal
            · rename_i mild
              obtain ⟨cause, rejected⟩ := (processor.behind block.context tx left).reject_eq
                (processor.setUp block.context tx).state.snapshot.1 fault
              rw [rejected]
              exact .rejected opened answered (Bool.eq_false_iff.mpr mild) rejected
          · exact .executed filled opened answered rfl

/-- A transaction gets a receipt only where the interpreter executed it. -/
theorem process_eq_ok {receipt : Receipt} (opened : processor.openBlock = some block)
    (processed : processor.process tx = (.ok receipt, after)) :
    ∃ execution left,
      processor.interpreter tx ⟨processor.registry, block.context⟩
          (processor.workspace block.context tx) = (.ok execution, left) ∧
        receipt = (processor.behind block.context tx left).receiptOf block.header.number tx
          execution ∧
        after = (processor.behind block.context tx left).record tx receipt := by
  have ran := processor.processes tx
  rw [processed] at ran
  cases ran with
  | executed _ openedToo answered same =>
      cases opened.symm.trans openedToo
      exact ⟨_, _, answered, same, rfl⟩

/-- A transaction that gets no receipt was rejected by the interpreter, unless the host gave up. -/
theorem process_eq_error {cause : ChainFault} (opened : processor.openBlock = some block)
    (processed : processor.process tx = (.error cause, after)) (ordinary : cause.isFatal = false) :
    ∃ fault left,
      processor.interpreter tx ⟨processor.registry, block.context⟩
          (processor.workspace block.context tx) = (.error fault, left) ∧
        fault.isFatal = false ∧
        (processor.behind block.context tx left).reject
          (processor.setUp block.context tx).state.snapshot.1 fault = (.error cause, after) := by
  have ran := processor.processes tx
  rw [processed] at ran
  cases ran with
  | unsealed => cases ordinary
  | unopened closed => cases opened.symm.trans closed
  | abandoned _ _ fatal => cases fatal.symm.trans ordinary
  | rejected openedToo answered mild refused =>
      cases opened.symm.trans openedToo
      exact ⟨_, _, answered, mild, refused⟩

/-- Where the host gives up, the transaction was never sealed, or everything that the interpreter
did stays. -/
theorem process_eq_fatal {cause : ChainFault} (opened : processor.openBlock = some block)
    (processed : processor.process tx = (.error cause, after)) (fatal : cause.isFatal = true) :
    after = processor ∨
      ∃ fault left,
        processor.interpreter tx ⟨processor.registry, block.context⟩
            (processor.workspace block.context tx) = (.error fault, left) ∧
          after = processor.behind block.context tx left := by
  have ran := processor.processes tx
  rw [processed] at ran
  cases ran with
  | unsealed => exact .inl rfl
  | unopened => exact .inl rfl
  | abandoned openedToo answered _ =>
      cases opened.symm.trans openedToo
      exact .inr ⟨_, _, answered, rfl⟩
  | @rejected _ fault _ left _ _ _ mild refused =>
      have given := (congrArg Prod.fst refused).symm.trans (reject_own _ _ _)
      cases given
      cases mild.symm.trans fatal

end HostedEvm.Processor
