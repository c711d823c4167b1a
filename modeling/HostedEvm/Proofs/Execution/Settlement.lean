import HostedEvm.Proofs.Execution.Atomicity
import HostedEvm.Proofs.Gas.Meter

set_option autoImplicit false

/-!
What surrounds the call or creation of a transaction.

Checks only read, so a rejected transaction leaves nothing but charges. An executed one pays the
greatest fee, makes its call or creation, and settles the difference.
-/

namespace HostedEvm

namespace JournaledState

/-- The states differ in nothing but what was charged for storage. -/
def Charged (before after : JournaledState) : Prop :=
  ∃ charged, after = { before with store := { before.store with charged } }

theorem Charged.sameView {before after : JournaledState} (charged : Charged before after) :
    after.SameView before := by
  obtain ⟨charged, rfl⟩ := charged
  exact ⟨rfl, rfl, rfl, rfl, rfl, fun _ => rfl, rfl⟩

theorem Charged.continues {before after : JournaledState} (charged : Charged before after) :
    Continues before after := by
  obtain ⟨charged, rfl⟩ := charged
  exact ⟨extends_withStore before (Store.extends_of_same rfl rfl), rfl⟩

/-- Where nothing but charges came behind a snapshot, nothing but charges stays behind the
rewind. -/
theorem Charged.restoredTo_store {origin state : JournaledState}
    (charged : Charged origin.snapshot.2 state) :
    (state.restoredTo origin).store.resetCharges = origin.store.resetCharges := by
  obtain ⟨charged, rfl⟩ := charged
  rfl

end JournaledState

namespace TransferMachine

variable {tx : Transaction} {surroundings : Surroundings} {workspace left : Workspace}

theorem transfer_of_error {sender recipient : Address} {value : Word} {state after : JournaledState}
    {fault : Fault} (refused : transfer sender recipient value state = (.error fault, after)) :
    state.Charged after := by
  unfold transfer at refused
  split at refused
  · cases refused
  · simp only at refused
    split at refused
    · cases refused
      exact ⟨_, rfl⟩
    · cases refused

theorem create_atomic (message : Message) (state : JournaledState) :
    Atomic (create message state).1.output state (create message state).2 := by
  have moved := transfer_continues message.caller message.recipient message.value state
  unfold create
  simp only
  split
  · exact .refl _ state
  · split
    · rename_i fault after refused
      have charged := transfer_of_error refused
      exact ⟨charged.continues, fun _ _ => charged.sameView⟩
    · rename_i after transferred
      rw [transferred] at moved
      refine .of_ok (moved.trans ⟨?_, rfl⟩)
      exact JournaledState.extends_withStore after (Store.extends_of_same rfl rfl)

theorem perform_atomic {registry : Registry} (wellNested : registry.WellNested) (gas : Gas)
    (state : JournaledState)
    (returned : Returned (perform tx registry gas state).1.output) :
    Atomic (perform tx registry gas state).1.output state (perform tx registry gas state).2.2 := by
  revert returned
  unfold perform performBy callFromTransaction
  split
  · intro returned
    have contained := answer_contained wellNested depthLimit
    exact call_atomic wellNested.returning contained _ { state } returned
  · intro _
    exact create_atomic _ state

theorem execute_gasUsed_le (registry : Registry) (nested : Answer) (message : Message)
    (machine : Machine) : (execute registry nested message machine).1.gasUsed ≤ message.gas := by
  have ran := executes registry nested message machine
  generalize execute registry nested message machine = result at ran ⊢
  cases ran with
  | registered => exact Gas.minus_le _ _
  | still _ _ within => exact within
  | logged _ _ within => exact within

theorem transferAndExecute_gasUsed_le (registry : Registry) (nested : Answer) (message : Message)
    (machine : Machine) :
    (transferAndExecute registry nested message machine).1.gasUsed ≤ message.gas := by
  unfold transferAndExecute
  split
  · exact execute_gasUsed_le registry nested message _
  · exact UInt64.zero_le

theorem call_gasUsed_le (registry : Registry) (nested : Answer) (message : Message)
    (machine : Machine) : (call registry nested message machine).1.gasUsed ≤ message.gas := by
  have used := transferAndExecute_gasUsed_le registry nested message
    { machine with state := machine.state.snapshot.2 }
  unfold call
  simp only
  split
  · exact used
  · split
    · exact used
    · split
      · exact used
      · exact used

theorem create_gasUsed_le (message : Message) (state : JournaledState) :
    (create message state).1.gasUsed ≤ message.gas := by
  unfold create
  simp only
  split
  · exact UInt64.le_refl _
  · rename_i affordable
    split
    · exact UInt64.zero_le
    · exact UInt64.not_lt.mp affordable

/-- A call or creation never uses more gas than it gets. -/
theorem perform_gasUsed_le (registry : Registry) (gas : Gas) (state : JournaledState) :
    (perform tx registry gas state).1.gasUsed ≤ gas := by
  unfold perform performBy callFromTransaction
  split
  · exact call_gasUsed_le registry _ _ { state }
  · exact create_gasUsed_le _ state

theorem check_charged (tx : Transaction) (state : JournaledState) :
    state.Charged (check tx state).2 := by
  unfold check
  simp only
  split
  · exact ⟨_, rfl⟩
  · split
    · exact ⟨_, rfl⟩
    · exact ⟨_, rfl⟩

/-- Once the base gas is paid, only the host giving up ends a transaction without an execution. -/
theorem fatal_of_executeChecked {fault : Fault}
    (ended : executeChecked tx surroundings workspace = (.error fault, left)) :
    fault.isFatal = true := by
  unfold executeChecked executeCheckedBy executePaidBy at ended
  split at ended
  · simp only at ended
    split at ended
    · cases ended
      rfl
    · cases ended
  · cases ended
    rfl

/-- A transaction is rejected before it has changed anything. -/
theorem interpreter_rejected {fault : Fault} (ordinary : fault.isFatal = false)
    (rejected : interpreter tx surroundings workspace = (.error fault, left)) :
    workspace.state.Charged left.state ∧ left.meter = workspace.meter := by
  have checked := check_charged tx workspace.state
  unfold interpreter interpreterBy at rejected
  rcases outcome : check tx workspace.state with ⟨verdict, state⟩
  rw [outcome] at checked rejected
  cases verdict with
  | error reason =>
      cases rejected
      exact ⟨checked, rfl⟩
  | ok _ =>
      rcases payment : workspace.meter.consume baseGas with ⟨paid, meter⟩
      rw [payment] at rejected
      cases paid with
      | error reason =>
          cases rejected
          exact ⟨checked, (Meter.consume_eq_error payment).2⟩
      | ok _ =>
          have fatal := fatal_of_executeChecked rejected
          rw [ordinary] at fatal
          cases fatal

/-- The workspace in which the call or creation of a transaction starts: the base gas is consumed,
and the sender has paid the greatest fee and moved on to its next nonce. -/
def started (tx : Transaction) (workspace : Workspace) : Workspace where
  state := (charge tx (check tx workspace.state).2).2
  meter := (workspace.meter.consume baseGas).2

-- The meter is read off by a lemma of its own: reading it by computation runs into the base gas.
theorem meter_mk (state : JournaledState) (meter : Meter) :
    (Workspace.mk state meter).meter = meter := rfl

theorem started_meter : (started tx workspace).meter = (workspace.meter.consume baseGas).2 := by
  unfold started
  rw [meter_mk]

theorem started_within (tx : Transaction)
    (within : workspace.meter.txConsumed ≤ workspace.meter.txLimit) :
    (started tx workspace).meter.txConsumed ≤ (started tx workspace).meter.txLimit := by
  rw [started_meter]
  exact Meter.consume_within within baseGas

def frame (tx : Transaction) (registry : Registry) (workspace : Workspace) :
    CallResult × Option Address × JournaledState :=
  perform tx registry (started tx workspace).meter.remaining (started tx workspace).state

/-- How an executed transaction came to its end. -/
structure Executed (tx : Transaction) (surroundings : Surroundings) (workspace : Workspace)
    (execution : Execution) (left : Workspace) : Prop where
  checked : (check tx workspace.state).1 = .ok ()
  paid : (workspace.meter.consume baseGas).1 = .ok ()
  charged : (charge tx (check tx workspace.state).2).1 = .ok ()
  returned : Returned (frame tx surroundings.registry workspace).1.output
  concluded :
    conclude tx surroundings.context.coinbase (frame tx surroundings.registry workspace).1
        (frame tx surroundings.registry workspace).2.1
        ⟨(frame tx surroundings.registry workspace).2.2, (started tx workspace).meter⟩ =
      (execution, left)

theorem executePaid_eq_ok {execution : Execution}
    (ran : executePaid tx surroundings workspace = (.ok execution, left)) :
    let made := perform tx surroundings.registry workspace.meter.remaining workspace.state
    Returned made.1.output ∧
      conclude tx surroundings.context.coinbase made.1 made.2.1 ⟨made.2.2, workspace.meter⟩ =
        (execution, left) := by
  unfold executePaid executePaidBy at ran
  simp only at ran
  split at ran
  · cases ran
  · rename_i ordinary
    cases ran
    exact ⟨fun cause same => ordinary cause same, rfl⟩

theorem executeChecked_eq_ok {execution : Execution}
    (ran : executeChecked tx surroundings workspace = (.ok execution, left)) :
    ∃ state, charge tx workspace.state = (.ok (), state) ∧
      executePaid tx surroundings { workspace with state } = (.ok execution, left) := by
  unfold executeChecked executeCheckedBy at ran
  split at ran
  · rename_i state charged
    exact ⟨state, charged, ran⟩
  · cases ran

theorem interpreter_executed {execution : Execution}
    (ran : interpreter tx surroundings workspace = (.ok execution, left)) :
    Executed tx surroundings workspace execution left := by
  unfold interpreter interpreterBy at ran
  rcases outcome : check tx workspace.state with ⟨verdict, state⟩
  rw [outcome] at ran
  cases verdict with
  | error reason => cases ran
  | ok _ =>
      rcases payment : workspace.meter.consume baseGas with ⟨paid, meter⟩
      rw [payment] at ran
      cases paid with
      | error reason => cases ran
      | ok _ =>
          obtain ⟨funded, charging, ranPaid⟩ := executeChecked_eq_ok ran
          obtain ⟨returned, concluded⟩ := executePaid_eq_ok ranPaid
          dsimp only at charging
          have start : started tx workspace = ⟨funded, meter⟩ := by
            unfold started
            rw [outcome, charging, payment]
          have made : frame tx surroundings.registry workspace =
              perform tx surroundings.registry meter.remaining funded := by
            unfold frame
            rw [start]
          constructor
          · rw [outcome]
          · rw [payment]
          · rw [outcome, charging]
          · rw [made]
            exact returned
          · rw [made, start]
            exact concluded

/-- A failed execution has no contract and is settled like any other. Either its call or creation
failed, or the gas of a successful one was refused. -/
theorem conclude_failed {coinbase : Address} {result : CallResult} {address : Option Address}
    {execution : Execution}
    (concluded : conclude tx coinbase result address workspace = (execution, left))
    (failed : execution.succeeded = false) :
    execution.contractAddress = none ∧
      left.state = settle tx coinbase execution.gasUsed workspace.state ∧
      ((∃ fault, result.output = .error fault) ∨
        ∃ bytes fault, result.output = .ok bytes ∧
          workspace.meter.consume result.gasUsed = (.error fault, workspace.meter)) := by
  unfold conclude at concluded
  rcases payment : workspace.meter.consume result.gasUsed with ⟨paid, meter⟩
  rw [payment] at concluded
  cases paid with
  | error fault =>
      have kept := (Meter.consume_eq_error payment).2
      cases concluded
      refine ⟨rfl, rfl, ?_⟩
      cases result.output with
      | error reason => exact .inl ⟨reason, rfl⟩
      | ok bytes =>
          rw [kept]
          exact .inr ⟨bytes, fault, rfl, rfl⟩
  | ok _ =>
      cases output : result.output with
      | ok bytes =>
          rw [output] at concluded
          cases concluded
          cases failed
      | error reason =>
          rw [output] at concluded
          cases concluded
          exact ⟨rfl, rfl, .inl ⟨reason, rfl⟩⟩

theorem conclude_gasUsed {coinbase : Address} {result : CallResult} {address : Option Address}
    {execution : Execution}
    (concluded : conclude tx coinbase result address workspace = (execution, left)) :
    execution.gasUsed = (workspace.meter.consume result.gasUsed).2.txConsumed := by
  unfold conclude executionOf at concluded
  simp only at concluded
  split at concluded
  · cases concluded
    rfl
  · cases concluded
    rfl

theorem conclude_state {coinbase : Address} {result : CallResult} {address : Option Address}
    {execution : Execution}
    (concluded : conclude tx coinbase result address workspace = (execution, left)) :
    left.state = settle tx coinbase execution.gasUsed workspace.state := by
  have used := conclude_gasUsed concluded
  rw [used]
  unfold conclude at concluded
  cases concluded
  rfl

theorem conclude_meter {coinbase : Address} {result : CallResult} {address : Option Address}
    {execution : Execution}
    (concluded : conclude tx coinbase result address workspace = (execution, left)) :
    left.meter = (workspace.meter.consume result.gasUsed).2 := by
  unfold conclude at concluded
  cases concluded
  rfl

theorem Executed.failed {execution : Execution}
    (executed : Executed tx surroundings workspace execution left)
    (failed : execution.succeeded = false) :
    execution.contractAddress = none ∧
      left.state = settle tx surroundings.context.coinbase execution.gasUsed
        (frame tx surroundings.registry workspace).2.2 ∧
      ((∃ fault, (frame tx surroundings.registry workspace).1.output = .error fault) ∨
        ∃ bytes fault, (frame tx surroundings.registry workspace).1.output = .ok bytes ∧
          (started tx workspace).meter.consume
              (frame tx surroundings.registry workspace).1.gasUsed =
            (.error fault, (started tx workspace).meter)) := by
  have outcome := conclude_failed executed.concluded failed
  rw [meter_mk] at outcome
  exact outcome

theorem Executed.gasUsed_le {execution : Execution}
    (executed : Executed tx surroundings workspace execution left)
    (within : workspace.meter.txConsumed ≤ workspace.meter.txLimit) :
    execution.gasUsed ≤ workspace.meter.txLimit := by
  have used := conclude_gasUsed executed.concluded
  have kept := Meter.consume_within (started_within tx within)
    (frame tx surroundings.registry workspace).1.gasUsed
  rw [meter_mk] at used
  rw [Meter.consume_txLimit, started_meter, Meter.consume_txLimit, ← started_meter, ← used] at kept
  exact kept

theorem Executed.baseGas_le {execution : Execution}
    (executed : Executed tx surroundings workspace execution left) :
    baseGas ≤ execution.gasUsed := by
  have used := conclude_gasUsed executed.concluded
  rw [meter_mk] at used
  have based := Meter.le_of_consumed executed.paid
  rw [← started_meter] at based
  rw [used]
  exact UInt64.le_trans based (Meter.le_consume _ _)

/-- The gas that a transaction used is what its meter shows in the end, and nothing else of the
meter has changed. -/
theorem Executed.meter_eq {execution : Execution}
    (executed : Executed tx surroundings workspace execution left) :
    left.meter = { workspace.meter with txConsumed := execution.gasUsed } := by
  have used := conclude_gasUsed executed.concluded
  have metered := conclude_meter executed.concluded
  rw [meter_mk] at used metered
  rw [used, metered, Meter.consume_snd, started_meter, Meter.consume_snd]

theorem Executed.withinBlock {execution : Execution}
    (executed : Executed tx surroundings workspace execution left) :
    workspace.meter.blockConsumed.plus execution.gasUsed ≤ workspace.meter.blockLimit := by
  have used := conclude_gasUsed executed.concluded
  have based := Meter.withinBlock_of_consumed executed.paid
  rw [meter_mk] at used
  rw [← Meter.consume_blockConsumed workspace.meter baseGas,
    ← Meter.consume_blockLimit workspace.meter baseGas, ← started_meter] at based ⊢
  rw [used]
  exact Meter.consume_withinBlock based _

end TransferMachine

end HostedEvm
