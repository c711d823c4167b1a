import HostedEvm.Proofs.Execution.Settlement
import HostedEvm.Proofs.Precompile.Invariance

set_option autoImplicit false

/-!
Properties of the state that a transaction keeps.

What lasts through every call of a precompile lasts through a transaction. Induction on how deep
calls may still be nested joins the interpreter and the precompiles.
-/

namespace HostedEvm.TransferMachine

variable {property : JournaledState → Prop}

section

variable {registry : Registry} {nested : Answer} (undisturbed : Undisturbed property)
  (runs : ∀ (invocation : Invocation) (input : Bytes) (supplied : Gas) {machine : Machine},
    property machine.state →
      property (registry.run nested invocation input supplied machine).2.state)

include undisturbed runs

theorem execute_keeps (message : Message) {machine : Machine} (holds : property machine.state) :
    property (execute registry nested message machine).2.state := by
  have ran := executes registry nested message machine
  generalize execute registry nested message machine = result at ran ⊢
  cases ran with
  | registered => exact runs _ _ _ holds
  | still => exact holds
  | logged => exact undisturbed.addLog machine.state _ holds

/-- A call keeps what transfers and calls of precompiles keep, until it is taken back. -/
theorem transferAndExecute_keeps
    (transfers : ∀ (sender recipient : Address) (value : Word) {state : JournaledState},
      property state → property (transfer sender recipient value state).2)
    (message : Message) {machine : Machine} (holds : property machine.state) :
    property (transferAndExecute registry nested message machine).2.state := by
  have moved := transfers message.caller message.recipient message.value holds
  unfold transferAndExecute
  split
  · rename_i state transferred
    rw [transferred] at moved
    exact execute_keeps undisturbed runs message moved
  · rename_i fault state refused
    rw [refused] at moved
    exact moved

end

variable {allowed : StateCommand → Prop} (lasting : Lasting property)
  (commands : ∀ command, allowed command → ∀ state, property state →
    property (command.run state).2)

section

variable {registry : Registry} {nested : Answer} {tx : Transaction}

include lasting

theorem transfer_keeps (sender recipient : Address) (value : Word) {state : JournaledState}
    (holds : property state) : property (transfer sender recipient value state).2 := by
  unfold transfer
  split
  · exact holds
  · simp only
    split
    · exact lasting.withStore state _ ⟨rfl, rfl⟩ holds
    · exact lasting.withStore state _ ⟨rfl, rfl⟩ holds

theorem create_keeps (message : Message) {state : JournaledState} (holds : property state) :
    property (create message state).2 := by
  have moved := transfer_keeps lasting message.caller message.recipient message.value holds
  unfold create
  simp only
  split
  · exact holds
  · split
    · rename_i fault after refused
      rw [refused] at moved
      exact moved
    · rename_i after transferred
      rw [transferred] at moved
      exact lasting.withStore after _ ⟨rfl, rfl⟩ moved

theorem check_keeps {state : JournaledState} (holds : property state) :
    property (check tx state).2 := by
  obtain ⟨charged, same⟩ := check_charged tx state
  rw [same]
  exact lasting.withStore state _ ⟨rfl, rfl⟩ holds

theorem charge_keeps {state : JournaledState} (holds : property state) :
    property (charge tx state).2 := by
  unfold charge
  simp only
  split
  · exact lasting.withStore _ _ ⟨rfl, rfl⟩ holds
  · exact lasting.withStore _ _ ⟨rfl, rfl⟩ holds

theorem started_keeps {workspace : Workspace} (holds : property workspace.state) :
    property (started tx workspace).state :=
  charge_keeps lasting (check_keeps lasting holds)

include commands

theorem call_keeps (only : registry.Every (Method.Only allowed))
    (answered : nested.Keeps property) (message : Message) {machine : Machine}
    (holds : property machine.state) :
    property (call registry nested message machine).2.state := by
  have marked := lasting.withStore machine.state machine.state.snapshot.2.store ⟨rfl, rfl⟩ holds
  have worked := @transferAndExecute_keeps property registry nested lasting.undisturbed
    (Registry.run_keeps lasting commands only answered) (transfer_keeps lasting) message
    { machine with state := machine.state.snapshot.2 } marked
  have back := Machine.rewound_keeps lasting worked machine.state.snapshot.1
  unfold call
  simp only
  split
  · exact worked
  · split
    · exact worked
    · split
      · rename_i restored taken
        rw [taken] at back
        exact back
      · rename_i foreign restored taken
        rw [taken] at back
        exact back

theorem answer_keeps (only : registry.Every (Method.Only allowed)) (remaining : Nat) :
    (answer registry remaining).Keeps property := by
  induction remaining with
  | zero =>
      intro message machine holds
      exact holds
  | succ remaining inductionHypothesis =>
      intro message machine holds
      exact @call_keeps property allowed lasting commands registry _ only inductionHypothesis
        message (machine.record message) holds

theorem perform_keeps (only : registry.Every (Method.Only allowed)) (gas : Gas)
    {state : JournaledState} (holds : property state) :
    property (perform tx registry gas state).2.2 := by
  unfold perform performBy callFromTransaction
  split
  · rename_i recipient _
    have answered := answer_keeps lasting commands only depthLimit
    exact @call_keeps property allowed lasting commands registry _ only answered _ { state } holds
  · exact create_keeps lasting _ holds

end

include lasting commands

/-- What lasts through calls and is kept by what handlers may do holds behind an executed
transaction. -/
theorem Executed.keeps {tx : Transaction} {surroundings : Surroundings}
    {workspace left : Workspace} {execution : Execution}
    (executed : Executed tx surroundings workspace execution left)
    (only : surroundings.registry.Every (Method.Only allowed)) (holds : property workspace.state) :
    property left.state := by
  have began := @started_keeps property lasting tx workspace holds
  have made := @perform_keeps property allowed lasting commands surroundings.registry tx only
    (started tx workspace).meter.remaining _ began
  rw [conclude_state executed.concluded]
  exact lasting.withStore _ _ ⟨rfl, rfl⟩ made

theorem executePaid_keeps {tx : Transaction} {surroundings : Surroundings} {workspace : Workspace}
    (only : surroundings.registry.Every (Method.Only allowed)) (holds : property workspace.state) :
    property (executePaid tx surroundings workspace).2.state := by
  have made := @perform_keeps property allowed lasting commands surroundings.registry tx only
    workspace.meter.remaining _ holds
  unfold executePaid executePaidBy
  simp only
  split
  · exact made
  · exact lasting.withStore _ _ ⟨rfl, rfl⟩ made

theorem executeChecked_keeps {tx : Transaction} {surroundings : Surroundings}
    {workspace : Workspace} (only : surroundings.registry.Every (Method.Only allowed))
    (holds : property workspace.state) :
    property (executeChecked tx surroundings workspace).2.state := by
  have charged := @charge_keeps property lasting tx _ holds
  unfold executeChecked executeCheckedBy
  split
  · rename_i paid left
    rw [left] at charged
    exact executePaid_keeps lasting commands only charged
  · rename_i cause after failed
    rw [failed] at charged
    exact charged

/-- What lasts through calls and is kept by what handlers may do holds behind every transaction,
whether it is executed, rejected or given up. -/
theorem interpreter_keeps {tx : Transaction} {surroundings : Surroundings} {workspace : Workspace}
    (only : surroundings.registry.Every (Method.Only allowed)) (holds : property workspace.state) :
    property (interpreter tx surroundings workspace).2.state := by
  have checked := @check_keeps property lasting tx _ holds
  unfold interpreter interpreterBy
  rcases outcome : check tx workspace.state with ⟨verdict, state⟩
  rw [outcome] at checked
  cases verdict with
  | error fault => exact checked
  | ok _ =>
      rcases workspace.meter.consume baseGas with ⟨paid, meter⟩
      cases paid with
      | error fault => exact checked
      | ok _ =>
          exact @executeChecked_keeps _ _ lasting commands tx surroundings { state, meter } only
            checked

end HostedEvm.TransferMachine
