import HostedEvm.Proofs.Execution.Funds
import HostedEvm.Proofs.Execution.Invariance
import HostedEvm.Proofs.Precompile.Observation
import HostedEvm.Proofs.State.Nonces

set_option autoImplicit false

/-!
The nonces that a transaction moves.

Once a transaction has been checked, its sender moves on to the next nonce. Whatever comes of its
call or creation, and whatever is taken back in it, no other nonce changes, unless a precompile or
the creation itself reaches the account.
-/

namespace HostedEvm

open JournaledState

namespace TransferMachine

section Watched

variable {property : JournaledState → Prop} {allowed : StateCommand → Prop} {registry : Registry}
  {nested : Answer} (watched : Watched property)
  (transfers : ∀ (sender recipient : Address) (value : Word) {state : JournaledState},
    property state → property (transfer sender recipient value state).2)
  (commands : ∀ command, allowed command → command.isReversible = true →
    ∀ state, property state → property (command.run state).2)
  (wellNested : registry.WellNested) (only : registry.Every (Method.Only allowed))

include watched transfers commands wellNested only

theorem call_watched (contained : Answer.Contained nested) (answered : nested.Keeps property)
    (message : Message) {machine : Machine} (holds : property machine.state) :
    property (call registry nested message machine).2.state := by
  rcases call_kept_or_undone wellNested.returning contained message machine with
    ⟨made, _⟩ | ⟨grown, undone, _⟩
  · have marked := watched.visible machine.state.sameView_snapshot holds
    rw [made]
    exact @transferAndExecute_keeps property registry nested watched.undisturbed
      (Registry.run_watched watched commands wellNested only contained answered) transfers message
      { machine with state := machine.state.snapshot.2 } marked
  · rw [undone]
    exact watched.visible (restoredTo_sameView grown) holds

/-- What transfers, logs and the commands of handlers keep, calls keep however deep they are
nested. -/
theorem answer_watched (remaining : Nat) : (answer registry remaining).Keeps property := by
  induction remaining with
  | zero =>
      intro message machine holds
      exact holds
  | succ remaining inductionHypothesis =>
      intro message machine holds
      exact @call_watched _ _ _ _ watched transfers commands wellNested only
        (answer_contained wellNested remaining) inductionHypothesis message
        (machine.record message) holds

end Watched

end TransferMachine

/-- Whatever is called from a transaction, the accounts at some addresses keep their nonces and are
not destroyed. -/
def Registry.Spares (registry : Registry) (spared : Address → Prop) : Prop :=
  ∀ (message : Message) (state : JournaledState),
    KeepsNonces spared state (TransferMachine.callFromTransaction registry message state).2

variable {spared : Address → Prop}

theorem watched_keepsNonces (before : JournaledState) :
    Watched fun state => KeepsNonces spared before state where
  visible same kept := kept.trans (.of_sameView same)
  addLog _ _ kept := kept.trans (.of_same rfl rfl)

namespace TransferMachine

theorem transfer_keepsNonces (sender recipient : Address) (value : Word) (state : JournaledState) :
    KeepsNonces spared state (transfer sender recipient value state).2 := by
  unfold transfer
  split
  · exact .refl state
  · simp only
    split
    · exact .of_same rfl rfl
    · refine .of_same ?_ rfl
      rw [Store.nonceOf_addBalance, Store.nonceOf_subBalance]
      rfl

end TransferMachine

open TransferMachine

/-- Where handlers only do to the accounts at some addresses what leaves their nonces alone, no call
moves one of these nonces. -/
theorem Registry.spares_of_only {registry : Registry} (wellNested : registry.WellNested)
    (only : registry.Every (Method.Only (StateCommand.Spares spared))) :
    registry.Spares spared := by
  intro message state
  have contained := answer_contained wellNested depthLimit
  have transfers : ∀ (sender recipient : Address) (value : Word) {later : JournaledState},
      KeepsNonces spared state later →
        KeepsNonces spared state (transfer sender recipient value later).2 :=
    fun sender recipient value later kept =>
      kept.trans (transfer_keepsNonces sender recipient value later)
  have commands : ∀ command : StateCommand, command.Spares spared → command.isReversible = true →
      ∀ later : JournaledState, KeepsNonces spared state later →
        KeepsNonces spared state (command.run later).2 :=
    fun _ spares reversible later kept =>
      kept.trans (StateCommand.keepsNonces_run spares reversible later)
  have answered := answer_watched (watched_keepsNonces state) transfers commands wellNested only
    depthLimit
  exact @call_watched _ _ registry _ (watched_keepsNonces state) transfers commands wellNested only
    contained answered message { state } (.refl state)

theorem Registry.Handlerless.spares {registry : Registry} (handlerless : registry.Handlerless) :
    registry.Spares spared :=
  Registry.spares_of_only handlerless.wellNested (handlerless.imp fun _ => False.elim)

namespace TransferMachine

variable {tx : Transaction} {registry : Registry} {surroundings : Surroundings}
  {workspace left : Workspace}

theorem create_keepsNonces {message : Message} (fresh : ¬spared message.recipient)
    (state : JournaledState) : KeepsNonces spared state (create message state).2 := by
  have moved := @transfer_keepsNonces spared message.caller message.recipient message.value state
  unfold create
  simp only
  split
  · exact .refl state
  · split
    · rename_i fault after refused
      rw [refused] at moved
      exact moved
    · rename_i after transferred
      rw [transferred] at moved
      refine moved.trans ⟨?_, fun _ _ marked => marked⟩
      intro address safe
      have differ : message.recipient ≠ address := by
        rintro rfl
        exact fresh safe
      simp only [Store.nonceOf_setCode]
      rw [Store.nonceOf_setNonce_other differ, Store.nonceOf_create_other differ]

def Fresh (spared : Address → Prop) (tx : Transaction) : Prop :=
  tx.recipient = none → ¬spared (createdAddress tx.sender tx.nonce)

theorem perform_keepsNonces (spares : registry.Spares spared) (fresh : Fresh spared tx) (gas : Gas)
    (state : JournaledState) : KeepsNonces spared state (perform tx registry gas state).2.2 := by
  unfold perform performBy
  split
  · exact spares _ state
  · rename_i creation
    exact create_keepsNonces (fresh creation) state

theorem settle_keepsNonces (tx : Transaction) (coinbase : Address) (gasUsed : Gas)
    (state : JournaledState) : KeepsNonces spared state (settle tx coinbase gasUsed state) := by
  refine .of_same ?_ rfl
  unfold settle
  rw [Store.nonceOf_addBalance, Store.nonceOf_addBalance]

theorem check_keepsNonces (tx : Transaction) (state : JournaledState) :
    KeepsNonces spared state (check tx state).2 :=
  .of_sameView (check_charged tx state).sameView

/-- Only a nonce with a successor can be charged. -/
theorem fits_of_charged {state : JournaledState} (charged : (charge tx state).1 = .ok ()) :
    tx.nonce.toNat + 1 < UInt64.size := by
  unfold charge at charged
  simp only at charged
  split at charged
  · rename_i next summed
    obtain ⟨total, fits⟩ := Counter.sum_eq_ok_iff.mp summed
    exact total ▸ fits
  · cases charged

theorem charge_keepsOthers (tx : Transaction) (state : JournaledState) :
    KeepsNonces (fun address => address ≠ tx.sender) state (charge tx state).2 := by
  unfold charge
  simp only
  split
  · refine ⟨?_, fun _ _ marked => marked⟩
    intro address other
    rw [Store.nonceOf_setNonce_other (Ne.symm other), Store.nonceOf_subBalance]
  · exact .of_same (Store.nonceOf_subBalance ..) rfl

/-- Behind the start of a transaction that is executed, the nonces stay. -/
theorem Executed.keepsNonces {execution : Execution}
    (executed : Executed tx surroundings workspace execution left)
    (spares : surroundings.registry.Spares spared) (fresh : Fresh spared tx) :
    KeepsNonces spared (started tx workspace).state left.state := by
  rw [conclude_state executed.concluded]
  exact (perform_keepsNonces spares fresh _ _).trans (settle_keepsNonces tx _ _ _)

theorem executePaid_keepsNonces (spares : surroundings.registry.Spares spared)
    (fresh : Fresh spared tx) (workspace : Workspace) :
    KeepsNonces spared workspace.state (executePaid tx surroundings workspace).2.state := by
  have made := perform_keepsNonces spares fresh workspace.meter.remaining workspace.state
  unfold executePaid executePaidBy
  simp only
  split
  · exact made
  · exact made.trans (settle_keepsNonces tx _ _ _)

theorem executeChecked_keepsOthers (spares : surroundings.registry.Spares spared)
    (fresh : Fresh spared tx) (workspace : Workspace) :
    KeepsNonces (fun address => spared address ∧ address ≠ tx.sender) workspace.state
      (executeChecked tx surroundings workspace).2.state := by
  have charged : KeepsNonces (fun address => spared address ∧ address ≠ tx.sender)
      workspace.state (charge tx workspace.state).2 :=
    (charge_keepsOthers tx workspace.state).mono fun _ safe => safe.2
  unfold executeChecked executeCheckedBy
  split
  · rename_i state paid
    rw [paid] at charged
    have made := executePaid_keepsNonces spares fresh { workspace with state }
    exact charged.trans (made.mono fun _ safe => safe.1)
  · rename_i cause state failed
    rw [failed] at charged
    exact charged

/-- A transaction moves the nonce of no account but its sender, whatever comes of it. -/
theorem interpreter_keepsOthers (spares : surroundings.registry.Spares spared)
    (fresh : Fresh spared tx) (workspace : Workspace) :
    KeepsNonces (fun address => spared address ∧ address ≠ tx.sender) workspace.state
      (interpreter tx surroundings workspace).2.state := by
  have checked := @check_keepsNonces
    (fun address => spared address ∧ address ≠ tx.sender) tx workspace.state
  unfold interpreter interpreterBy
  -- the answers are named before the cases: reading one off by computation runs into the base gas
  rcases outcome : check tx workspace.state with ⟨verdict, state⟩
  rw [outcome] at checked
  cases verdict with
  | error fault => exact checked
  | ok _ =>
      rcases workspace.meter.consume baseGas with ⟨paid, meter⟩
      cases paid with
      | error fault => exact checked
      | ok _ => exact checked.trans (executeChecked_keepsOthers spares fresh { state, meter })

theorem charge_refused {cause : Breakdown} {state after : JournaledState}
    (failed : charge tx state = (.error cause, after)) : KeepsNonces spared state after := by
  unfold charge at failed
  simp only at failed
  split at failed
  · cases failed
  · cases failed
    exact .of_same (Store.nonceOf_subBalance ..) rfl

theorem executeChecked_refused {fault : Fault}
    (returns : ∀ gas state, Returned (perform tx surroundings.registry gas state).1.output)
    (ran : executeChecked tx surroundings workspace = (.error fault, left)) :
    KeepsNonces spared workspace.state left.state := by
  unfold executeChecked executeCheckedBy at ran
  split at ran
  · unfold executePaidBy at ran
    simp only at ran
    split at ran
    · rename_i cause gaveUp
      exact absurd gaveUp (returns _ _ cause)
    · cases ran
  · rename_i cause after failed
    cases ran
    exact charge_refused failed

/-- Where the host never gives up in a call, a transaction without an execution moves no nonce at
all. -/
theorem interpreter_refused {fault : Fault}
    (returns : ∀ gas state, Returned (perform tx surroundings.registry gas state).1.output)
    (ran : interpreter tx surroundings workspace = (.error fault, left)) :
    KeepsNonces spared workspace.state left.state := by
  have checked := @check_keepsNonces spared tx workspace.state
  unfold interpreter interpreterBy at ran
  rcases outcome : check tx workspace.state with ⟨verdict, state⟩
  rw [outcome] at checked ran
  cases verdict with
  | error reason =>
      cases ran
      exact checked
  | ok _ =>
      rcases payment : workspace.meter.consume baseGas with ⟨paid, meter⟩
      rw [payment] at ran
      cases paid with
      | error reason =>
          cases ran
          exact checked
      | ok _ => exact checked.trans (executeChecked_refused returns ran)

end TransferMachine

end HostedEvm
