import HostedEvm.Proofs.Execution.Funds
import HostedEvm.Proofs.Gas.Runs

set_option autoImplicit false

/-!
Calls in which the host never gives up.

A snapshot can be taken back in every state, so a failed call fails for its own reason. Where the
precompiles are functions of their input that always have a result or a fault of their own, nothing
in a call or creation makes the host give up.
-/

namespace HostedEvm

/-- A meter refuses for reasons of its own. -/
theorem Meter.ordinary_of_refused {meter left : Meter} {amount : Gas} {fault : Fault}
    (refused : meter.consume amount = (.error fault, left)) : fault.isFatal = false := by
  rcases admitted_eq_error (consume_eq_error refused).1 with
    ⟨_, rfl⟩ | ⟨_, _, ⟨_, rfl⟩ | ⟨_, rfl⟩⟩
  · rfl
  · rfl
  · rfl

def Container.Steady : Container → Prop
  | .pure contract => ∀ input, Returned (contract.run input)
  | .dispatching _ => False

namespace Registry

abbrev Steady (registry : Registry) : Prop := registry.containers.Every Container.Steady

variable {registry : Registry}

theorem Steady.handlerless (steady : registry.Steady) : registry.Handlerless := by
  intro address container registered
  have own := steady address container registered
  cases container with
  | pure contract => trivial
  | dispatching table => exact own.elim

theorem returned_settle {output : Except Fault Bytes} (returned : Returned output)
    (consumed supplied : Gas) : Returned (settle output consumed supplied).output := by
  unfold settle
  split
  · exact returned_error_iff.mpr rfl
  · exact returned

theorem execute_returned {container : Container} (steady : container.Steady) (scene : Scene)
    (input : Bytes) (machine : Machine) : Returned (execute container scene input machine).1 := by
  unfold execute
  split
  · cases container with
    | pure contract => exact steady input
    | dispatching table => exact steady.elim
  · rename_i fault meter refused
    exact returned_error_iff.mpr (Meter.ordinary_of_refused refused)

theorem run_returned (steady : registry.Steady) (nested : Answer) (invocation : Invocation)
    (input : Bytes) (supplied : Gas) (machine : Machine) :
    Returned (registry.run nested invocation input supplied machine).1.output := by
  unfold run
  split
  · exact returned_error_iff.mpr rfl
  · rename_i container registered
    have executed := execute_returned (steady _ container registered)
      ⟨invocation, container.book?, nested⟩ input
      { machine with state := machine.state.snapshot.2.withPrices registry.prices }
    simp only
    split
    · rename_i cause gaveUp
      exact absurd gaveUp (executed cause)
    · rw [rewindOnFailure_fst]
      exact returned_settle executed _ _

end Registry

namespace TransferMachine

variable {registry : Registry} {nested : Answer}

/-- A call has the outcome of what was done in it, whether or not that is taken back. -/
theorem call_fst (registry : Registry) (nested : Answer) (message : Message) (machine : Machine) :
    (call registry nested message machine).1 =
      (transferAndExecute registry nested message
        { machine with state := machine.state.snapshot.2 }).1 := by
  unfold call
  simp only
  split
  · rfl
  · split
    · rfl
    · split
      · rfl
      · rename_i foreign restored refused
        have taken := Machine.rewound_fst
          (transferAndExecute registry nested message
            { machine with state := machine.state.snapshot.2 }).2 machine.state
        rw [refused] at taken
        cases taken

theorem transfer_returned (sender recipient : Address) (value : Word) (state : JournaledState) :
    Returned (transfer sender recipient value state).1 := by
  unfold transfer
  split
  · exact returned_ok _
  · simp only
    split
    · exact returned_error_iff.mpr rfl
    · exact returned_ok _

theorem execute_returned (steady : registry.Steady) (message : Message) (machine : Machine) :
    Returned (execute registry nested message machine).1.output := by
  have ran := executes registry nested message machine
  generalize execute registry nested message machine = result at ran ⊢
  cases ran with
  | registered => exact Registry.run_returned steady _ _ _ _ _
  | still _ returned => exact returned
  | logged _ returned => exact returned

theorem call_returned (steady : registry.Steady) (message : Message) (machine : Machine) :
    Returned (call registry nested message machine).1.output := by
  have moved := transfer_returned message.caller message.recipient message.value
    machine.state.snapshot.2
  rw [call_fst]
  unfold transferAndExecute
  split
  · exact execute_returned steady message _
  · rename_i fault state refused
    rw [refused] at moved
    exact returned_error_iff.mpr (returned_error_iff.mp moved)

theorem create_returned (message : Message) (state : JournaledState) :
    Returned (create message state).1.output := by
  have moved := transfer_returned message.caller message.recipient message.value state
  unfold create
  simp only
  split
  · exact returned_error_iff.mpr rfl
  · split
    · rename_i fault after refused
      rw [refused] at moved
      exact returned_error_iff.mpr (returned_error_iff.mp moved)
    · exact returned_ok _

theorem perform_returned (steady : registry.Steady) (tx : Transaction) (gas : Gas)
    (state : JournaledState) : Returned (perform tx registry gas state).1.output := by
  unfold perform performBy callFromTransaction
  split
  · exact call_returned steady _ _
  · exact create_returned _ _

end TransferMachine

theorem steady_builtin {prices : StoragePrices} {registry : Registry}
    (built : Registry.ofPrecompiles builtinPrecompiles prices = .ok registry) :
    registry.Steady := by
  refine Registry.containers_withCodec ?_ built
  intro precompile listed container made
  rw [List.mem_singleton.mp listed] at made
  cases made
  exact fun input => returned_ok input

end HostedEvm
