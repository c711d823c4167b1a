import HostedEvm.Execution.TransferMachine

set_option autoImplicit false

/-!
Stand-ins for an interpreter.

One answers nested calls for precompiles that run without a chain: chosen accounts fail, registered
ones run, and any other account takes a mark in its first slot and returns its input. A call in
which the host gave up is never left, and counts among those around every later one. The other
rejects transactions late.
-/

namespace HostedEvm.StandIn

/-- How deep calls may be nested. -/
def depthLimit : Nat := 8

/-- What an account without a precompile does with a call. -/
def mark (message : Message) (machine : Machine) : Except Fault Bytes × Machine :=
  let store := machine.state.store.setSlot message.recipient 1 1
  (.ok message.input, { machine with state := { machine.state with store } })

/-- Answer nested calls, of which `remaining` may stand within each other. -/
def answer (registry : Registry) (reverting : List Address) : (remaining : Nat) → Answer
  | 0, message, machine => (.error (.callDepthExceeded depthLimit), machine.record message)
  | remaining + 1, message, machine =>
    let machine := machine.record message
    if reverting.contains message.recipient then
      (.error (.reverted "nested call failed"), machine)
    else if registry.contains message.recipient then
      let (result, machine) :=
        registry.run (answer registry reverting remaining)
          { address := message.recipient, caller := message.caller, value := message.value }
          message.input message.gas machine.entered
      (result.output, machine.exited result.output)
    else mark message machine

/-- Answer a call that stands within none but those that were never left. -/
def call (registry : Registry) (reverting : List Address) : Answer := fun message machine =>
  answer registry reverting (depthLimit - machine.depth) message machine

/-- An interpreter that rejects the transactions with a given nonce, but only after it has worked on
the state and consumed gas. -/
def wasteful (nonce : UInt64) (gas : Gas) : Interpreter := fun tx surroundings workspace =>
  if tx.nonce = nonce then
    let store := workspace.state.store.addBalance tx.sender 7
    let state := { workspace.state with store, refund := workspace.state.refund.add 9 }
    match workspace.meter.consume gas with
    | (.error fault, meter) => (.error fault, { state, meter })
    | (.ok (), meter) => (.error (.invalidNonce 0 tx.nonce), { state, meter })
  else TransferMachine.interpreter tx surroundings workspace

end HostedEvm.StandIn
