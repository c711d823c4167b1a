import HostedEvm.Events.EventBook
import HostedEvm.Gas.Meter
import HostedEvm.Precompile.Message
import HostedEvm.State.Command

set_option autoImplicit false

/-!
Native handlers as programs.

A handler is a finite tree of requests: to work on the state, to consume gas, to emit an event, to
call another account. Each request is followed by what the handler does with the answer. A
statement about every handler is a statement about every such tree.
-/

namespace HostedEvm

structure Invocation where
  address : Address
  caller : Address
  value : Word := 0
  /-- Whether the call must not change the state. -/
  readonly : Bool := false

/-- What a handler does until it has a result. -/
inductive Program (Result : Type)
  | finish (outcome : Except Fault Result)
  | perform (command : StateCommand) (next : Reply → Program Result)
  | consume (amount : Gas) (next : Except Fault Unit → Program Result)
  /-- Ask for the gas consumed so far. -/
  | consumed (next : Gas → Program Result)
  /-- Emit an event, and learn whether it became a log. -/
  | emit (event : NativeEvent) (next : Except Fault Bool → Program Result)
  | call (recipient : Address) (input : Bytes) (gas : Gas) (value : Word)
      (next : Except Fault Bytes → Program Result)

/-- What surrounds a handler while it runs. -/
structure Scene where
  invocation : Invocation
  /-- The declared events of the precompile, if it has any. -/
  book : Option EventBook
  nested : Answer

namespace Scene

/-- Add the log of an event, if the precompile declares the event. -/
def emit (scene : Scene) (event : NativeEvent) (machine : Machine) :
    Except Fault Bool × Machine :=
  match scene.book with
  | none => (.ok false, machine)
  | some book =>
    match book.logOf event with
    | .error fault => (.error fault, machine)
    | .ok none => (.ok false, machine)
    | .ok (some log) => (.ok true, { machine with state := machine.state.addLog log })

/-- Call an account as the precompile. A call that must not change the state sends no value, and
storage work within the call is free. -/
def call (scene : Scene) (recipient : Address) (input : Bytes) (gas : Gas) (value : Word)
    (machine : Machine) : Except Fault Bytes × Machine :=
  if scene.invocation.readonly ∧ value ≠ 0 then (.error .writeProtection, machine)
  else
    scene.nested.suspended ⟨scene.invocation.address, recipient, input, gas, value⟩ machine

end Scene

namespace Program

variable {Result : Type}

def pure (result : Result) : Program Result := .finish (.ok result)

def fail (fault : Fault) : Program Result := .finish (.error fault)

/-- Go on after a success, and end at a fault. -/
def orFail {Value : Type} (next : Value → Program Result) : Except Fault Value → Program Result
  | .ok value => next value
  | .error fault => fail fault

/-- Run a handler against a meter of its own and the machine. A handler gets no answer to a request
in which the host gave up. -/
def run (scene : Scene) : Program Result → Meter → Machine → Except Fault Result × Meter × Machine
  | .finish outcome, meter, machine => (outcome, meter, machine)
  | .perform command next, meter, machine =>
    let (reply, state) := command.run machine.state
    run scene (next reply) meter { machine with state }
  | .consume amount next, meter, machine =>
    let (outcome, meter) := meter.consume amount
    run scene (next outcome) meter machine
  | .consumed next, meter, machine => run scene (next meter.txConsumed) meter machine
  | .emit event next, meter, machine =>
    match scene.emit event machine with
    | (.error (.breakdown cause), machine) => (.error (.breakdown cause), meter, machine)
    | (outcome, machine) => run scene (next outcome) meter machine
  | .call recipient input gas value next, meter, machine =>
    match scene.call recipient input gas value machine with
    | (.error (.breakdown cause), machine) => (.error (.breakdown cause), meter, machine)
    | (output, machine) => run scene (next output) meter machine

end Program

end HostedEvm
