import HostedEvm.Execution.Interpreter

set_option autoImplicit false

/-!
An interpreter without bytecode.

It moves value, creates contracts from the input of a transaction and calls precompiles. A call of
any other account with an input leaves the input as a log of that account, unless the input begins
with the byte of an invalid operation, which makes the call fail.
-/

namespace HostedEvm.TransferMachine

def baseGas : Gas := 21000

def logGas : Gas := 750

def logByteGas : Gas := 8

def codeByteGas : Gas := 200

/-- How deep calls may be nested. -/
def depthLimit : Nat := 1024

/-- The first byte of an input that makes a call fail. -/
def invalidOperation : UInt8 := 0xfe

def perByte (price : Gas) (bytes : Bytes) : Gas := price.times (UInt64.ofNat bytes.length)

/-- Move funds from one account to another, if there are enough. -/
def transfer (sender recipient : Address) (value : Word) (state : JournaledState) :
    Except Fault Unit × JournaledState :=
  if value = 0 then (.ok (), state)
  else
    let (balance, store) := state.store.balance sender
    if balance < value then (.error (.insufficientBalance balance value), { state with store })
    else
      (.ok (), { state with store := (store.subBalance sender value).addBalance recipient value })

/-- The output of a call, and the gas it used. -/
structure CallResult where
  output : Except Fault Bytes
  gasUsed : Gas

/-- Leave the input of a call as a log. -/
def leaveLog (message : Message) (state : JournaledState) : CallResult × JournaledState :=
  let cost := logGas.plus (perByte logByteGas message.input)
  if cost > message.gas then (⟨.error (.outOfGas cost message.gas), message.gas⟩, state)
  else
    let log : Log :=
      { address := message.recipient, topics := [Keccak.digest message.input]
        data := message.input }
    (⟨.ok message.input, cost⟩, state.addLog log)

/-- What a call does once its value has been moved. -/
def execute (registry : Registry) (nested : Answer) (message : Message) (machine : Machine) :
    CallResult × Machine :=
  if registry.contains message.recipient then
    let (result, machine) := registry.run nested
      { address := message.recipient, caller := message.caller, value := message.value }
      message.input message.gas machine
    (⟨result.output, message.gas.minus result.gasRemaining⟩, machine)
  else if message.input.head? = some invalidOperation then
    (⟨.error (.reverted "invalid opcode 0xfe"), message.gas⟩, machine)
  else if message.input.isEmpty then (⟨.ok [], 0⟩, machine)
  else
    let (result, state) := leaveLog message machine.state
    (result, { machine with state })

/-- Move the value of a call, and execute it if that was possible. -/
def transferAndExecute (registry : Registry) (nested : Answer) (message : Message)
    (machine : Machine) : CallResult × Machine :=
  match transfer message.caller message.recipient message.value machine.state with
  | (.ok (), state) => execute registry nested message { machine with state }
  | (.error fault, state) => (⟨.error fault, 0⟩, { machine with state })

/-- Make a call. One that fails leaves nothing behind in the state, unless the host gave up. -/
def call (registry : Registry) (nested : Answer) (message : Message) (machine : Machine) :
    CallResult × Machine :=
  let (snapshot, state) := machine.state.snapshot
  let (result, machine) :=
    transferAndExecute registry nested message { machine with state }
  match result.output with
  | .ok _ => (result, machine)
  | .error fault =>
    if fault.isFatal then (result, machine)
    else
      match machine.rewound snapshot with
      | (.ok (), machine) => (result, machine)
      | (.error fault, machine) => ({ result with output := .error fault }, machine)

/-- Answer nested calls, of which `remaining` may stand within each other. -/
def answer (registry : Registry) : (remaining : Nat) → Answer
  | 0, message, machine => (.error (.callDepthExceeded depthLimit), machine.record message)
  | remaining + 1, message, machine =>
    let (result, machine) :=
      call registry (answer registry remaining) message (machine.record message)
    (result.output, machine)

/-- How the call of a transaction is made. -/
abbrev Calling := Registry → Message → JournaledState → CallResult × JournaledState

/-- Make a call that stands within no other. -/
def callFromTransaction : Calling := fun registry message state =>
  let (result, machine) := call registry (answer registry depthLimit) message { state }
  (result, machine.state)

/-- Create a contract whose code is the input of the message. -/
def create (message : Message) (state : JournaledState) : CallResult × JournaledState :=
  let cost := perByte codeByteGas message.input
  if cost > message.gas then (⟨.error (.outOfGas cost message.gas), message.gas⟩, state)
  else
    match transfer message.caller message.recipient message.value state with
    | (.error fault, state) => (⟨.error fault, 0⟩, state)
    | (.ok (), state) =>
      let store := state.store.create message.recipient
      let store := store.setNonce message.recipient 1
      let store := store.setCode message.recipient message.input
      (⟨.ok [], cost⟩, { state with store })

/-- The most that a transaction can pay for gas. -/
def maxFee (tx : Transaction) : Word := tx.gasPrice.times (Word.ofGas tx.gasLimit)

def feeFor (tx : Transaction) (gas : Gas) : Word := tx.gasPrice.times (Word.ofGas gas)

/-- Check the nonce and the funds of the sender. -/
def check (tx : Transaction) (state : JournaledState) : Except Fault Unit × JournaledState :=
  let (expected, store) := state.store.nonce tx.sender
  if tx.nonce ≠ expected then
    (.error (.invalidNonce expected tx.nonce), { state with store })
  else
    let cost := (maxFee tx).plus tx.value
    let (balance, store) := store.balance tx.sender
    if balance < cost then (.error (.insufficientBalance balance cost), { state with store })
    else (.ok (), { state with store })

/-- Take the greatest fee from the sender, and move on to its next nonce. The greatest nonce has
none behind it. -/
def charge (tx : Transaction) (state : JournaledState) : Except Breakdown Unit × JournaledState :=
  let store := state.store.subBalance tx.sender (maxFee tx)
  match Counter.sum tx.nonce.toNat 1 with
  | .ok next => (.ok (), { state with store := store.setNonce tx.sender (UInt64.ofNat next) })
  | .error cause => (.error cause, { state with store })

/-- Return the fee for gas that was not used, and pay the rest to the coinbase. -/
def settle (tx : Transaction) (coinbase : Address) (gasUsed : Gas) (state : JournaledState) :
    JournaledState :=
  let store := state.store.addBalance tx.sender (feeFor tx (tx.gasLimit.minus gasUsed))
  { state with store := store.addBalance coinbase (feeFor tx gasUsed) }

/-- Make the call or the creation that a transaction asks for. -/
def performBy (calling : Calling) (tx : Transaction) (registry : Registry) (gas : Gas)
    (state : JournaledState) : CallResult × Option Address × JournaledState :=
  match tx.recipient with
  | some recipient =>
    let (result, state) := calling registry ⟨tx.sender, recipient, tx.input, gas, tx.value⟩ state
    (result, none, state)
  | none =>
    let address := createdAddress tx.sender tx.nonce
    let (result, state) := create ⟨tx.sender, address, tx.input, gas, tx.value⟩ state
    (result, some address, state)

abbrev perform := performBy callFromTransaction

/-- The outcome of a transaction whose call or creation had the given output. -/
def executionOf (output : Except Fault Bytes) (contractAddress : Option Address) (gasUsed : Gas)
    (refund : Gas) : Execution :=
  match output with
  | .ok bytes => ⟨gasUsed, refund, bytes, none, contractAddress⟩
  | .error fault => ⟨gasUsed, refund, [], some fault, none⟩

/-- Pay for a call or creation that has been made. -/
def conclude (tx : Transaction) (coinbase : Address) (result : CallResult)
    (contractAddress : Option Address) (workspace : Workspace) : Execution × Workspace :=
  let (paid, meter) := workspace.meter.consume result.gasUsed
  let output := match paid with
    | .ok () => result.output
    | .error fault => .error fault
  let gasUsed := meter.txConsumed
  let state := settle tx coinbase gasUsed workspace.state
  (executionOf output contractAddress gasUsed state.refund.value, { state, meter })

/-- Execute a transaction whose sender has paid. -/
def executePaidBy (calling : Calling) (tx : Transaction) (surroundings : Surroundings)
    (workspace : Workspace) : Except Fault Execution × Workspace :=
  let (result, contractAddress, state) :=
    performBy calling tx surroundings.registry workspace.meter.remaining workspace.state
  let workspace := { workspace with state }
  match result.output with
  | .error (.breakdown cause) => (.error (.breakdown cause), workspace)
  | _ =>
    let (execution, workspace) :=
      conclude tx surroundings.context.coinbase result contractAddress workspace
    (.ok execution, workspace)

abbrev executePaid := executePaidBy callFromTransaction

/-- Execute a transaction whose sender has been checked and whose base gas has been consumed. -/
def executeCheckedBy (calling : Calling) (tx : Transaction) (surroundings : Surroundings)
    (workspace : Workspace) : Except Fault Execution × Workspace :=
  match charge tx workspace.state with
  | (.ok (), state) => executePaidBy calling tx surroundings { workspace with state }
  | (.error cause, state) => (.error (.breakdown cause), { workspace with state })

abbrev executeChecked := executeCheckedBy callFromTransaction

/-- Execute a transaction. It is rejected when its nonce is not the next one of its sender, when
its sender cannot pay for it or when its base gas does not fit the limits. -/
def interpreterBy (calling : Calling) : Interpreter := fun tx surroundings workspace =>
  match check tx workspace.state with
  | (.error fault, state) => (.error fault, { workspace with state })
  | (.ok (), state) =>
    match workspace.meter.consume baseGas with
    | (.error fault, meter) => (.error fault, { state, meter })
    | (.ok (), meter) => executeCheckedBy calling tx surroundings { state, meter }

/-- The interpreter whose calls are the machine's own. -/
def interpreter : Interpreter := interpreterBy callFromTransaction

end HostedEvm.TransferMachine
