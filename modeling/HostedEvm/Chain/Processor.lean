import HostedEvm.Chain.Fault
import HostedEvm.Execution.Interpreter

set_option autoImplicit false

/-!
Building a block.

The processor owns the state, the gas meter and the precompiles of the block under construction. It
runs transactions one at a time, each from a clean slate. A transaction that the interpreter
rejects leaves nothing behind; one that is executed gets a receipt, whether or not it succeeded.
Only what a transaction did before the interpreter gave up stays.
-/

namespace HostedEvm

structure OpenBlock where
  header : Header
  context : BlockContext

/-- A block with its receipts and logs, stamped with the hash of the block. -/
structure FinalizedBlock where
  block : Block
  receipts : List Receipt
  logs : List Log

/-- The state of block production. -/
structure Processor where
  state : JournaledState
  meter : Meter
  /-- The precompiles that the host declares under given forks. -/
  precompiles : ForkRules → List Precompile
  /-- The storage prices in force while a precompile runs. -/
  precompilePrices : StoragePrices := .standard
  interpreter : Interpreter
  registry : Registry := {}
  /-- The forks for which the registry was built. -/
  registryRules : Option ForkRules := none
  openBlock : Option OpenBlock := none
  transactions : List Transaction := []
  receipts : List Receipt := []
  /-- The number of logs in the block so far. -/
  logCount : Nat := 0

namespace Processor

/-- Build the registry for the forks in force, unless it is there already. -/
def loadPrecompiles (processor : Processor) (rules : ForkRules) :
    Except ChainFault Unit × Processor :=
  if processor.registryRules = some rules then (.ok (), processor)
  else
    match Registry.ofPrecompiles (processor.precompiles rules) processor.precompilePrices with
    | .ok registry => (.ok (), { processor with registry, registryRules := some rules })
    | .error fault => (.error (.vm fault), processor)

def beginBlock (processor : Processor) (maxGas : Gas) : Processor :=
  { processor with
    state := processor.state.beginBlock
    meter := processor.meter.beginBlock maxGas
    openBlock := none, transactions := [], receipts := [], logCount := 0 }

def prepare (processor : Processor) (header : Header) (context : BlockContext) :
    Except ChainFault Unit × Processor :=
  match processor.loadPrecompiles context.rules with
  | (.ok (), processor) => (.ok (), { processor with openBlock := some ⟨header, context⟩ })
  | (.error fault, processor) => (.error fault, processor)

/-- Give a transaction a clean slate: its own gas, no storage charges, empty journals and the
addresses warm that it touches in any case. -/
def setUp (processor : Processor) (context : BlockContext) (tx : Transaction) : Processor :=
  let state := { processor.state with store := processor.state.store.resetCharges }
  let state := state.beginTransaction tx.hash (UInt64.ofNat processor.transactions.length)
  { processor with
    meter := processor.meter.beginTransaction tx.gasLimit
    state := state.prepareAccessList context.rules tx.sender context.coinbase tx.recipient
      processor.registry.active tx.accessList }

def gasUsed (processor : Processor) : Gas :=
  match processor.receipts.getLast? with
  | some receipt => receipt.cumulativeGasUsed
  | none => 0

/-- The logs of the transaction with their places in the block. -/
def placeLogs (first : Nat) : List Log → List Log
  | [] => []
  | log :: rest => { log with index := UInt64.ofNat first } :: placeLogs (first + 1) rest

def receiptOf (processor : Processor) (number : UInt64) (tx : Transaction)
    (execution : Execution) : Receipt where
  status := execution.succeeded
  txHash := tx.hash
  txIndex := UInt64.ofNat processor.transactions.length
  gasUsed := execution.gasUsed
  cumulativeGasUsed := processor.gasUsed.plus execution.gasUsed
  logs := placeLogs processor.logCount (processor.state.logs.stamped tx.hash 0 number)
  contractAddress := execution.contractAddress
  blockHash := 0
  blockNumber := number

def record (processor : Processor) (tx : Transaction) (receipt : Receipt) : Processor :=
  { processor with
    state := processor.state.finalize
    transactions := processor.transactions ++ [tx]
    receipts := processor.receipts ++ [receipt]
    logCount := processor.logCount + receipt.logs.length }

def reject (processor : Processor) (snapshot : Snapshot) (fault : Fault) :
    Except ChainFault Receipt × Processor :=
  let processor := { processor with meter := processor.meter.discardTransaction }
  match processor.state.rewound snapshot with
  | (.ok (), state) => (.error (.vm fault), { processor with state })
  | (.error foreign, state) => (.error (.vm foreign), { processor with state })

def runIn (processor : Processor) (block : OpenBlock) (tx : Transaction) :
    Except ChainFault Receipt × Processor :=
  let processor := processor.setUp block.context tx
  let (snapshot, state) := processor.state.snapshot
  let (outcome, workspace) :=
    processor.interpreter tx ⟨processor.registry, block.context⟩ ⟨state, processor.meter⟩
  let processor := { processor with state := workspace.state, meter := workspace.meter }
  match outcome with
  | .error fault =>
    if fault.isFatal then (.error (.vm fault), processor) else processor.reject snapshot fault
  | .ok execution =>
    let receipt := processor.receiptOf block.header.number tx execution
    (.ok receipt, processor.record tx receipt)

def process (processor : Processor) (tx : Transaction) :
    Except ChainFault Receipt × Processor :=
  if tx.isEmpty then (.error .emptyTransaction, processor)
  else match processor.openBlock with
    | some block => processor.runIn block tx
    | none => (.error (.wrongPhase .accepting .idle), processor)

/-- A receipt that names the hash of its block. -/
def stampReceipt (hash : Word) (receipt : Receipt) : Receipt :=
  { receipt with
    blockHash := hash
    logs := receipt.logs.map fun log => { log with blockHash := hash } }

def assemble (processor : Processor) (header : Header) : FinalizedBlock :=
  let block : Block := ⟨{ header with gasUsed := processor.gasUsed }, processor.transactions⟩
  let receipts := processor.receipts.map (stampReceipt block.hash)
  ⟨block, receipts, receipts.flatMap Receipt.logs⟩

/-- Close the block and commit the state. -/
def finalize (processor : Processor) : Except ChainFault FinalizedBlock × Processor :=
  match processor.openBlock with
  | none => (.error (.wrongPhase .finalizing .idle), processor)
  | some block =>
    (.ok (processor.assemble block.header),
      { processor with
        state := processor.state.finalize
        openBlock := none, transactions := [], receipts := [], logCount := 0 })

/-- A state over the accounts at the end of a block, independent of the live one. -/
def stateAt (processor : Processor) (number : UInt64) : Except ChainFault JournaledState :=
  (processor.state.view? number).mapError .vm

end Processor

end HostedEvm
