import HostedEvm.BaseFee
import HostedEvm.Chain.Host
import HostedEvm.Chain.Reader
import HostedEvm.Pool.Pool

set_option autoImplicit false

/-!
A chain on its host.

A block is prepared, takes transactions and is finalized. Each step is open in one phase only, and
a step taken in another one changes nothing. A finalized block is published before the host files
it, and stays final when filing fails.
-/

namespace HostedEvm

structure Chain where
  phase : Phase := .idle
  host : Host
  /-- Chain parameters in the place of the host's. -/
  configured : Option ChainConfig := none
  processor : Processor
  reader : Reader

namespace Chain

def config (chain : Chain) : ChainConfig := chain.configured.getD chain.host.chainConfig

/-- A processor over the genesis of a host. -/
def processorOf (host : Host) (interpreter : Interpreter) : Processor where
  state := { store := host.genesis }
  meter := .forBlock host.blockGasLimit 0
  precompiles := host.precompiles
  precompilePrices := host.precompilePrices
  interpreter := interpreter

/-- A chain with the precompiles for its first block. -/
def withPrecompiles (chain : Chain) : Except ChainFault Chain :=
  match chain.processor.loadPrecompiles (chain.config.rules 0 0) with
  | (.ok (), processor) => .ok { chain with processor }
  | (.error fault, _) => .error fault

/-- A chain before its first block. -/
def create (host : Host) (interpreter : Interpreter) (config : RuntimeConfig) :
    Except ChainFault Chain :=
  match config.flaw?, Reader.breakdown? config with
  | some flaw, _ => .error (.config flaw)
  | none, some cause => .error (.breakdown cause)
  | none, none =>
    withPrecompiles
      { host, configured := config.chain, processor := processorOf host interpreter
        reader := .ofConfig config }

/-- The base fee of the next block: the host's own, or the one that follows from the last
finalized block, or that of the first block. -/
def nextBaseFee (chain : Chain) : Word :=
  match chain.host.baseFee, chain.reader.finalized with
  | some fee, _ => fee
  | none, some parent => chain.config.nextBaseFee parent.header
  | none, none => chain.config.initialBaseFee

/-- The hash that a block at a height names as its parent. -/
def parentHash (chain : Chain) (height : UInt64) : Except ChainFault Word :=
  if height ≤ 1 then .ok 0
  else match chain.host.header? (height - 1) with
    | some parent => .ok parent.hash
    | none => .error (.parentUnavailable height (height - 1))

/-- The header of a block at a height before its transactions. -/
def headerAt (chain : Chain) (height timestamp : UInt64) (parentHash : Word) : Header where
  parentHash := parentHash
  coinbase := chain.host.coinbaseOf height
  number := height
  gasLimit := chain.processor.meter.blockLimit
  timestamp := timestamp
  baseFee := chain.nextBaseFee

def openWith (chain : Chain) (header : Header) : Except ChainFault Unit × Chain :=
  let rules := chain.config.rules header.number header.timestamp
  match chain.processor.prepare header (.ofHeader header rules chain.host.feeCollector) with
  | (.ok (), processor) => (.ok (), { chain with processor, phase := .accepting })
  | (.error fault, processor) => (.error fault, { chain with processor, phase := .idle })

/-- The header of the block at a height, if the host can tell the block's time and its parent. -/
def header? (chain : Chain) (height : UInt64) : Except ChainFault Header := do
  let timestamp ← (chain.host.timeOf height).mapError .breakdown
  let parent ← chain.parentHash height
  return chain.headerAt height timestamp parent

/-- Start the block at a height. When the host cannot make a header for it, the chain stays in the
middle of the step. -/
def prepare (chain : Chain) (height : UInt64) : Except ChainFault Unit × Chain :=
  if chain.phase ≠ .idle then (.error (.wrongPhase .idle chain.phase), chain)
  else
    let chain :=
      { chain with
        phase := .preparing, processor := chain.processor.beginBlock chain.config.maxGas }
    match chain.header? height with
    | .error fault => (.error fault, chain)
    | .ok header => chain.openWith header

/-- Run a transaction in the current block. -/
def process (chain : Chain) (tx : Transaction) : Except ChainFault Receipt × Chain :=
  if chain.phase ≠ .accepting then (.error (.wrongPhase .accepting chain.phase), chain)
  else
    let (outcome, processor) := chain.processor.process tx
    (outcome, { chain with processor })

/-- Hand a finalized block to the host, its header first. -/
def file (host : Host) (finalized : FinalizedBlock) : Except ChainFault Block × Host :=
  if host.headersClosed then (.error .headersUnavailable, host)
  else
    let host := host.withHeader finalized.block.header
    match host.archive with
    | none => (.ok finalized.block, host)
    | some archive =>
      let (outcome, archive) := archive.store finalized.block finalized.receipts
      (outcome.map fun _ => finalized.block, { host with archive := some archive })

/-- Close the current block, publish it and file it. -/
def finalize (chain : Chain) : Except ChainFault Block × Chain :=
  if chain.phase ≠ .accepting then (.error (.wrongPhase .accepting chain.phase), chain)
  else
    match chain.processor.finalize with
    | (.error fault, processor) => (.error fault, { chain with processor, phase := .idle })
    | (.ok finalized, processor) =>
      let (outcome, host) := file chain.host finalized
      (outcome,
        { chain with phase := .idle, processor, host, reader := chain.reader.publish finalized })

/-- A state over the accounts at the end of a block, independent of the live one. -/
def stateAt (chain : Chain) (number : UInt64) : Except ChainFault JournaledState :=
  chain.processor.stateAt number

end Chain

/-- Hand a transaction to the pool of a host, if there is one. -/
def Pool.send (pool : Option Pool) (nonceOf : NonceOf) (tx : Transaction) :
    Except ChainFault Unit × Option Pool :=
  match pool with
  | none => (.error .noPool, none)
  | some pool =>
    let (outcome, pool) := pool.insert nonceOf tx
    ((outcome.map fun _ => ()).mapError .pool, some pool)

end HostedEvm
