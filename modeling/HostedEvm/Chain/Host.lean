import HostedEvm.Chain.Archive
import HostedEvm.Execution.Interpreter

set_option autoImplicit false

/-!
The host of a chain.

The host tells who produces a block and at what time, keeps the headers of finished blocks, and
declares genesis accounts, limits and the precompiles of every fork. What it keeps it holds in
memory, and it can refuse to take more.
-/

namespace HostedEvm

/-- The time of a block where every block comes two seconds behind the one before. -/
def evenTime (genesis number : UInt64) : Except Breakdown UInt64 := do
  let elapsed ← Counter.product number.toNat 2
  let time ← Counter.sum genesis.toNat elapsed
  return UInt64.ofNat time

structure Host where
  chainConfig : ChainConfig := {}
  accounts : List (Address × Word) := []
  /-- The producer of the block at a height. -/
  coinbaseOf : UInt64 → Address := fun _ => 0xc0b
  /-- The time of the block at a height. -/
  timeOf : UInt64 → Except Breakdown UInt64 := evenTime 1700000000
  /-- A base fee in the place of the one that follows from the parent. -/
  baseFee : Option Word := none
  /-- The account that gets the fees in the place of the coinbase. -/
  feeCollector : Option Address := none
  /-- The gas limit of every block, or zero for that of the chain parameters. -/
  blockGasLimit : Gas := 0
  /-- The precompiles under given forks. -/
  precompiles : ForkRules → List Precompile := fun _ => builtinPrecompiles
  /-- The storage prices in force while a precompile runs. -/
  precompilePrices : StoragePrices := .standard
  /-- The headers of finished blocks. -/
  headers : Map UInt64 Header := ∅
  /-- Whether the host takes no headers. -/
  headersClosed : Bool := false
  archive : Option Archive := none

namespace Host

def genesis (host : Host) : Store :=
  host.accounts.foldl (fun store (address, balance) => store.withAccount address (.funded balance))
    {}

def header? (host : Host) (number : UInt64) : Option Header := host.headers[number]?

def withHeader (host : Host) (header : Header) : Host :=
  { host with headers := host.headers.insert header.number header }

end Host

end HostedEvm
