import HostedEvm.Block
import HostedEvm.Fork
import HostedEvm.Precompile.Registry

set_option autoImplicit false

/-!
The seam between a chain and its interpreter.

The chain does not interpret transactions itself. An interpreter is a function on the state and the
gas meter: it rejects a transaction that cannot be applied at all, or executes it, in which case
the execution itself may still have failed. It may also give up with a fatal fault.
-/

namespace HostedEvm

/-- What a transaction sees of the block around it. -/
structure BlockContext where
  number : UInt64
  timestamp : UInt64
  /-- The account that fees are paid to. -/
  coinbase : Address
  gasLimit : Gas
  baseFee : Word
  chainId : UInt64
  rules : ForkRules
  /-- Improvements in force beyond those of the forks. -/
  extraEips : List UInt32 := []
  deriving DecidableEq

/-- The context of a header whose fees go to a collector, if there is one. -/
def BlockContext.ofHeader (header : Header) (rules : ForkRules) (feeCollector : Option Address) :
    BlockContext where
  number := header.number
  timestamp := header.timestamp
  coinbase := feeCollector.getD header.coinbase
  gasLimit := header.gasLimit
  baseFee := header.baseFee
  chainId := rules.chainId
  rules := rules

structure Execution where
  gasUsed : Gas
  refund : Gas
  output : Bytes
  fault : Option Fault
  contractAddress : Option Address

def Execution.succeeded (execution : Execution) : Bool := execution.fault.isNone

/-- What an interpreter does not change. -/
structure Surroundings where
  registry : Registry
  context : BlockContext

/-- The state of a block while a transaction runs. -/
structure Workspace where
  state : JournaledState
  meter : Meter

/-- Executes a transaction, or rejects it. -/
abbrev Interpreter :=
  Transaction → Surroundings → Workspace → Except Fault Execution × Workspace

end HostedEvm
