import HostedEvm.Transaction

set_option autoImplicit false

/-!
What a transaction leaves to read: its logs, its receipt and the place where it was included.
-/

namespace HostedEvm

/-- An entry that an account wrote while a transaction ran. -/
structure Log where
  address : Address
  topics : List Word
  data : Bytes
  txHash : Word := 0
  txIndex : UInt64 := 0
  blockHash : Word := 0
  blockNumber : UInt64 := 0
  /-- The place of the log within the block. -/
  index : UInt64 := 0
  deriving DecidableEq

/-- The outcome of one included transaction. -/
structure Receipt where
  status : Bool
  txHash : Word
  txIndex : UInt64
  gasUsed : Gas
  /-- The gas used by this transaction and those before it in the block. -/
  cumulativeGasUsed : Gas
  logs : List Log
  contractAddress : Option Address
  blockHash : Word
  blockNumber : UInt64
  deriving DecidableEq

/-- A transaction and the place where it was included. -/
structure Inclusion where
  transaction : Transaction
  index : UInt64
  blockNumber : UInt64
  blockHash : Word
  deriving DecidableEq

end HostedEvm
