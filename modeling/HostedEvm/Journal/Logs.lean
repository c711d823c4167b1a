import HostedEvm.Journal.Controller
import HostedEvm.Receipt

set_option autoImplicit false

/-!
The logs of the running transaction.

A log is stamped with the transaction and with its own place when it is added; the block is stamped
when the logs are read for a receipt.
-/

namespace HostedEvm

/-- The logs so far, and the transaction stamped on the next one. -/
structure LogBuffer where
  entries : List Log := []
  txHash : Word := 0
  txIndex : UInt64 := 0

namespace LogBuffer

/-- Set the transaction stamped on the logs added from here on. -/
def withTransaction (buffer : LogBuffer) (txHash : Word) (txIndex : UInt64) : LogBuffer :=
  { buffer with txHash, txIndex }

def stamp (buffer : LogBuffer) (log : Log) : Log :=
  { log with
    txHash := buffer.txHash, txIndex := buffer.txIndex
    index := UInt64.ofNat buffer.entries.length }

def add (buffer : LogBuffer) (log : Log) : LogBuffer :=
  { buffer with entries := buffer.entries ++ [buffer.stamp log] }

/-- The logs as a transaction of a block leaves them. -/
def stamped (buffer : LogBuffer) (txHash blockHash : Word) (blockNumber : UInt64) : List Log :=
  buffer.entries.map fun log => { log with txHash, blockHash, blockNumber }

/-- Keep the first `count` logs. -/
def rewind (count : Nat) (buffer : LogBuffer) : LogBuffer :=
  { buffer with entries := buffer.entries.take count }

instance : Checkpointed LogBuffer where
  key := "logs"
  mark buffer := (buffer.entries.length, buffer)
  rewind := rewind
  commit buffer := { buffer with entries := [] }

end LogBuffer

end HostedEvm
