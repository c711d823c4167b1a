import HostedEvm.Transaction

set_option autoImplicit false

/-!
Headers and blocks. A block is named by the digest of its header.
-/

namespace HostedEvm

/-- What a block commits to besides its transactions. -/
structure Header where
  parentHash : Word := 0
  /-- The producer of the block. -/
  coinbase : Address := 0
  number : UInt64 := 0
  gasLimit : Gas := 0
  gasUsed : Gas := 0
  timestamp : UInt64 := 0
  baseFee : Word := 0
  deriving DecidableEq

namespace Header

/-- The bytes that the hash is the digest of. -/
def preimage (header : Header) : Bytes :=
  Bytes.ofWord header.parentHash ++ Bytes.ofAddress header.coinbase ++ Bytes.ofGas header.number ++
    Bytes.ofGas header.gasLimit ++ Bytes.ofGas header.gasUsed ++ Bytes.ofGas header.timestamp ++
    Bytes.ofWord header.baseFee

def hash (header : Header) : Word := Keccak.digest header.preimage

end Header

/-- A header with the transactions executed under it. -/
structure Block where
  header : Header
  transactions : List Transaction
  deriving DecidableEq

namespace Block

def hash (block : Block) : Word := block.header.hash

def number (block : Block) : UInt64 := block.header.number

def gasUsed (block : Block) : Gas := block.header.gasUsed

end Block

end HostedEvm
