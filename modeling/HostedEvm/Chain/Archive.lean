import HostedEvm.Block
import HostedEvm.Chain.Fault
import HostedEvm.Receipt

set_option autoImplicit false

/-!
An archive of finalized blocks.

A block is filed in three parts, its transactions last. What the archive does not take keeps the
parts behind it from being filed, while those before it stay.
-/

namespace HostedEvm

/-- The transactions of a block with the places where they are included. -/
def Block.inclusions (block : Block) : List Inclusion :=
  block.transactions.zipIdx.map fun (transaction, index) =>
    { transaction, index := UInt64.ofNat index
      blockNumber := block.number, blockHash := block.hash }

/-- What is filed of a block. -/
inductive Filing
  | block
  | receipts
  | inclusions
  deriving DecidableEq

/-- The parts of a block in the order in which they are filed. -/
def Filing.all : List Filing := [.block, .receipts, .inclusions]

structure Archive where
  blocks : Map UInt64 Block := ∅
  /-- The numbers of blocks by hash. -/
  numbers : Map Word UInt64 := ∅
  receipts : Map Word (List Receipt) := ∅
  inclusions : Map Word Inclusion := ∅
  /-- Which parts the archive does not take. -/
  closed : Filing → Bool := fun _ => false

namespace Archive

/-- The archive with one more part of a block. -/
def file (block : Block) (receipts : List Receipt) (archive : Archive) : Filing → Archive
  | .block =>
    { archive with
      numbers := archive.numbers.insert block.hash block.number
      blocks := archive.blocks.insert block.number block }
  | .receipts => { archive with receipts := archive.receipts.insert block.hash receipts }
  | .inclusions =>
    { archive with
      inclusions := block.inclusions.foldl
        (fun inclusions inclusion => inclusions.insert inclusion.transaction.hash inclusion)
        archive.inclusions }

/-- File parts of a block in turn, up to the first one that the archive does not take. -/
def storeAll (block : Block) (receipts : List Receipt) :
    List Filing → Archive → Except ChainFault Unit × Archive
  | [], archive => (.ok (), archive)
  | filing :: rest, archive =>
    if archive.closed filing then (.error .archiveUnavailable, archive)
    else storeAll block receipts rest (archive.file block receipts filing)

/-- File a block. -/
def store (archive : Archive) (block : Block) (receipts : List Receipt) :
    Except ChainFault Unit × Archive :=
  archive.storeAll block receipts Filing.all

def blockByNumber? (archive : Archive) (number : UInt64) : Option Block :=
  archive.blocks[number]?

/-- The block filed under the number of the block with a hash. -/
def blockByHash? (archive : Archive) (hash : Word) : Option Block :=
  archive.numbers[hash]?.bind archive.blockByNumber?

def receiptsByHash? (archive : Archive) (hash : Word) : Option (List Receipt) :=
  archive.receipts[hash]?

def inclusion? (archive : Archive) (hash : Word) : Option Inclusion :=
  archive.inclusions[hash]?

end Archive

end HostedEvm
