import HostedEvm.Cache
import HostedEvm.Chain.Archive
import HostedEvm.Chain.Feeds
import HostedEvm.Chain.Processor

set_option autoImplicit false

/-!
Reading published blocks.

Every query looks into a cache first and then into the archive, if the host has one. What the
archive answers goes into the cache, so that a query leaves a new reader behind.
-/

namespace HostedEvm

/-- The published blocks that are still at hand. -/
structure Reader where
  current : Option Block := none
  finalized : Option Block := none
  currentReceipts : List Receipt := []
  currentLogs : List Log := []
  receipts : Cache Word (List Receipt)
  blocksByNumber : Cache UInt64 Block
  blocksByHash : Cache Word Block
  lookups : Cache Word Inclusion
  feeds : ChainFeeds

namespace Reader

/-- A reader before the first block. -/
def ofConfig (config : RuntimeConfig) : Reader where
  receipts := .ofCapacity config.caches.receipts.toNat
  blocksByNumber := .ofCapacity config.caches.blocksByNumber.toNat
  blocksByHash := .ofCapacity config.caches.blocksByHash.toNat
  lookups := .ofCapacity config.caches.lookups.toNat
  feeds := .ofCapacity config.channelCapacity.toNat

/-- What keeps a reader from being set up: the first of its caches and feeds that cannot be. -/
def breakdown? (config : RuntimeConfig) : Option Breakdown :=
  (config.caches.named.findSome? fun (_, budget) => Cache.breakdown? budget.toNat).or
    (Feed.breakdown? config.channelCapacity.toNat)

/-- Make a finalized block the current one, and announce it. -/
def publish (reader : Reader) (finalized : FinalizedBlock) : Reader where
  current := some finalized.block
  finalized := some finalized.block
  currentReceipts := finalized.receipts
  currentLogs := finalized.logs
  receipts := reader.receipts.put finalized.block.hash finalized.receipts
  blocksByNumber := reader.blocksByNumber.put finalized.block.number finalized.block
  blocksByHash := reader.blocksByHash.put finalized.block.hash finalized.block
  lookups := finalized.block.inclusions.foldl
    (fun lookups inclusion => lookups.put inclusion.transaction.hash inclusion) reader.lookups
  feeds := reader.feeds.publish finalized.block finalized.logs

/-- Look up a key in a cache, and else in the archive, whose answer goes into the cache. -/
def lookUp {Key Value : Type} [DecidableEq Key] (cache : Cache Key Value) (archived : Option Value)
    (key : Key) : Option Value × Cache Key Value :=
  match cache.get? key with
  | (some value, cache) => (some value, cache)
  | (none, cache) =>
    match archived with
    | some value => (some value, cache.put key value)
    | none => (none, cache)

def blockByNumber (reader : Reader) (archive : Option Archive) (number : UInt64) :
    Option Block × Reader :=
  let (found, blocksByNumber) :=
    lookUp reader.blocksByNumber (archive.bind (·.blockByNumber? number)) number
  (found, { reader with blocksByNumber })

def blockByHash (reader : Reader) (archive : Option Archive) (hash : Word) :
    Option Block × Reader :=
  let (found, blocksByHash) :=
    lookUp reader.blocksByHash (archive.bind (·.blockByHash? hash)) hash
  (found, { reader with blocksByHash })

def receiptsByHash (reader : Reader) (archive : Option Archive) (hash : Word) :
    Option (List Receipt) × Reader :=
  let (found, receipts) := lookUp reader.receipts (archive.bind (·.receiptsByHash? hash)) hash
  (found, { reader with receipts })

def inclusion (reader : Reader) (archive : Option Archive) (hash : Word) :
    Option Inclusion × Reader :=
  let (found, lookups) := lookUp reader.lookups (archive.bind (·.inclusion? hash)) hash
  (found, { reader with lookups })

end Reader

end HostedEvm
