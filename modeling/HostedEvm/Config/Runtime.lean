import HostedEvm.Fork

set_option autoImplicit false

/-!
The configuration of a running chain.
-/

namespace HostedEvm

/-- How many entries the caches of a reader hold. -/
structure CacheBudgets where
  receipts : UInt64 := 1024
  blocksByNumber : UInt64 := 1024
  blocksByHash : UInt64 := 1024
  lookups : UInt64 := 1024
  deriving DecidableEq

/-- What is written to the log of the host. -/
structure LoggingConfig where
  level : String := "info"
  json : Bool := false
  deriving DecidableEq

structure RuntimeConfig where
  caches : CacheBudgets := {}
  /-- How many events are kept for a subscriber. -/
  channelCapacity : UInt64 := 128
  logging : LoggingConfig := {}
  /-- Chain parameters in the place of the host's. -/
  chain : Option ChainConfig := none
  deriving DecidableEq

inductive ConfigFlaw
  /-- The cache with a name has no room. -/
  | zeroBudget (name : String)
  | zeroCapacity
  | chain (flaw : ChainFlaw)
  | missingFile (path : String)
  deriving DecidableEq

/-- The wording of a flaw. The reason for which a file is missing is left open. -/
def ConfigFlaw.message : ConfigFlaw → String
  | .zeroBudget name => "Cache budget '" ++ name ++ "' cannot be 0"
  | .zeroCapacity => "Event channel capacity cannot be 0"
  | .chain flaw => flaw.message
  | .missingFile path => "Failed to read config file '" ++ path

namespace CacheBudgets

def named (budgets : CacheBudgets) : List (String × UInt64) :=
  [("receipts", budgets.receipts), ("blocks_by_number", budgets.blocksByNumber),
    ("blocks_by_hash", budgets.blocksByHash), ("tx_lookups", budgets.lookups)]

end CacheBudgets

namespace RuntimeConfig

def flaw? (config : RuntimeConfig) : Option ConfigFlaw :=
  match config.caches.named.find? fun entry => entry.2 = 0 with
  | some (name, _) => some (.zeroBudget name)
  | none =>
    if config.channelCapacity = 0 then some .zeroCapacity
    else (config.chain.bind ChainConfig.flaw?).map .chain

end RuntimeConfig

end HostedEvm
