import HostedEvm.Chain.Archive
import HostedEvm.Config.Runtime
import HostedEvm.Toml.Reader
import HostedEvm.Toml.Writer
import HostedEvm.Wire.Shape

set_option autoImplicit false

/-!
Stored records: headers, blocks, transactions, receipts and configurations as strict plain data.
-/

namespace HostedEvm.Shape

def header : Shape Header :=
  (Fields.start Header.mk).required "parent_hash" hash Header.parentHash
    |>.required "coinbase" address Header.coinbase
    |>.required "number" number Header.number
    |>.required "gas_limit" number Header.gasLimit
    |>.required "gas_used" number Header.gasUsed
    |>.required "timestamp" number Header.timestamp
    |>.required "base_fee" amount Header.baseFee
    |>.record

def accessItem : Shape AccessListItem :=
  (Fields.start AccessListItem.mk).required "address" address AccessListItem.address
    |>.required "storage_keys" hash.list AccessListItem.storageKeys
    |>.record

def transaction : Shape Transaction :=
  (Fields.start Transaction.mk).required "nonce" number Transaction.nonce
    |>.required "from" address Transaction.sender
    |>.optional "to" address Transaction.recipient
    |>.required "value" amount Transaction.value
    |>.required "gas_limit" number Transaction.gasLimit
    |>.required "gas_price" amount Transaction.gasPrice
    |>.required "input" bytes Transaction.input
    |>.required "access_list" accessItem.list Transaction.accessList
    |>.required "hash" hash Transaction.hash
    |>.record

def block : Shape Block :=
  (Fields.start Block.mk).required "header" header Block.header
    |>.required "transactions" transaction.list Block.transactions
    |>.record

def log : Shape Log :=
  (Fields.start Log.mk).required "address" address Log.address
    |>.required "topics" hash.list Log.topics
    |>.required "data" bytes Log.data
    |>.required "tx_hash" hash Log.txHash
    |>.required "tx_index" number Log.txIndex
    |>.required "block_hash" hash Log.blockHash
    |>.required "block_number" number Log.blockNumber
    |>.required "index" number Log.index
    |>.record

def receipt : Shape Receipt :=
  (Fields.start Receipt.mk).required "status" flag Receipt.status
    |>.required "tx_hash" hash Receipt.txHash
    |>.required "tx_index" number Receipt.txIndex
    |>.required "gas_used" number Receipt.gasUsed
    |>.required "cumulative_gas_used" number Receipt.cumulativeGasUsed
    |>.required "logs" log.list Receipt.logs
    |>.optional "contract_address" address Receipt.contractAddress
    |>.required "block_hash" hash Receipt.blockHash
    |>.required "block_number" number Receipt.blockNumber
    |>.record

def inclusion : Shape Inclusion :=
  (Fields.start Inclusion.mk).required "tx" transaction Inclusion.transaction
    |>.required "index" number Inclusion.index
    |>.required "block_number" number Inclusion.blockNumber
    |>.required "block_hash" hash Inclusion.blockHash
    |>.record

/-- The ways in which formats of plain data differ. -/
structure Dialect where
  /-- How amounts stand in it. -/
  amounts : Shape Word
  /-- Whether a list in the place of a record may have more items than the record has fields. -/
  surplus : Bool

/-- Plain data as messages carry it. -/
def Dialect.message : Dialect := ⟨amount, false⟩

/-- Plain data as documents carry it. -/
def Dialect.document : Dialect := ⟨amountText, true⟩

def chainConfig (dialect : Dialect) : Shape ChainConfig :=
  let standard : ChainConfig := {}
  (Fields.start ChainConfig.mk).defaulted "chain_id" number standard.chainId ChainConfig.chainId
    |>.defaulted "berlin_block" number.option standard.berlinBlock ChainConfig.berlinBlock
    |>.defaulted "london_block" number.option standard.londonBlock ChainConfig.londonBlock
    |>.defaulted "shanghai_time" number.option standard.shanghaiTime ChainConfig.shanghaiTime
    |>.defaulted "base_fee_change_denominator" number standard.feeDenominator
      ChainConfig.feeDenominator
    |>.defaulted "elasticity_multiplier" number standard.elasticity ChainConfig.elasticity
    |>.defaulted "initial_base_fee" dialect.amounts standard.initialBaseFee
      ChainConfig.initialBaseFee
    |>.defaulted "consensus_max_gas" number standard.maxGas ChainConfig.maxGas
    |>.lenientRecord dialect.surplus

def cacheBudgets (dialect : Dialect) : Shape CacheBudgets :=
  let standard : CacheBudgets := {}
  (Fields.start CacheBudgets.mk).defaulted "receipts" number standard.receipts
      CacheBudgets.receipts
    |>.defaulted "blocks_by_number" number standard.blocksByNumber CacheBudgets.blocksByNumber
    |>.defaulted "blocks_by_hash" number standard.blocksByHash CacheBudgets.blocksByHash
    |>.defaulted "tx_lookups" number standard.lookups CacheBudgets.lookups
    |>.lenientRecord dialect.surplus

/-- The capacity of a channel, as the one field of a record. -/
def channelCapacity (dialect : Dialect) : Shape UInt64 :=
  (Fields.start id).defaulted "channel_capacity" number ({} : RuntimeConfig).channelCapacity id
    |>.lenientRecord dialect.surplus

def logging (dialect : Dialect) : Shape LoggingConfig :=
  let standard : LoggingConfig := {}
  (Fields.start LoggingConfig.mk).defaulted "level" text standard.level LoggingConfig.level
    |>.defaulted "json" flag standard.json LoggingConfig.json
    |>.lenientRecord dialect.surplus

def runtimeConfig (dialect : Dialect) : Shape RuntimeConfig :=
  let standard : RuntimeConfig := {}
  (Fields.start RuntimeConfig.mk).defaulted "cache" (cacheBudgets dialect) standard.caches
      RuntimeConfig.caches
    |>.defaulted "events" (channelCapacity dialect) standard.channelCapacity
      RuntimeConfig.channelCapacity
    |>.defaulted "logging" (logging dialect) standard.logging RuntimeConfig.logging
    |>.omitted "chain" (chainConfig dialect) RuntimeConfig.chain
    |>.lenientRecord dialect.surplus

end HostedEvm.Shape

namespace HostedEvm.RuntimeConfig

/-- The configuration that a TOML document spells. Amounts stand in it as text. -/
def ofToml? (text : String) : Option RuntimeConfig :=
  (Toml.read? text).bind (Shape.runtimeConfig .document).read?

def toToml (config : RuntimeConfig) : Except Toml.WriteFault String :=
  Toml.write ((Shape.runtimeConfig .document).write config)

end HostedEvm.RuntimeConfig
