import HostedEvm.Chain.Archive
import HostedEvm.Execution.Interpreter
import HostedEvm.Pool.Pool
import HostedEvm.Wire.Form

set_option autoImplicit false

/-!
Transactions, blocks and chain parameters as plain data.
-/

namespace HostedEvm.Form

/-- Storage prices: a name, or the seven prices. -/
def toPrices (form : Form) : StoragePrices :=
  if form.toText = "default" then .standard
  else
    let price (place : Nat) : Gas := (form.item place).toGas
    { has := price 0, delete := price 1, readFlat := price 2, readByte := price 3
      writeFlat := price 4, writeByte := price 5, iterate := price 6 }

def ofPrices (prices : StoragePrices) : Form :=
  ofList ofGas [prices.has, prices.delete, prices.readFlat, prices.readByte, prices.writeFlat,
    prices.writeByte, prices.iterate]

def toAccessItem (form : Form) : AccessListItem :=
  let (address, storageKeys) := form.toPair toAddress (toList toWord)
  { address, storageKeys }

/-- The transaction with the given fields, sealed. -/
def toSealed (form : Form) : Transaction :=
  let tx : Transaction :=
    { sender := (form.field "from").toAddress
      nonce := (form.field "nonce").toGas
      recipient := (form.field "to").toOption toAddress
      value := (form.field "value").toAmount
      gasLimit := (form.field "gas").toDefault toGas 100000
      gasPrice := (form.field "price").toDefault toAmount 1
      input := (form.field "input").toBytes }
  match (form.field "al").toOption (toList toAccessItem) with
  | some items => tx.sealed.withAccessList items
  | none => tx.sealed

/-- A sealed transaction, or the empty one. -/
def toTransaction (form : Form) : Transaction :=
  if (form.field "default").toFlag then {} else form.toSealed

def toHeader (form : Form) : Header where
  parentHash := (form.field "parent").toWord
  coinbase := (form.field "coinbase").toAddress
  number := (form.field "number").toGas
  gasLimit := (form.field "gas_limit").toGas
  gasUsed := (form.field "gas_used").toGas
  timestamp := (form.field "timestamp").toGas
  baseFee := (form.field "base_fee").toAmount

def toRules (form : Form) : ForkRules where
  chainId := (form.field "chain_id").toGas
  berlin := (form.field "berlin").toFlag
  london := (form.field "london").toFlag
  shanghai := (form.field "shanghai").toFlag

/-- The start of a fork, which may be given as never. -/
def toFork (form : Form) (name : String) (default : Option UInt64) : Option UInt64 :=
  match form.field? name with
  | some start => start.toOption toGas
  | none => default

def toChainConfig (form : Form) : ChainConfig :=
  let standard : ChainConfig := {}
  { chainId := (form.field "chain_id").toDefault toGas standard.chainId
    berlinBlock := form.toFork "berlin_block" standard.berlinBlock
    londonBlock := form.toFork "london_block" standard.londonBlock
    shanghaiTime := form.toFork "shanghai_time" standard.shanghaiTime
    feeDenominator := (form.field "denominator").toDefault toGas standard.feeDenominator
    elasticity := (form.field "elasticity").toDefault toGas standard.elasticity
    initialBaseFee :=
      (form.field "initial_base_fee").toDefault toAmount standard.initialBaseFee
    maxGas := (form.field "max_gas").toDefault toGas standard.maxGas }

/-- A log before it is stamped. -/
def toLog (form : Form) : Log where
  address := (form.field "address").toAddress
  topics := (form.field "topics").toList toWord
  data := (form.field "data").toBytes

/-- The sender, nonce and hash of a transaction. -/
def ofTransaction (tx : Transaction) : Form :=
  .list [ofAddress tx.sender, ofGas tx.nonce, ofWord tx.hash]

def ofContent (content : PoolContent) : Form :=
  ofList (fun (sender, txs) => .list [ofAddress sender, ofList ofTransaction txs]) content

/-- Transactions in the order of their senders and nonces. -/
def ofSorted (txs : List Transaction) : Form :=
  ofList ofTransaction
    (txs.mergeSort fun a b => a.sender < b.sender || (a.sender = b.sender && a.nonce ≤ b.nonce))

def ofLog (log : Log) : Form :=
  .record [("address", ofAddress log.address), ("topics", ofList ofWord log.topics),
    ("data", ofBytes log.data), ("tx_hash", ofWord log.txHash), ("tx_index", ofGas log.txIndex),
    ("block_hash", ofWord log.blockHash), ("block_number", ofGas log.blockNumber),
    ("index", ofGas log.index)]

def ofReceipt (receipt : Receipt) : Form :=
  .record [("status", .flag receipt.status), ("tx_hash", ofWord receipt.txHash),
    ("tx_index", ofGas receipt.txIndex), ("gas_used", ofGas receipt.gasUsed),
    ("cumulative_gas_used", ofGas receipt.cumulativeGasUsed),
    ("logs", ofList ofLog receipt.logs),
    ("contract_address", ofOption ofAddress receipt.contractAddress),
    ("block_hash", ofWord receipt.blockHash), ("block_number", ofGas receipt.blockNumber)]

def ofHeader (header : Header) : Form :=
  .record [("hash", ofWord header.hash), ("parent", ofWord header.parentHash),
    ("coinbase", ofAddress header.coinbase), ("number", ofGas header.number),
    ("gas_limit", ofGas header.gasLimit), ("gas_used", ofGas header.gasUsed),
    ("timestamp", ofGas header.timestamp), ("base_fee", ofAmount header.baseFee)]

/-- A block with a line for every transaction. -/
def ofBlock (block : Block) : Form :=
  .record [("header", ofHeader block.header), ("hash", ofWord block.hash),
    ("number", ofGas block.number), ("gas_used", ofGas block.gasUsed),
    ("tx_count", ofCount block.transactions.length),
    ("txs", ofList ofTransaction block.transactions)]

def ofInclusion (inclusion : Inclusion) : Form :=
  .record [("tx", ofTransaction inclusion.transaction), ("index", ofGas inclusion.index),
    ("block_number", ofGas inclusion.blockNumber), ("block_hash", ofWord inclusion.blockHash)]

def ofRules (rules : ForkRules) : Form :=
  .record [("chain_id", ofGas rules.chainId), ("berlin", .flag rules.berlin),
    ("london", .flag rules.london), ("shanghai", .flag rules.shanghai)]

def ofContext (context : BlockContext) : Form :=
  .record [("number", ofGas context.number), ("timestamp", ofGas context.timestamp),
    ("coinbase", ofAddress context.coinbase), ("gas_limit", ofGas context.gasLimit),
    ("base_fee", ofAmount context.baseFee), ("chain_id", ofGas context.chainId),
    ("rules", ofRules context.rules),
    ("eips", ofList (fun eip => ofCount eip.toNat) context.extraEips)]

def ofChainConfig (config : ChainConfig) : Form :=
  .record [("chain_id", ofGas config.chainId), ("berlin_block", ofOption ofGas config.berlinBlock),
    ("london_block", ofOption ofGas config.londonBlock),
    ("shanghai_time", ofOption ofGas config.shanghaiTime),
    ("denominator", ofGas config.feeDenominator), ("elasticity", ofGas config.elasticity),
    ("initial_base_fee", ofAmount config.initialBaseFee), ("max_gas", ofGas config.maxGas)]

def ofMeter (meter : Meter) : Form :=
  ofList ofGas [meter.remaining, meter.txConsumed, meter.blockConsumed, meter.blockLimit]

end HostedEvm.Form
