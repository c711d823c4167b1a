import HostedEvm.Chain.Chain
import HostedEvm.Wire.Precompiles
import HostedEvm.Wire.StandIn

set_option autoImplicit false

/-!
Hosts, their configurations and their pools as plain data.
-/

namespace HostedEvm.Form

def toPoolConfig (form : Form) : PoolConfig :=
  let standard : PoolConfig := {}
  { maxPerAccount := (form.field "max_per_account").toDefault toNat standard.maxPerAccount
    maxTotal := (form.field "max_total").toDefault toNat standard.maxTotal
    minTip := (form.field "min_tip").toDefault toAmount standard.minTip
    eventCapacity := (form.field "event_capacity").toDefault toNat standard.eventCapacity }

def ofPoolConfig (config : PoolConfig) : Form :=
  .list [ofNat config.maxPerAccount, ofNat config.maxTotal, ofAmount config.minTip,
    ofNat config.eventCapacity]

/-- The nonces that a pool is told at first. -/
def toNonces (form : Form) : Map Address UInt64 :=
  ((form.field "nonces").toList (toPair toAddress toGas)).foldl
    (fun nonces (address, nonce) => nonces.insert address nonce) ∅

def toHost (form : Form) : Host :=
  let standard : Host := {}
  { chainConfig := (form.field "chain_config").toDefault toChainConfig standard.chainConfig
    accounts := (form.field "accounts").toList (toPair toAddress toAmount)
    baseFee := (form.field "base_fee").toOption toAmount
    feeCollector := (form.field "fee_collector").toOption toAddress
    blockGasLimit := (form.field "block_gas_limit").toGas
    precompiles := fun _ => builtinPrecompiles ++ (form.field "precompiles").toList toPrecompile
    precompilePrices := (form.field "kv_gas").toDefault toPrices standard.precompilePrices
    archive := if (form.field "historical").toFlag then some {} else none }

def toInterpreter (form : Form) : Interpreter :=
  match (form.field "burn").toOption (toPair toGas toGas) with
  | some (nonce, gas) => StandIn.wasteful nonce gas
  | none => TransferMachine.interpreter

/-- A configuration given by some of its fields. -/
def toRuntimeConfig (form : Form) : RuntimeConfig :=
  let standard : RuntimeConfig := {}
  let budget (name : String) (default : UInt64) : UInt64 :=
    (form.field name).toDefault toGas default
  { caches :=
      { receipts := budget "receipts" standard.caches.receipts
        blocksByNumber := budget "blocks_by_number" standard.caches.blocksByNumber
        blocksByHash := budget "blocks_by_hash" standard.caches.blocksByHash
        lookups := budget "tx_lookups" standard.caches.lookups }
    channelCapacity := budget "channel_capacity" standard.channelCapacity
    chain := (form.field "chain").toOption toChainConfig }

def ofRuntimeConfig (config : RuntimeConfig) : Form :=
  .record [("receipts", ofGas config.caches.receipts),
    ("blocks_by_number", ofGas config.caches.blocksByNumber),
    ("blocks_by_hash", ofGas config.caches.blocksByHash),
    ("tx_lookups", ofGas config.caches.lookups),
    ("channel_capacity", ofGas config.channelCapacity), ("level", .text config.logging.level),
    ("json", .flag config.logging.json), ("chain", ofOption ofChainConfig config.chain)]

def ofDelivery {Event : Type} (write : Event → Form) : Delivery Event → Form
  | .event event => write event
  | .lagged count => .record [("lagged", ofCount count)]

end HostedEvm.Form
