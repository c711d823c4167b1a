import HostedEvm.State.Session
import HostedEvm.Wire.Blocks
import HostedEvm.Wire.Faults

set_option autoImplicit false

/-!
Commands on a state and their answers as plain data.
-/

namespace HostedEvm.Form

/-- A command on an account store, nested at most `fuel` deep. -/
def toStoreCommandWithin : (fuel : Nat) → Form → Option StoreCommand
  | 0, _ => none
  | fuel + 1, form =>
    let address := (form.field "address").toAddress
    let key := (form.field "key").toWord
    match (form.field "do").toText with
    | "key" => some .key
    | "snapshot" | "plugin_snapshot" => some .mark
    | "revert" | "plugin_revert" => some (.rewind (form.field "id").toNat)
    | "finalize" | "plugin_finalize" => some .commit
    | "prepare" => some .beginBlock
    | "plugin_reset" => some .resetCharges
    | "create" => some (.create address)
    | "exist" => some (.exists? address)
    | "empty" => some (.isEmpty address)
    | "balance" => some (.balance address)
    | "add_balance" => some (.addBalance address (form.field "amount").toAmount)
    | "sub_balance" => some (.subBalance address (form.field "amount").toAmount)
    | "nonce" => some (.nonce address)
    | "set_nonce" => some (.setNonce address (form.field "nonce").toGas)
    | "code" => some (.code address)
    | "code_hash" => some (.codeHash address)
    | "set_code" => some (.setCode address (form.field "code").toBytes)
    | "get" => some (.slot address key)
    | "committed" => some (.committedSlot address key)
    | "set" => some (.setSlot address key (form.field "value").toWord)
    | "delete" => some (.delete ((form.field "addresses").toList toAddress))
    | "gas_config" => some .prices
    | "set_gas_config" => some (.setPrices (form.field "config").toPrices)
    | "storage_gas" => some .charged
    | "view" | "db_view" =>
      some (.view (form.field "number").toGas
        ((form.field "steps").items.filterMap (toStoreCommandWithin fuel)))
    | "block" => some .blocks
    | "account" => some (.account address)
    | _ => none

def toStoreCommand (form : Form) : Option StoreCommand := toStoreCommandWithin form.depth form

def toStateCommand (form : Form) : Option StateCommand :=
  let address := (form.field "address").toAddress
  let key := (form.field "key").toWord
  let slot := (form.field "slot").toWord
  let gas := (form.field "gas").toGas
  match (form.field "do").toText with
  | "snapshot" => some .snapshot
  | "prepare_block" => some .beginBlock
  | "reset" =>
    some (.beginTransaction (form.field "tx_hash").toWord (form.field "tx_index").toGas)
  | "finalize" => some .finalize
  | "prepare_access_list" =>
    some (.prepareAccessList (form.field "rules").toRules (form.field "sender").toAddress
      (form.field "coinbase").toAddress ((form.field "dest").toOption toAddress)
      ((form.field "precompiles").toList toAddress) ((form.field "al").toList toAccessItem))
  | "add_log" => some (.addLog form.toLog)
  | "logs" => some .logs
  | "stamped" =>
    some (.stampedLogs (form.field "tx_hash").toWord (form.field "block_hash").toWord
      (form.field "block_number").toGas)
  | "add_refund" => some (.addRefund gas)
  | "sub_refund" => some (.subRefund gas)
  | "refund" => some .refund
  | "warm" => some (.warm address)
  | "warm_slot" => some (.warmSlot address slot)
  | "is_warm" => some (.isWarm address)
  | "is_warm_slot" => some (.isWarmSlot address slot)
  | "tstore" => some (.setTransient address key (form.field "value").toWord)
  | "tload" => some (.transient address key)
  | "self_destruct" => some (.selfDestruct address)
  | "destructed" => some (.isDestroyed address)
  | "enable_reentrancy" => some .suspendPrices
  | "observe" =>
    some (.observe ((form.field "addresses").toList toAddress)
      ((form.field "keys").toList toWord))
  | _ => form.toStoreCommand.map .store

def toSessionStep (form : Form) : Option SessionStep :=
  match (form.field "do").toText with
  | "revert" => some (.rewindTo (form.field "snap").toNat)
  | "disable_reentrancy" => some (.restoreTo (form.field "saved").toNat)
  | _ => form.toStateCommand.map .command

def ofAccount (account : Account) : Form :=
  .record [("balance", ofAmount account.balance), ("nonce", ofGas account.nonce),
    ("code", ofBytes account.code),
    ("storage", ofList (fun (key, value) => .list [ofWord key, ofWord value])
      account.storage.toList)]

def ofSnapshot (snapshot : Snapshot) : Form :=
  .record [("ids", ofList (fun key => ofOption ofCount (snapshot.markOf? key))
    ["state", "logs", "refund", "access_list", "transient_storage", "destroyed_accounts"])]

def ofAccountSight (sight : AccountSight) : Form :=
  .record [("exist", .flag sight.exists?), ("balance", ofAmount sight.balance),
    ("nonce", ofGas sight.nonce), ("warm", .flag sight.warm),
    ("destructed", .flag sight.destroyed),
    ("slots", ofList
      (fun (value, transient, warm) => .list [ofWord value, ofWord transient, .flag warm])
      sight.slots)]

mutual

def ofReply : Reply → Form
  | .nothing => .null
  | .done => .text "ok"
  | .flag value => .flag value
  | .flags first second => .list [.flag first, .flag second]
  | .count value => ofCount value
  | .number value => ofGas value
  | .amount value => ofAmount value
  | .word value => ofWord value
  | .bytes value => ofBytes value
  | .name value => .text value
  | .prices value => ofPrices value
  | .logs value => ofList ofLog value
  | .account value => ofOption ofAccount value
  | .snapshot value => ofSnapshot value
  | .sight value =>
    .record [("refund", ofGas value.refund), ("logs", ofCount value.logCount),
      ("accounts", ofList ofAccountSight value.accounts)]
  | .fault value => ofFault value
  | .each values => .list (ofReplies values)

def ofReplies : List Reply → List Form
  | [] => []
  | reply :: rest => ofReply reply :: ofReplies rest

end

def toGenesisAccount (form : Form) : Address × Account :=
  ((form.field "address").toAddress,
    { balance := (form.field "balance").toAmount, nonce := (form.field "nonce").toGas
      code := (form.field "code").toBytes
      storage := ((form.field "storage").toList (toPair toWord toWord)).foldl
        (fun storage (key, value) => storage.insert key value) ∅ })

def toGenesis (form : Form) : Store :=
  (form.toList toGenesisAccount).foldl
    (fun store (address, account) => store.withAccount address account) {}

end HostedEvm.Form
