import HostedEvm.State.Journaled
import HostedEvm.State.Reply

set_option autoImplicit false

/-!
Commands on a state as data.

Whatever a host or a native handler does to a state is a sequence of these commands, so that a
statement about every such sequence is a statement about lists of commands.
-/

namespace HostedEvm

inductive StoreCommand
  | key
  | mark
  | rewind (id : Nat)
  | commit
  | beginBlock
  | resetCharges
  | create (address : Address)
  | exists? (address : Address)
  | isEmpty (address : Address)
  | balance (address : Address)
  | addBalance (address : Address) (amount : Word)
  | subBalance (address : Address) (amount : Word)
  | nonce (address : Address)
  | setNonce (address : Address) (nonce : UInt64)
  | code (address : Address)
  | codeHash (address : Address)
  | setCode (address : Address) (code : Bytes)
  | slot (address : Address) (key : Word)
  | committedSlot (address : Address) (key : Word)
  | setSlot (address : Address) (key value : Word)
  | delete (addresses : List Address)
  | prices
  | setPrices (prices : StoragePrices)
  | charged
  /-- Run commands on the accounts of a past block. -/
  | view (number : UInt64) (steps : List StoreCommand)
  | blocks
  | account (address : Address)

namespace StoreCommand

/-- The answer of a read, with the store it charged. -/
def read {Value : Type} (reply : Value → Reply) (result : Value × Store) : Reply × Store :=
  (reply result.1, result.2)

mutual

def run : StoreCommand → Store → Reply × Store
  | .key, store => (.name (Checkpointed.key Store), store)
  | .mark, store => read .count store.mark
  | .rewind id, store => (.nothing, store.rewind id)
  | .commit, store => (.nothing, store.commit)
  | .beginBlock, store => (.nothing, store.beginBlock)
  | .resetCharges, store => (.nothing, store.resetCharges)
  | .create address, store => (.nothing, store.create address)
  | .exists? address, store => read .flag (store.exists? address)
  | .isEmpty address, store => read .flag (store.isEmpty address)
  | .balance address, store => read .amount (store.balance address)
  | .addBalance address amount, store => (.nothing, store.addBalance address amount)
  | .subBalance address amount, store => (.nothing, store.subBalance address amount)
  | .nonce address, store => read .number (store.nonce address)
  | .setNonce address value, store => (.nothing, store.setNonce address value)
  | .code address, store => read .bytes (store.code address)
  | .codeHash address, store => read .word (store.codeHash address)
  | .setCode address bytes, store => (.nothing, store.setCode address bytes)
  | .slot address place, store => read .word (store.slot address place)
  | .committedSlot address place, store => read .word (store.committedSlot address place)
  | .setSlot address place value, store => (.nothing, store.setSlot address place value)
  | .delete addresses, store => (.nothing, store.delete addresses)
  | .prices, store => (.prices store.prices, store)
  | .setPrices chosen, store => (.nothing, store.withPrices chosen)
  | .charged, store => (.number store.charged, store)
  | .view number steps, store =>
    match store.view? number with
    | .ok past =>
      let (replies, past) := runAll steps past
      (.each replies, store.after past)
    | .error fault => (.fault fault, store)
  | .blocks, store => (.number store.blocks, store)
  | .account address, store => (.account store.accounts[address]?, store)

/-- Carry out commands in order. -/
def runAll : List StoreCommand → Store → List Reply × Store
  | [], store => ([], store)
  | command :: rest, store =>
    let (reply, store) := run command store
    let (replies, store) := runAll rest store
    (reply :: replies, store)

end

end StoreCommand

inductive StateCommand
  | store (command : StoreCommand)
  | snapshot
  | rewind (snapshot : Snapshot)
  | beginBlock
  | beginTransaction (txHash : Word) (txIndex : UInt64)
  | finalize
  | prepareAccessList (rules : ForkRules) (sender coinbase : Address) (recipient : Option Address)
      (precompiles : List Address) (items : List AccessListItem)
  | addLog (log : Log)
  | logs
  | stampedLogs (txHash blockHash : Word) (blockNumber : UInt64)
  | addRefund (amount : Gas)
  | subRefund (amount : Gas)
  | refund
  | warm (address : Address)
  | warmSlot (address : Address) (slot : Word)
  | isWarm (address : Address)
  | isWarmSlot (address : Address) (slot : Word)
  | setTransient (address : Address) (key value : Word)
  | transient (address : Address) (key : Word)
  | selfDestruct (address : Address)
  | isDestroyed (address : Address)
  /-- Set the prices of storage to nothing, and answer those in force before. -/
  | suspendPrices
  /-- Set the prices of storage, and answer them. -/
  | restorePrices (prices : StoragePrices)
  /-- Look at accounts and slots. -/
  | observe (addresses : List Address) (keys : List Word)

namespace JournaledState

def sightSlots (address : Address) (state : JournaledState) :
    List Word → List (Word × Word × Bool) × JournaledState
  | [] => ([], state)
  | key :: rest =>
    let (value, store) := state.store.slot address key
    let transient := state.transient.get (.of address key)
    let warm := state.accessList.hasSlot address key
    let (sights, state) := sightSlots address { state with store } rest
    ((value, transient, warm) :: sights, state)

def sightAccount (keys : List Word) (state : JournaledState) (address : Address) :
    AccountSight × JournaledState :=
  let (found, store) := state.store.exists? address
  let (balance, store) := store.balance address
  let (nonce, store) := store.nonce address
  let (slots, state) := sightSlots address { state with store } keys
  (⟨found, balance, nonce, state.accessList.hasAddress address, state.destroyed.contains address,
    slots⟩, state)

def sightAccounts (keys : List Word) (state : JournaledState) :
    List Address → List AccountSight × JournaledState
  | [] => ([], state)
  | address :: rest =>
    let (sight, state) := sightAccount keys state address
    let (sights, state) := sightAccounts keys state rest
    (sight :: sights, state)

end JournaledState

namespace StateCommand

def run : StateCommand → JournaledState → Reply × JournaledState
  | .store command, state =>
    let (reply, changed) := command.run state.store
    (reply, { state with store := changed })
  | .snapshot, state =>
    let (taken, state) := state.snapshot
    (.snapshot taken, state)
  | .rewind taken, state =>
    let (outcome, state) := state.rewound taken
    (.ofOutcome outcome, state)
  | .beginBlock, state => (.nothing, state.beginBlock)
  | .beginTransaction txHash txIndex, state => (.done, state.beginTransaction txHash txIndex)
  | .finalize, state => (.done, state.finalize)
  | .prepareAccessList rules sender coinbase recipient precompiles items, state =>
    (.nothing, state.prepareAccessList rules sender coinbase recipient precompiles items)
  | .addLog log, state =>
    let state := state.addLog log
    (.count state.logs.entries.length, state)
  | .logs, state => (.logs state.logs.entries, state)
  | .stampedLogs txHash blockHash blockNumber, state =>
    (.logs (state.logs.stamped txHash blockHash blockNumber), state)
  | .addRefund amount, state =>
    let raised := state.refund.add amount
    (.number raised.value, { state with refund := raised })
  | .subRefund amount, state =>
    match state.refund.subtract amount with
    | (.ok (), lowered) => (.number lowered.value, { state with refund := lowered })
    | (.error fault, _) => (.fault fault, state)
  | .refund, state => (.number state.refund.value, state)
  | .warm address, state =>
    let (added, accessList) := state.accessList.addAddress address
    (.flag added, { state with accessList })
  | .warmSlot address slot, state =>
    let (added, accessList) := state.accessList.addSlot address slot
    (.flags added.1 added.2, { state with accessList })
  | .isWarm address, state => (.flag (state.accessList.hasAddress address), state)
  | .isWarmSlot address slot, state =>
    (.flags (state.accessList.hasAddress address) (state.accessList.hasSlot address slot), state)
  | .setTransient address key value, state =>
    (.nothing, { state with transient := state.transient.set (.of address key) value })
  | .transient address key, state => (.word (state.transient.get (.of address key)), state)
  | .selfDestruct address, state => (.nothing, state.selfDestruct address)
  | .isDestroyed address, state => (.flag (state.destroyed.contains address), state)
  | .suspendPrices, state => (.prices state.prices, state.withPrices .free)
  | .restorePrices prices, state => (.prices prices, state.withPrices prices)
  | .observe addresses keys, state =>
    let (accounts, state) := state.sightAccounts keys addresses
    (.sight ⟨state.refund.value, state.logs.entries.length, accounts⟩, state)

/-- Carry out commands in order. -/
def runAll : List StateCommand → JournaledState → List Reply × JournaledState
  | [], state => ([], state)
  | command :: rest, state =>
    let (reply, state) := run command state
    let (replies, state) := runAll rest state
    (reply :: replies, state)

end StateCommand

end HostedEvm
