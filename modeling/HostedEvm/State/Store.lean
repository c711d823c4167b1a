import HostedEvm.Gas.Prices
import HostedEvm.Journal.Controller
import HostedEvm.Keccak
import HostedEvm.State.Account

set_option autoImplicit false

/-!
The host's account store.

Every read and write is charged at the store's prices. A mark is the place of a saved copy of the
accounts on a stack; taking the store back to a mark removes it and every later one. Starting a
block files the committed accounts under the number of blocks started so far, and `view?` opens the
accounts of a past block as a store of its own, which shares the filed accounts.
-/

namespace HostedEvm

/-- Accounts with their saved copies, their past and the charges for their use. -/
structure Store where
  accounts : Accounts := ∅
  /-- The accounts after the last commit. -/
  committed : Accounts := ∅
  /-- Saved copies, newest first. -/
  saved : List Accounts := []
  prices : StoragePrices := .free
  /-- Gas charged since the last reset. -/
  charged : Gas := 0
  /-- The committed accounts at the start of each block. -/
  history : Map UInt64 Accounts := ∅
  blocks : UInt64 := 0

namespace Store

/-- The store with an account of the genesis. -/
def withAccount (store : Store) (address : Address) (account : Account) : Store :=
  { store with
    accounts := store.accounts.insert address account
    committed := store.committed.insert address account }

/-- Add to the charges, which are counted modulo `2 ^ 64`. -/
def charge (store : Store) (amount : Gas) : Store :=
  { store with charged := store.charged + amount }

/-- Save a copy of the accounts. -/
def mark (store : Store) : Nat × Store :=
  (store.saved.length, { store with saved := store.accounts :: store.saved })

/-- Take the accounts back to a saved copy, if the mark is on the stack. -/
def rewind (id : Nat) (store : Store) : Store :=
  if id < store.saved.length then
    match store.saved.drop (store.saved.length - (id + 1)) with
    | accounts :: saved => { store with accounts, saved }
    | [] => store
  else store

/-- Make the accounts the committed ones. -/
def commit (store : Store) : Store := { store with committed := store.accounts, saved := [] }

instance : Checkpointed Store where
  key := "state"
  mark := mark
  rewind := rewind
  commit := commit

/-- Start a block: file the committed accounts and drop the saved copies. -/
def beginBlock (store : Store) : Store :=
  { store with
    history := store.history.insert store.blocks store.committed
    blocks := store.blocks + 1, saved := [] }

def resetCharges (store : Store) : Store := { store with charged := 0 }

def readPrice (store : Store) (size : Nat) : Gas := store.prices.read (UInt64.ofNat size)

def writePrice (store : Store) (size : Nat) : Gas := store.prices.write (UInt64.ofNat size)

/-- Change one account at a price. -/
def change (store : Store) (price : Gas) (address : Address) (f : Account → Account) : Store :=
  { store with accounts := store.accounts.change address f }.charge price

def exists? (store : Store) (address : Address) : Bool × Store :=
  (store.accounts.contains address, store.charge store.prices.has)

def balance (store : Store) (address : Address) : Word × Store :=
  ((store.accounts.account address).balance, store.charge (store.readPrice 32))

def nonce (store : Store) (address : Address) : UInt64 × Store :=
  ((store.accounts.account address).nonce, store.charge (store.readPrice 8))

def code (store : Store) (address : Address) : Bytes × Store :=
  let code := (store.accounts.account address).code
  (code, store.charge (store.readPrice code.length))

/-- The hash of the code of an account, or zero if the account does not exist. -/
def codeHash (store : Store) (address : Address) : Word × Store :=
  let hash := match store.accounts[address]? with
    | some account => Keccak.digest account.code
    | none => 0
  (hash, store.charge (store.readPrice 32))

def slot (store : Store) (address : Address) (key : Word) : Word × Store :=
  ((store.accounts.account address).slot key, store.charge (store.readPrice 32))

/-- The value of a slot after the last commit. -/
def committedSlot (store : Store) (address : Address) (key : Word) : Word × Store :=
  ((store.committed.account address).slot key, store.charge (store.readPrice 32))

/-- Whether an account has no nonce, no funds and no code. Later reads are made, and charged, only
when the earlier ones leave the answer open. -/
def isEmpty (store : Store) (address : Address) : Bool × Store :=
  let (nonce, store) := store.nonce address
  if nonce ≠ 0 then (false, store)
  else
    let (balance, store) := store.balance address
    if balance ≠ 0 then (false, store)
    else
      let (code, store) := store.code address
      (code.isEmpty, store)

/-- Put a fresh account in the place of an old one, whose funds it keeps. -/
def create (store : Store) (address : Address) : Store :=
  let (balance, store) := store.balance address
  { store with accounts := store.accounts.insert address (.funded balance) }

def addBalance (store : Store) (address : Address) (amount : Word) : Store :=
  store.change (store.writePrice 32) address fun account =>
    { account with balance := account.balance.plus amount }

/-- Take from the funds of an account. -/
def subBalance (store : Store) (address : Address) (amount : Word) : Store :=
  store.change (store.writePrice 32) address fun account =>
    { account with balance := account.balance.minus amount }

def setNonce (store : Store) (address : Address) (nonce : UInt64) : Store :=
  store.change (store.writePrice 8) address fun account => { account with nonce }

def setCode (store : Store) (address : Address) (code : Bytes) : Store :=
  store.change (store.writePrice code.length) address fun account => { account with code }

/-- Set a slot of an account. Setting it to zero is a deletion. -/
def setSlot (store : Store) (address : Address) (key value : Word) : Store :=
  let price := if value = 0 then store.prices.delete else store.writePrice 32
  store.change price address fun account => account.withSlot key value

def deleteOne (store : Store) (address : Address) : Store :=
  { store with accounts := store.accounts.erase address }.charge store.prices.delete

def delete (store : Store) (addresses : List Address) : Store := addresses.foldl deleteOne store

def withPrices (store : Store) (prices : StoragePrices) : Store := { store with prices }

/-- A free store over other accounts with the same past. -/
def onto (store : Store) (accounts : Accounts) : Store where
  accounts := accounts
  committed := accounts
  history := store.history
  blocks := store.blocks

/-- The accounts at the end of a block. A block that has not been started shows the committed
accounts. -/
def view? (store : Store) (number : UInt64) : Except Fault Store :=
  if store.blocks ≤ number then .ok (store.onto store.committed)
  else match store.history[number]? with
    | some accounts => .ok (store.onto accounts)
    | none => .error (.state ("No state recorded for block " ++ Text.decimal number.toNat))

/-- The store after a view of it was used: only the shared past can have changed. -/
def after (store view : Store) : Store := { store with history := view.history }

end Store

end HostedEvm
