import HostedEvm.Bytes

set_option autoImplicit false

/-!
Accounts and sets of accounts.
-/

namespace HostedEvm

/-- What is kept for one account. A slot that holds zero is absent. -/
structure Account where
  balance : Word := 0
  nonce : UInt64 := 0
  code : Bytes := []
  storage : Map Word Word := ∅

abbrev Accounts := Map Address Account

namespace Account

def funded (balance : Word) : Account := { balance }

def slot (account : Account) (key : Word) : Word := account.storage[key]?.getD 0

def withSlot (account : Account) (key value : Word) : Account :=
  { account with
    storage := if value = 0 then account.storage.erase key else account.storage.insert key value }

end Account

namespace Accounts

/-- An account, or a fresh one if it does not exist. -/
def account (accounts : Accounts) (address : Address) : Account := accounts[address]?.getD {}

/-- The accounts with one of them changed, or created and then changed. -/
def change (accounts : Accounts) (address : Address) (f : Account → Account) : Accounts :=
  accounts.insert address (f (accounts.account address))

def without (accounts : Accounts) (addresses : List Address) : Accounts :=
  addresses.foldl (fun rest address => rest.erase address) accounts

end Accounts

end HostedEvm
