import HostedEvm.Journal.Controller

set_option autoImplicit false

/-!
The accounts destroyed by the running transaction.

They are only marked, in order; the accounts go when the transaction is committed. Whether an
account is marked is looked up in a set of the same accounts.
-/

namespace HostedEvm

structure DestroyedAccounts where
  /-- The marked accounts, oldest mark first. -/
  order : List Address := []
  set : Map Address Unit := ∅

namespace DestroyedAccounts

def contains (destroyed : DestroyedAccounts) (address : Address) : Bool :=
  destroyed.set.contains address

/-- Mark an account, and tell whether it was not marked before. -/
def mark (destroyed : DestroyedAccounts) (address : Address) : Bool × DestroyedAccounts :=
  if destroyed.set.contains address then (false, destroyed)
  else (true, ⟨destroyed.order ++ [address], destroyed.set.insert address ()⟩)

/-- Keep the first `count` marks, and take the others out of the set. -/
def rewind (count : Nat) (destroyed : DestroyedAccounts) : DestroyedAccounts :=
  ⟨destroyed.order.take count,
    (destroyed.order.drop count).foldr (fun address set => set.erase address) destroyed.set⟩

instance : Checkpointed DestroyedAccounts where
  key := "destroyed_accounts"
  mark destroyed := (destroyed.order.length, destroyed)
  rewind := rewind
  commit _ := {}

end DestroyedAccounts

end HostedEvm
