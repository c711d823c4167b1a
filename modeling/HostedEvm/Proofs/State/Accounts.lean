import HostedEvm.Proofs.Map
import HostedEvm.State.Store

set_option autoImplicit false

/-!
Changes of single accounts.
-/

namespace HostedEvm

namespace Accounts

variable {accounts : Accounts} {address : Address} {f g : Account → Account}

theorem account_change_same : (accounts.change address f).account address =
    f (accounts.account address) := by
  unfold change account
  rw [Map.get_insert, if_pos rfl]
  rfl

theorem account_change_other {other : Address} (differ : address ≠ other) :
    (accounts.change address f).account other = accounts.account other := by
  unfold change account
  rw [Map.get_insert, if_neg differ]

/-- Two changes of the same account are one. -/
theorem change_change :
    (accounts.change address f).change address g =
      accounts.change address fun account => g (f account) := by
  have changed : (accounts.change address f).account address = f (accounts.account address) :=
    account_change_same
  unfold change at changed ⊢
  rw [changed, Map.insert_insert]

/-- A change counts only for the account as it is. -/
theorem change_congr (same : f (accounts.account address) = g (accounts.account address)) :
    accounts.change address f = accounts.change address g := by
  unfold change
  rw [same]

theorem get_change (accounts : Accounts) (address other : Address) (f : Account → Account) :
    (accounts.change address f)[other]? =
      if address = other then some (f (accounts.account address)) else accounts[other]? := by
  rw [change, Map.get_insert]

theorem get_without (accounts : Accounts) (addresses : List Address) (address : Address) :
    (accounts.without addresses)[address]? =
      if address ∈ addresses then none else accounts[address]? := by
  unfold without
  induction addresses generalizing accounts with
  | nil => simp
  | cons first rest inductionHypothesis =>
      rw [List.foldl_cons, inductionHypothesis, Map.get_erase]
      by_cases same : address = first <;> simp [same, eq_comm (a := first)]

end Accounts

theorem Store.delete_accounts (store : Store) (addresses : List Address) :
    (store.delete addresses).accounts = store.accounts.without addresses := by
  unfold delete Accounts.without
  induction addresses generalizing store with
  | nil => rfl
  | cons address rest inductionHypothesis => exact inductionHypothesis (store.deleteOne address)

end HostedEvm
