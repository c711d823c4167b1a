import HostedEvm.Proofs.State.Accounts
import HostedEvm.Proofs.Word

set_option autoImplicit false

/-!
The funds of all accounts together.

The sum is one of natural numbers, so it shows where a saturating operation has changed it. A
change of one account changes the sum by the difference of that account's balances.
-/

namespace HostedEvm.Accounts

/-- The sum of all balances, which need not be a word. -/
def funds (accounts : Accounts) : Nat :=
  accounts.toList.foldr (fun entry sum => entry.2.balance.toNat + sum) 0

variable {accounts : Accounts} {address : Address} {f : Account → Account} {amount : Word}

theorem funds_insert (accounts : Accounts) (address : Address) (account : Account) :
    Accounts.funds (accounts.insert address account) =
      account.balance.toNat + Accounts.funds (accounts.erase address) := by
  have absent : (accounts.erase address)[address]? = none := by
    rw [Map.get_erase, if_pos rfl]
  have listed := Map.toList_insert_perm absent account
  rw [Map.insert_erase] at listed
  unfold funds
  rw [listed.foldr_eq' _ 0, List.foldr_cons]
  intro first _ second _ sum
  omega

theorem funds_split (accounts : Accounts) (address : Address) :
    accounts.funds =
      (accounts.account address).balance.toNat + Accounts.funds (accounts.erase address) := by
  unfold account
  cases present : accounts[address]? with
  | none =>
      rw [Map.erase_of_absent present]
      exact (Nat.zero_add _).symm
  | some found =>
      have split := funds_insert accounts address found
      rw [Map.insert_of_present present] at split
      exact split

theorem balance_le_funds (accounts : Accounts) (address : Address) :
    (accounts.account address).balance.toNat ≤ accounts.funds := by
  rw [funds_split accounts address]
  exact Nat.le_add_right _ _

theorem funds_change :
    (accounts.change address f).funds + (accounts.account address).balance.toNat =
      accounts.funds + (f (accounts.account address)).balance.toNat := by
  have changed := funds_insert accounts address (f (accounts.account address))
  have split := funds_split accounts address
  unfold change
  omega

theorem funds_kept
    (same : (f (accounts.account address)).balance = (accounts.account address).balance) :
    (accounts.change address f).funds = accounts.funds := by
  have changed := @funds_change accounts address f
  rw [same] at changed
  omega

theorem funds_debit
    (lowered : (f (accounts.account address)).balance =
      (accounts.account address).balance.minus amount)
    (covered : amount ≤ (accounts.account address).balance) :
    (accounts.change address f).funds + amount.toNat = accounts.funds := by
  have changed := @funds_change accounts address f
  rw [lowered, Word.toNat_minus] at changed
  rw [BitVec.le_def] at covered
  omega

/-- The sum grows by a whole amount as long as it stays a word. -/
theorem funds_credit
    (raised : (f (accounts.account address)).balance =
      (accounts.account address).balance.plus amount)
    (room : accounts.funds + amount.toNat ≤ Word.greatest.toNat) :
    (accounts.change address f).funds = accounts.funds + amount.toNat := by
  have changed := @funds_change accounts address f
  have held := balance_le_funds accounts address
  rw [raised, Word.toNat_plus] at changed
  omega

end HostedEvm.Accounts
