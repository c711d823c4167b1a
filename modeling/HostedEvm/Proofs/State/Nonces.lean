import HostedEvm.Proofs.Journal.Destroyed
import HostedEvm.Proofs.State.Accounts
import HostedEvm.Proofs.State.Charges

set_option autoImplicit false

/-!
The nonces of some accounts.

Most work on a state leaves every nonce alone. A nonce changes where it is set, where an account is
made or deleted, and at the end of a transaction that marked the account destroyed. So the nonces of
some accounts are safe as long as none of this befalls one of them.
-/

namespace HostedEvm

namespace Accounts

def nonceOf (accounts : Accounts) (address : Address) : UInt64 := (accounts.account address).nonce

variable {accounts : Accounts} {address other : Address} {f : Account → Account}

/-- A change that keeps the nonce of the account keeps every nonce. -/
theorem nonceOf_change (same : ∀ account, (f account).nonce = account.nonce) :
    (accounts.change address f).nonceOf = accounts.nonceOf := by
  funext place
  unfold nonceOf
  by_cases own : address = place
  · subst own
    rw [account_change_same, same]
  · rw [account_change_other own]

theorem nonceOf_change_other (differ : address ≠ other) :
    (accounts.change address f).nonceOf other = accounts.nonceOf other := by
  unfold nonceOf
  rw [account_change_other differ]

theorem nonceOf_insert_other {account : Account} (differ : address ≠ other) :
    Accounts.nonceOf (accounts.insert address account) other = accounts.nonceOf other := by
  unfold nonceOf Accounts.account
  rw [Map.get_insert, if_neg differ]

end Accounts

namespace Store

variable (store : Store) (address : Address)

@[simp] theorem nonceOf_addBalance (amount : Word) :
    (store.addBalance address amount).accounts.nonceOf = store.accounts.nonceOf :=
  Accounts.nonceOf_change fun _ => rfl

@[simp] theorem nonceOf_subBalance (amount : Word) :
    (store.subBalance address amount).accounts.nonceOf = store.accounts.nonceOf :=
  Accounts.nonceOf_change fun _ => rfl

@[simp] theorem nonceOf_setCode (code : Bytes) :
    (store.setCode address code).accounts.nonceOf = store.accounts.nonceOf :=
  Accounts.nonceOf_change fun _ => rfl

@[simp] theorem nonceOf_setSlot (key value : Word) :
    (store.setSlot address key value).accounts.nonceOf = store.accounts.nonceOf :=
  Accounts.nonceOf_change fun _ => rfl

variable {store address}

theorem nonceOf_create_other {other : Address} (differ : address ≠ other) :
    (store.create address).accounts.nonceOf other = store.accounts.nonceOf other :=
  Accounts.nonceOf_insert_other differ

theorem nonceOf_setNonce_other {other : Address} (differ : address ≠ other) (nonce : UInt64) :
    (store.setNonce address nonce).accounts.nonceOf other = store.accounts.nonceOf other :=
  Accounts.nonceOf_change_other differ

theorem nonceOf_delete (store : Store) {addresses : List Address} (spared : address ∉ addresses) :
    (store.delete addresses).accounts.nonceOf address = store.accounts.nonceOf address := by
  rw [delete_accounts]
  simp only [Accounts.nonceOf, Accounts.account, Accounts.get_without, if_neg spared]

end Store

structure KeepsNonces (spared : Address → Prop) (before after : JournaledState) : Prop where
  nonce : ∀ address, spared address →
    after.store.accounts.nonceOf address = before.store.accounts.nonceOf address
  destroyed : ∀ address, spared address → address ∈ after.destroyed.order →
    address ∈ before.destroyed.order

namespace KeepsNonces

variable {spared fewer : Address → Prop} {first second third before after : JournaledState}

theorem refl (state : JournaledState) : KeepsNonces spared state state :=
  ⟨fun _ _ => rfl, fun _ _ marked => marked⟩

theorem trans (start : KeepsNonces spared first second) (rest : KeepsNonces spared second third) :
    KeepsNonces spared first third where
  nonce address safe := (rest.nonce address safe).trans (start.nonce address safe)
  destroyed address safe marked := start.destroyed address safe (rest.destroyed address safe marked)

theorem mono (kept : KeepsNonces spared before after)
    (safe : ∀ address, fewer address → spared address) : KeepsNonces fewer before after :=
  ⟨fun address few => kept.nonce address (safe address few),
    fun address few => kept.destroyed address (safe address few)⟩

theorem of_same (nonces : after.store.accounts.nonceOf = before.store.accounts.nonceOf)
    (destroyed : after.destroyed = before.destroyed) : KeepsNonces spared before after :=
  ⟨fun address _ => congrFun nonces address, fun _ _ marked => destroyed ▸ marked⟩

theorem of_sameView (same : after.SameView before) : KeepsNonces spared before after :=
  of_same (congrArg Accounts.nonceOf same.accounts) same.destroyed

/-- At the end of a transaction the accounts that were not marked destroyed keep their nonces. -/
theorem finalize_nonce (kept : KeepsNonces spared before after) {address : Address}
    (safe : spared address) (unmarked : address ∉ before.destroyed.order) :
    after.finalize.store.accounts.nonceOf address = before.store.accounts.nonceOf address := by
  have spared := fun marked => unmarked (kept.destroyed address safe marked)
  exact (after.store.nonceOf_delete spared).trans (kept.nonce address safe)

end KeepsNonces

variable {spared : Address → Prop}

def StoreCommand.Spares (spared : Address → Prop) : StoreCommand → Prop
  | .create address | .setNonce address _ => ¬spared address
  | .delete addresses => ∀ address ∈ addresses, ¬spared address
  | _ => True

theorem StoreCommand.nonceOf_run {command : StoreCommand} (spares : command.Spares spared)
    (reversible : command.isReversible = true) (store : Store) {address : Address}
    (safe : spared address) :
    (command.run store).2.accounts.nonceOf address = store.accounts.nonceOf address := by
  cases command with
  | mark | rewind | commit | beginBlock => simp [isReversible] at reversible
  | create target =>
      apply Store.nonceOf_create_other
      rintro rfl
      exact spares safe
  | setNonce target value =>
      apply Store.nonceOf_setNonce_other
      rintro rfl
      exact spares safe
  | delete addresses => exact store.nonceOf_delete fun listed => spares address listed safe
  | addBalance | subBalance | setCode | setSlot => simp [run]
  | isEmpty target =>
      simp only [run, read, Store.isEmpty]
      split
      · rfl
      · split <;> rfl
  | view number steps =>
      simp only [run]
      split <;> rfl
  | _ => rfl

def StateCommand.Spares (spared : Address → Prop) : StateCommand → Prop
  | .store command => command.Spares spared
  | .selfDestruct address => ¬spared address
  | _ => True

theorem JournaledState.keepsNonces_selfDestruct (state : JournaledState) {address : Address}
    (spares : ¬spared address) : KeepsNonces spared state (state.selfDestruct address) where
  nonce other _ := by
    simp only [selfDestruct]
    split
    · rfl
    · rw [Store.nonceOf_subBalance]
      rfl
  destroyed other safe marked := by
    rcases DestroyedAccounts.of_mem_mark marked with rfl | before
    · exact absurd safe spares
    · exact before

theorem StateCommand.keepsNonces_run {command : StateCommand} (spares : command.Spares spared)
    (reversible : command.isReversible = true) (state : JournaledState) :
    KeepsNonces spared state (command.run state).2 := by
  cases command with
  | store inner =>
      exact ⟨fun _ safe => inner.nonceOf_run spares reversible state.store safe,
        fun _ _ marked => marked⟩
  | snapshot | rewind | beginBlock | beginTransaction | finalize =>
      simp [isReversible] at reversible
  | prepareAccessList rules sender coinbase recipient precompiles items =>
      obtain ⟨accessList, same⟩ :=
        JournaledState.warmed_prepareAccessList state rules sender coinbase recipient precompiles
          items
      simp only [run, same]
      exact .of_same rfl rfl
  | subRefund amount =>
      simp only [run]
      split <;> exact .of_same rfl rfl
  | selfDestruct address => exact state.keepsNonces_selfDestruct spares
  | observe addresses keys =>
      simp only [run, JournaledState.sightAccounts_snd]
      exact .of_sameView (state.sameView_charge _)
  | _ => exact .of_same rfl rfl

end HostedEvm
