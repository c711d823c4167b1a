import HostedEvm.Proofs.State.Charges

set_option autoImplicit false

/-!
Commands that write nothing.

Reads are charged, prices can be set, and a view of a past block has accounts of its own. None of
this can be seen in the accounts and journals of the state.
-/

namespace HostedEvm

namespace StoreCommand

def writes : StoreCommand → Bool
  | .mark | .rewind _ | .commit | .beginBlock | .create _ | .addBalance .. | .subBalance ..
  | .setNonce .. | .setCode .. | .setSlot .. | .delete _ => true
  | _ => false

theorem accounts_run {command : StoreCommand} (reads : command.writes = false) (store : Store) :
    (command.run store).2.accounts = store.accounts ∧
      (command.run store).2.committed = store.committed := by
  cases command with
  | mark | rewind | commit | beginBlock | create | addBalance | subBalance | setNonce | setCode
  | setSlot | delete => simp [writes] at reads
  | isEmpty address =>
      simp only [run, read, Store.isEmpty]
      split
      · exact ⟨rfl, rfl⟩
      · split <;> exact ⟨rfl, rfl⟩
  | view number steps =>
      simp only [run]
      split <;> exact ⟨rfl, rfl⟩
  | _ => exact ⟨rfl, rfl⟩

end StoreCommand

namespace StateCommand

/-- Whether a command can change accounts or journals. Snapshots are apart, and so is the way back
to one, which can only undo what was done since. -/
def writes : StateCommand → Bool
  | .store command => command.writes
  | .logs | .stampedLogs .. | .refund | .isWarm _ | .isWarmSlot .. | .transient .. | .isDestroyed _
  | .suspendPrices | .restorePrices _ | .observe .. | .snapshot | .rewind _ => false
  | _ => true

theorem sameView_run {command : StateCommand} (reads : command.writes = false)
    (reversible : command.isReversible = true) (state : JournaledState) :
    (command.run state).2.SameView state := by
  cases command with
  | store inner =>
      obtain ⟨accounts, committed⟩ := inner.accounts_run reads state.store
      exact ⟨accounts, committed, rfl, rfl, rfl, fun _ => rfl, rfl⟩
  | snapshot | rewind => simp [isReversible] at reversible
  | observe addresses keys =>
      simp only [run, JournaledState.sightAccounts_snd]
      exact state.sameView_charge _
  | logs | stampedLogs | refund | isWarm | isWarmSlot | transient | isDestroyed | suspendPrices
  | restorePrices => exact ⟨rfl, rfl, rfl, rfl, rfl, fun _ => rfl, rfl⟩
  | _ => simp [writes] at reads

end StateCommand

end HostedEvm
