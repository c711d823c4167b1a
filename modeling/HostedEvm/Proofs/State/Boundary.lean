import HostedEvm.Proofs.State.Growth

set_option autoImplicit false

/-!
The state at the start and at the end of a transaction.

Starting a transaction empties the journals and leaves the store alone. Preparing the access list
touches nothing else. At the end the destroyed accounts go and the rest is committed.
-/

namespace HostedEvm.JournaledState

theorem finalize_eq (state : JournaledState) :
    state.finalize =
      { store := (state.store.delete state.destroyed.order).commit
        logs := { state.logs with entries := [] }
        accessList := { state.accessList with changes := [] } } := rfl

def Warmed (before after : JournaledState) : Prop :=
  ∃ accessList, after = { before with accessList }

theorem Warmed.refl (state : JournaledState) : Warmed state state := ⟨state.accessList, rfl⟩

theorem Warmed.trans {first second third : JournaledState} (start : Warmed first second)
    (rest : Warmed second third) : Warmed first third := by
  obtain ⟨_, rfl⟩ := start
  obtain ⟨accessList, rfl⟩ := rest
  exact ⟨accessList, rfl⟩

theorem warmed_prepareAccessList (state : JournaledState) (rules : ForkRules)
    (sender coinbase : Address) (recipient : Option Address) (precompiles : List Address)
    (items : List AccessListItem) :
    Warmed state
      (state.prepareAccessList rules sender coinbase recipient precompiles items) := by
  apply prepareAccessList_related Warmed.refl
  · intro first second third
    exact Warmed.trans
  · intro state address
    exact ⟨_, rfl⟩
  · intro state address slot
    exact ⟨_, rfl⟩

end HostedEvm.JournaledState
