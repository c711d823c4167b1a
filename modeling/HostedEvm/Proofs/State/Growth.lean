import HostedEvm.Proofs.Journal.Growth
import HostedEvm.State.Command

set_option autoImplicit false

/-!
How a state grows behind a snapshot.

A later state extends an earlier one when the store still has every saved copy of the earlier one
below its own and each journal extends the earlier journal. All commands that neither commit,
start a block or a transaction nor rewind extend the state they work on. A state that extends what
a snapshot left can be taken back to it: the accounts and the journals are then those of the moment
at which the snapshot was taken.
-/

namespace HostedEvm

namespace Store

/-- The later store has the saved copies of the earlier one below its own, and what was committed
is the same. -/
def Extends (earlier later : Store) : Prop :=
  earlier.saved <:+ later.saved ∧ later.committed = earlier.committed

theorem Extends.refl (store : Store) : Extends store store := ⟨List.suffix_refl _, rfl⟩

theorem Extends.trans {first second third : Store} (start : Extends first second)
    (rest : Extends second third) : Extends first third :=
  ⟨start.1.trans rest.1, rest.2.trans start.2⟩

theorem extends_mark (store : Store) : Extends store store.mark.2 := ⟨List.suffix_cons _ _, rfl⟩

/-- A store that differs in neither the saved copies nor what was committed extends the other. -/
theorem extends_of_same {earlier later : Store} (saved : later.saved = earlier.saved)
    (committed : later.committed = earlier.committed) : Extends earlier later :=
  ⟨saved ▸ List.suffix_refl _, committed⟩

theorem extends_delete (store : Store) (addresses : List Address) :
    Extends store (store.delete addresses) := by
  unfold delete
  induction addresses generalizing store with
  | nil => exact Extends.refl store
  | cons address rest inductionHypothesis =>
    have deleted : Extends store (store.deleteOne address) := extends_of_same rfl rfl
    exact deleted.trans (inductionHypothesis (store.deleteOne address))

theorem extends_isEmpty (store : Store) (address : Address) :
    Extends store (store.isEmpty address).2 := by
  unfold isEmpty
  simp only
  split
  · exact extends_of_same rfl rfl
  · split
    · exact extends_of_same rfl rfl
    · exact extends_of_same rfl rfl

/-- Rewinding to a mark finds the accounts that were saved there. -/
theorem rewind_of_extends {earlier later : Store} (grown : Extends earlier.mark.2 later) :
    later.rewind earlier.mark.1 =
      { later with accounts := earlier.accounts, saved := earlier.saved } := by
  obtain ⟨newer, saved⟩ := grown.1
  have onStack : earlier.saved.length < later.saved.length := by
    rw [← saved]
    simp only [mark, List.length_append, List.length_cons]
    omega
  have reached : later.saved.drop (later.saved.length - (earlier.saved.length + 1)) =
      earlier.accounts :: earlier.saved := by
    rw [← saved]
    simp only [mark, List.length_append, List.length_cons, Nat.add_sub_cancel, List.drop_left']
  change later.rewind earlier.saved.length = _
  unfold rewind
  rw [if_pos onStack, reached]

end Store

namespace StoreCommand

def isReversible : StoreCommand → Bool
  | .mark | .rewind _ | .commit | .beginBlock => false
  | _ => true

theorem extends_run {command : StoreCommand} (reversible : command.isReversible = true)
    (store : Store) : store.Extends (command.run store).2 := by
  cases command with
  | mark | rewind | commit | beginBlock => simp [isReversible] at reversible
  | delete addresses => exact Store.extends_delete store addresses
  | isEmpty address => exact Store.extends_isEmpty store address
  | view number steps =>
    simp only [run]
    split
    · exact Store.extends_of_same rfl rfl
    · exact Store.Extends.refl store
  | _ => exact Store.extends_of_same rfl rfl

end StoreCommand

namespace JournaledState

section Walk

variable {related : JournaledState → JournaledState → Prop}
  (refl : ∀ state, related state state)
  (trans : ∀ first second third, related first second → related second third →
    related first third)

include refl trans

/-- What relates a state to each of its successors along a list relates it to the last one. -/
theorem foldl_related {Item : Type} {step : JournaledState → Item → JournaledState}
    (steps : ∀ state item, related state (step state item)) (items : List Item)
    (state : JournaledState) : related state (items.foldl step state) := by
  induction items generalizing state with
  | nil => exact refl state
  | cons item rest inductionHypothesis =>
      exact trans _ _ _ (steps state item) (inductionHypothesis (step state item))

/-- What relates a state to the one with an address or a slot warmed relates it to the one with
its access list prepared. -/
theorem prepareAccessList_related (warm : ∀ state address, related state (state.warm address))
    (warmSlot : ∀ state address slot, related state (state.warmSlot address slot))
    (state : JournaledState) (rules : ForkRules) (sender coinbase : Address)
    (recipient : Option Address) (precompiles : List Address) (items : List AccessListItem) :
    related state
      (state.prepareAccessList rules sender coinbase recipient precompiles items) := by
  have warmItem : ∀ state item, related state (warmItem state item) := by
    intro state item
    have slots := foldl_related refl trans (fun state => warmSlot state item.address)
      item.storageKeys (state.warm item.address)
    exact trans _ _ _ (warm state item.address) slots
  unfold prepareAccessList
  split
  · have addresses :=
      foldl_related refl trans warm (sender :: (recipient.toList ++ precompiles)) state
    have listed := trans _ _ _ addresses (foldl_related refl trans warmItem items _)
    simp only
    split
    · exact trans _ _ _ listed (warm _ coinbase)
    · exact listed
  · exact refl state

end Walk

structure Extends (earlier later : JournaledState) : Prop where
  store : earlier.store.Extends later.store
  logs : earlier.logs.Extends later.logs
  refund : earlier.refund.Extends later.refund
  accessList : earlier.accessList.Extends later.accessList
  transient : earlier.transient.Extends later.transient
  destroyed : earlier.destroyed.Extends later.destroyed

/-- No reader of accounts or journals can tell the two states apart. Storage prices and charges,
the saved copies and the past blocks of the store do not count. -/
structure SameView (first second : JournaledState) : Prop where
  accounts : first.store.accounts = second.store.accounts
  committed : first.store.committed = second.store.committed
  logs : first.logs = second.logs
  refund : first.refund = second.refund
  accessList : first.accessList = second.accessList
  transient : ∀ slot, first.transient.get slot = second.transient.get slot
  destroyed : first.destroyed = second.destroyed

theorem SameView.refl (state : JournaledState) : SameView state state :=
  ⟨rfl, rfl, rfl, rfl, rfl, fun _ => rfl, rfl⟩

theorem Extends.refl (state : JournaledState) : Extends state state :=
  ⟨.refl _, .refl _, .refl _, .refl _, .refl _, .refl _⟩

theorem Extends.trans {first second third : JournaledState} (start : Extends first second)
    (rest : Extends second third) : Extends first third where
  store := start.store.trans rest.store
  logs := start.logs.trans rest.logs
  refund := start.refund.trans rest.refund
  accessList := start.accessList.trans rest.accessList
  transient := start.transient.trans rest.transient
  destroyed := start.destroyed.trans rest.destroyed

theorem extends_withStore (state : JournaledState) {store : Store}
    (grown : state.store.Extends store) : Extends state { state with store } :=
  { Extends.refl state with store := grown }

theorem extends_withPrices (state : JournaledState) (prices : StoragePrices) :
    Extends state (state.withPrices prices) :=
  extends_withStore state (Store.extends_of_same rfl rfl)

theorem extends_withAccessList (state : JournaledState) {accessList : AccessList}
    (grown : state.accessList.Extends accessList) : Extends state { state with accessList } :=
  { Extends.refl state with accessList := grown }

theorem extends_withRefund (state : JournaledState) {refund : Refund}
    (grown : state.refund.Extends refund) : Extends state { state with refund } :=
  { Extends.refl state with refund := grown }

theorem extends_addLog (state : JournaledState) (log : Log) : Extends state (state.addLog log) :=
  { Extends.refl state with logs := LogBuffer.extends_add state.logs log }

theorem extends_snapshot (state : JournaledState) : Extends state state.snapshot.2 :=
  extends_withStore state (Store.extends_mark state.store)

theorem extends_warm (state : JournaledState) (address : Address) :
    Extends state (state.warm address) :=
  extends_withAccessList state (AccessList.extends_addAddress state.accessList address)

theorem extends_warmSlot (state : JournaledState) (address : Address) (slot : Word) :
    Extends state (state.warmSlot address slot) :=
  extends_withAccessList state (AccessList.extends_addSlot state.accessList address slot)

theorem extends_prepareAccessList (state : JournaledState) (rules : ForkRules)
    (sender coinbase : Address) (recipient : Option Address) (precompiles : List Address)
    (items : List AccessListItem) :
    Extends state
      (state.prepareAccessList rules sender coinbase recipient precompiles items) := by
  apply prepareAccessList_related Extends.refl
  · intro first second third
    exact Extends.trans
  · exact extends_warm
  · exact extends_warmSlot

theorem extends_selfDestruct (state : JournaledState) (address : Address) :
    Extends state (state.selfDestruct address) := by
  unfold selfDestruct
  refine { Extends.refl state with
    store := ?_, destroyed := DestroyedAccounts.extends_mark state.destroyed address }
  simp only
  split
  · exact Store.extends_of_same rfl rfl
  · exact Store.extends_of_same rfl rfl

theorem extends_sightSlots (address : Address) (state : JournaledState) (keys : List Word) :
    Extends state (sightSlots address state keys).2 := by
  induction keys generalizing state with
  | nil => exact Extends.refl state
  | cons key rest inductionHypothesis =>
    have read : Extends state { state with store := (state.store.slot address key).2 } :=
      extends_withStore state (Store.extends_of_same rfl rfl)
    exact read.trans (inductionHypothesis _)

theorem extends_sightAccounts (keys : List Word) (state : JournaledState)
    (addresses : List Address) : Extends state (sightAccounts keys state addresses).2 := by
  induction addresses generalizing state with
  | nil => exact Extends.refl state
  | cons address rest inductionHypothesis =>
    let read := (((state.store.exists? address).2.balance address).2.nonce address).2
    have charged : Extends state { state with store := read } :=
      extends_withStore state (Store.extends_of_same rfl rfl)
    have seen : Extends state (sightAccount keys state address).2 :=
      charged.trans (extends_sightSlots address _ keys)
    exact seen.trans (inductionHypothesis _)

end JournaledState

namespace StateCommand

/-- Whether a command commits nothing, takes nothing back and starts no block and no transaction.
Snapshots are apart, since a run keeps account of them. -/
def isReversible : StateCommand → Bool
  | .store command => command.isReversible
  | .snapshot | .rewind _ | .beginBlock | .beginTransaction .. | .finalize => false
  | _ => true

theorem extends_run {command : StateCommand} (reversible : command.isReversible = true)
    (state : JournaledState) : state.Extends (command.run state).2 := by
  cases command with
  | store inner =>
    exact JournaledState.extends_withStore state (StoreCommand.extends_run reversible state.store)
  | snapshot | rewind | beginBlock | beginTransaction | finalize =>
    simp [isReversible] at reversible
  | prepareAccessList rules sender coinbase recipient precompiles items =>
    exact JournaledState.extends_prepareAccessList state rules sender coinbase recipient
      precompiles items
  | addLog log => exact JournaledState.extends_addLog state log
  | addRefund amount =>
    exact JournaledState.extends_withRefund state (Refund.extends_add state.refund amount)
  | subRefund amount =>
    have grown := Refund.extends_subtract state.refund amount
    simp only [run]
    split
    · rename_i lowered outcome
      rw [outcome] at grown
      exact JournaledState.extends_withRefund state grown
    · exact JournaledState.Extends.refl state
  | warm address => exact JournaledState.extends_warm state address
  | warmSlot address slot => exact JournaledState.extends_warmSlot state address slot
  | setTransient address key value =>
    exact { JournaledState.Extends.refl state with
      transient := TransientStorage.extends_set state.transient (.of address key) value }
  | selfDestruct address => exact JournaledState.extends_selfDestruct state address
  | suspendPrices => exact JournaledState.extends_withPrices state .free
  | restorePrices prices => exact JournaledState.extends_withPrices state prices
  | observe addresses keys => exact JournaledState.extends_sightAccounts keys state addresses
  | _ => exact JournaledState.Extends.refl state

end StateCommand

namespace JournaledState

def restoredTo (state origin : JournaledState) : JournaledState where
  store := { state.store with accounts := origin.store.accounts, saved := origin.store.saved }
  logs := origin.logs
  refund := origin.refund
  accessList := origin.accessList
  transient := state.transient.rewind origin.transient.replaced.length
  destroyed := origin.destroyed

/-- The marks of a snapshot by component. -/
theorem snapshot_marks (state : JournaledState) :
    state.snapshot.1 =
      [("access_list", state.accessList.changes.length),
        ("destroyed_accounts", state.destroyed.order.length),
        ("logs", state.logs.entries.length), ("refund", state.refund.history.length),
        ("state", state.store.mark.1), ("transient_storage", state.transient.replaced.length)] :=
  rfl

theorem rewind_marks (state : JournaledState) (warm destroyed logs refund store transient : Nat) :
    state.rewind
        [("access_list", warm), ("destroyed_accounts", destroyed), ("logs", logs),
          ("refund", refund), ("state", store), ("transient_storage", transient)] =
      .ok
        { store := state.store.rewind store, logs := state.logs.rewind logs
          refund := state.refund.rewind refund, accessList := state.accessList.rewind warm
          transient := state.transient.rewind transient
          destroyed := state.destroyed.rewind destroyed } := by
  rfl

/-- No state refuses a snapshot, whatever state it was taken of. -/
theorem rewound_fst (state origin : JournaledState) :
    (state.rewound origin.snapshot.1).1 = .ok () := by
  unfold rewound
  rw [snapshot_marks, rewind_marks]

/-- Whatever extends the state behind a snapshot can be taken back to the snapshot. -/
theorem rewind_of_extends {origin state : JournaledState}
    (grown : Extends origin.snapshot.2 state) :
    state.rewind origin.snapshot.1 = .ok (state.restoredTo origin) := by
  rw [snapshot_marks, rewind_marks, Store.rewind_of_extends grown.store,
    LogBuffer.rewind_of_extends origin.logs grown.logs,
    Refund.rewind_of_extends origin.refund grown.refund,
    AccessList.rewind_of_extends origin.accessList grown.accessList,
    DestroyedAccounts.rewind_of_extends origin.destroyed grown.destroyed]
  rfl

theorem rewound_of_extends {origin state : JournaledState}
    (grown : Extends origin.snapshot.2 state) :
    state.rewound origin.snapshot.1 = (.ok (), state.restoredTo origin) := by
  unfold rewound
  rw [rewind_of_extends grown]

theorem restoredTo_sameView {origin state : JournaledState}
    (grown : Extends origin.snapshot.2 state) : SameView (state.restoredTo origin) origin where
  accounts := rfl
  committed := grown.store.2
  logs := rfl
  refund := rfl
  accessList := rfl
  transient := (TransientStorage.rewind_of_extends origin.transient grown.transient).2
  destroyed := rfl

theorem extends_restoredTo {origin state : JournaledState}
    (grown : Extends origin.snapshot.2 state) : Extends origin (state.restoredTo origin) := by
  obtain ⟨replaced, values⟩ :=
    TransientStorage.rewind_of_extends origin.transient grown.transient
  exact { Extends.refl origin with
    store := ⟨List.suffix_refl _, grown.store.2⟩
    transient := ⟨[], replaced, values⟩ }

end JournaledState

end HostedEvm
