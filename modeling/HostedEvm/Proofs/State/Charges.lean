import HostedEvm.Proofs.State.Past
import HostedEvm.Proofs.Word

set_option autoImplicit false

/-!
What work on a state is charged.

The price of a command follows from the storage prices, the accounts and the marks of destruction.
The counter of the store adds these prices up, and starts again at zero where a word ends. A reset
of the counter takes back all that it counts; going back to a snapshot takes back nothing.
-/

namespace HostedEvm

/-- The later store counts what was spent beyond the count of the earlier one, and has the given
prices. -/
structure Store.Spent (spent : Int) (inForce : StoragePrices) (earlier later : Store) : Prop where
  charged : later.charged = earlier.charged + UInt64.ofInt spent
  prices : later.prices = inForce

namespace StoreCommand

def cost (inForce : StoragePrices) : StoreCommand → Store → Int
  | .exists? _, _ => inForce.has.toNat
  | .isEmpty address, store =>
    let found := store.accounts.account address
    (inForce.read 8).toNat +
      if found.nonce ≠ 0 then 0
      else (inForce.read 32).toNat +
        if found.balance ≠ 0 then 0 else (inForce.read (UInt64.ofNat found.code.length)).toNat
  | .create _, _ | .balance _, _ | .codeHash _, _ | .slot .., _ | .committedSlot .., _ =>
    (inForce.read 32).toNat
  | .nonce _, _ => (inForce.read 8).toNat
  | .code address, store =>
    (inForce.read (UInt64.ofNat (store.accounts.account address).code.length)).toNat
  | .addBalance .., _ | .subBalance .., _ => (inForce.write 32).toNat
  | .setNonce .., _ => (inForce.write 8).toNat
  | .setCode _ bytes, _ => (inForce.write (UInt64.ofNat bytes.length)).toNat
  | .setSlot _ _ value, _ => if value = 0 then inForce.delete.toNat else (inForce.write 32).toNat
  | .delete addresses, _ => addresses.length * inForce.delete.toNat
  | .resetCharges, store => -store.charged.toNat
  | _, _ => 0

def pricesBehind (inForce : StoragePrices) : StoreCommand → StoragePrices
  | .setPrices chosen => chosen
  | _ => inForce

end StoreCommand

namespace Store

variable {first second third : Store} {inForce later : StoragePrices} {spent more : Int}

theorem spent_of_same (charged : second.charged = first.charged)
    (prices : second.prices = first.prices) : Spent 0 first.prices first second :=
  ⟨charged.trans (UInt64.add_zero _).symm, prices⟩

theorem Spent.refl (store : Store) : Spent 0 store.prices store store := spent_of_same rfl rfl

theorem Spent.trans (start : Spent spent inForce first second)
    (rest : Spent more later second third) : Spent (spent + more) later first third := by
  refine ⟨?_, rest.prices⟩
  rw [rest.charged, start.charged, UInt64.add_assoc, UInt64.ofInt_add]

theorem spent_of_price {price : Gas} (charged : second.charged = first.charged + price)
    (prices : second.prices = first.prices) : Spent price.toNat first.prices first second := by
  refine ⟨?_, prices⟩
  rw [charged, Gas.ofInt_toNat]

theorem spent_rewind (id : Nat) (store : Store) :
    Spent 0 store.prices store (store.rewind id) := by
  unfold rewind
  split
  · split <;> exact spent_of_same rfl rfl
  · exact .refl store

theorem spent_delete (addresses : List Address) (store : Store) :
    Spent (addresses.length * store.prices.delete.toNat) store.prices store
      (store.delete addresses) := by
  unfold delete
  induction addresses generalizing store with
  | nil =>
      simpa using .refl store
  | cons address rest inductionHypothesis =>
      have deleted : Spent store.prices.delete.toNat store.prices store (store.deleteOne address) :=
        spent_of_price rfl rfl
      have whole := deleted.trans (inductionHypothesis (store.deleteOne address))
      rw [List.length_cons, Int.natCast_succ, Int.add_mul, Int.one_mul, Int.add_comm]
      exact whole

theorem spent_isEmpty (address : Address) (store : Store) :
    Spent ((StoreCommand.isEmpty address).cost store.prices store) store.prices store
      (store.isEmpty address).2 := by
  -- each read is made on the store that the reads before it charged
  let first := (store.nonce address).2
  let second := (first.balance address).2
  have nonce : Spent (store.prices.read 8).toNat store.prices store first := spent_of_price rfl rfl
  have balance : Spent (first.prices.read 32).toNat first.prices first second :=
    spent_of_price rfl rfl
  have code : Spent (second.prices.read (UInt64.ofNat (second.code address).1.length)).toNat
      second.prices second (second.code address).2 := spent_of_price rfl rfl
  change Spent
    ((store.prices.read 8).toNat +
      if (store.nonce address).1 ≠ 0 then 0
      else (first.prices.read 32).toNat +
        if (first.balance address).1 ≠ 0 then 0
        else (second.prices.read (UInt64.ofNat (second.code address).1.length)).toNat)
    store.prices store (store.isEmpty address).2
  unfold isEmpty
  simp only
  split
  · exact nonce
  · refine nonce.trans ?_
    split
    · exact balance
    · exact balance.trans code

end Store

theorem StoreCommand.spent_run (command : StoreCommand) (store : Store) :
    Store.Spent (command.cost store.prices store) (command.pricesBehind store.prices) store
      (command.run store).2 := by
  cases command with
  | resetCharges =>
      refine ⟨?_, rfl⟩
      rw [cost, UInt64.ofInt_neg, Gas.ofInt_toNat]
      exact (UInt64.add_right_neg _).symm
  | rewind id => exact store.spent_rewind id
  | isEmpty address => exact store.spent_isEmpty address
  | delete addresses => exact store.spent_delete addresses
  | setPrices chosen => exact ⟨(UInt64.add_zero _).symm, rfl⟩
  | setSlot address key value =>
      simp only [run, Store.setSlot, cost]
      split
      · exact Store.spent_of_price rfl rfl
      · exact Store.spent_of_price rfl rfl
  | view number steps =>
      simp only [run]
      split
      · exact Store.spent_of_same rfl rfl
      · exact .refl store
  | key | mark | commit | beginBlock | prices | charged | blocks | account =>
      exact Store.spent_of_same rfl rfl
  | _ => exact Store.spent_of_price rfl rfl

namespace JournaledState

def charge (state : JournaledState) (price : Gas) : JournaledState :=
  { state with store := state.store.charge price }

theorem charge_charge (state : JournaledState) (first second : Gas) :
    (state.charge first).charge second = state.charge (first + second) := by
  simp only [charge, Store.charge, UInt64.add_assoc]

theorem charge_none (state : JournaledState) : state.charge (UInt64.ofInt 0) = state := by
  have none : UInt64.ofInt 0 = 0 := rfl
  simp [charge, Store.charge, none]

theorem sameView_charge (state : JournaledState) (price : Gas) :
    (state.charge price).SameView state :=
  ⟨rfl, rfl, rfl, rfl, rfl, fun _ => rfl, rfl⟩

theorem spent_charge (state : JournaledState) (spent : Int) :
    Store.Spent spent state.store.prices state.store (state.charge (UInt64.ofInt spent)).store :=
  ⟨rfl, rfl⟩

theorem sightSlots_snd (address : Address) (keys : List Word) (state : JournaledState) :
    (sightSlots address state keys).2 =
      state.charge (UInt64.ofInt (keys.length * (state.store.prices.read 32).toNat)) := by
  induction keys generalizing state with
  | nil => simp [sightSlots, charge_none]
  | cons key rest inductionHypothesis =>
      have looked : (sightSlots address state (key :: rest)).2 =
          (sightSlots address (state.charge (state.store.prices.read 32)) rest).2 := rfl
      have same : (state.charge (state.store.prices.read 32)).store.prices = state.store.prices :=
        rfl
      rw [looked, inductionHypothesis, charge_charge, same, List.length_cons,
        Int.natCast_succ, Int.add_mul, Int.one_mul, Int.add_comm (_ * _), UInt64.ofInt_add,
        Gas.ofInt_toNat]

def sightCost (inForce : StoragePrices) (keys : List Word) : Int :=
  inForce.has.toNat + (inForce.read 32).toNat + (inForce.read 8).toNat +
    keys.length * (inForce.read 32).toNat

theorem sightAccount_snd (keys : List Word) (address : Address) (state : JournaledState) :
    (sightAccount keys state address).2 =
      state.charge (UInt64.ofInt (sightCost state.store.prices keys)) := by
  let looked := ((state.charge state.store.prices.has).charge (state.store.prices.read 32)).charge
    (state.store.prices.read 8)
  have seen : (sightAccount keys state address).2 = (sightSlots address looked keys).2 := rfl
  have same : looked.store.prices = state.store.prices := rfl
  rw [seen, sightSlots_snd, same]
  simp only [looked, charge_charge, sightCost, UInt64.ofInt_add, Gas.ofInt_toNat,
    UInt64.add_assoc]

/-- Looking at accounts changes nothing but the count of charges. -/
theorem sightAccounts_snd (keys : List Word) (addresses : List Address) (state : JournaledState) :
    (sightAccounts keys state addresses).2 =
      state.charge (UInt64.ofInt (addresses.length * sightCost state.store.prices keys)) := by
  induction addresses generalizing state with
  | nil => simp [sightAccounts, charge_none]
  | cons address rest inductionHypothesis =>
      have looked : (sightAccounts keys state (address :: rest)).2 =
          (sightAccounts keys (sightAccount keys state address).2 rest).2 := rfl
      have same (price : Gas) : (state.charge price).store.prices = state.store.prices := rfl
      rw [looked, inductionHypothesis, sightAccount_snd, charge_charge, same, List.length_cons,
        Int.natCast_succ, Int.add_mul, Int.one_mul, Int.add_comm (_ * _), UInt64.ofInt_add]

theorem spent_rewound (state : JournaledState) (snapshot : Snapshot) :
    Store.Spent 0 state.store.prices state.store (state.rewound snapshot).2.store := by
  let property (current : JournaledState) : Prop :=
    Store.Spent 0 state.store.prices state.store current.store
  refine @rewound_keeps property state ?_ snapshot (.refl _)
  intro part member id current holds
  simp only [everything, List.mem_cons, List.not_mem_nil, or_false] at member
  rcases member with rfl | rfl | rfl | rfl | rfl | rfl
  · exact holds
  · exact holds
  · exact holds
  · exact holds
  · have back := Store.spent_rewind id current.store
    rw [holds.prices] at back
    exact holds.trans back
  · exact holds

end JournaledState

namespace StateCommand

def cost (inForce : StoragePrices) : StateCommand → JournaledState → Int
  | .store command, state => command.cost inForce state.store
  | .finalize, state => state.destroyed.order.length * inForce.delete.toNat
  | .selfDestruct address, state =>
    (inForce.read 32).toNat +
      if (state.store.accounts.account address).balance = 0 then 0 else (inForce.write 32).toNat
  | .observe addresses keys, _ => addresses.length * JournaledState.sightCost inForce keys
  | _, _ => 0

def pricesBehind (inForce : StoragePrices) : StateCommand → StoragePrices
  | .store command => command.pricesBehind inForce
  | .suspendPrices => .free
  | .restorePrices prices => prices
  | _ => inForce

theorem spent_run (command : StateCommand) (state : JournaledState) :
    Store.Spent (command.cost state.store.prices state) (command.pricesBehind state.store.prices)
      state.store (command.run state).2.store := by
  cases command with
  | store inner => exact inner.spent_run state.store
  | rewind taken => exact state.spent_rewound taken
  | finalize =>
      have deleted := state.store.spent_delete state.destroyed.order
      exact ⟨deleted.charged, deleted.prices⟩
  | prepareAccessList rules sender coinbase recipient precompiles items =>
      obtain ⟨accessList, same⟩ :=
        JournaledState.warmed_prepareAccessList state rules sender coinbase recipient precompiles
          items
      simp only [run, same]
      exact .refl _
  | subRefund amount =>
      simp only [run]
      split <;> exact .refl _
  | selfDestruct address =>
      let looked := (state.store.balance address).2
      have read : Store.Spent (state.store.prices.read 32).toNat state.store.prices state.store
          looked := Store.spent_of_price rfl rfl
      change Store.Spent
        ((state.store.prices.read 32).toNat +
          if (state.store.balance address).1 = 0 then 0 else (looked.prices.write 32).toNat)
        state.store.prices state.store (state.selfDestruct address).store
      unfold JournaledState.selfDestruct
      simp only
      split
      · exact read
      · exact read.trans (@Store.spent_of_price looked _ _ rfl rfl)
  | suspendPrices | restorePrices => exact ⟨(UInt64.add_zero _).symm, rfl⟩
  | observe addresses keys =>
      have looked := JournaledState.sightAccounts_snd keys addresses state
      simp only [run, looked]
      exact state.spent_charge _
  | _ => exact Store.spent_of_same rfl rfl

end StateCommand

end HostedEvm
