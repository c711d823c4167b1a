import HostedEvm.Proofs.Journal.Warmth
import HostedEvm.State.Journaled
import Mathlib.Tactic.Tauto

set_option autoImplicit false

/-!
What warming leaves warm.

An access list may name an address several times, with slots each time, and it may name one that is
warm for another reason. As warming is insertion into sets, the order and the repetitions do not
matter: the union of what was named is warm, and nothing else.
-/

namespace HostedEvm

namespace AccessListItem

def addresses (items : List AccessListItem) : Set Address :=
  {address | ∃ item ∈ items, item.address = address}

def slots (items : List AccessListItem) : Set (Address × Word) :=
  {slot | ∃ item ∈ items, item.address = slot.1 ∧ slot.2 ∈ item.storageKeys}

theorem addresses_cons (item : AccessListItem) (rest : List AccessListItem) :
    addresses (item :: rest) = insert item.address (addresses rest) := by
  ext address
  simp [addresses, eq_comm]

theorem mem_slots_cons {item : AccessListItem} {rest : List AccessListItem} {address : Address}
    {key : Word} :
    (address, key) ∈ slots (item :: rest) ↔
      item.address = address ∧ key ∈ item.storageKeys ∨ (address, key) ∈ slots rest := by
  simp [slots]

end AccessListItem

namespace JournaledState

variable (state : JournaledState)

@[simp] theorem addresses_warm (address : Address) :
    (state.warm address).accessList.addresses = insert address state.accessList.addresses :=
  AccessList.addresses_addAddress _ _

@[simp] theorem slots_warm (address : Address) :
    (state.warm address).accessList.slots = state.accessList.slots :=
  AccessList.slots_addAddress _ _

@[simp] theorem addresses_warmSlot (address : Address) (key : Word) :
    (state.warmSlot address key).accessList.addresses =
      insert address state.accessList.addresses :=
  AccessList.addresses_addSlot _ _ _

@[simp] theorem slots_warmSlot (address : Address) (key : Word) :
    (state.warmSlot address key).accessList.slots =
      insert (address, key) state.accessList.slots :=
  AccessList.slots_addSlot _ _ _

@[simp] theorem addresses_foldl_warm (addresses : List Address) :
    (addresses.foldl warm state).accessList.addresses =
      {address | address ∈ addresses} ∪ state.accessList.addresses := by
  induction addresses generalizing state with
  | nil => simp
  | cons address rest inductionHypothesis =>
      rw [List.foldl_cons, inductionHypothesis, addresses_warm]
      ext other
      simp [or_assoc]

@[simp] theorem slots_foldl_warm (addresses : List Address) :
    (addresses.foldl warm state).accessList.slots = state.accessList.slots := by
  induction addresses generalizing state with
  | nil => rfl
  | cons address rest inductionHypothesis =>
      rw [List.foldl_cons, inductionHypothesis, slots_warm]

theorem addresses_foldl_warmSlot (address : Address) (keys : List Word)
    (warm : address ∈ state.accessList.addresses) :
    (keys.foldl (fun state key => state.warmSlot address key) state).accessList.addresses =
      state.accessList.addresses := by
  induction keys generalizing state with
  | nil => rfl
  | cons key rest inductionHypothesis =>
      have still : (state.warmSlot address key).accessList.addresses =
          state.accessList.addresses := by
        rw [addresses_warmSlot, Set.insert_eq_of_mem warm]
      rw [List.foldl_cons, inductionHypothesis _ (still ▸ warm), still]

theorem mem_slots_foldl_warmSlot (address : Address) (keys : List Word) {other : Address}
    {slot : Word} :
    (other, slot) ∈
        (keys.foldl (fun state key => state.warmSlot address key) state).accessList.slots ↔
      address = other ∧ slot ∈ keys ∨ (other, slot) ∈ state.accessList.slots := by
  induction keys generalizing state with
  | nil => simp
  | cons key rest inductionHypothesis =>
      rw [List.foldl_cons, inductionHypothesis, slots_warmSlot, Set.mem_insert_iff,
        Prod.mk.injEq, List.mem_cons, eq_comm]
      tauto

@[simp] theorem addresses_warmItem (item : AccessListItem) :
    (state.warmItem item).accessList.addresses =
      insert item.address state.accessList.addresses := by
  have warm : item.address ∈ (state.warm item.address).accessList.addresses := by
    rw [addresses_warm]
    exact Set.mem_insert _ _
  rw [warmItem, addresses_foldl_warmSlot _ _ _ warm, addresses_warm]

theorem mem_slots_warmItem (item : AccessListItem) {address : Address} {key : Word} :
    (address, key) ∈ (state.warmItem item).accessList.slots ↔
      item.address = address ∧ key ∈ item.storageKeys ∨
        (address, key) ∈ state.accessList.slots := by
  rw [warmItem, mem_slots_foldl_warmSlot, slots_warm]

@[simp] theorem addresses_foldl_warmItem (items : List AccessListItem) :
    (items.foldl warmItem state).accessList.addresses =
      AccessListItem.addresses items ∪ state.accessList.addresses := by
  induction items generalizing state with
  | nil => simp [AccessListItem.addresses]
  | cons item rest inductionHypothesis =>
      rw [List.foldl_cons, inductionHypothesis, addresses_warmItem,
        AccessListItem.addresses_cons, Set.union_insert, Set.insert_union]

@[simp] theorem slots_foldl_warmItem (items : List AccessListItem) :
    (items.foldl warmItem state).accessList.slots =
      AccessListItem.slots items ∪ state.accessList.slots := by
  induction items generalizing state with
  | nil => simp [AccessListItem.slots]
  | cons item rest inductionHypothesis =>
      rw [List.foldl_cons, inductionHypothesis]
      ext ⟨address, key⟩
      rw [Set.mem_union, Set.mem_union, mem_slots_warmItem, AccessListItem.mem_slots_cons]
      tauto

variable {state} {rules : ForkRules} {sender coinbase : Address} {recipient : Option Address}
  {precompiles : List Address} {items : List AccessListItem}

theorem prepareAccessList_of_not_berlin (early : rules.berlin = false) :
    state.prepareAccessList rules sender coinbase recipient precompiles items = state := by
  simp [prepareAccessList, early]

/-- From Berlin on, the addresses that are warm for a transaction beside those that were. -/
theorem mem_addresses_prepareAccessList (berlin : rules.berlin = true) {address : Address} :
    address ∈ (state.prepareAccessList rules sender coinbase recipient precompiles
        items).accessList.addresses ↔
      address = sender ∨ recipient = some address ∨ address ∈ precompiles ∨
        address ∈ AccessListItem.addresses items ∨ (rules.shanghai = true ∧ address = coinbase) ∨
        address ∈ state.accessList.addresses := by
  have touched : address ∈ (items.foldl warmItem ((sender :: (recipient.toList ++
        precompiles)).foldl warm state)).accessList.addresses ↔
      address ∈ AccessListItem.addresses items ∨
        (address = sender ∨ recipient = some address ∨ address ∈ precompiles) ∨
          address ∈ state.accessList.addresses := by
    rw [addresses_foldl_warmItem, addresses_foldl_warm]
    simp
  rw [prepareAccessList, if_pos berlin]
  by_cases shanghai : rules.shanghai = true
  · rw [if_pos shanghai, addresses_warm, Set.mem_insert_iff, touched]
    tauto
  · rw [if_neg shanghai, touched]
    tauto

/-- From Berlin on, the slots that are warm for a transaction beside those that were. -/
theorem slots_prepareAccessList (berlin : rules.berlin = true) :
    (state.prepareAccessList rules sender coinbase recipient precompiles
        items).accessList.slots =
      AccessListItem.slots items ∪ state.accessList.slots := by
  rw [prepareAccessList, if_pos berlin]
  by_cases shanghai : rules.shanghai = true
  · rw [if_pos shanghai, slots_warm, slots_foldl_warmItem, slots_foldl_warm]
  · rw [if_neg shanghai, slots_foldl_warmItem, slots_foldl_warm]

end JournaledState

end HostedEvm
