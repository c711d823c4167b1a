import HostedEvm.Journal.AccessList
import HostedEvm.Proofs.Map
import Mathlib.Order.BooleanAlgebra.Set

set_option autoImplicit false

/-!
An access list as the sets of its warm addresses and warm slots.

The list keeps the slots of an address at the address. As sets, warming an address and warming a
slot are plain insertions: what was warm stays warm, and an address that was cold has no slots yet.
-/

namespace HostedEvm

namespace AccessList

def addresses (list : AccessList) : Set Address := {address | list.hasAddress address = true}

def slots (list : AccessList) : Set (Address × Word) := {slot | list.hasSlot slot.1 slot.2 = true}

variable {list : AccessList} {address : Address} {key : Word}

theorem mem_addresses : address ∈ list.addresses ↔ ∃ slots, list.warm[address]? = some slots := by
  rw [← Map.mem_iff]
  exact Std.ExtTreeMap.mem_iff_contains.symm

theorem mem_slots :
    (address, key) ∈ list.slots ↔ ∃ slots, list.warm[address]? = some slots ∧ key ∈ slots := by
  change list.hasSlot address key = true ↔ _
  rw [hasSlot]
  split
  · rename_i slots present
    simp [present]
  · rename_i absent
    simp [absent]

@[simp] theorem addresses_empty : ({} : AccessList).addresses = ∅ := by
  ext address
  simp [mem_addresses]

@[simp] theorem slots_empty : ({} : AccessList).slots = ∅ := by
  ext ⟨address, key⟩
  simp [mem_slots]

theorem addAddress_of_mem (warm : address ∈ list.addresses) :
    list.addAddress address = (false, list) :=
  if_pos warm

theorem addAddress_of_notMem (cold : address ∉ list.addresses) :
    list.addAddress address =
      (true, ⟨list.warm.insert address ∅, .addressAdded address :: list.changes⟩) :=
  if_neg cold

theorem addAddress_fst (list : AccessList) (address : Address) :
    (list.addAddress address).1 = true ↔ address ∉ list.addresses := by
  by_cases warm : address ∈ list.addresses
  · simp [addAddress_of_mem warm, warm]
  · simp [addAddress_of_notMem warm, warm]

@[simp] theorem addresses_addAddress (list : AccessList) (address : Address) :
    (list.addAddress address).2.addresses = insert address list.addresses := by
  by_cases warm : address ∈ list.addresses
  · rw [addAddress_of_mem warm, Set.insert_eq_of_mem warm]
  · ext other
    rw [addAddress_of_notMem warm, Set.mem_insert_iff, mem_addresses, mem_addresses,
      ← Map.mem_iff, Map.mem_insert, ← Map.mem_iff, eq_comm]

@[simp] theorem slots_addAddress (list : AccessList) (address : Address) :
    (list.addAddress address).2.slots = list.slots := by
  by_cases warm : address ∈ list.addresses
  · rw [addAddress_of_mem warm]
  · ext ⟨other, key⟩
    rw [addAddress_of_notMem warm, mem_slots, mem_slots, Map.get_insert]
    split
    · rename_i same
      subst same
      -- a cold address has no slots, and neither has one that was just warmed
      have none : ∀ slots, list.warm[address]? ≠ some slots :=
        fun slots present => warm (mem_addresses.mpr ⟨slots, present⟩)
      simp [none]
    · rfl

/-- Warming a slot warms its address first. -/
theorem addSlot_snd (list : AccessList) (address : Address) (key : Word) :
    ∃ slots, (list.addAddress address).2.warm[address]? = some slots ∧
      (list.addSlot address key).2 =
        if key ∈ slots then (list.addAddress address).2
        else ⟨(list.addAddress address).2.warm.insert address (slots.insert key ()),
          .slotAdded address key :: (list.addAddress address).2.changes⟩ := by
  have warm : address ∈ (list.addAddress address).2.addresses := by
    rw [addresses_addAddress]
    exact Set.mem_insert _ _
  obtain ⟨slots, present⟩ := mem_addresses.mp warm
  refine ⟨slots, present, ?_⟩
  simp only [addSlot, present, Std.ExtTreeMap.contains_iff_mem]
  split <;> rfl

@[simp] theorem addresses_addSlot (list : AccessList) (address : Address) (key : Word) :
    (list.addSlot address key).2.addresses = insert address list.addresses := by
  obtain ⟨slots, present, warmed⟩ := list.addSlot_snd address key
  rw [warmed, ← addresses_addAddress]
  split
  · rfl
  · ext other
    rw [mem_addresses, mem_addresses, ← Map.mem_iff, ← Map.mem_iff, Map.mem_insert]
    constructor
    · rintro (rfl | warm)
      · exact Map.mem_iff.mpr ⟨slots, present⟩
      · exact warm
    · exact .inr

@[simp] theorem slots_addSlot (list : AccessList) (address : Address) (key : Word) :
    (list.addSlot address key).2.slots = insert (address, key) list.slots := by
  obtain ⟨slots, present, warmed⟩ := list.addSlot_snd address key
  rw [warmed, ← slots_addAddress list address]
  split
  · rename_i listed
    exact (Set.insert_eq_of_mem (mem_slots.mpr ⟨slots, present, listed⟩)).symm
  · ext ⟨other, slot⟩
    rw [Set.mem_insert_iff, mem_slots, mem_slots, Map.get_insert, Prod.mk.injEq]
    by_cases same : address = other
    · subst same
      have added := Map.mem_insert slots key slot ()
      simpa [present, eq_comm] using added
    · simp [same, Ne.symm same]

theorem addSlot_fst (list : AccessList) (address : Address) (key : Word) :
    ((list.addSlot address key).1.1 = true ↔ address ∉ list.addresses) ∧
      ((list.addSlot address key).1.2 = true ↔ (address, key) ∉ list.slots) := by
  have warm : address ∈ (list.addAddress address).2.addresses := by simp
  obtain ⟨slots, present⟩ := mem_addresses.mp warm
  have listed : (address, key) ∈ list.slots ↔ key ∈ slots := by
    rw [← slots_addAddress list address, mem_slots]
    simp [present]
  simp only [addSlot, present, Std.ExtTreeMap.contains_iff_mem, listed, ← addAddress_fst]
  by_cases before : key ∈ slots <;> simp [before]

theorem addSlot_of_mem (warm : address ∈ list.addresses) (slotWarm : (address, key) ∈ list.slots) :
    list.addSlot address key = ((false, false), list) := by
  obtain ⟨slots, present, listed⟩ := mem_slots.mp slotWarm
  simp [addSlot, addAddress_of_mem warm, present, listed]

theorem deleteAddress_of_notMem (cold : address ∉ list.addresses) :
    list.deleteAddress address = list := by
  unfold deleteAddress
  split
  · rename_i slots present
    exact absurd (mem_addresses.mpr ⟨slots, present⟩) cold
  · rfl

@[simp] theorem addresses_deleteAddress (list : AccessList) (address : Address) :
    (list.deleteAddress address).addresses = list.addresses \ {address} := by
  unfold deleteAddress
  split
  · ext other
    rw [mem_addresses, ← Map.mem_iff, Map.mem_erase, Map.mem_iff, ← mem_addresses]
    simp [eq_comm, and_comm]
  · rename_i absent
    have cold : address ∉ list.addresses := by simp [mem_addresses, absent]
    exact (Set.sdiff_singleton_eq_self cold).symm

@[simp] theorem slots_deleteAddress (list : AccessList) (address : Address) :
    (list.deleteAddress address).slots = {slot ∈ list.slots | slot.1 ≠ address} := by
  unfold deleteAddress
  ext ⟨other, key⟩
  split
  · simp only [mem_slots, Map.get_erase, Set.mem_ofPred_eq]
    by_cases same : address = other <;> simp [same, eq_comm]
  · rename_i absent
    -- an address that was cold has no slots to lose
    simp only [mem_slots, Set.mem_ofPred_eq]
    by_cases same : address = other
    · subst same
      simp [absent]
    · simp [same, eq_comm]

@[simp] theorem addresses_deleteSlot (list : AccessList) (address : Address) (key : Word) :
    (list.deleteSlot address key).addresses = list.addresses := by
  unfold deleteSlot
  split
  · rename_i slots present
    split
    · ext other
      simp only [mem_addresses, ← Map.mem_iff, Map.mem_insert]
      apply or_iff_right_of_imp
      rintro rfl
      exact Map.mem_iff.mpr ⟨slots, present⟩
    · rfl
  · rfl

theorem deleteSlot_of_notMem (cold : (address, key) ∉ list.slots) :
    list.deleteSlot address key = list := by
  unfold deleteSlot
  split
  · rename_i slots present
    split
    · rename_i listed
      exact absurd (mem_slots.mpr ⟨slots, present, Std.ExtTreeMap.mem_iff_contains.mpr listed⟩) cold
    · rfl
  · rfl

@[simp] theorem slots_deleteSlot (list : AccessList) (address : Address) (key : Word) :
    (list.deleteSlot address key).slots = list.slots \ {(address, key)} := by
  by_cases warm : (address, key) ∈ list.slots
  · obtain ⟨slots, present, listed⟩ := mem_slots.mp warm
    ext ⟨other, slot⟩
    simp only [deleteSlot, present, Std.ExtTreeMap.mem_iff_contains.mp listed, if_true, mem_slots,
      Map.get_insert, Set.mem_sdiff, Set.mem_singleton_iff, Prod.mk.injEq]
    by_cases same : address = other
    · subst same
      have removed := Map.mem_erase slots key slot
      simpa [present, eq_comm, and_comm] using removed
    · simp [same, Ne.symm same]
  · rw [deleteSlot_of_notMem warm, Set.sdiff_singleton_eq_self warm]

end AccessList

end HostedEvm
