import HostedEvm.Journal.AccessList
import HostedEvm.Journal.Destroyed
import HostedEvm.Journal.Logs
import HostedEvm.Journal.Refund
import HostedEvm.Journal.Transient
import HostedEvm.Proofs.Map

set_option autoImplicit false

/-!
How the journals of a transaction grow.

A later journal extends an earlier one when undoing what was recorded since leads back to the
earlier one. Extending is reflexive and transitive, every change extends, and a rewind to the mark
of the earlier journal restores it whatever was recorded in between.
-/

namespace HostedEvm

namespace Refund

def Extends (earlier later : Refund) : Prop := earlier.history <:+ later.history

theorem Extends.refl (refund : Refund) : Extends refund refund := List.suffix_refl _

theorem Extends.trans {first second third : Refund} (start : Extends first second)
    (rest : Extends second third) : Extends first third := List.IsSuffix.trans start rest

theorem extends_add (refund : Refund) (amount : Gas) : Extends refund (refund.add amount) :=
  List.suffix_cons _ _

theorem extends_subtract (refund : Refund) (amount : Gas) :
    Extends refund (refund.subtract amount).2 := by
  unfold subtract
  split
  · exact List.suffix_cons _ _
  · exact Extends.refl refund

theorem rewind_of_extends (earlier : Refund) {later : Refund} (grown : Extends earlier later) :
    later.rewind earlier.history.length = earlier := by
  have kept := List.suffix_iff_eq_drop.mp grown
  unfold rewind
  rw [← kept]

theorem extends_rewind {earlier later : Refund} (grown : Extends earlier later) {count : Nat}
    (behind : earlier.history.length ≤ count) : Extends earlier (later.rewind count) := by
  apply List.suffix_of_suffix_length_le grown (List.drop_suffix _ _)
  have longer := grown.length_le
  rw [List.length_drop]
  omega

end Refund

namespace LogBuffer

def Extends (earlier later : LogBuffer) : Prop :=
  earlier.entries <+: later.entries ∧ later.txHash = earlier.txHash ∧
    later.txIndex = earlier.txIndex

theorem Extends.refl (buffer : LogBuffer) : Extends buffer buffer :=
  ⟨List.prefix_refl _, rfl, rfl⟩

theorem Extends.trans {first second third : LogBuffer} (start : Extends first second)
    (rest : Extends second third) : Extends first third :=
  ⟨start.1.trans rest.1, rest.2.1.trans start.2.1, rest.2.2.trans start.2.2⟩

theorem extends_add (buffer : LogBuffer) (log : Log) : Extends buffer (buffer.add log) :=
  ⟨List.prefix_append _ _, rfl, rfl⟩

theorem rewind_of_extends (earlier : LogBuffer) {later : LogBuffer}
    (grown : Extends earlier later) :
    later.rewind earlier.entries.length = earlier := by
  obtain ⟨front, sameHash, sameIndex⟩ := grown
  have kept := List.prefix_iff_eq_take.mp front
  unfold rewind
  rw [← kept, sameHash, sameIndex]

theorem extends_rewind {earlier later : LogBuffer} (grown : Extends earlier later) {count : Nat}
    (behind : earlier.entries.length ≤ count) : Extends earlier (later.rewind count) := by
  refine ⟨?_, grown.2⟩
  apply List.prefix_of_prefix_length_le grown.1 (List.take_prefix _ _)
  have longer := grown.1.length_le
  rw [List.length_take]
  omega

end LogBuffer

namespace DestroyedAccounts

/-- Taking the marks since the earlier ones out of the set gives the earlier set. -/
def Extends (earlier later : DestroyedAccounts) : Prop :=
  ∃ since, later.order = earlier.order ++ since ∧
    since.foldr (fun address set => set.erase address) later.set = earlier.set

theorem Extends.refl (destroyed : DestroyedAccounts) : Extends destroyed destroyed :=
  ⟨[], (List.append_nil _).symm, rfl⟩

theorem Extends.trans {first second third : DestroyedAccounts} (start : Extends first second)
    (rest : Extends second third) : Extends first third := by
  obtain ⟨before, orderBefore, setBefore⟩ := start
  obtain ⟨after, orderAfter, setAfter⟩ := rest
  refine ⟨before ++ after, ?_, ?_⟩
  · rw [orderAfter, orderBefore, List.append_assoc]
  · rw [List.foldr_append, setAfter, setBefore]

theorem Extends.length_le {earlier later : DestroyedAccounts} (grown : Extends earlier later) :
    earlier.order.length ≤ later.order.length := by
  obtain ⟨since, order, _⟩ := grown
  rw [order, List.length_append]
  exact Nat.le_add_right _ _

theorem extends_mark (destroyed : DestroyedAccounts) (address : Address) :
    Extends destroyed (destroyed.mark address).2 := by
  unfold mark
  split
  · exact Extends.refl destroyed
  · rename_i fresh
    refine ⟨[address], rfl, ?_⟩
    apply Map.erase_insert_of_absent
    exact Std.ExtTreeMap.getElem?_eq_none_of_contains_eq_false (Bool.eq_false_iff.mpr fresh)

theorem rewind_of_extends (earlier : DestroyedAccounts) {later : DestroyedAccounts}
    (grown : Extends earlier later) :
    later.rewind earlier.order.length = earlier := by
  obtain ⟨since, order, set⟩ := grown
  simp only [rewind, order, List.take_left', List.drop_left', set]

theorem extends_rewind {earlier later : DestroyedAccounts} (grown : Extends earlier later)
    {count : Nat} (behind : earlier.order.length ≤ count) :
    Extends earlier (later.rewind count) := by
  obtain ⟨since, order, set⟩ := grown
  refine ⟨since.take (count - earlier.order.length), ?_, ?_⟩
  · simp only [rewind, order]
    rw [List.take_append, List.take_of_length_le behind]
  · simp only [rewind, order]
    rw [List.drop_append, List.drop_eq_nil_of_le behind, List.nil_append, ← List.foldr_append,
      List.take_append_drop, set]

end DestroyedAccounts

namespace AccessList

/-- Undoing the changes since the earlier list gives its warm set. -/
def Extends (earlier later : AccessList) : Prop :=
  ∃ since, later.changes = since ++ earlier.changes ∧ since.foldl undo later.warm = earlier.warm

theorem Extends.refl (list : AccessList) : Extends list list := ⟨[], rfl, rfl⟩

theorem Extends.trans {first second third : AccessList} (start : Extends first second)
    (rest : Extends second third) : Extends first third := by
  obtain ⟨before, changesBefore, undoneBefore⟩ := start
  obtain ⟨after, changesAfter, undoneAfter⟩ := rest
  refine ⟨after ++ before, ?_, ?_⟩
  · rw [changesAfter, changesBefore, List.append_assoc]
  · rw [List.foldl_append, undoneAfter, undoneBefore]

/-- A recorded change extends the list when it can be undone on the spot. -/
theorem extends_of_undo {list : AccessList} {warm : Map Address SlotSet} {change : WarmChange}
    (undone : undo warm change = list.warm) :
    Extends list ⟨warm, change :: list.changes⟩ :=
  ⟨[change], rfl, undone⟩

theorem extends_addAddress (list : AccessList) (address : Address) :
    Extends list (list.addAddress address).2 := by
  unfold addAddress
  split
  · exact Extends.refl list
  · rename_i cold
    apply extends_of_undo
    apply Map.erase_insert_of_absent
    exact Std.ExtTreeMap.getElem?_eq_none_of_contains_eq_false (Bool.eq_false_iff.mpr cold)

theorem extends_addSlot (list : AccessList) (address : Address) (slot : Word) :
    Extends list (list.addSlot address slot).2 := by
  apply (extends_addAddress list address).trans
  simp only [addSlot]
  generalize (list.addAddress address).2 = warmed
  cases found : warmed.warm[address]? with
  | none => exact Extends.refl warmed
  | some slots =>
    by_cases present : slots.contains slot
    · simp only [present, if_true]
      exact Extends.refl warmed
    · simp only [present]
      apply extends_of_undo
      have absent : slots[slot]? = none :=
        Std.ExtTreeMap.getElem?_eq_none_of_contains_eq_false (Bool.eq_false_iff.mpr present)
      simp only [undo, Std.ExtTreeMap.getElem?_insert_self, Map.erase_insert_of_absent absent,
        Map.insert_insert, Map.insert_of_present found]

theorem extends_deleteAddress (list : AccessList) (address : Address) :
    Extends list (list.deleteAddress address) := by
  unfold deleteAddress
  split
  · rename_i slots found
    apply extends_of_undo
    simp only [undo, Map.insert_erase, Map.insert_of_present found]
  · exact Extends.refl list

theorem extends_deleteSlot (list : AccessList) (address : Address) (slot : Word) :
    Extends list (list.deleteSlot address slot) := by
  unfold deleteSlot
  split
  · rename_i slots found
    split
    · rename_i listed
      apply extends_of_undo
      obtain ⟨value, present⟩ := Map.mem_iff.mp (Std.ExtTreeMap.mem_iff_contains.mpr listed)
      simp only [undo, Std.ExtTreeMap.getElem?_insert_self, Option.getD_some, Map.insert_erase,
        Map.insert_of_present present, Map.insert_insert, Map.insert_of_present found]
    · exact Extends.refl list
  · exact Extends.refl list

theorem rewind_of_extends (earlier : AccessList) {later : AccessList}
    (grown : Extends earlier later) :
    later.rewind earlier.changes.length = earlier := by
  obtain ⟨since, changes, undone⟩ := grown
  simp only [rewind, changes, List.length_append, Nat.add_sub_cancel, List.take_left',
    List.drop_left', undone]

theorem extends_rewind {earlier later : AccessList} (grown : Extends earlier later) {count : Nat}
    (behind : earlier.changes.length ≤ count) : Extends earlier (later.rewind count) := by
  obtain ⟨since, changes, undone⟩ := grown
  have within : later.changes.length - count ≤ since.length := by
    rw [changes, List.length_append]
    omega
  refine ⟨since.drop (later.changes.length - count), ?_, ?_⟩
  · simp only [rewind]
    rw [changes, List.drop_append_of_le_length (changes ▸ within)]
  · simp only [rewind]
    rw [changes, List.take_append_of_le_length (changes ▸ within), ← List.foldl_append,
      List.take_append_drop, undone]

end AccessList

namespace TransientStorage

def valueIn (values : Map TransientSlot Word) (slot : TransientSlot) : Word :=
  values[slot]?.getD 0

def putBack (since : List (TransientSlot × Word)) (values : Map TransientSlot Word) :
    Map TransientSlot Word :=
  since.foldl (fun values entry => write values entry.1 entry.2) values

/-- Putting back what was replaced since the earlier storage gives its values. -/
def Extends (earlier later : TransientStorage) : Prop :=
  ∃ since, later.replaced = since ++ earlier.replaced ∧
    ∀ slot, valueIn (putBack since later.values) slot = earlier.get slot

theorem valueIn_write (values : Map TransientSlot Word) (slot other : TransientSlot)
    (value : Word) :
    valueIn (write values slot value) other =
      if slot = other then value else valueIn values other := by
  unfold valueIn write
  by_cases zero : value = 0
  · rw [if_pos zero, Map.get_erase]
    by_cases same : slot = other <;> simp [same, zero]
  · rw [if_neg zero, Map.get_insert]
    by_cases same : slot = other <;> simp [same]

theorem valueIn_putBack_congr {first second : Map TransientSlot Word}
    (agree : ∀ slot, valueIn first slot = valueIn second slot)
    (since : List (TransientSlot × Word)) (slot : TransientSlot) :
    valueIn (putBack since first) slot = valueIn (putBack since second) slot := by
  induction since generalizing first second with
  | nil => exact agree slot
  | cons entry rest inductionHypothesis =>
    apply inductionHypothesis
    intro other
    rw [valueIn_write, valueIn_write, agree other]

theorem Extends.refl (storage : TransientStorage) : Extends storage storage :=
  ⟨[], rfl, fun _ => rfl⟩

theorem Extends.trans {first second third : TransientStorage} (start : Extends first second)
    (rest : Extends second third) : Extends first third := by
  obtain ⟨before, replacedBefore, valuesBefore⟩ := start
  obtain ⟨after, replacedAfter, valuesAfter⟩ := rest
  refine ⟨after ++ before, ?_, ?_⟩
  · rw [replacedAfter, replacedBefore, List.append_assoc]
  · intro slot
    have split : putBack (after ++ before) third.values =
        putBack before (putBack after third.values) := List.foldl_append
    rw [split, ← valuesBefore slot]
    exact valueIn_putBack_congr valuesAfter before slot

theorem extends_set (storage : TransientStorage) (slot : TransientSlot) (value : Word) :
    Extends storage (storage.set slot value) := by
  unfold set
  split
  · exact Extends.refl storage
  · refine ⟨[(slot, storage.get slot)], rfl, ?_⟩
    intro other
    have undone : valueIn (write (write storage.values slot value) slot (storage.get slot)) other =
        if slot = other then storage.get slot
        else if slot = other then value else storage.get other := by
      rw [valueIn_write, valueIn_write]
      rfl
    change valueIn (write (write storage.values slot value) slot (storage.get slot)) other = _
    rw [undone]
    by_cases same : slot = other <;> simp [same]

theorem rewind_of_extends (earlier : TransientStorage) {later : TransientStorage}
    (grown : Extends earlier later) :
    (later.rewind earlier.replaced.length).replaced = earlier.replaced ∧
      ∀ slot, (later.rewind earlier.replaced.length).get slot = earlier.get slot := by
  obtain ⟨since, replaced, values⟩ := grown
  constructor
  · simp only [rewind, replaced, List.length_append, Nat.add_sub_cancel, List.drop_left']
  · intro slot
    rw [← values slot]
    simp only [rewind, replaced, List.length_append, Nat.add_sub_cancel, List.take_left', get,
      valueIn, putBack]

theorem extends_rewind {earlier later : TransientStorage} (grown : Extends earlier later)
    {count : Nat} (behind : earlier.replaced.length ≤ count) :
    Extends earlier (later.rewind count) := by
  obtain ⟨since, replaced, values⟩ := grown
  have within : later.replaced.length - count ≤ since.length := by
    rw [replaced, List.length_append]
    omega
  refine ⟨since.drop (later.replaced.length - count), ?_, ?_⟩
  · simp only [rewind]
    rw [replaced, List.drop_append_of_le_length (replaced ▸ within)]
  · intro slot
    rw [← values slot]
    simp only [rewind, putBack]
    rw [replaced, List.take_append_of_le_length (replaced ▸ within), ← List.foldl_append,
      List.take_append_drop]

end TransientStorage

end HostedEvm
