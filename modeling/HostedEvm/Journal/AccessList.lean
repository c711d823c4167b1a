import HostedEvm.Journal.Controller

set_option autoImplicit false

/-!
The warm addresses and slots of the running transaction.

Every change to the warm set is recorded with what is needed to undo it. Undoing goes from the
newest change back, so that each step meets the set that its change left behind.
-/

namespace HostedEvm

abbrev SlotSet := Map Word Unit

inductive WarmChange
  | addressAdded (address : Address)
  | slotAdded (address : Address) (slot : Word)
  /-- An address went, with the slots it had. -/
  | addressDeleted (address : Address) (slots : SlotSet)
  | slotDeleted (address : Address) (slot : Word)

/-- The warm slots of every warm address, and the changes that led there, newest first. -/
structure AccessList where
  warm : Map Address SlotSet := ∅
  changes : List WarmChange := []

namespace AccessList

def hasAddress (list : AccessList) (address : Address) : Bool := list.warm.contains address

def hasSlot (list : AccessList) (address : Address) (slot : Word) : Bool :=
  match list.warm[address]? with
  | some slots => slots.contains slot
  | none => false

/-- Warm an address, and tell whether it was cold. -/
def addAddress (list : AccessList) (address : Address) : Bool × AccessList :=
  if list.hasAddress address then (false, list)
  else (true, ⟨list.warm.insert address ∅, .addressAdded address :: list.changes⟩)

/-- Warm a slot and its address, and tell which of the two were cold, the address first. -/
def addSlot (list : AccessList) (address : Address) (slot : Word) : (Bool × Bool) × AccessList :=
  let (addressAdded, list) := list.addAddress address
  match list.warm[address]? with
  | some slots =>
    if slots.contains slot then ((addressAdded, false), list)
    else
      ((addressAdded, true),
        ⟨list.warm.insert address (slots.insert slot ()), .slotAdded address slot :: list.changes⟩)
  | none => ((addressAdded, false), list)

/-- Cool an address and its slots. -/
def deleteAddress (list : AccessList) (address : Address) : AccessList :=
  match list.warm[address]? with
  | some slots => ⟨list.warm.erase address, .addressDeleted address slots :: list.changes⟩
  | none => list

def deleteSlot (list : AccessList) (address : Address) (slot : Word) : AccessList :=
  match list.warm[address]? with
  | some slots =>
    if slots.contains slot then
      ⟨list.warm.insert address (slots.erase slot), .slotDeleted address slot :: list.changes⟩
    else list
  | none => list

/-- Forget the warm set and its changes. -/
def clear (_ : AccessList) : AccessList := {}

def addressCount (list : AccessList) : Nat := list.warm.size

/-- The warm set before a change. -/
def undo (warm : Map Address SlotSet) : WarmChange → Map Address SlotSet
  | .addressAdded address => warm.erase address
  | .slotAdded address slot =>
    match warm[address]? with
    | some slots => warm.insert address (slots.erase slot)
    | none => warm
  | .addressDeleted address slots => warm.insert address slots
  | .slotDeleted address slot => warm.insert address ((warm[address]?.getD ∅).insert slot ())

/-- Undo changes, newest first, until `count` are left. -/
def rewind (count : Nat) (list : AccessList) : AccessList :=
  let surplus := list.changes.length - count
  ⟨(list.changes.take surplus).foldl undo list.warm, list.changes.drop surplus⟩

instance : Checkpointed AccessList where
  key := "access_list"
  mark list := (list.changes.length, list)
  rewind := rewind
  commit list := { list with changes := [] }

end AccessList

end HostedEvm
