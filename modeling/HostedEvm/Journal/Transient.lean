import HostedEvm.Journal.Controller

set_option autoImplicit false

/-!
Storage that lasts for one transaction.

A slot that holds zero is absent. Every change is recorded with the value it replaced.
-/

namespace HostedEvm

/-- The place of a transient value: the address in the high bits, the slot in the low ones. -/
abbrev TransientSlot := BitVec (160 + 256)

instance TransientSlot.transOrd : Std.TransOrd TransientSlot := BitVec.instTransOrd

def TransientSlot.of (address : Address) (key : Word) : TransientSlot := address ++ key

/-- The transient values that are not zero, and the replaced values, newest first. -/
structure TransientStorage where
  values : Map TransientSlot Word := ∅
  replaced : List (TransientSlot × Word) := []

namespace TransientStorage

def get (storage : TransientStorage) (slot : TransientSlot) : Word :=
  storage.values[slot]?.getD 0

def write (values : Map TransientSlot Word) (slot : TransientSlot) (value : Word) :
    Map TransientSlot Word :=
  if value = 0 then values.erase slot else values.insert slot value

/-- Set a slot. A slot that already holds the value is left alone. -/
def set (storage : TransientStorage) (slot : TransientSlot) (value : Word) : TransientStorage :=
  if storage.get slot = value then storage
  else ⟨write storage.values slot value, (slot, storage.get slot) :: storage.replaced⟩

/-- Put replaced values back, newest first, until `count` are left. -/
def rewind (count : Nat) (storage : TransientStorage) : TransientStorage :=
  let surplus := storage.replaced.length - count
  ⟨(storage.replaced.take surplus).foldl (fun values entry => write values entry.1 entry.2)
      storage.values,
    storage.replaced.drop surplus⟩

instance : Checkpointed TransientStorage where
  key := "transient_storage"
  mark storage := (storage.replaced.length, storage)
  rewind := rewind
  commit _ := {}

end TransientStorage

end HostedEvm
