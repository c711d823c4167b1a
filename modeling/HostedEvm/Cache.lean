import HostedEvm.Breakdown

set_option autoImplicit false

/-!
A cache with room for a fixed number of entries.

Entries stand in the order of their last use, newest first. A new entry in a full cache takes the
place of the one that was not used for the longest time.
-/

namespace HostedEvm

structure Cache (Key Value : Type) where
  capacity : Nat
  entries : List (Key × Value) := []

namespace Cache

/-- What keeps a cache with room for `capacity` entries from being set up: its table, of which
seven eighths may be full, stands in memory from the start. -/
def breakdown? (capacity : Nat) : Option Breakdown :=
  if 7 * (1 <<< 55) < capacity then some .table else none

variable {Key Value : Type} [DecidableEq Key]

/-- An empty cache with room for at least one entry. -/
def ofCapacity (capacity : Nat) : Cache Key Value := { capacity := max capacity 1 }

/-- The value under a key, without counting as a use. -/
def peek? (cache : Cache Key Value) (key : Key) : Option Value :=
  (cache.entries.find? fun entry => entry.1 = key).map Prod.snd

def others (cache : Cache Key Value) (key : Key) : List (Key × Value) :=
  cache.entries.filter fun entry => entry.1 ≠ key

/-- The value under a key, which becomes the one used last. -/
def get? (cache : Cache Key Value) (key : Key) : Option Value × Cache Key Value :=
  match cache.peek? key with
  | some value => (some value, { cache with entries := (key, value) :: cache.others key })
  | none => (none, cache)

/-- Put a value under a key. In a full cache the entry unused for the longest time goes. -/
def put (cache : Cache Key Value) (key : Key) (value : Value) : Cache Key Value :=
  { cache with entries := ((key, value) :: cache.others key).take cache.capacity }

def contains (cache : Cache Key Value) (key : Key) : Bool := (cache.peek? key).isSome

def size (cache : Cache Key Value) : Nat := cache.entries.length

def clear (cache : Cache Key Value) : Cache Key Value := { cache with entries := [] }

end Cache

end HostedEvm
