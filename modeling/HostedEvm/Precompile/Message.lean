import HostedEvm.State.Journaled

set_option autoImplicit false

/-!
Calls from one contract to another.

A machine is the state together with a record of the nested calls made on it. What answers a call
is a function on machines, so that contracts and interpreters can be described apart from each
other.
-/

namespace HostedEvm

structure Message where
  caller : Address
  recipient : Address
  input : Bytes
  gas : Gas
  value : Word

/-- A nested call, and the storage prices that it started under. -/
structure CallRecord where
  message : Message
  prices : StoragePrices

/-- The state with the nested calls made on it, newest first. -/
structure Machine where
  state : JournaledState := {}
  calls : List CallRecord := []
  /-- How many calls are open, for an interpreter that counts them. -/
  depth : Nat := 0

namespace Machine

def record (machine : Machine) (message : Message) : Machine :=
  { machine with calls := ⟨message, machine.state.prices⟩ :: machine.calls }

def atDepth (machine : Machine) (depth : Nat) : Machine := { machine with depth }

/-- The machine within one more call. -/
def entered (machine : Machine) : Machine := machine.atDepth (machine.depth + 1)

/-- The machine behind a call with the given output. A call in which the host gave up is never
left. -/
def exited (machine : Machine) : (output : Except Fault Bytes) → Machine
  | .error (.breakdown _) => machine
  | _ => machine.atDepth (machine.depth - 1)

def withPrices (machine : Machine) (prices : StoragePrices) : Machine :=
  { machine with state := machine.state.withPrices prices }

/-- Take the state back to a snapshot and keep the record. -/
def rewound (machine : Machine) (snapshot : Snapshot) : Except Fault Unit × Machine :=
  let (outcome, state) := machine.state.rewound snapshot
  (outcome, { machine with state })

end Machine

/-- What answers a call: its output or the reason of its failure, and the machine it leaves. -/
abbrev Answer := Message → Machine → Except Fault Bytes × Machine

/-- Make a nested call that charges nothing for storage, and restore the prices behind it. -/
def Answer.suspended (answer : Answer) : Answer := fun message machine =>
  let prices := machine.state.prices
  let (output, machine) := answer message (machine.withPrices .free)
  (output, machine.withPrices prices)

end HostedEvm
