import HostedEvm.Precompile.Container

set_option autoImplicit false

/-!
The precompiles of a chain.

A call of a precompile has a gas meter of its own, to which the fixed price, what the handler
consumes and the storage work of the handler itself are charged. It fails as a whole, with the
state taken back, when the handler fails or when more gas was consumed than supplied. Only a call
in which the host gave up leaves the state and the storage prices as they are at that moment.
-/

namespace HostedEvm

/-- The precompiles by address, and the storage prices in force while one runs. -/
structure Registry where
  containers : Map Address Container := ∅
  prices : StoragePrices := .standard

structure PrecompileResult where
  output : Except Fault Bytes
  gasRemaining : Gas

namespace Registry

/-- Add a precompile whose address is not taken. -/
def add (codec : AbiCodec) (containers : Map Address Container) (precompile : Precompile) :
    Except Fault (Map Address Container) :=
  if containers.contains precompile.address then
    .error (.duplicatePrecompile precompile.address)
  else do
    let container ← precompile.build codec
    return containers.insert precompile.address container

def withCodec (codec : AbiCodec) (precompiles : List Precompile) (prices : StoragePrices) :
    Except Fault Registry := do
  let containers ← precompiles.foldlM (add codec) ∅
  return { containers, prices }

def ofPrecompiles (precompiles : List Precompile) (prices : StoragePrices) :
    Except Fault Registry :=
  withCodec .standard precompiles prices

def get? (registry : Registry) (address : Address) : Option Container :=
  registry.containers[address]?

def contains (registry : Registry) (address : Address) : Bool :=
  registry.containers.contains address

def size (registry : Registry) : Nat := registry.containers.size

/-- The addresses of the precompiles in ascending order. -/
def active (registry : Registry) : List Address := Map.listKeys registry.containers

/-- Consume the fixed price of a call, and run the precompile if the price was paid. -/
def execute (container : Container) (scene : Scene) (input : Bytes) (machine : Machine) :
    Except Fault Bytes × Meter × Machine :=
  match Meter.unlimited.consume (container.requiredGas input) with
  | (.ok (), meter) => container.run scene input meter machine
  | (.error fault, meter) => (.error fault, meter, machine)

/-- The outcome of a call that consumed an amount of gas. -/
def settle (output : Except Fault Bytes) (consumed supplied : Gas) : PrecompileResult :=
  if consumed > supplied then ⟨.error (.outOfGas consumed supplied), 0⟩
  else ⟨output, supplied.minus consumed⟩

/-- Take the machine back to a snapshot if the call failed. -/
def rewindOnFailure (snapshot : Snapshot) (result : PrecompileResult) (machine : Machine) :
    PrecompileResult × Machine :=
  match result.output with
  | .ok _ => (result, machine)
  | .error _ =>
    match machine.rewound snapshot with
    | (.ok (), machine) => (result, machine)
    | (.error fault, machine) => ({ result with output := .error fault }, machine)

def run (registry : Registry) (nested : Answer) (invocation : Invocation) (input : Bytes)
    (supplied : Gas) (machine : Machine) : PrecompileResult × Machine :=
  match registry.get? invocation.address with
  | none => (⟨.error (.precompileNotFound invocation.address), supplied⟩, machine)
  | some container =>
    let (snapshot, state) := machine.state.snapshot
    let prices := state.prices
    let before := state.store.charged
    let machine := { machine with state := state.withPrices registry.prices }
    let (output, meter, machine) :=
      execute container ⟨invocation, container.book?, nested⟩ input machine
    match output with
    | .error (.breakdown cause) => (⟨.error (.breakdown cause), 0⟩, machine)
    | output =>
      let storageUsed := machine.state.store.charged.minus before
      let consumed := meter.txConsumed.plus storageUsed
      rewindOnFailure snapshot (settle output consumed supplied) (machine.withPrices prices)

end Registry

/-- The addresses of a list of precompiles, sorted and without repetitions. -/
def activeAddresses (precompiles : List Precompile) : List Address :=
  ((precompiles.map Precompile.address).mergeSort BitVec.ule).eraseReps

end HostedEvm
