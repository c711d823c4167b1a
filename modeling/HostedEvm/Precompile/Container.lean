import HostedEvm.Abi.Decode
import HostedEvm.Precompile.Contract

set_option autoImplicit false

/-!
Precompiles ready to run.

Building a precompile with methods matches its handlers with the functions of its interface, one to
one by signature, and files them by selector. A call is decoded for the function that its selector
names, given to the handler, and the results are encoded for the same function.
-/

namespace HostedEvm

open Abi

/-- How the arguments of a call are read and its results are written. -/
structure AbiCodec where
  /-- The arguments that an input holds behind its selector. -/
  decodeInput : Function → Bytes → Except Fault (List Value)
  encodeOutput : Function → List Value → Except Fault Bytes

namespace AbiCodec

/-- The encoding of the contract ABI, which takes results of the declared types only. -/
def standard : AbiCodec where
  decodeInput function arguments :=
    (Param.decodeAll function.inputs arguments).mapError (Misread.toFault .mismatch)
  encodeOutput function values :=
    match resolveParams? function.outputs with
    | some types =>
      if Value.haveTypes values types then .ok (Value.encodeAll values)
      else .error (.codec .mismatch)
    | none => .error (.codec .mismatch)

end AbiCodec

/-- A handler matched with its function. -/
structure BoundMethod where
  function : Function
  method : Method

structure MethodTable where
  address : Address
  methods : Map Selector BoundMethod
  codec : AbiCodec
  /-- The declared events, for a precompile whose events become logs. -/
  book : Option EventBook

/-- A precompile ready to run. -/
inductive Container
  | pure (contract : PureContract)
  | dispatching (table : MethodTable)

/-- The handlers that are not matched yet, by signature. -/
abbrev Handlers := Map String Method

namespace Handlers

/-- Add a handler whose signature is not taken. -/
def add (handlers : Handlers) (method : Method) : Except Fault Handlers :=
  if handlers.contains method.signature then .error (.duplicateHandler method.signature)
  else .ok (handlers.insert method.signature method)

def ofMethods (methods : List Method) : Except Fault Handlers := methods.foldlM add ∅

/-- Match functions in order, and return the table with the handlers left over. -/
def bind : List Function → Handlers → Map Selector BoundMethod →
    Except Fault (Handlers × Map Selector BoundMethod)
  | [], handlers, table => .ok (handlers, table)
  | function :: rest, handlers, table =>
    match handlers[function.signature]? with
    | some method =>
      bind rest (handlers.erase function.signature)
        (table.insert function.selector ⟨function, method⟩)
    | none => .error (.noHandlerForMethod function.signature)

end Handlers

namespace MethodContract

/-- The table of a contract, if its functions and handlers match. -/
def methodTable (contract : MethodContract) : Except Fault (Map Selector BoundMethod) := do
  let handlers ← Handlers.ofMethods contract.methods
  let (rest, table) ← handlers.bind contract.interface.functions ∅
  match Map.listKeys rest with
  | [] => return table
  | signature :: _ => .error (.noMethodForHandler signature)

end MethodContract

namespace MethodTable

/-- The method that an input names. -/
def lookup? (table : MethodTable) (input : Bytes) : Option BoundMethod :=
  if input.length < 4 then none
  else table.methods[BitVec.ofNat 32 (Bytes.toNat (input.take 4))]?

/-- The gas charged before the method runs, and nothing for an input that names none. -/
def requiredGas (table : MethodTable) (input : Bytes) : Gas :=
  match table.lookup? input with
  | some bound => bound.method.requiredGas
  | none => 0

/-- The method that a call is for. -/
def select (table : MethodTable) (input : Bytes) : Except Fault BoundMethod :=
  let selector : Selector := BitVec.ofNat 32 (Bytes.toNat (input.take 4))
  if table.methods.isEmpty then .error (.noMethods table.address)
  else if input.length < 4 then .error (.invalidInput input.length)
  else match table.methods[selector]? with
    | some bound => .ok bound
    | none => .error (.methodNotFound selector)

end MethodTable

namespace BoundMethod

/-- The fault of a method that failed with a cause of its own. -/
def revert {Result : Type} (bound : BoundMethod) : Except Fault Result → Except Fault Result
  | .ok result => .ok result
  | .error cause =>
    .error (if cause.isFatal then cause else .executionReverted bound.method.signature cause)

def run (bound : BoundMethod) (codec : AbiCodec) (scene : Scene) (arguments : List Value)
    (meter : Meter) (machine : Machine) : Except Fault Bytes × Meter × Machine :=
  let (outcome, meter, machine) :=
    (bound.method.handler scene.invocation arguments).run scene meter machine
  (bound.revert (outcome.bind (codec.encodeOutput bound.function)), meter, machine)

end BoundMethod

namespace Container

/-- The account that the precompile is called under. -/
def address : Container → Address
  | .pure contract => contract.address
  | .dispatching table => table.address

/-- The gas charged before the precompile runs. -/
def requiredGas : Container → Bytes → Gas
  | .pure contract, input => contract.requiredGas input
  | .dispatching table, input => table.requiredGas input

/-- The number of methods that can be called. -/
def methodCount : Container → Nat
  | .pure _ => 0
  | .dispatching table => table.methods.size

/-- The declared events of the precompile, if they become logs. -/
def book? : Container → Option EventBook
  | .pure _ => none
  | .dispatching table => table.book

/-- Run the precompile on an input. A call that cannot be decoded fails as it is, and a method that
fails or returns values of other types fails as reverted. -/
def run (container : Container) (scene : Scene) (input : Bytes) (meter : Meter)
    (machine : Machine) : Except Fault Bytes × Meter × Machine :=
  match container with
  | .pure contract => (contract.run input, meter, machine)
  | .dispatching table =>
    match table.select input with
    | .error fault => (.error fault, meter, machine)
    | .ok bound =>
      match table.codec.decodeInput bound.function (input.drop 4) with
      | .error fault => (.error fault, meter, machine)
      | .ok arguments => bound.run table.codec scene arguments meter machine

end Container

namespace Precompile

/-- Build a precompile with the factory of a kind, which builds no other kind. Its calls are read
and written with the codec. -/
def buildAs (factory : PrecompileKind) (codec : AbiCodec) (precompile : Precompile) :
    Except Fault Container :=
  match factory, precompile with
  | .stateless, .stateless contract => .ok (.pure contract)
  | .stateful, .stateful contract => do
    let methods ← contract.methodTable
    return .dispatching ⟨contract.address, methods, codec, none⟩
  | .dynamic, .dynamic contract readers => do
    let methods ← contract.methodTable
    let book := EventBook.ofInterface contract.address contract.interface readers
    return .dispatching ⟨contract.address, methods, codec, some book⟩
  | factory, other => .error (.wrongFactory factory other.kind)

/-- Build a precompile with the factory of its own kind. -/
def build (codec : AbiCodec) (precompile : Precompile) : Except Fault Container :=
  precompile.buildAs precompile.kind codec

end Precompile

end HostedEvm
