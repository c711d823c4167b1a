import HostedEvm.Abi.Types
import HostedEvm.Fault
import HostedEvm.Keccak

set_option autoImplicit false

/-!
Declared functions and events.

A function is named by its signature, the name with the types of its parameters, and called by a
selector, the first bytes of the signature's digest. An event is named by the whole digest. An
interface lists its functions and its events in the order of their names.
-/

namespace HostedEvm.Abi

structure Param where
  name : String
  type : TypeName
  /-- Whether an event keeps the value among its topics. -/
  indexed : Bool := false

/-- The name of something declared with the types of its parameters. -/
def signatureText (name : String) (params : List Param) : String :=
  name ++ "(" ++ ",".intercalate (params.map fun param => param.type.canonical) ++ ")"

def digestOfText (text : String) : Word := Keccak.digest text.toUTF8.toList

structure Function where
  name : String
  inputs : List Param
  outputs : List Param := []

structure Event where
  name : String
  inputs : List Param
  /-- Whether its logs do without the topic that names the event. -/
  anonymous : Bool := false

def Function.signature (function : Function) : String :=
  signatureText function.name function.inputs

/-- The first four bytes of a call of the function. -/
def Function.selector (function : Function) : Selector :=
  ((digestOfText function.signature) >>> 224).setWidth 32

def Event.signature (event : Event) : String := signatureText event.name event.inputs

/-- The first topic of the event's logs. -/
def Event.topic (event : Event) : Word := digestOfText event.signature

inductive Declaration
  | function (function : Function)
  | event (event : Event)
  | error (name : String) (inputs : List Param)
  /-- The code that creates the contract. -/
  | creation (inputs : List Param)

/-- The functions and events of a contract, each in the order of their names. -/
structure Interface where
  functions : List Function := []
  events : List Event := []

/-- An item placed behind those whose names are not greater. -/
def placeByName {Item : Type} (name : Item → String) (item : Item) : List Item → List Item
  | [] => [item]
  | first :: rest =>
    if name item < name first then item :: first :: rest
    else first :: placeByName name item rest

namespace Interface

/-- The interface with one more declaration. Only functions and events are kept. -/
def add (interface : Interface) : Declaration → Interface
  | .function function =>
    { interface with functions := placeByName Function.name function interface.functions }
  | .event event => { interface with events := placeByName Event.name event interface.events }
  | .error _ _ | .creation _ => interface

def ofDeclarations (declarations : List Declaration) : Interface := declarations.foldl add {}

end Interface

/-- The types that parameters stand for, if all are known. -/
def resolveParams? (params : List Param) : Option (List AbiType) :=
  params.mapM fun param => param.type.resolve?

end HostedEvm.Abi
