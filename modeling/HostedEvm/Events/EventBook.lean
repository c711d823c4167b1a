import HostedEvm.Abi.Interface
import HostedEvm.Abi.Literal
import HostedEvm.Events.NativeEvent
import HostedEvm.Receipt
import HostedEvm.Text.SnakeCase

set_option autoImplicit false

/-!
Logs for the events of host modules.

A book knows the declared events by the kind of native event that stands for them, which is the
event's name in lower case. Every parameter takes the value of the attribute with its name in lower
case; the indexed ones become topics, and the others are encoded together as the data.
-/

namespace HostedEvm

open Abi

structure EventBook where
  /-- The contract whose logs are written. -/
  address : Address
  /-- The events by kind. Of several events of one kind the last one declared counts. -/
  events : Map String Event
  /-- The attributes that are read in a way of their own. -/
  readers : Map String AttributeReader

namespace EventBook

def ofInterface (address : Address) (interface : Interface)
    (readers : Map String AttributeReader) : EventBook where
  address := address
  events := interface.events.foldl
    (fun events event => events.insert (Text.snakeCase event.name) event) ∅
  readers := readers

def handles (book : EventBook) (kind : String) : Bool := book.events.contains kind

/-- The number of kinds that have a declared event. -/
def size (book : EventBook) : Nat := book.events.size

/-- What a parameter adds to a log. -/
inductive Field
  | topic (word : Word)
  | data (value : Value)

/-- The topic among the fields of a log. -/
def Field.topic? : Field → Option Word
  | .topic word => some word
  | .data _ => none

/-- The value among the fields of a log. -/
def Field.data? : Field → Option Value
  | .topic _ => none
  | .data value => some value

def valueOf (book : EventBook) (event : Event) (param : Param) (key text : String) :
    Except Fault Value :=
  match book.readers[key]? with
  | some reader => reader text
  | none =>
    ((Misread.demand param.type.resolve?).bind fun type => Literal.read type text).mapError
      (Misread.toFault (.badAttribute event.name key))

/-- What a value adds to a log as the value of a parameter. -/
def fieldOf (event : Event) (param : Param) (key : String) (value : Value) :
    Except Fault Field :=
  if param.indexed then
    match value.topic? with
    | some word => .ok (.topic word)
    | none => .error (.codec (.noTopic event.name key param.type.shown))
  else .ok (.data value)

/-- What a parameter adds to the log of a native event. -/
def field (book : EventBook) (event : Event) (native : NativeEvent) (param : Param) :
    Except Fault Field :=
  let key := Text.snakeCase param.name
  match native.attribute? key with
  | none => .error (.missingAttribute event.name key)
  | some text => do
    let value ← book.valueOf event param key text
    fieldOf event param key value

def layOut (book : EventBook) (event : Event) (fields : List Field) : Log where
  address := book.address
  topics := (if event.anonymous then [] else [event.topic]) ++ fields.filterMap Field.topic?
  data := Value.encodeAll (fields.filterMap Field.data?)

def logOf (book : EventBook) (native : NativeEvent) : Except Fault (Option Log) :=
  match book.events[native.kind]? with
  | none => .ok none
  | some event => do
    let fields ← event.inputs.mapM (book.field event native)
    return some (book.layOut event fields)

end EventBook

end HostedEvm
