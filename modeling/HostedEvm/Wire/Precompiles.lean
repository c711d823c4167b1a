import HostedEvm.Abi.Signature
import HostedEvm.Precompile.Registry
import HostedEvm.Wire.Commands
import HostedEvm.Wire.Script
import HostedEvm.Wire.Values

set_option autoImplicit false

/-!
Precompiles and their scripts as plain data.
-/

namespace HostedEvm.Form

/-- An operand, which may be the number of an argument. -/
def toOperand {Kind : Type} (read : Form → Kind) (form : Form) : Operand Kind :=
  match form.field? "arg" with
  | some place => .argument place.toNat
  | none => .given (read form)

def toScriptFault (kind reason : String) : Fault :=
  match kind with
  | "reverted" => .reverted reason
  | "codec" => .codec (.custom ("script: " ++ reason))
  | "gas_overflow" => .gasOverflow
  | "nested" => .executionReverted "inner()" (.reverted reason)
  | _ => .state reason

def toScriptCall (form : Form) : Script.Call where
  recipient := (form.item 1).toOperand toAddress
  input := (form.item 2).toOperand toBytes
  gas := (form.item 3).toOperand toAmount
  value := (form.item 4).toOperand toAmount

/-- An action of a script: its name, and its operands behind it. -/
def toAction? (form : Form) : Option Script.Action :=
  let operand := form.item 1
  let other := form.item 2
  match (form.item 0).toText with
  | "ensure_writable" => some .ensureWritable
  | "set" => some (.set (operand.toOperand toWord) (other.toOperand toWord))
  | "add" => some (.add (operand.toOperand toWord) (other.toOperand toAmount))
  | "load" => some (.load (operand.toOperand toWord))
  | "consume" => some (.consume (operand.toOperand toAmount))
  | "emit" => some (.emit operand.toText (other.toList (toPair toText (toOperand toText))))
  | "call" => some (.call form.toScriptCall)
  | "try_call" => some (.tryCall form.toScriptCall)
  | "push" => some (.push operand.toValue)
  | "args" => some .arguments
  | "caller" => some .caller
  | "self" => some .self
  | "value" => some .value
  | "readonly" => some .readonly
  | "gas" => some .gas
  | "clear" => some .clear
  | "db" => operand.toSessionStep.map .step
  | "sub_refund" => some (.subRefund operand.toGas)
  | "fail" => some (.fail (toScriptFault operand.toText other.toText))
  | _ => none

def toMethod (form : Form) : Method where
  signature := (form.field "sig").toText
  requiredGas := (form.field "gas").toGas
  handler := Script.handler ((form.field "script").items.filterMap toAction?)

/-- An interface given by its declarations in text. -/
def toInterface (form : Form) : Abi.Interface :=
  .ofDeclarations (form.items.filterMap fun item => Abi.Signature.read? item.toText)

def toReaders : Form → Map String AttributeReader
  | .record fields =>
    fields.foldl
      (fun readers (key, name) =>
        match AttributeReader.named? name.toText with
        | some reader => readers.insert key reader
        | none => readers)
      ∅
  | _ => ∅

def toPrecompile (form : Form) : Precompile :=
  let address := (form.field "address").toAddress
  let base := (form.field "base").toGas
  let perByte := (form.field "per_byte").toGas
  let contract : MethodContract :=
    { address, interface := (form.field "abi").toInterface
      methods := (form.field "methods").toList toMethod }
  match (form.field "kind").toText with
  | "identity" => .stateless .identity
  | "stateless" =>
    if (form.field "mode").toText = "fail" then .stateless (.failing address base perByte)
    else .stateless (.reversing address base perByte)
  | "stateful" => .stateful contract
  | _ => .dynamic contract (form.field "decoders").toReaders

def toNativeEvent (form : Form) : NativeEvent where
  kind := (form.field "kind").toText
  attributes := (form.field "attributes").toList (toPair toText toText)

/-- The log for a native event, or its absence, or a fault. -/
def ofEventLog (book : EventBook) (event : NativeEvent) : Form :=
  ofOutcome ofFault (ofOption ofLog) (book.logOf event)

/-- A precompile ready to run, and its price for an input. -/
def ofContainer (input : Bytes) (container : Container) : Form :=
  let selectors := match container with
    | .pure _ => .null
    | .dispatching table =>
      .record [("address", ofAddress table.address),
        ("list", ofList (fun selector => ofBytes (Bytes.bigEndian 4 selector.toNat))
          (Map.listKeys table.methods))]
  .record [("address", ofAddress container.address), ("methods", ofCount container.methodCount),
    ("selectors", selectors), ("events", ofOption (fun book => ofCount book.size) container.book?),
    ("required_gas", ofGas (container.requiredGas input))]

def ofCallRecord (record : CallRecord) : Form :=
  .record [("caller", ofAddress record.message.caller), ("to", ofAddress record.message.recipient),
    ("input", ofBytes record.message.input), ("gas", ofGas record.message.gas),
    ("value", ofAmount record.message.value), ("gas_config", ofPrices record.prices)]

end HostedEvm.Form
