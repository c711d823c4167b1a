import HostedEvm.Abi.Value
import HostedEvm.Wire.Form

set_option autoImplicit false

/-!
Values of calls as plain data: a list of the kind, the content and, for sized kinds, the size.
-/

namespace HostedEvm.Form

open Abi

/-- The word of a short byte string, with zeros behind it. -/
def toPaddedWord (form : Form) : Word := Bytes.toWord (Bytes.padRight 32 form.toBytes)

/-- A value that is no list of values. -/
def toSimpleValue (kind : String) (content size : Form) : Value :=
  match kind with
  | "uint" => .uint content.toAmount size.toNat
  | "int" => .int (BitVec.ofInt 256 content.toInt) size.toNat
  | "bool" => .bool content.toFlag
  | "address" => .address content.toAddress
  | "fbytes" => .fixedBytes content.toPaddedWord size.toNat
  | "function" => .function (BitVec.ofNat 192 (Bytes.toNat content.toBytes))
  | "bytes" => .bytes content.toBytes
  | _ => .string content.toText

def listValue? (kind : String) (values : List Value) : Option Value :=
  match kind with
  | "array" => some (.array values)
  | "farray" => some (.fixedArray values)
  | "tuple" => some (.tuple values)
  | _ => none

mutual

def toValue : Form → Value
  | .list (.text kind :: .list items :: _) =>
    (listValue? kind (toValues items)).getD (toSimpleValue kind .null .null)
  | .list (.text kind :: rest) =>
    (listValue? kind []).getD
      (toSimpleValue kind (rest[0]?.getD .null) (rest[1]?.getD .null))
  | _ => .tuple []

def toValues : List Form → List Value
  | [] => []
  | item :: rest => toValue item :: toValues rest

end

mutual

def ofValue : Value → Form
  | .uint word bits => .list [.text "uint", ofAmount word, ofCount bits]
  | .int word bits =>
    .list [.text "int", .text (Text.signedDecimal word.toInt), ofCount bits]
  | .bool holds => .list [.text "bool", .flag holds]
  | .address account => .list [.text "address", ofAddress account]
  | .fixedBytes word size => .list [.text "fbytes", ofWord word, ofCount size]
  | .function target =>
    .list [.text "function", ofBytes (Bytes.bigEndian 24 target.toNat)]
  | .bytes content => .list [.text "bytes", ofBytes content]
  | .string content => .list [.text "string", .text content]
  | .array values => .list [.text "array", .list (ofValues values)]
  | .fixedArray values => .list [.text "farray", .list (ofValues values)]
  | .tuple values => .list [.text "tuple", .list (ofValues values)]

def ofValues : List Value → List Form
  | [] => []
  | value :: rest => ofValue value :: ofValues rest

end

end HostedEvm.Form
