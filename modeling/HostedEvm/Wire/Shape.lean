import HostedEvm.Text.Base
import HostedEvm.Wire.Form

set_option autoImplicit false

/-!
Strict plain data.

A shape reads the forms of values of one kind and writes one of them for every value. A record is
described by its fields, one after another. It is read from a record, where fields of other names
are passed over, or from a list of the fields in their order.
-/

namespace HostedEvm

/-- How values of a kind are read from plain data and written as it. -/
structure Shape (Kind : Type) where
  read? : Form → Option Kind
  write : Kind → Form

namespace Shape

/-- Whether a written value is read back as itself. -/
def keeps {Kind : Type} [DecidableEq Kind] (shape : Shape Kind) (value : Kind) : Bool :=
  shape.read? (shape.write value) = some value

def natBelow? (bound : Nat) : Form → Option Nat
  | .number value => if 0 ≤ value ∧ value < bound then some value.toNat else none
  | _ => none

def number : Shape UInt64 where
  read? form := (natBelow? UInt64.size form).map UInt64.ofNat
  write value := .number value.toNat

def flag : Shape Bool where
  read?
    | .flag value => some value
    | _ => none
  write := .flag

def text : Shape String where
  read?
    | .text value => some value
    | _ => none
  write := .text

/-- The amount that a text spells in the base of its mark, with or without underscores. -/
def amountOfText? (text : String) : Option Word :=
  let (base, digits) := Text.splitBase text.toList
  let value? := Text.natInBase? base (digits.filter (· ≠ '_'))
  (value?.filter (· ≤ Word.greatest.toNat)).map (BitVec.ofNat 256)

/-- An amount as text, written in hexadecimal without leading zeros. -/
def amountText : Shape Word where
  read?
    | .text value => amountOfText? value
    | _ => none
  write value := .text (Text.Hex.minimal value.toNat)

/-- An amount as text, or as a number if it is below `2 ^ 64`. -/
def amount : Shape Word where
  read? form :=
    match form with
    | .text value => amountOfText? value
    | form => (natBelow? UInt64.size form).map (BitVec.ofNat 256)
  write := amountText.write

/-- A byte string in hexadecimal. It may be read from a list of bytes. -/
def bytes : Shape Bytes where
  read?
    | .text value => Text.Hex.decode? value
    | .list items => items.mapM fun item => (natBelow? 256 item).map UInt8.ofNat
    | _ => none
  write := Form.ofBytes

/-- The items of a list without the last one, if it stands behind a number of others and is no
byte. -/
def withoutStray (size : Nat) (items : List Form) : List Form :=
  match items.drop size with
  | [last] => if (natBelow? 256 last).isNone then items.take size else items
  | _ => items

/-- The bytes of a form, if there are as many of them as wanted. A list may have one more item, as
long as it is no byte. -/
def sizedBytes? (size : Nat) (form : Form) : Option Bytes :=
  let form := match form with
    | .list items => .list (withoutStray size items)
    | form => form
  (bytes.read? form).filter fun content => content.length = size

/-- A hash, with all of its digits. -/
def hash : Shape Word where
  read? form := (sizedBytes? 32 form).map Bytes.toWord
  write := Form.ofWord

/-- An address, with all of its digits. -/
def address : Shape Address where
  read? form := (sizedBytes? 20 form).map Bytes.toAddress
  write := Form.ofAddress

def list {Item : Type} (shape : Shape Item) : Shape (List Item) where
  read?
    | .list items => items.mapM shape.read?
    | _ => none
  write := Form.ofList shape.write

/-- A value that may be absent. -/
def option {Item : Type} (shape : Shape Item) : Shape (Option Item) where
  read?
    | .null => some none
    | form => (shape.read? form).map some
  write := Form.ofOption shape.write

end Shape

/-- Fields of the records of a kind: their names, what is made of their forms and how they are
written. -/
structure Fields (Whole Made : Type) where
  names : List String
  read? : Form → Option Made
  write : Whole → List (String × Form)

namespace Fields

variable {Whole Part Made : Type}

/-- No fields yet. -/
def start (make : Made) : Fields Whole Made := ⟨[], fun _ => some make, fun _ => []⟩

/-- One more field, read from its form if there is one. -/
def add (fields : Fields Whole (Part → Made)) (name : String) (read? : Option Form → Option Part)
    (write : Whole → List (String × Form)) : Fields Whole Made where
  names := fields.names ++ [name]
  read? form := do
    let make ← fields.read? form
    let part ← read? (form.field? name)
    return make part
  write whole := fields.write whole ++ write whole

def required (fields : Fields Whole (Part → Made)) (name : String) (shape : Shape Part)
    (part : Whole → Part) : Fields Whole Made :=
  fields.add name (fun form? => form?.bind shape.read?) fun whole =>
    [(name, shape.write (part whole))]

def defaulted (fields : Fields Whole (Part → Made)) (name : String) (shape : Shape Part)
    (default : Part) (part : Whole → Part) : Fields Whole Made :=
  fields.add name
    (fun form? => match form? with
      | some form => shape.read? form
      | none => some default)
    fun whole => [(name, shape.write (part whole))]

/-- A field whose value may be absent. -/
def optional (fields : Fields Whole (Option Part → Made)) (name : String) (shape : Shape Part)
    (part : Whole → Option Part) : Fields Whole Made :=
  fields.defaulted name shape.option none part

/-- A field that is left out when its value is absent. -/
def omitted (fields : Fields Whole (Option Part → Made)) (name : String) (shape : Shape Part)
    (part : Whole → Option Part) : Fields Whole Made :=
  fields.add name
    (fun form? => match form? with
      | some form => shape.option.read? form
      | none => some none)
    fun whole => (part whole).toList.map fun value => (name, shape.write value)

/-- Read fields from a record, or from a list whose length is permitted. -/
def readAs? (fields : Fields Whole Whole) (permits : Nat → Bool) (form : Form) : Option Whole :=
  match form with
  | .record _ => fields.read? form
  | .list items =>
    if permits items.length then fields.read? (.record (fields.names.zip items)) else none
  | _ => none

/-- A record. In a list, every field must stand. -/
def record (fields : Fields Whole Whole) : Shape Whole where
  read? := fields.readAs? (· = fields.names.length)
  write whole := .record (fields.write whole)

/-- A record of which every field has a default. In a list, the last fields may be missing, and
`surplus` tells whether more items may stand behind them. -/
def lenientRecord (fields : Fields Whole Whole) (surplus : Bool) : Shape Whole where
  read? := fields.readAs? fun length => surplus || length ≤ fields.names.length
  write whole := .record (fields.write whole)

end Fields

end HostedEvm
