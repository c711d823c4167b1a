import HostedEvm.Text.Checksum
import HostedEvm.Text.Number

set_option autoImplicit false

/-!
Plain data.

A form is what a host sends or receives: nothing, a flag, a number, a text, a list or a record of
named fields. Amounts travel as decimal text, because they do not fit the numbers of every host,
and hashes, addresses and byte strings as hexadecimal text. Reading is lenient: what is missing or
of another shape counts as zero or empty.
-/

namespace HostedEvm

inductive Form
  | null
  | flag (value : Bool)
  | number (value : Int)
  /-- A number that is not whole. -/
  | fraction
  | text (value : String)
  | list (items : List Form)
  | record (fields : List (String × Form))
  deriving Inhabited

namespace Form

def isNull : Form → Bool
  | .null => true
  | _ => false

def field? (form : Form) (name : String) : Option Form :=
  match form with
  | .record fields => (fields.find? fun entry => entry.1 = name).map Prod.snd
  | _ => none

/-- The field of a record with a name, or nothing. -/
def field (form : Form) (name : String) : Form := (form.field? name).getD .null

def items : Form → List Form
  | .list items => items
  | _ => []

/-- The item at a place of a list, or nothing. -/
def item (form : Form) (place : Nat) : Form := form.items[place]?.getD .null

def toText : Form → String
  | .text value => value
  | _ => ""

def toFlag : Form → Bool
  | .flag value => value
  | _ => false

/-- A natural number, plain or as decimal text. -/
def toNat : Form → Nat
  | .number value => value.toNat
  | .text value => (Text.natOfDecimal? value.toList).getD 0
  | _ => 0

/-- An integer, plain or as decimal text. -/
def toInt : Form → Int
  | .number value => value
  | .text value =>
    match value.toList with
    | '-' :: digits => -((Text.natOfDecimal? digits).getD 0 : Int)
    | digits => (Text.natOfDecimal? digits).getD 0
  | _ => 0

/-- A number below `2 ^ 64`. -/
def toGas (form : Form) : UInt64 := UInt64.ofNat form.toNat

/-- A 256-bit number in decimal. -/
def toAmount (form : Form) : Word := BitVec.ofNat 256 form.toNat

/-- A number in hexadecimal. -/
def toHexNat (form : Form) : Nat :=
  (Text.Hex.natOfDigits? (Text.Hex.unmarked form.toText.toList)).getD 0

def toWord (form : Form) : Word := BitVec.ofNat 256 form.toHexNat

def toAddress (form : Form) : Address := BitVec.ofNat 160 form.toHexNat

def toBytes (form : Form) : Bytes := (Text.Hex.decode? form.toText).getD []

def toList {Item : Type} (read : Form → Item) (form : Form) : List Item := form.items.map read

def toOption {Item : Type} (read : Form → Item) (form : Form) : Option Item :=
  if form.isNull then none else some (read form)

/-- What has a default when it is missing. -/
def toDefault {Item : Type} (read : Form → Item) (default : Item) (form : Form) : Item :=
  (form.toOption read).getD default

/-- What stands in a list of two. -/
def toPair {First Second : Type} (first : Form → First) (second : Form → Second) (form : Form) :
    First × Second :=
  (first (form.item 0), second (form.item 1))

def ofCount (n : Nat) : Form := .number n

/-- A natural number in decimal. -/
def ofNat (n : Nat) : Form := .text (Text.decimal n)

/-- A number below `2 ^ 64` in decimal. -/
def ofGas (n : UInt64) : Form := ofNat n.toNat

/-- A 256-bit number in decimal. -/
def ofAmount (word : Word) : Form := ofNat word.toNat

def ofWord (word : Word) : Form := .text word.hex

def ofAddress (address : Address) : Form := .text address.hex

def ofBytes (bytes : Bytes) : Form := .text (Text.Hex.encode bytes)

def ofOption {Item : Type} (write : Item → Form) : Option Item → Form
  | some value => write value
  | none => .null

def ofList {Item : Type} (write : Item → Form) (values : List Item) : Form :=
  .list (values.map write)

mutual

/-- How deep lists and records are nested in a form. -/
def depth : Form → Nat
  | .list items => depthOfItems items + 1
  | .record fields => depthOfFields fields + 1
  | _ => 1

/-- How deep the deepest of several items is nested. -/
def depthOfItems : List Form → Nat
  | [] => 0
  | item :: rest => max (depth item) (depthOfItems rest)

/-- How deep the deepest of several fields is nested. -/
def depthOfFields : List (String × Form) → Nat
  | [] => 0
  | (_, value) :: rest => max (depth value) (depthOfFields rest)

end

end Form

end HostedEvm
