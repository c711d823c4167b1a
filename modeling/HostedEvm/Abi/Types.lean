import HostedEvm.Breakdown
import HostedEvm.Text.Number

set_option autoImplicit false

/-!
Types of call arguments, as declared and as resolved.

A declaration may name a type that does not exist. It keeps its text, from which selectors are
computed, and stands for an `AbiType` only if every name in it is known.
-/

namespace HostedEvm.Abi

/-- A type of values in calls, results and events. -/
inductive AbiType
  | uint (bits : Nat)
  | int (bits : Nat)
  | bool
  | address
  | fixedBytes (size : Nat)
  /-- An address with a selector. -/
  | function
  | bytes
  | string
  | array (element : AbiType)
  | fixedArray (element : AbiType) (count : Nat)
  | tuple (parts : List AbiType)

inductive TypeName
  | root (name : String)
  | array (element : TypeName)
  | fixedArray (element : TypeName) (count : Nat)
  | tuple (parts : List TypeName)

namespace AbiType

/-- The width written behind the name of a sized type. -/
def width? (digits : List Char) (valid : Nat → Bool) : Option Nat :=
  (Text.natOfDecimal? digits).filter valid

/-- The widths of integers: the multiples of eight up to 256. -/
def isIntegerWidth (bits : Nat) : Bool := 0 < bits && bits ≤ 256 && bits % 8 = 0

/-- The sizes of byte strings that fit a word. -/
def isWordSize (size : Nat) : Bool := 0 < size && size ≤ 32

def ofSizedName? : List Char → Option AbiType
  | 'u' :: 'i' :: 'n' :: 't' :: digits => (width? digits isIntegerWidth).map .uint
  | 'i' :: 'n' :: 't' :: digits => (width? digits isIntegerWidth).map .int
  | 'b' :: 'y' :: 't' :: 'e' :: 's' :: digits => (width? digits isWordSize).map .fixedBytes
  | _ => none

def ofName? (name : String) : Option AbiType :=
  if name = "bool" then some .bool
  else if name = "address" then some .address
  else if name = "function" then some .function
  else if name = "bytes" then some .bytes
  else if name = "string" then some .string
  else ofSizedName? name.toList

mutual

/-- The number of words that a value takes at least. -/
def minimumWords : AbiType → Except Breakdown Nat
  | .fixedArray element count => do
    let words ← minimumWords element
    Counter.product count words
  | .tuple parts => minimumWordsOfAll 0 parts
  | _ => .ok 1

/-- The number of words that values of several types take at least, behind other words. -/
def minimumWordsOfAll : Nat → List AbiType → Except Breakdown Nat
  | sum, [] => .ok sum
  | sum, type :: rest => do
    let words ← minimumWords type
    let sum ← Counter.sum sum words
    minimumWordsOfAll sum rest

end

mutual

/-- The number of words of a blank value, in which every array of unknown length has one element. -/
def blankWords : AbiType → Nat
  | .array element => blankWords element
  | .fixedArray element count => count * blankWords element
  | .tuple parts => blankWordsOfAll parts
  | _ => 1

/-- The number of words of several blank values. -/
def blankWordsOfAll : List AbiType → Nat
  | [] => 0
  | type :: rest => blankWords type + blankWordsOfAll rest

end

/-- The number of words from which on a blank value is too large to be laid out. -/
def blankLimit : Nat := 1 <<< 32

/-- Whether a blank value can be laid out, as it is before a value is read into it. -/
def hasBlank (type : AbiType) : Bool := blankWords type < blankLimit

mutual

/-- Whether the content of a value stands behind an offset. -/
def isDynamic : AbiType → Bool
  | .bytes | .string | .array _ => true
  | .fixedArray element _ => isDynamic element
  | .tuple parts => anyDynamic parts
  | _ => false

def anyDynamic : List AbiType → Bool
  | [] => false
  | type :: rest => isDynamic type || anyDynamic rest

end

end AbiType

namespace TypeName

/-- The text of a tuple whose parts are not listed. -/
def emptyTuple : String := "tuple"

mutual

/-- The text from which selectors are computed. -/
def canonical : TypeName → String
  | .root name => name
  | .array element => canonical element ++ "[]"
  | .fixedArray element count => canonical element ++ "[" ++ Text.decimal count ++ "]"
  | .tuple [] => emptyTuple
  | .tuple parts => "(" ++ ",".intercalate (canonicalOfAll parts) ++ ")"

def canonicalOfAll : List TypeName → List String
  | [] => []
  | type :: rest => canonical type :: canonicalOfAll rest

end

/-- The text shown to a reader, in which a tuple does not list its parts. -/
def shown : TypeName → String
  | .root name => name
  | .array element => shown element ++ "[]"
  | .fixedArray element count => shown element ++ "[" ++ Text.decimal count ++ "]"
  | .tuple _ => emptyTuple

mutual

/-- The type that the text stands for, if every name in it is known. A tuple without parts stands
for none. -/
def resolve? : TypeName → Option AbiType
  | .root name => AbiType.ofName? name
  | .tuple [] => none
  | .array element => (resolve? element).map .array
  | .fixedArray element count => (resolve? element).map (.fixedArray · count)
  | .tuple parts => (resolveAll? parts).map .tuple

/-- The types that several texts stand for. -/
def resolveAll? : List TypeName → Option (List AbiType)
  | [] => some []
  | type :: rest =>
    match resolve? type, resolveAll? rest with
    | some head, some tail => some (head :: tail)
    | _, _ => none

end

end TypeName

end HostedEvm.Abi
