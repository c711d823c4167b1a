import HostedEvm.Abi.Types
import HostedEvm.Bytes

set_option autoImplicit false

/-!
Values of call arguments, results and event attributes.

Integers carry their width and short byte strings their size, so that a value tells by itself
which type it has. An integer is kept as the word that encodes it.
-/

namespace HostedEvm.Abi

inductive Value
  | uint (word : Word) (bits : Nat)
  | int (word : Word) (bits : Nat)
  | bool (value : Bool)
  | address (account : Address)
  | fixedBytes (word : Word) (size : Nat)
  /-- An address with a selector behind it. -/
  | function (target : BitVec 192)
  | bytes (content : Bytes)
  | string (text : String)
  | array (values : List Value)
  | fixedArray (values : List Value)
  | tuple (values : List Value)

namespace Value

/-- A 256-bit unsigned number. -/
def ofWord (word : Word) : Value := .uint word 256

def word? : Value → Option Word
  | .uint word _ | .int word _ | .fixedBytes word _ => some word
  | .bool flag => some (if flag then 1 else 0)
  | .address account => some (account.setWidth 256)
  | .function target => some (target.setWidth 256 <<< 64)
  | _ => none

mutual

/-- Whether a value has a type. An integer's word may be out of the range of its width, and a tuple
may have more or fewer members than its type has parts. -/
def hasType : Value → AbiType → Bool
  | .uint _ bits, .uint declared => bits = declared
  | .int _ bits, .int declared => bits = declared
  | .bool _, .bool => true
  | .address _, .address => true
  | .fixedBytes _ size, .fixedBytes declared => size = declared
  | .function _, .function => true
  | .bytes _, .bytes => true
  | .string _, .string => true
  | .array values, .array element => allHaveType values element
  | .fixedArray values, .fixedArray element count =>
    values.length = count && allHaveType values element
  | .tuple values, .tuple parts => startWithTypes values parts
  | _, _ => false

def allHaveType : List Value → AbiType → Bool
  | [], _ => true
  | value :: rest, type => hasType value type && allHaveType rest type

/-- Whether each value has the type in its place, as far as there are both. -/
def startWithTypes : List Value → List AbiType → Bool
  | value :: values, type :: types => hasType value type && startWithTypes values types
  | _, _ => true

end

/-- Whether there are as many values as types, and each has its own. -/
def haveTypes (values : List Value) (types : List AbiType) : Bool :=
  values.length = types.length && startWithTypes values types

mutual

/-- Whether the content of a value stands behind an offset. -/
def isDynamic : Value → Bool
  | .bytes _ | .string _ | .array _ => true
  | .fixedArray values | .tuple values => anyDynamic values
  | _ => false

def anyDynamic : List Value → Bool
  | [] => false
  | value :: rest => isDynamic value || anyDynamic rest

end

end Value

end HostedEvm.Abi
