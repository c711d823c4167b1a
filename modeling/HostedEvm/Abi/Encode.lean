import HostedEvm.Abi.Value
import HostedEvm.Keccak

set_option autoImplicit false

/-!
Values as bytes.

A sequence is encoded as a head and a tail. The head holds the static values themselves and, for
each dynamic one, the offset of its content; the tail holds the contents in order.
-/

namespace HostedEvm.Abi

def lengthWord (n : Nat) : Bytes := Bytes.bigEndian 32 n

/-- A value within a sequence: its bytes, and whether they stand in the tail. -/
structure Part where
  isDynamic : Bool
  content : Bytes

namespace Part

/-- The room that a value takes in the head. -/
def headSize (part : Part) : Nat := if part.isDynamic then 32 else part.content.length

/-- The room that the head of a sequence takes. -/
def headLength : List Part → Nat
  | [] => 0
  | part :: rest => part.headSize + headLength rest

/-- The head of a sequence whose next content stands at `offset`. -/
def heads : (offset : Nat) → List Part → Bytes
  | _, [] => []
  | offset, part :: rest =>
    if part.isDynamic then lengthWord offset ++ heads (offset + part.content.length) rest
    else part.content ++ heads offset rest

def tails (parts : List Part) : Bytes :=
  parts.flatMap fun part => if part.isDynamic then part.content else []

def assemble (parts : List Part) : Bytes :=
  heads (headLength parts) parts ++ tails parts

end Part

/-- A byte string behind its length, with zeros up to a whole number of words. -/
def packed (bytes : Bytes) : Bytes := lengthWord bytes.length ++ Bytes.padRight 32 bytes

def textBytes (text : String) : Bytes := text.toUTF8.toList

namespace Value

mutual

/-- The bytes of a value, without the offset that leads to them. -/
def encode : Value → Bytes
  | .bytes content => packed content
  | .string text => packed (textBytes text)
  | .array values => lengthWord values.length ++ Part.assemble (parts values)
  | .fixedArray values => Part.assemble (parts values)
  | .tuple values => Part.assemble (parts values)
  | value => (value.word?.map Bytes.ofWord).getD []

def parts : List Value → List Part
  | [] => []
  | value :: rest => ⟨isDynamic value, encode value⟩ :: parts rest

end

/-- The bytes of several values as the members of one sequence. -/
def encodeAll (values : List Value) : Bytes := Part.assemble (parts values)

/-- The word that stands for a value among the topics of a log. A text or byte string is hashed,
and so are the words of an array; a tuple or a nested array has no topic. -/
def topic? : Value → Option Word
  | .string text => some (Keccak.digest (textBytes text))
  | .bytes content => some (Keccak.digest content)
  | .array values | .fixedArray values =>
    (values.mapM word?).map fun words => Keccak.digest (words.flatMap Bytes.ofWord)
  | value => value.word?

end Value

end HostedEvm.Abi
