import HostedEvm.Precompile.Contract
import HostedEvm.State.Session

set_option autoImplicit false

/-!
Precompiles given as data.

Attribute readers go by their names, and pure contracts by what they do to their input. Handlers are
lists of actions: a script works through its actions in order and collects results, which it returns
at the end. The operands of an action are given in the script or taken from the arguments of the
call.
-/

namespace HostedEvm

open Abi

namespace AttributeReader

/-- A 64-bit number in decimal with an optional plus sign. -/
def number? (digits : List Char) : Option Nat :=
  let digits := match digits with
    | '+' :: rest => rest
    | rest => rest
  (Text.natOfDecimal? digits).filter (· < UInt64.size)

/-- The amount of a coin: a number with the name of the coin in small letters behind it. -/
def coin : AttributeReader := fun text =>
  match number? (text.toList.reverse.dropWhile Char.isLower).reverse with
  | some amount => .ok (.uint (BitVec.ofNat 256 amount) 256)
  | none => .error (.codec (.custom "script: bad coin"))

/-- The number of bytes that the text takes. -/
def length : AttributeReader := fun text => .ok (.uint (BitVec.ofNat 256 text.utf8ByteSize) 64)

/-- The text itself, marked as present. -/
def pair : AttributeReader := fun text => .ok (.tuple [.string text, .bool true])

/-- No value at all. -/
def refuse : AttributeReader := fun _ => .error (.state "script refused")

def named? (name : String) : Option AttributeReader :=
  if name = "coin" then some coin
  else if name = "length" then some length
  else if name = "pair" then some pair
  else if name = "refuse" then some refuse
  else none

end AttributeReader

namespace PureContract

/-- The gas of a price for the call and one for every byte of its input. -/
def meteredGas (base perByte : Gas) (input : Bytes) : Gas :=
  base.plus (perByte.times (UInt64.ofNat input.length))

def reversing (address : Address) (base perByte : Gas) : PureContract where
  address := address
  requiredGas := meteredGas base perByte
  run input := .ok input.reverse

def failing (address : Address) (base perByte : Gas) : PureContract where
  address := address
  requiredGas := meteredGas base perByte
  run _ := .error (.reverted "pure failure")

end PureContract

inductive Operand (Kind : Type)
  | given (value : Kind)
  | argument (place : Nat)

namespace Operand

variable {Kind : Type}

/-- The operand, with arguments read by `read` and a default for those of another type. -/
def resolve (read : Value → Option Kind) (default : Kind) (arguments : List Value) :
    Operand Kind → Kind
  | .given value => value
  | .argument place => (arguments[place]?.bind read).getD default

end Operand

namespace Script

def wordOf? : Value → Option Word := Value.word?

def addressOf? : Value → Option Address
  | .address account => some account
  | _ => none

def bytesOf? : Value → Option Bytes
  | .bytes content => some content
  | .string text => some (textBytes text)
  | _ => none

def textOf? : Value → Option String
  | .string text => some text
  | _ => none

structure Call where
  recipient : Operand Address
  input : Operand Bytes
  gas : Operand Word
  value : Operand Word

inductive Action
  /-- Fail in a call that must not change the state. -/
  | ensureWritable
  | set (slot : Operand Word) (value : Operand Word)
  /-- Add to a slot of the precompile, and return the sum. -/
  | add (slot : Operand Word) (amount : Operand Word)
  | load (slot : Operand Word)
  | consume (amount : Operand Word)
  /-- Emit an event, and return whether it became a log. -/
  | emit (kind : String) (attributes : List (String × Operand String))
  /-- Call an account, and return its output. -/
  | call (call : Call)
  /-- Call an account, and return its output, or nothing if the call fails. -/
  | tryCall (call : Call)
  | push (value : Value)
  | arguments
  | caller
  | self
  | value
  | readonly
  /-- Return the gas consumed so far. -/
  | gas
  /-- Forget the results so far. -/
  | clear
  | step (step : SessionStep)
  /-- Lower the refund, or fail. -/
  | subRefund (amount : Gas)
  | fail (fault : Fault)

/-- The amount of gas that a word stands for, or the greatest when it is out of range. -/
def gasOf (word : Word) : Gas := UInt64.ofNat (min word.toNat Gas.unlimited.toNat)

/-- Make a call, and go on with its output. -/
def perform (arguments : List Value) (call : Call)
    (next : Except Fault Bytes → Program (List Value)) : Program (List Value) :=
  .call (call.recipient.resolve addressOf? 0 arguments) (call.input.resolve bytesOf? [] arguments)
    (gasOf (call.gas.resolve wordOf? 0 arguments)) (call.value.resolve wordOf? 0 arguments) next

/-- The event with its texts filled in. -/
def eventOf (arguments : List Value) (kind : String)
    (attributes : List (String × Operand String)) : NativeEvent where
  kind := kind
  attributes := attributes.map fun (key, text) => (key, text.resolve textOf? "" arguments)

/-- The word of a reply, or zero. -/
def replyWord : Reply → Word
  | .word value => value
  | _ => 0

/-- Carry out actions behind results that were collected before. -/
def toProgram (invocation : Invocation) (arguments : List Value) :
    List Action → Keepsakes → List Value → Program (List Value)
  | [], _, results => .pure results
  | action :: rest, kept, results =>
    let proceed (values : List Value) : Program (List Value) :=
      toProgram invocation arguments rest kept (results ++ values)
    let self := invocation.address
    match action with
    | .ensureWritable => if invocation.readonly then .fail .writeProtection else proceed []
    | .set slot value =>
      .perform
        (.store (.setSlot self (slot.resolve wordOf? 0 arguments)
          (value.resolve wordOf? 0 arguments)))
        fun _ => proceed []
    | .add slot amount =>
      let slot := slot.resolve wordOf? 0 arguments
      .perform (.store (.slot self slot)) fun reply =>
        let sum := (replyWord reply).plus (amount.resolve wordOf? 0 arguments)
        .perform (.store (.setSlot self slot sum)) fun _ => proceed [.ofWord sum]
    | .load slot =>
      .perform (.store (.slot self (slot.resolve wordOf? 0 arguments))) fun reply =>
        proceed [.ofWord (replyWord reply)]
    | .consume amount =>
      .consume (gasOf (amount.resolve wordOf? 0 arguments))
        (Program.orFail fun _ => proceed [])
    | .emit kind attributes =>
      .emit (eventOf arguments kind attributes) (Program.orFail fun added => proceed [.bool added])
    | .call call =>
      perform arguments call (Program.orFail fun output => proceed [.bytes output])
    | .tryCall call =>
      perform arguments call fun
        | .ok output => proceed [.bytes output]
        | .error _ => proceed [.bytes []]
    | .push value => proceed [value]
    | .arguments => proceed arguments
    | .caller => proceed [.address invocation.caller]
    | .self => proceed [.address self]
    | .value => proceed [.ofWord invocation.value]
    | .readonly => proceed [.bool invocation.readonly]
    | .gas => .consumed fun amount => proceed [.ofWord (Word.ofGas amount)]
    | .clear => toProgram invocation arguments rest kept []
    | .step step =>
      match step.resolve kept with
      | none => proceed []
      | some command =>
        .perform command fun reply =>
          toProgram invocation arguments rest (SessionStep.keep kept command reply) results
    | .subRefund amount =>
      .perform (.subRefund amount) fun
        | .fault fault => .fail fault
        | _ => proceed []
    | .fail fault => .fail fault

def handler (actions : List Action) : Handler := fun invocation arguments =>
  toProgram invocation arguments actions {} []

end Script

end HostedEvm
