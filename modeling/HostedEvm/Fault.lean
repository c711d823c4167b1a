import HostedEvm.Breakdown
import HostedEvm.Text.Checksum
import HostedEvm.Text.Number

set_option autoImplicit false

/-!
Why metering, journaling, dispatch and execution fail.

Each cause is a constructor, its wording is in `Fault.message`, and `Fault.category` tells whether
resources ran out, a call was malformed or a declaration was inconsistent. A fault that is fatal
ends a whole step.
-/

namespace HostedEvm

/-- The first four bytes of a call, which name a method. -/
abbrev Selector := BitVec 32

instance Selector.transOrd : Std.TransOrd Selector := BitVec.instTransOrd

inductive PrecompileKind
  /-- A function of the input alone. -/
  | stateless
  /-- Methods with native handlers. -/
  | stateful
  /-- Methods with native handlers whose events become logs. -/
  | dynamic
  deriving DecidableEq

def PrecompileKind.name : PrecompileKind → String
  | .stateless => "stateless"
  | .stateful => "stateful"
  | .dynamic => "dynamic"

def PrecompileKind.factoryName : PrecompileKind → String
  | .stateless => "StatelessFactory"
  | .stateful => "StatefulFactory"
  | .dynamic => "DynamicFactory"

/-- Why values could not be turned into bytes or text into values. -/
inductive CodecFault
  /-- The bytes or values do not have the declared types. -/
  | mismatch
  /-- The text of an attribute is no value of the type that the event declares for it. -/
  | badAttribute (event key : String)
  /-- A value of this type has no form as a topic. -/
  | noTopic (event key type : String)
  /-- A decoder of the host gave up for a reason of its own. -/
  | custom (reason : String)

/-- The wording of a codec fault. The details of a mismatch are left open. -/
def CodecFault.message : CodecFault → String
  | .mismatch => "<library>"
  | .badAttribute event key => s!"{event}.{key}: <library>"
  | .noTopic event key type => s!"{event}.{key}: indexed {type} cannot be a topic"
  | .custom reason => reason

/-- Why an operation failed. -/
inductive Fault
  | outOfGas (consumed limit : Gas)
  | blockOutOfGas (blockConsumed txConsumed limit : Gas)
  | gasOverflow
  /-- The input is shorter than a selector. -/
  | invalidInput (length : Nat)
  | methodNotFound (selector : Selector)
  /-- A precompile without methods was called. -/
  | noMethods (address : Address)
  /-- A native handler failed, or its results could not be encoded. -/
  | executionReverted (method : String) (cause : Fault)
  | codec (cause : CodecFault)
  | noHandlerForMethod (signature : String)
  | noMethodForHandler (signature : String)
  | duplicateHandler (signature : String)
  | wrongFactory (factory kind : PrecompileKind)
  | duplicatePrecompile (address : Address)
  | precompileNotFound (address : Address)
  | missingAttribute (event key : String)
  | duplicateComponent (key : String)
  | unknownComponent (key : String)
  | refundUnderflow (current amount : Gas)
  | insufficientBalance (available wanted : Word)
  | invalidNonce (expected got : UInt64)
  | callDepthExceeded (depth : Nat)
  | writeProtection
  | reverted (reason : String)
  | state (reason : String)
  /-- The host gave up in the middle of the operation. -/
  | breakdown (cause : Breakdown)

inductive FaultCategory
  /-- Resources ran out. -/
  | gas
  /-- A call into a precompile was malformed. -/
  | dispatch
  /-- A precompile was declared inconsistently. -/
  | registration
  | other
  deriving DecidableEq

namespace Fault

/-- A selector in lower-case digits. -/
def selectorText (selector : Selector) : String :=
  Text.Hex.encode (Bytes.bigEndian 4 selector.toNat)

/-- A number of gas or a nonce in decimal. -/
def number (n : UInt64) : String := Text.decimal n.toNat

def message : Fault → String
  | .outOfGas consumed limit =>
    "Out of gas: consumed " ++ number consumed ++ ", limit " ++ number limit
  | .blockOutOfGas blockConsumed txConsumed limit =>
    "Block out of gas: block consumed " ++ number blockConsumed ++ ", tx consumed " ++
      number txConsumed ++ ", block limit " ++ number limit
  | .gasOverflow => "Gas overflow"
  | .invalidInput length =>
    "Invalid input: " ++ Text.decimal length ++ " bytes is shorter than a method selector"
  | .methodNotFound selector => "Method not found for selector " ++ selectorText selector
  | .noMethods address => "Precompile container " ++ address.checksummed ++ " has no methods"
  | .executionReverted method cause => "Execution reverted in " ++ method ++ ": " ++ message cause
  | .codec cause => "ABI codec error: " ++ cause.message
  | .noHandlerForMethod signature => "No native handler for ABI method " ++ signature
  | .noMethodForHandler signature => "No ABI method for native handler " ++ signature
  | .duplicateHandler signature => "Duplicate native handler for " ++ signature
  | .wrongFactory factory kind =>
    "Wrong container factory: " ++ factory.factoryName ++ " cannot build a " ++ kind.name ++
      " precompile"
  | .duplicatePrecompile address => "Precompile already registered at " ++ address.checksummed
  | .precompileNotFound address => "No precompile at " ++ address.checksummed
  | .missingAttribute event key =>
    "Missing attribute " ++ key ++ " for event " ++ event
  | .duplicateComponent key => "Snapshot component already registered: " ++ key
  | .unknownComponent key => "Snapshot refers to unknown component: " ++ key
  | .refundUnderflow current amount =>
    "Refund underflow: current " ++ number current ++ ", subtracting " ++ number amount
  | .insufficientBalance available wanted =>
    "Insufficient balance: have " ++ Text.decimal available.toNat ++ ", want " ++
      Text.decimal wanted.toNat
  | .invalidNonce expected got =>
    "Invalid nonce: expected " ++ number expected ++ ", got " ++ number got
  | .callDepthExceeded depth => "Call depth exceeded: " ++ Text.decimal depth
  | .writeProtection => "Write protection: state modification in a read-only call"
  | .reverted reason => "Execution reverted: " ++ reason
  | .state reason => "State error: " ++ reason
  | .breakdown cause => cause.message

/-- Whether the host gave up. Nothing is undone behind such a fault, and nobody recovers from it. -/
def isFatal : Fault → Bool
  | .breakdown _ => true
  | _ => false

def category : Fault → FaultCategory
  | .outOfGas .. | .blockOutOfGas .. | .gasOverflow => .gas
  | .invalidInput .. | .methodNotFound .. | .noMethods .. => .dispatch
  | .noHandlerForMethod .. | .noMethodForHandler .. | .duplicateHandler .. | .wrongFactory ..
  | .duplicatePrecompile .. => .registration
  | _ => .other

end Fault

end HostedEvm
