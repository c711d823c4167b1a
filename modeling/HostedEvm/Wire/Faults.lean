import HostedEvm.Chain.Fault
import HostedEvm.Wire.Form

set_option autoImplicit false

/-!
Faults as plain data.

Every fault carries the name of its cause, its wording and what a host needs to decide whether it
can go on. A fatal fault is told as a panic.
-/

namespace HostedEvm

def Fault.name : Fault → String
  | .outOfGas .. => "OutOfGas"
  | .blockOutOfGas .. => "BlockOutOfGas"
  | .gasOverflow => "GasOverflow"
  | .invalidInput .. => "InvalidInput"
  | .methodNotFound .. => "MethodNotFound"
  | .noMethods .. => "ContainerMisconfigured"
  | .executionReverted .. => "ExecutionReverted"
  | .codec .. => "Codec"
  | .noHandlerForMethod .. => "NoHandlerForMethod"
  | .noMethodForHandler .. => "NoAbiMethodForHandler"
  | .duplicateHandler .. => "DuplicateHandler"
  | .wrongFactory .. => "WrongContainerFactory"
  | .duplicatePrecompile .. => "DuplicatePrecompile"
  | .precompileNotFound .. => "PrecompileNotFound"
  | .missingAttribute .. => "MissingEventAttribute"
  | .duplicateComponent .. => "DuplicateComponent"
  | .unknownComponent .. => "UnknownSnapshotComponent"
  | .refundUnderflow .. => "RefundUnderflow"
  | .insufficientBalance .. => "InsufficientBalance"
  | .invalidNonce .. => "InvalidNonce"
  | .callDepthExceeded .. => "CallDepthExceeded"
  | .writeProtection => "WriteProtection"
  | .reverted .. => "Reverted"
  | .state .. => "State"
  | .breakdown _ => "panic"

def FaultCategory.name : FaultCategory → String
  | .gas => "gas"
  | .dispatch => "dispatch"
  | .registration => "registration"
  | .other => "none"

def ChainFault.name : ChainFault → String
  | .vm _ => "Vm"
  | .wrongPhase .. => "InvalidState"
  | .archiveUnavailable | .headersUnavailable => "Plugin"
  | .headerNotFound _ => "HeaderNotFound"
  | .config _ => "Config"
  | .pool _ | .noPool => "TxPool"
  | .breakdown _ | .parentUnavailable .. | .emptyTransaction => "panic"

def PoolFault.name : PoolFault → String
  | .unsealed => "InvalidTransaction"
  | .alreadyKnown _ => "AlreadyKnown"
  | .nonceTooLow .. => "NonceTooLow"
  | .nonceTaken .. => "ReplacementNotAllowed"
  | .senderFull .. | .poolFull _ => "PoolFull"
  | .nothingToReplace _ => "NothingToReplace"
  | .breakdown _ => "panic"

namespace Form

def ofFailure (name message : String) : Form :=
  .record [("error", .text name), ("message", .text message)]

/-- What ended a step in the middle. -/
def ofBreakdown (cause : Breakdown) : Form := ofFailure "panic" cause.message

def ofFault (fault : Fault) : Form :=
  if fault.isFatal then ofFailure fault.name fault.message
  else
    .record [("error", .text fault.name), ("message", .text fault.message),
      ("class", .text fault.category.name)]

def ofPoolFault (fault : PoolFault) : Form := ofFailure fault.name fault.message

def ofChainFault (fault : ChainFault) : Form :=
  if fault.isFatal then ofFailure "panic" fault.message
  else
    let common :=
      [("error", .text fault.name), ("message", .text fault.message),
        ("tx_error", .flag fault.isTransactionFault)]
    match fault with
    | .vm inner => .record (("vm", ofFault inner) :: common)
    | _ => .record common

def ofChainFlaw : Option ChainFlaw → Form
  | none => .text "ok"
  | some flaw => ofFailure "InvalidConfig" flaw.message

def ofConfigFlaw : Option ConfigFlaw → Form
  | none => .text "ok"
  | some flaw => ofFailure "Config" flaw.message

/-- The result of something that may fail. -/
def ofOutcome {Failure Result : Type} (failure : Failure → Form) (write : Result → Form) :
    Except Failure Result → Form
  | .ok result => write result
  | .error fault => failure fault

def ofDone {Failure : Type} (failure : Failure → Form) : Except Failure Unit → Form :=
  ofOutcome failure fun () => .text "ok"

end Form

end HostedEvm
