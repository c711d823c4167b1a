import HostedEvm.Config.Runtime
import HostedEvm.Fault
import HostedEvm.Pool.Fault

set_option autoImplicit false

/-!
Why a step of a chain fails.

Some faults are fatal: the host gave up in the middle of the step, and what the step had changed
until then stays changed.
-/

namespace HostedEvm

/-- Where a chain stands between two steps, or within one. -/
inductive Phase
  | idle
  | preparing
  | accepting
  | finalizing
  deriving DecidableEq

def Phase.name : Phase → String
  | .idle => "idle"
  | .preparing => "preparing"
  | .accepting => "accepting_transactions"
  | .finalizing => "finalizing"

/-- Why a step of a chain fails. -/
inductive ChainFault
  | vm (fault : Fault)
  /-- The host gave up outside of the machine. -/
  | breakdown (cause : Breakdown)
  | wrongPhase (expected found : Phase)
  | archiveUnavailable
  | headersUnavailable
  | headerNotFound (number : UInt64)
  | config (flaw : ConfigFlaw)
  | pool (fault : PoolFault)
  | noPool
  /-- The header that a block has to name is missing. -/
  | parentUnavailable (number missing : UInt64)
  /-- A transaction that was never sealed was to be processed. -/
  | emptyTransaction

namespace ChainFault

def message : ChainFault → String
  | .vm fault => if fault.isFatal then fault.message else "VM error: " ++ fault.message
  | .breakdown cause => cause.message
  | .wrongPhase expected found =>
    "Invalid lifecycle state: expected " ++ expected.name ++ ", found " ++ found.name
  | .archiveUnavailable => "Plugin error: historical store unavailable"
  | .headersUnavailable => "Plugin error: header store unavailable"
  | .headerNotFound number => "Header not found for block " ++ Text.decimal number.toNat
  | .config flaw => "Configuration error: " ++ flaw.message
  | .pool fault =>
    if fault.isFatal then fault.message else "Transaction pool error: " ++ fault.message
  | .noPool => "Transaction pool error: no transaction pool configured"
  | .parentUnavailable number missing =>
    "parent header of block " ++ Text.decimal number.toNat ++
      " unavailable: Header not found for block " ++ Text.decimal missing.toNat
  | .emptyTransaction => "empty transaction handed to the state processor"

/-- Whether the host gave up in the middle of the step. -/
def isFatal : ChainFault → Bool
  | .vm fault => fault.isFatal
  | .breakdown _ => true
  | .parentUnavailable .. => true
  | .emptyTransaction => true
  | .pool fault => fault.isFatal
  | _ => false

/-- Whether the fault concerns one transaction alone, so that the block can go on. -/
def isTransactionFault : ChainFault → Bool
  | .vm fault => fault.category ≠ .registration
  | _ => false

end ChainFault

end HostedEvm
