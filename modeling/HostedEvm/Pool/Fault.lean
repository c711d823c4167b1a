import HostedEvm.Breakdown
import HostedEvm.Text.Checksum
import HostedEvm.Text.Number

set_option autoImplicit false

/-!
Why a pool refuses a transaction.
-/

namespace HostedEvm

inductive PoolFault
  /-- The transaction was never sealed. -/
  | unsealed
  | alreadyKnown (hash : Word)
  | nonceTooLow (expected got : UInt64)
  | nonceTaken (nonce : UInt64) (existing : Word)
  | senderFull (sender : Address) (held : Nat)
  | poolFull (held : Nat)
  | nothingToReplace (nonce : UInt64)
  /-- The pool gave up in the middle of the operation. -/
  | breakdown (cause : Breakdown)
  deriving DecidableEq

def PoolFault.message : PoolFault → String
  | .unsealed => "Invalid transaction: transaction was never sealed"
  | .alreadyKnown hash => "Transaction already known: " ++ hash.hex
  | .nonceTooLow expected got =>
    "Nonce too low: expected " ++ Text.decimal expected.toNat ++ ", got " ++
      Text.decimal got.toNat
  | .nonceTaken nonce existing =>
    "Nonce " ++ Text.decimal nonce.toNat ++ " already taken by " ++ existing.hex
  | .senderFull sender held =>
    "Transaction pool full: sender " ++ sender.checksummed ++ " holds " ++ Text.decimal held ++
      " transactions"
  | .poolFull held => "Transaction pool full: pool holds " ++ Text.decimal held ++ " transactions"
  | .nothingToReplace nonce => "Nothing to replace at nonce " ++ Text.decimal nonce.toNat
  | .breakdown cause => cause.message

def PoolFault.isFatal : PoolFault → Bool
  | .breakdown _ => true
  | _ => false

end HostedEvm
