import HostedEvm.Journal.AccessList
import HostedEvm.Journal.Logs
import HostedEvm.State.Account
import HostedEvm.Gas.Prices

set_option autoImplicit false

/-!
What the commands on a state answer.
-/

namespace HostedEvm

/-- What is seen of one account and some of its slots. -/
structure AccountSight where
  exists? : Bool
  balance : Word
  nonce : UInt64
  warm : Bool
  destroyed : Bool
  /-- For every slot asked for: its value, its transient value and whether it is warm. -/
  slots : List (Word × Word × Bool)

structure Sight where
  refund : Gas
  logCount : Nat
  accounts : List AccountSight

inductive Reply
  | nothing
  /-- The command could have failed and did not. -/
  | done
  | flag (value : Bool)
  | flags (first second : Bool)
  | count (value : Nat)
  | number (value : UInt64)
  | amount (value : Word)
  | word (value : Word)
  | bytes (value : Bytes)
  | name (value : String)
  | prices (value : StoragePrices)
  | logs (value : List Log)
  | account (value : Option Account)
  | snapshot (value : Snapshot)
  | sight (value : Sight)
  | fault (value : Fault)
  /-- The answers of several commands. -/
  | each (values : List Reply)

/-- The answer of a command that can fail and has no result. -/
def Reply.ofOutcome : Except Fault Unit → Reply
  | .ok () => .done
  | .error cause => .fault cause

end HostedEvm
