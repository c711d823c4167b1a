import HostedEvm.Fault

set_option autoImplicit false

/-!
The gas meter of a block.

A meter keeps what the running transaction has consumed beside what the earlier transactions of the
block have. Consumption is checked against the limits of both before it is recorded, and a refused
amount records nothing.
-/

namespace HostedEvm

/-- Gas limits and consumption of the running transaction and of its block. -/
structure Meter where
  txLimit : Gas := 0
  txConsumed : Gas := 0
  /-- Explicit gas limit of the block, or zero when none is set. -/
  explicitLimit : Gas := 0
  /-- Gas that earlier transactions of the block have consumed. -/
  blockConsumed : Gas := 0
  /-- Gas limit of a block without an explicit one. -/
  defaultLimit : Gas := 0

namespace Meter

def forBlock (explicitLimit defaultLimit : Gas) : Meter := { explicitLimit, defaultLimit }

/-- A meter whose limits are the greatest amount of gas. -/
def unlimited : Meter where
  txLimit := Gas.unlimited
  explicitLimit := Gas.unlimited
  defaultLimit := Gas.unlimited

/-- Start a block under the explicit limit in force. -/
def beginBlock (meter : Meter) (defaultLimit : Gas) : Meter :=
  { meter with txLimit := 0, txConsumed := 0, blockConsumed := 0, defaultLimit }

def prepareBlock (meter : Meter) (explicitLimit defaultLimit : Gas) : Meter :=
  { meter with explicitLimit }.beginBlock defaultLimit

/-- Start a transaction. What the one before consumed is added to the block. -/
def beginTransaction (meter : Meter) (limit : Gas) : Meter :=
  { meter with
    txLimit := limit, txConsumed := 0, blockConsumed := meter.blockConsumed.plus meter.txConsumed }

/-- Forget what the running transaction consumed, so that the block is never charged for it. -/
def discardTransaction (meter : Meter) : Meter := { meter with txConsumed := 0 }

def blockLimit (meter : Meter) : Gas :=
  if meter.explicitLimit = 0 then meter.defaultLimit else meter.explicitLimit

/-- Gas left for the running transaction. -/
def remaining (meter : Meter) : Gas := meter.txLimit.minus meter.txConsumed

/-- The consumption of the running transaction with `amount` more, if the limits allow it. -/
def admitted (meter : Meter) (amount : Gas) : Except Fault Gas :=
  let total := meter.txConsumed.toNat + amount.toNat
  if total ≥ UInt64.size then .error .gasOverflow
  else
    let consumed := UInt64.ofNat total
    if consumed > meter.txLimit then .error (.outOfGas consumed meter.txLimit)
    else if meter.blockConsumed.plus consumed > meter.blockLimit then
      .error (.blockOutOfGas meter.blockConsumed consumed meter.blockLimit)
    else .ok consumed

/-- Consume gas, or leave the meter as it is. -/
def consume (meter : Meter) (amount : Gas) : Except Fault Unit × Meter :=
  match meter.admitted amount with
  | .ok consumed => (.ok (), { meter with txConsumed := consumed })
  | .error fault => (.error fault, meter)

end Meter

end HostedEvm
