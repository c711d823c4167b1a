import HostedEvm.Block
import HostedEvm.Fork

set_option autoImplicit false

/-!
The base fee of the next block.

The fee moves towards a gas target, the gas limit divided by the elasticity. Above the target it
rises by at least one, below it falls, and the step is in proportion to the distance.
-/

namespace HostedEvm

/-- The step of the fee for gas used `distance` away from `target`. -/
def ChainConfig.feeStep (config : ChainConfig) (fee : Word) (distance target : Nat) : Word :=
  Word.clamp ((fee.times (Word.clamp distance)).toNat / target / max config.feeDenominator.toNat 1)

def ChainConfig.gasTarget (config : ChainConfig) (header : Header) : Nat :=
  header.gasLimit.toNat / max config.elasticity.toNat 1

/-- The base fee of the block after `parent`. -/
def ChainConfig.nextBaseFee (config : ChainConfig) (parent : Header) : Word :=
  let target := config.gasTarget parent
  let used := parent.gasUsed.toNat
  if config.isLondon parent.number = false then config.initialBaseFee
  else if target = 0 ∨ used = target then parent.baseFee
  else if target < used then
    let step := config.feeStep parent.baseFee (used - target) target
    parent.baseFee.plus (Word.clamp (max step.toNat 1))
  else
    parent.baseFee.minus (config.feeStep parent.baseFee (target - used) target)

end HostedEvm
