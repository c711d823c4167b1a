import HostedEvm.Word

set_option autoImplicit false

/-!
Chain parameters and the forks in force at a block.
-/

namespace HostedEvm

structure ForkRules where
  chainId : UInt64 := 0
  berlin : Bool := false
  london : Bool := false
  shanghai : Bool := false
  deriving DecidableEq

structure ChainConfig where
  chainId : UInt64 := 1
  /-- The block from which access lists are warm, if ever. -/
  berlinBlock : Option UInt64 := some 0
  /-- The block from which the base fee moves, if ever. -/
  londonBlock : Option UInt64 := some 0
  /-- The time from which the coinbase is warm, if ever. -/
  shanghaiTime : Option UInt64 := some 0
  /-- The fee divided by this is its step where no gas was used, or twice the target. -/
  feeDenominator : UInt64 := 8
  /-- The gas target is the gas limit divided by this. -/
  elasticity : UInt64 := 2
  initialBaseFee : Word := 1000000000
  /-- The gas limit of a block whose host sets none. -/
  maxGas : Gas := 30000000
  deriving DecidableEq

/-- Why chain parameters are refused. -/
inductive ChainFlaw
  | zeroDenominator
  | zeroElasticity
  deriving DecidableEq

def ChainFlaw.message : ChainFlaw → String
  | .zeroDenominator => "Invalid chain config: base fee change denominator cannot be 0"
  | .zeroElasticity => "Invalid chain config: elasticity multiplier cannot be 0"

namespace ChainConfig

/-- Whether a fork that starts at `start` is in force at `now`. -/
def started (start : Option UInt64) (now : UInt64) : Bool :=
  match start with
  | some first => first ≤ now
  | none => false

/-- Whether access lists are warm at a block. -/
def isBerlin (config : ChainConfig) (number : UInt64) : Bool := started config.berlinBlock number

/-- Whether the base fee moves at a block. -/
def isLondon (config : ChainConfig) (number : UInt64) : Bool := started config.londonBlock number

/-- Whether the coinbase is warm at a time. -/
def isShanghai (config : ChainConfig) (timestamp : UInt64) : Bool :=
  started config.shanghaiTime timestamp

/-- The forks in force at a block with the given number and time. -/
def rules (config : ChainConfig) (number timestamp : UInt64) : ForkRules where
  chainId := config.chainId
  berlin := config.isBerlin number
  london := config.isLondon number
  shanghai := config.isShanghai timestamp

def flaw? (config : ChainConfig) : Option ChainFlaw :=
  if config.feeDenominator = 0 then some .zeroDenominator
  else if config.elasticity = 0 then some .zeroElasticity
  else none

end ChainConfig

end HostedEvm
