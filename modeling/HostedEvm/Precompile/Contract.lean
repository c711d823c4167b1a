import HostedEvm.Precompile.Program

set_option autoImplicit false

/-!
Precompiles as their authors declare them.

A stateless precompile is a function of its input. A stateful one declares an interface and has a
native handler for every function of it. A dynamic one is stateful and also declares how native
events become logs.
-/

namespace HostedEvm

/-- What a method does with its arguments. -/
abbrev Handler := Invocation → List Abi.Value → Program (List Abi.Value)

/-- A native handler and the signature it is declared for. -/
structure Method where
  signature : String
  /-- The gas charged before the handler runs. -/
  requiredGas : Gas := 0
  handler : Handler

/-- A precompile that never touches the state. -/
structure PureContract where
  address : Address
  requiredGas : Bytes → Gas
  run : Bytes → Except Fault Bytes

structure MethodContract where
  address : Address
  interface : Abi.Interface
  methods : List Method

inductive Precompile
  | stateless (contract : PureContract)
  | stateful (contract : MethodContract)
  | dynamic (contract : MethodContract) (readers : Map String AttributeReader)

namespace Precompile

def address : Precompile → Address
  | .stateless contract => contract.address
  | .stateful contract => contract.address
  | .dynamic contract _ => contract.address

def kind : Precompile → PrecompileKind
  | .stateless _ => .stateless
  | .stateful _ => .stateful
  | .dynamic .. => .dynamic

end Precompile

namespace PureContract

def identity : PureContract where
  address := 4
  requiredGas input := Gas.plus 15 (Gas.times (UInt64.ofNat ((input.length + 31) / 32)) 3)
  run input := .ok input

end PureContract

/-- The precompiles of a host that declares none. -/
def builtinPrecompiles : List Precompile := [.stateless .identity]

end HostedEvm
