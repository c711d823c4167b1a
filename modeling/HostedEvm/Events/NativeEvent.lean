import HostedEvm.Abi.Value
import HostedEvm.Fault

set_option autoImplicit false

/-!
Events of host modules, and readers of their attributes.

A host module reports what happened as a kind with attributes in text. A reader turns the text of
one attribute into a value, or fails for a reason of its own.
-/

namespace HostedEvm

/-- What a host module reports. -/
structure NativeEvent where
  kind : String
  /-- Keys with their texts. Of several texts under one key the first counts. -/
  attributes : List (String × String) := []
  deriving DecidableEq

def NativeEvent.attribute? (event : NativeEvent) (key : String) : Option String :=
  (event.attributes.find? fun entry => entry.1 = key).map Prod.snd

/-- How the text of an attribute becomes a value. -/
abbrev AttributeReader := String → Except Fault Abi.Value

end HostedEvm
