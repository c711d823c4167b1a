import HostedEvm.Word

set_option autoImplicit false

/-!
Decimal text of natural numbers and integers.
-/

namespace HostedEvm.Text

def decimal (n : Nat) : String := String.ofList (Nat.toDigits 10 n)

/-- The decimal digits of an integer, behind a minus sign when it is negative. -/
def signedDecimal (n : Int) : String :=
  match n with
  | .ofNat magnitude => decimal magnitude
  | .negSucc below => "-" ++ decimal (below + 1)

def isDecimalDigit (c : Char) : Bool := '0' ≤ c && c ≤ '9'

/-- The number spelled by decimal digits, if there is at least one digit and nothing else. -/
def natOfDecimal? (digits : List Char) : Option Nat :=
  if digits.isEmpty || !digits.all isDecimalDigit then none
  else some (digits.foldl (fun total c => total * 10 + (c.toNat - 48)) 0)

end HostedEvm.Text
