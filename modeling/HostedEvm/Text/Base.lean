import HostedEvm.Text.Hex
import HostedEvm.Text.Number

set_option autoImplicit false

/-!
Numbers in other bases than ten.

A mark in front of the digits tells the base: `0x` sixteen, `0o` eight and `0b` two, with a letter
of either case.
-/

namespace HostedEvm.Text

/-- The number that digits spell in a base, if all of them are digits of it. -/
def natInBase? (base : Nat) (digits : List Char) : Option Nat :=
  digits.foldlM
    (fun total c => ((Hex.digitValue? c).filter (· < base)).map (total * base + ·)) 0

def markedBase? (mark : Char) : Option Nat :=
  if mark = 'x' || mark = 'X' then some 16
  else if mark = 'o' || mark = 'O' then some 8
  else if mark = 'b' || mark = 'B' then some 2
  else none

/-- The base of a number and the digits behind its mark, if there is one. -/
def splitBase : List Char → Nat × List Char
  | '0' :: mark :: rest =>
    match markedBase? mark with
    | some base => (base, rest)
    | none => (10, '0' :: mark :: rest)
  | text => (10, text)

end HostedEvm.Text
