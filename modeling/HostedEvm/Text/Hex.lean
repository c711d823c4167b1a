import HostedEvm.Bytes

set_option autoImplicit false

/-!
Hexadecimal text.

`encode` writes two lower-case digits for every byte behind `0x`, and `decode?` reads marks and
digits of either case. A quantity is written by `minimal` without leading zeros.
-/

namespace HostedEvm.Text.Hex

/-- The lower-case digit of a value below sixteen. -/
def digit (value : Nat) : Char :=
  if value < 10 then Char.ofNat (48 + value) else Char.ofNat (87 + value)

/-- The value of a digit of either case. -/
def digitValue? (c : Char) : Option Nat :=
  if '0' ≤ c ∧ c ≤ '9' then some (c.toNat - 48)
  else if 'a' ≤ c ∧ c ≤ 'f' then some (c.toNat - 87)
  else if 'A' ≤ c ∧ c ≤ 'F' then some (c.toNat - 55)
  else none

def pair (byte : UInt8) : List Char := [digit (byte.toNat / 16), digit (byte.toNat % 16)]

def digits (bytes : Bytes) : List Char := bytes.flatMap pair

/-- A byte string behind the mark `0x`. -/
def encode (bytes : Bytes) : String := String.ofList ('0' :: 'x' :: digits bytes)

/-- The byte string spelled by an even number of digits. -/
def decodeDigits? : List Char → Option Bytes
  | [] => some []
  | [_] => none
  | high :: low :: rest => do
    let highValue ← digitValue? high
    let lowValue ← digitValue? low
    let bytes ← decodeDigits? rest
    return UInt8.ofNat (highValue * 16 + lowValue) :: bytes

/-- The digits behind an optional mark `0x`. -/
def unmarked : List Char → List Char
  | '0' :: 'x' :: rest => rest
  | text => text

/-- The digits behind an optional mark `0x` or `0X`. -/
def unmarkedAnyCase : List Char → List Char
  | '0' :: 'X' :: rest => rest
  | text => unmarked text

/-- The byte string spelled by digits behind an optional mark of either case. -/
def decode? (text : String) : Option Bytes := decodeDigits? (unmarkedAnyCase text.toList)

/-- The number spelled by digits, if all of them are. -/
def natOfDigits? (digits : List Char) : Option Nat :=
  digits.foldlM (fun total c => (digitValue? c).map (total * 16 + ·)) 0

/-- A number behind the mark `0x` in as few digits as possible. -/
def minimal (n : Nat) : String := "0x" ++ String.ofList (Nat.toDigits 16 n)

end HostedEvm.Text.Hex
