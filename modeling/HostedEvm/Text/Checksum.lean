import HostedEvm.Keccak
import HostedEvm.Text.Hex

set_option autoImplicit false

/-!
Addresses in mixed case.

A letter of the address is upper case when the digit at the same place of the digest of the
lower-case digits is at least eight, so that the case of the letters checks the digits.
-/

namespace HostedEvm

/-- The lower-case digits of an address without a mark. -/
def Address.digits (address : Address) : List Char := Text.Hex.digits (Bytes.ofAddress address)

/-- The halves of the bytes, high half first. -/
def Bytes.halves (bytes : Bytes) : List Nat :=
  bytes.flatMap fun byte => [byte.toNat / 16, byte.toNat % 16]

/-- An address whose letters carry the checksum in their case. -/
def Address.checksummed (address : Address) : String :=
  let plain := Address.digits address
  let check := (Keccak.digestBytes (plain.map fun c => UInt8.ofNat c.toNat)).halves
  "0x" ++ String.ofList (List.zipWith (fun c half => if half ≥ 8 then c.toUpper else c) plain check)

/-- An address in lower case. -/
def Address.hex (address : Address) : String := Text.Hex.encode (Bytes.ofAddress address)

/-- A word in lower case with all its digits. -/
def Word.hex (word : Word) : String := Text.Hex.encode (Bytes.ofWord word)

end HostedEvm
