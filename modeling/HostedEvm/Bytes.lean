import HostedEvm.Word

set_option autoImplicit false

/-!
Byte strings and the big-endian form of numbers.

`bigEndian width n` is `n` in exactly `width` bytes, high byte first, and `toNat` reads any byte
string back as a number.
-/

namespace HostedEvm

abbrev Bytes := List UInt8

namespace Bytes

/-- The low `8 * width` bits of a number, high byte first. -/
def bigEndian : (width : Nat) → (n : Nat) → Bytes
  | 0, _ => []
  | width + 1, n => UInt8.ofNat (n >>> (8 * width)) :: bigEndian width n

/-- The number that a byte string spells, high byte first. -/
def toNat (bytes : Bytes) : Nat :=
  bytes.foldl (fun total byte => total * 256 + byte.toNat) 0

theorem length_bigEndian (width n : Nat) : (bigEndian width n).length = width := by
  induction width with
  | zero => rfl
  | succ width inductionHypothesis => simp [bigEndian, inductionHypothesis]

def ofWord (w : Word) : Bytes := bigEndian 32 w.toNat

def ofAddress (a : Address) : Bytes := bigEndian 20 a.toNat

/-- The eight bytes of a 64-bit word. -/
def ofGas (g : UInt64) : Bytes := bigEndian 8 g.toNat

/-- The word spelled by at most 32 bytes. -/
def toWord (bytes : Bytes) : Word := BitVec.ofNat 256 bytes.toNat

/-- The address spelled by at most 20 bytes. -/
def toAddress (bytes : Bytes) : Address := BitVec.ofNat 160 bytes.toNat

/-- The bytes followed by zeros up to a multiple of `unit`. -/
def padRight (unit : Nat) (bytes : Bytes) : Bytes :=
  bytes ++ List.replicate ((unit - bytes.length % unit) % unit) 0

end Bytes

end HostedEvm
