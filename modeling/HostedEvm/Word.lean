import Std.Data.ExtTreeMap

set_option autoImplicit false

/-!
The machine's numbers and its finite maps.

Gas, nonces and block heights are 64-bit words, amounts, slots and hashes are 256-bit words, and
accounts are named by 160-bit words. Fee and gas arithmetic never wraps: each operation below stops
at the nearest end of its range, and its value is given by the same operation on natural numbers.
Maps are ordered by key and two maps with the same entries are equal.
-/

namespace HostedEvm

abbrev Gas := UInt64

/-- A 256-bit word: an amount of funds, a storage slot or its value, or a hash. -/
abbrev Word := BitVec 256

/-- The name of an account. -/
abbrev Address := BitVec 160

instance Word.transOrd : Std.TransOrd Word := BitVec.instTransOrd

instance Address.transOrd : Std.TransOrd Address := BitVec.instTransOrd

/-- A finite map in the order of its keys. -/
abbrev Map (Key : Type) (Value : Type) [Ord Key] := Std.ExtTreeMap Key Value compare

namespace Gas

def unlimited : Gas := 0xffffffffffffffff

/-- The sum, or the greatest amount when the sum does not fit. -/
def plus (a b : Gas) : Gas := UInt64.ofNat (min (a.toNat + b.toNat) unlimited.toNat)

/-- The difference, or zero when more is taken than there is. -/
def minus (a b : Gas) : Gas := UInt64.ofNat (a.toNat - b.toNat)

/-- The product, or the greatest amount when the product does not fit. -/
def times (a b : Gas) : Gas := UInt64.ofNat (min (a.toNat * b.toNat) unlimited.toNat)

theorem toNat_plus (a b : Gas) :
    (plus a b).toNat = min (a.toNat + b.toNat) unlimited.toNat := by
  unfold plus
  rw [UInt64.toNat_ofNat_of_lt']
  exact Nat.lt_of_le_of_lt (Nat.min_le_right _ _) unlimited.toNat_lt

theorem toNat_minus (a b : Gas) : (minus a b).toNat = a.toNat - b.toNat := by
  unfold minus
  rw [UInt64.toNat_ofNat_of_lt']
  have bound := a.toNat_lt
  simp only [UInt64.size]
  omega

end Gas

namespace Word

def greatest : Word := BitVec.allOnes 256

/-- The word of a number, or the greatest word when the number does not fit. -/
def clamp (n : Nat) : Word := BitVec.ofNat 256 (min n greatest.toNat)

/-- The sum, or the greatest word when the sum does not fit. -/
def plus (a b : Word) : Word := clamp (a.toNat + b.toNat)

/-- The difference, or zero when more is taken than there is. -/
def minus (a b : Word) : Word := clamp (a.toNat - b.toNat)

/-- The product, or the greatest word when the product does not fit. -/
def times (a b : Word) : Word := clamp (a.toNat * b.toNat)

/-- The word with the value of an amount of gas. -/
def ofGas (g : Gas) : Word := BitVec.ofNat 256 g.toNat

theorem toNat_clamp (n : Nat) : (clamp n).toNat = min n greatest.toNat := by
  unfold clamp
  rw [BitVec.toNat_ofNat]
  exact Nat.mod_eq_of_lt (Nat.lt_of_le_of_lt (Nat.min_le_right _ _) greatest.isLt)

theorem toNat_plus (a b : Word) :
    (plus a b).toNat = min (a.toNat + b.toNat) greatest.toNat :=
  toNat_clamp _

theorem toNat_minus (a b : Word) : (minus a b).toNat = a.toNat - b.toNat := by
  unfold minus
  rw [toNat_clamp]
  have bound : a.toNat ≤ greatest.toNat := by
    rw [greatest, BitVec.toNat_allOnes]
    exact Nat.le_pred_of_lt a.isLt
  omega

theorem toNat_times (a b : Word) :
    (times a b).toNat = min (a.toNat * b.toNat) greatest.toNat :=
  toNat_clamp _

theorem toNat_ofGas (g : Gas) : (ofGas g).toNat = g.toNat := by
  unfold ofGas
  rw [BitVec.toNat_ofNat]
  have bound := g.toNat_lt
  exact Nat.mod_eq_of_lt (by omega)

end Word

namespace Map

variable {Key Value : Type} [Ord Key] [Std.TransOrd Key]

def listValues (m : Map Key Value) : List Value := m.toList.map Prod.snd

def listKeys (m : Map Key Value) : List Key := m.toList.map Prod.fst

end Map

end HostedEvm
