import Mathlib.Tactic.Ring
import HostedEvm.Bytes

set_option autoImplicit false

/-!
Reading bytes back.

A number in a fixed number of bytes is read back as the number, up to what does not fit, so fixed
fields are told apart by their bytes. Lists of encoded items are told apart as soon as it is known
where one item ends and the next one begins.
-/

namespace HostedEvm.Bytes

theorem foldl_bigEndian (width n total : Nat) :
    (bigEndian width n).foldl (fun total byte => total * 256 + byte.toNat) total =
      total * 256 ^ width + n % 256 ^ width := by
  induction width generalizing total with
  | zero => simp [bigEndian, Nat.mod_one]
  | succ width inductionHypothesis =>
      have digit : (UInt8.ofNat (n >>> (8 * width))).toNat = n / 256 ^ width % 256 := by
        rw [UInt8.toNat_ofNat', Nat.shiftRight_eq_div_pow, Nat.pow_mul]
      rw [bigEndian, List.foldl_cons, inductionHypothesis, digit, Nat.mod_pow_succ]
      ring

theorem toNat_bigEndian (width n : Nat) : toNat (bigEndian width n) = n % 256 ^ width := by
  rw [toNat, foldl_bigEndian]
  simp

theorem bigEndian_injective {width first second : Nat} (firstFits : first < 256 ^ width)
    (secondFits : second < 256 ^ width) (same : bigEndian width first = bigEndian width second) :
    first = second := by
  have read := congrArg toNat same
  rwa [toNat_bigEndian, toNat_bigEndian, Nat.mod_eq_of_lt firstFits,
    Nat.mod_eq_of_lt secondFits] at read

@[simp]
theorem length_ofWord (word : Word) : (ofWord word).length = 32 := length_bigEndian 32 _

@[simp]
theorem length_ofAddress (address : Address) : (ofAddress address).length = 20 :=
  length_bigEndian 20 _

@[simp]
theorem length_ofGas (gas : UInt64) : (ofGas gas).length = 8 := length_bigEndian 8 _

theorem ofWord_injective : Function.Injective ofWord := by
  intro first second same
  exact BitVec.eq_of_toNat_eq (bigEndian_injective first.isLt second.isLt same)

theorem ofAddress_injective : Function.Injective ofAddress := by
  intro first second same
  exact BitVec.eq_of_toNat_eq (bigEndian_injective first.isLt second.isLt same)

theorem ofGas_injective : Function.Injective ofGas := by
  intro first second same
  exact UInt64.toNat_inj.mp (bigEndian_injective first.toNat_lt second.toNat_lt same)

section Items

variable {Item : Type} {encode : Item → Bytes} {shape : Item → Nat}

/-- Encoded items whose shapes fix their lengths are as long together as others of the same
shapes. -/
theorem length_flatMap_congr
    (aligned : ∀ first second, shape first = shape second →
      (encode first).length = (encode second).length)
    {first second : List Item} (shapes : first.map shape = second.map shape) :
    (first.flatMap encode).length = (second.flatMap encode).length := by
  induction first generalizing second with
  | nil =>
      rw [List.map_nil, eq_comm, List.map_eq_nil_iff] at shapes
      rw [shapes]
  | cons head rest inductionHypothesis =>
      cases second with
      | nil => cases shapes
      | cons other others =>
          rw [List.map_cons, List.map_cons, List.cons.injEq] at shapes
          rw [List.flatMap_cons, List.flatMap_cons, List.length_append, List.length_append,
            aligned head other shapes.1, inductionHypothesis shapes.2]

/-- Encoded items of known shapes can be taken apart again. -/
theorem eq_of_flatMap_eq
    (aligned : ∀ first second, shape first = shape second →
      (encode first).length = (encode second).length)
    (apart : ∀ first second, shape first = shape second → encode first = encode second →
      first = second)
    {first second : List Item} (shapes : first.map shape = second.map shape)
    (same : first.flatMap encode = second.flatMap encode) : first = second := by
  induction first generalizing second with
  | nil =>
      rw [List.map_nil, eq_comm, List.map_eq_nil_iff] at shapes
      exact shapes.symm
  | cons head rest inductionHypothesis =>
      cases second with
      | nil => cases shapes
      | cons other others =>
          rw [List.map_cons, List.map_cons, List.cons.injEq] at shapes
          rw [List.flatMap_cons, List.flatMap_cons] at same
          obtain ⟨heads, tails⟩ := List.append_inj same (aligned head other shapes.1)
          rw [apart head other shapes.1 heads, inductionHypothesis shapes.2 tails]

end Items

end HostedEvm.Bytes
