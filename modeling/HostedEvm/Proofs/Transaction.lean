import HostedEvm.Transaction
import Mathlib.Data.List.Count
import Mathlib.Data.List.Nodup
import Mathlib.Data.List.Range

set_option autoImplicit false

/-!
The transactions of one sender in a list, and nonces that follow one another.
-/

namespace HostedEvm

def sentBy (sender : Address) (txs : List Transaction) : List Transaction :=
  txs.filter fun tx => tx.sender = sender

/-- The nonces of transactions follow one another from a first one on. -/
def InTurn (first : Nat) (txs : List Transaction) : Prop :=
  txs.map (fun tx => tx.nonce.toNat) = List.range' first txs.length

def IsSender (txs : List Transaction) (address : Address) : Prop :=
  ∃ tx ∈ txs, tx.sender = address

variable {sender : Address} {tx : Transaction} {txs : List Transaction} {first : Nat}

theorem sentBy_concat_own (txs : List Transaction) :
    sentBy tx.sender (txs ++ [tx]) = sentBy tx.sender txs ++ [tx] := by
  simp [sentBy]

theorem sentBy_concat_other (other : sender ≠ tx.sender) (txs : List Transaction) :
    sentBy sender (txs ++ [tx]) = sentBy sender txs := by
  simp [sentBy, other.symm]

theorem sentBy_cons_own (txs : List Transaction) :
    sentBy tx.sender (tx :: txs) = tx :: sentBy tx.sender txs := by
  simp [sentBy]

theorem sentBy_cons_other (other : sender ≠ tx.sender) (txs : List Transaction) :
    sentBy sender (tx :: txs) = sentBy sender txs := by
  simp [sentBy, other.symm]

theorem sentBy_flatMap {Entry : Type} (sender : Address) (entries : List Entry)
    (txsOf : Entry → List Transaction) :
    sentBy sender (entries.flatMap txsOf) =
      entries.flatMap fun entry => sentBy sender (txsOf entry) :=
  List.filter_flatMap

theorem InTurn.concat (inTurn : InTurn first txs) (next : tx.nonce.toNat = first + txs.length) :
    InTurn first (txs ++ [tx]) := by
  unfold InTurn at inTurn ⊢
  simp [inTurn, next, List.range'_concat]

theorem inTurn_cons :
    InTurn first (tx :: txs) ↔ tx.nonce.toNat = first ∧ InTurn (first + 1) txs := by
  simp [InTurn, List.range'_succ]

theorem InTurn.of_start {start : List Transaction} (inTurn : InTurn first txs)
    (leading : start <+: txs) : InTurn first start := by
  obtain ⟨rest, rfl⟩ := leading
  unfold InTurn at inTurn
  rw [List.map_append, List.length_append, eq_comm, List.range'_eq_append_iff] at inTurn
  obtain ⟨count, _, same, _⟩ := inTurn
  have length := congrArg List.length same
  rw [List.length_map, List.length_range'] at length
  rw [InTurn, same, length]

/-- Transactions with ascending nonces that fill a range carry them in turn. -/
theorem inTurn_of_ascending {count : Nat}
    (ascending : (txs.map fun tx => tx.nonce.toNat).Pairwise (· < ·))
    (filled : ∀ nonce, nonce ∈ txs.map (fun tx => tx.nonce.toNat) ↔
      first ≤ nonce ∧ nonce < first + count) :
    InTurn first txs := by
  have distinct : (txs.map fun tx => tx.nonce.toNat).Nodup := ascending.imp Nat.ne_of_lt
  have same : txs.map (fun tx => tx.nonce.toNat) = List.range' first count := by
    apply List.Perm.eq_of_pairwise (fun _ _ _ _ below above => ?_) ascending
      List.pairwise_lt_range'
    · rw [List.perm_ext_iff_of_nodup distinct List.nodup_range']
      intro nonce
      rw [filled, List.mem_range'_1]
    · exact absurd above (Nat.lt_asymm below)
  have length := congrArg List.length same
  rw [List.length_map, List.length_range'] at length
  rw [InTurn, same, length]

theorem InTurn.nodup (inTurn : InTurn first txs) : txs.Nodup :=
  .of_map _ (inTurn ▸ List.nodup_range')

/-- Transactions repeat only where those of one sender do. -/
theorem nodup_of_sentBy (each : ∀ tx ∈ txs, (sentBy tx.sender txs).Nodup) : txs.Nodup := by
  rw [List.nodup_iff_count_le_one]
  intro tx
  by_cases listed : tx ∈ txs
  · have once := List.nodup_iff_count_le_one.mp (each tx listed) tx
    unfold sentBy at once
    rwa [List.count_filter (by simp)] at once
  · rw [List.count_eq_zero_of_not_mem listed]
    exact Nat.zero_le 1

end HostedEvm
