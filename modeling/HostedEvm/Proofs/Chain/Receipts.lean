import HostedEvm.Chain.Processor
import HostedEvm.Execution.TransferMachine
import HostedEvm.Proofs.Word

set_option autoImplicit false

/-!
The receipts of a block.

The receipts stand in the order of the transactions. Sums of gas and places of logs run through all
of them, and one more receipt continues both from the last.
-/

namespace HostedEvm

open TransferMachine

structure Receipt.Describes (number : UInt64) (hash : Word) (index : Nat) (tx : Transaction)
    (receipt : Receipt) : Prop where
  txHash : receipt.txHash = tx.hash
  txIndex : receipt.txIndex = UInt64.ofNat index
  blockNumber : receipt.blockNumber = number
  blockHash : receipt.blockHash = hash
  baseGas_le : baseGas ≤ receipt.gasUsed
  gasUsed_le : receipt.gasUsed ≤ tx.gasLimit
  logs : ∀ log ∈ receipt.logs,
    log.txHash = tx.hash ∧ log.blockNumber = number ∧ log.blockHash = hash

def Receipt.InPlace (receipt : Receipt) : Prop :=
  ∀ log ∈ receipt.logs, log.txIndex = receipt.txIndex

instance (receipt : Receipt) : Decidable receipt.InPlace :=
  inferInstanceAs (Decidable (∀ log ∈ receipt.logs, _))

/-- The gas of several transactions together, which need not fit a gas counter. -/
def Receipt.totalGas (receipts : List Receipt) : Nat :=
  receipts.foldr (fun receipt sum => receipt.gasUsed.toNat + sum) 0

/-- The transactions of a block and their receipts, with sums of gas and places of logs that run
through the block. -/
structure Assembled (number : UInt64) (hash : Word) (transactions : List Transaction)
    (receipts : List Receipt) : Prop where
  lengths : receipts.length = transactions.length
  described : ∀ (i : Nat) (tx : Transaction) (receipt : Receipt), transactions[i]? = some tx →
    receipts[i]? = some receipt → receipt.Describes number hash i tx
  cumulative : ∀ (i : Nat) (receipt : Receipt), receipts[i]? = some receipt →
    receipt.cumulativeGasUsed.toNat =
      min (Receipt.totalGas (receipts.take (i + 1))) Gas.unlimited.toNat
  placed : ∀ (k : Nat) (log : Log), (receipts.flatMap Receipt.logs)[k]? = some log →
    log.index = UInt64.ofNat k

/-- A finalized block whose receipts, logs and header tell the same. -/
structure FinalizedBlock.Consistent (finalized : FinalizedBlock) : Prop where
  assembled : Assembled finalized.block.number finalized.block.hash finalized.block.transactions
    finalized.receipts
  logs : finalized.receipts.flatMap Receipt.logs = finalized.logs
  gasUsed : finalized.block.gasUsed =
    (finalized.receipts.getLast?.map Receipt.cumulativeGasUsed).getD 0

theorem Receipt.InPlace.stampReceipt {receipt : Receipt} (inPlace : receipt.InPlace) (hash : Word) :
    (Processor.stampReceipt hash receipt).InPlace := by
  intro log listed
  obtain ⟨original, member, rfl⟩ := List.mem_map.mp listed
  exact inPlace original member

theorem totalGas_append (first second : List Receipt) :
    Receipt.totalGas (first ++ second) = Receipt.totalGas first + Receipt.totalGas second := by
  induction first with
  | nil => exact (Nat.zero_add _).symm
  | cons receipt rest inductionHypothesis =>
      have split : Receipt.totalGas ((receipt :: rest) ++ second) =
          receipt.gasUsed.toNat + Receipt.totalGas (rest ++ second) := rfl
      have part : Receipt.totalGas (receipt :: rest) =
          receipt.gasUsed.toNat + Receipt.totalGas rest := rfl
      omega

/-- An entry of a list with one more behind it is an entry of the list, or the one more. -/
theorem getElem?_concat {Item : Type} {items : List Item} {last found : Item} {i : Nat}
    (present : (items ++ [last])[i]? = some found) :
    items[i]? = some found ∧ i < items.length ∨ i = items.length ∧ last = found := by
  by_cases within : i < items.length
  · rw [List.getElem?_append_left within] at present
    exact .inl ⟨present, within⟩
  · have behind := Nat.le_of_not_lt within
    rw [List.getElem?_append_right behind, List.getElem?_singleton] at present
    split at present
    · rename_i first
      exact .inr ⟨by omega, Option.some.inj present⟩
    · cases present

namespace Assembled

variable {number : UInt64} {hash : Word} {transactions : List Transaction}
  {receipts : List Receipt}

theorem empty (number : UInt64) (hash : Word) : Assembled number hash [] [] where
  lengths := rfl
  described := nofun
  cumulative := nofun
  placed := nofun

theorem lastCumulative (assembled : Assembled number hash transactions receipts) :
    ((receipts.getLast?.map Receipt.cumulativeGasUsed).getD 0).toNat =
      min (Receipt.totalGas receipts) Gas.unlimited.toNat := by
  cases found : receipts.getLast? with
  | none =>
      rw [List.getLast?_eq_none_iff.mp found]
      rfl
  | some last =>
      rw [List.getLast?_eq_getElem?] at found
      have sum := assembled.cumulative _ last found
      have whole : receipts.take (receipts.length - 1 + 1) = receipts :=
        List.take_of_length_le (by omega)
      rw [whole] at sum
      exact sum

theorem concat (assembled : Assembled number hash transactions receipts) {tx : Transaction}
    {receipt : Receipt} (describes : receipt.Describes number hash transactions.length tx)
    (cumulative : receipt.cumulativeGasUsed =
      ((receipts.getLast?.map Receipt.cumulativeGasUsed).getD 0).plus receipt.gasUsed)
    (placed : ∀ (k : Nat) (log : Log), receipt.logs[k]? = some log →
      log.index = UInt64.ofNat ((receipts.flatMap Receipt.logs).length + k)) :
    Assembled number hash (transactions ++ [tx]) (receipts ++ [receipt]) where
  lengths := by
    rw [List.length_append, List.length_append, assembled.lengths]
    rfl
  described := by
    intro i other found otherPresent foundPresent
    have same := assembled.lengths
    rcases getElem?_concat otherPresent with ⟨earlier, within⟩ | ⟨last, rfl⟩
    · rcases getElem?_concat foundPresent with ⟨foundEarlier, _⟩ | ⟨foundLast, _⟩
      · exact assembled.described i other found earlier foundEarlier
      · omega
    · rcases getElem?_concat foundPresent with ⟨_, foundWithin⟩ | ⟨_, rfl⟩
      · omega
      · exact last ▸ describes
  cumulative := by
    intro i found present
    rcases getElem?_concat present with ⟨earlier, within⟩ | ⟨rfl, rfl⟩
    · rw [List.take_append_of_le_length within]
      exact assembled.cumulative i found earlier
    · have single : Receipt.totalGas [receipt] = receipt.gasUsed.toNat := rfl
      have whole : (receipts ++ [receipt]).take (receipts.length + 1) = receipts ++ [receipt] :=
        List.take_of_length_le (by simp)
      rw [whole, cumulative, Gas.toNat_plus, assembled.lastCumulative, totalGas_append, single]
      omega
  placed := by
    intro k log present
    rw [List.flatMap_append, List.flatMap_singleton] at present
    by_cases earlier : k < (receipts.flatMap Receipt.logs).length
    · rw [List.getElem?_append_left earlier] at present
      exact assembled.placed k log present
    · have behind := Nat.le_of_not_lt earlier
      rw [List.getElem?_append_right behind] at present
      rw [placed _ log present, Nat.add_sub_cancel' behind]

open Processor

theorem logs_stampReceipt (hash : Word) (receipts : List Receipt) :
    (receipts.map (stampReceipt hash)).flatMap Receipt.logs =
      (receipts.flatMap Receipt.logs).map fun log => { log with blockHash := hash } := by
  rw [List.flatMap_map, List.map_flatMap]
  rfl

theorem totalGas_stampReceipt (hash : Word) (receipts : List Receipt) :
    Receipt.totalGas (receipts.map (stampReceipt hash)) = Receipt.totalGas receipts := by
  unfold Receipt.totalGas
  rw [List.foldr_map]
  rfl

/-- Stamping the receipts with the hash of their block changes nothing else. -/
theorem stamp {before : Word} (assembled : Assembled number before transactions receipts)
    (hash : Word) :
    Assembled number hash transactions (receipts.map (stampReceipt hash)) where
  lengths := by
    rw [List.length_map]
    exact assembled.lengths
  described := by
    intro i tx stamped txPresent stampedPresent
    rw [List.getElem?_map] at stampedPresent
    obtain ⟨receipt, present, rfl⟩ := Option.map_eq_some_iff.mp stampedPresent
    have describes := assembled.described i tx receipt txPresent present
    refine ⟨describes.txHash, describes.txIndex, describes.blockNumber, rfl,
      describes.baseGas_le, describes.gasUsed_le, ?_⟩
    intro log listed
    obtain ⟨original, member, rfl⟩ := List.mem_map.mp listed
    obtain ⟨txHash, blockNumber, _⟩ := describes.logs original member
    exact ⟨txHash, blockNumber, rfl⟩
  cumulative := by
    intro i stamped stampedPresent
    rw [List.getElem?_map] at stampedPresent
    obtain ⟨receipt, present, rfl⟩ := Option.map_eq_some_iff.mp stampedPresent
    rw [← List.map_take, totalGas_stampReceipt]
    exact assembled.cumulative i receipt present
  placed := by
    intro k stamped stampedPresent
    rw [logs_stampReceipt, List.getElem?_map] at stampedPresent
    obtain ⟨log, present, rfl⟩ := Option.map_eq_some_iff.mp stampedPresent
    exact assembled.placed k log present

end Assembled

namespace Processor

theorem index_placeLogs {first : Nat} {logs : List Log} {k : Nat} {log : Log}
    (present : (placeLogs first logs)[k]? = some log) : log.index = UInt64.ofNat (first + k) := by
  induction logs generalizing first k with
  | nil => simp [placeLogs] at present
  | cons head rest inductionHypothesis =>
      cases k with
      | zero =>
          cases present
          rfl
      | succ k =>
          rw [inductionHypothesis present, Nat.add_right_comm, Nat.add_assoc]

theorem mem_placeLogs {first : Nat} {logs : List Log} {log : Log}
    (listed : log ∈ placeLogs first logs) :
    ∃ original ∈ logs, ∃ index, log = { original with index } := by
  induction logs generalizing first with
  | nil => cases listed
  | cons head rest inductionHypothesis =>
      rcases List.mem_cons.mp listed with rfl | later
      · exact ⟨head, List.mem_cons_self, _, rfl⟩
      · obtain ⟨original, member, placed⟩ := inductionHypothesis later
        exact ⟨original, List.mem_cons_of_mem head member, placed⟩

end Processor

end HostedEvm
