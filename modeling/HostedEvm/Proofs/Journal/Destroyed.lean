import HostedEvm.Journal.Destroyed
import HostedEvm.Proofs.Map

set_option autoImplicit false

/-!
The list and the set of the accounts marked destroyed.

The list tells which accounts go at the end of a transaction, and the set which of them are marked.
An account in the set alone could not be marked any more and would stay. A mark is added to both and
taken back from both. Taking it out of the set is right because no account is listed twice.
-/

namespace HostedEvm.DestroyedAccounts

variable {destroyed : DestroyedAccounts} {address marked : Address}

/-- The accounts in the set are those in the list, and none of them is listed twice. -/
structure InStep (destroyed : DestroyedAccounts) : Prop where
  nodup : destroyed.order.Nodup
  contains_iff : ∀ address, destroyed.contains address = true ↔ address ∈ destroyed.order

theorem inStep_empty : InStep {} where
  nodup := .nil
  contains_iff address := by simp [contains]

theorem of_mem_mark (listed : address ∈ (destroyed.mark marked).2.order) :
    address = marked ∨ address ∈ destroyed.order := by
  unfold mark at listed
  split at listed
  · exact .inr listed
  · simpa [or_comm] using listed

theorem InStep.mem_mark (inStep : destroyed.InStep) :
    address ∈ (destroyed.mark marked).2.order ↔ address = marked ∨ address ∈ destroyed.order := by
  refine ⟨of_mem_mark, fun either => ?_⟩
  unfold mark
  split
  · rename_i again
    rcases either with rfl | before
    · exact (inStep.contains_iff address).mp again
    · exact before
  · simpa [or_comm] using either

theorem InStep.mark (inStep : destroyed.InStep) (address : Address) :
    InStep (destroyed.mark address).2 := by
  unfold DestroyedAccounts.mark
  split
  · exact inStep
  · rename_i fresh
    have unlisted : address ∉ destroyed.order :=
      fun listed => fresh ((inStep.contains_iff address).mpr listed)
    refine ⟨?_, fun other => ?_⟩
    · refine List.nodup_append.mpr ⟨inStep.nodup, by simp, ?_⟩
      intro other listed newest new same
      rw [same, List.mem_singleton.mp new] at listed
      exact unlisted listed
    have before := inStep.contains_iff other
    unfold contains at before ⊢
    rw [← Std.ExtTreeMap.mem_iff_contains] at before ⊢
    rw [Map.mem_insert, before, List.mem_append, List.mem_singleton, or_comm, eq_comm]

theorem mem_takenOut (set : Map Address Unit) (since : List Address) :
    address ∈ since.foldr (fun address set => set.erase address) set ↔
      address ∈ set ∧ address ∉ since := by
  induction since with
  | nil => simp
  | cons newest older inductionHypothesis =>
      rw [List.foldr_cons, Map.mem_erase, inductionHypothesis, List.mem_cons, not_or, eq_comm]
      exact and_left_comm

/-- Taking marks back takes none from the set that is still in the list. -/
theorem InStep.rewind (inStep : destroyed.InStep) (count : Nat) :
    InStep (destroyed.rewind count) := by
  have parted := inStep.nodup
  rw [← List.take_append_drop count destroyed.order, List.nodup_append] at parted
  refine ⟨parted.1, fun address => ?_⟩
  have before := inStep.contains_iff address
  rw [contains, ← Std.ExtTreeMap.mem_iff_contains, ← List.take_append_drop count destroyed.order,
    List.mem_append] at before
  rw [contains, ← Std.ExtTreeMap.mem_iff_contains]
  simp only [DestroyedAccounts.rewind, mem_takenOut, before]
  constructor
  · rintro ⟨kept | dropped, still⟩
    · exact kept
    · exact absurd dropped still
  · exact fun kept => ⟨.inl kept, fun dropped => parted.2.2 _ kept _ dropped rfl⟩

end HostedEvm.DestroyedAccounts
