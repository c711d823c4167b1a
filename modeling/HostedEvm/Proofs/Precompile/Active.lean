import HostedEvm.Proofs.Precompile.Dispatch

set_option autoImplicit false

/-!
The addresses of the active precompiles.

There are two ways to these addresses: from the declared precompiles, by sorting, and from the
registry that is built of them, by listing its keys. Both lists are strictly ascending and have the
same members, so they are the same list whenever there is a registry.
-/

namespace HostedEvm

section Repetitions

variable {Item : Type} [DecidableEq Item]

omit [DecidableEq Item] in
theorem eraseRepsBy_loop (same : Item → Item → Bool) (first : Item) (rest kept : List Item) :
    List.eraseRepsBy.loop same first rest kept =
      kept.reverse ++ List.eraseRepsBy.loop same first rest [] := by
  induction rest generalizing first kept with
  | nil => simp [List.eraseRepsBy.loop]
  | cons second others inductionHypothesis =>
      rw [List.eraseRepsBy.loop, List.eraseRepsBy.loop]
      split
      · exact inductionHypothesis first kept
      · rw [inductionHypothesis second (first :: kept), inductionHypothesis second [first]]
        simp

theorem eraseReps_cons_cons (first second : Item) (rest : List Item) :
    (first :: second :: rest).eraseReps =
      if first = second then (second :: rest).eraseReps
      else first :: (second :: rest).eraseReps := by
  simp only [List.eraseReps, List.eraseRepsBy, List.eraseRepsBy.loop]
  split
  · rename_i same
    rw [if_pos (beq_iff_eq.mp same), beq_iff_eq.mp same]
  · rename_i different
    rw [if_neg (beq_eq_false_iff_ne.mp different), eraseRepsBy_loop]
    rfl

theorem mem_eraseReps {items : List Item} {item : Item} :
    item ∈ items.eraseReps ↔ item ∈ items := by
  induction items with
  | nil => rfl
  | cons first rest inductionHypothesis =>
      cases rest with
      | nil => rfl
      | cons second others =>
          rw [eraseReps_cons_cons]
          split
          · rename_i same
            rw [inductionHypothesis, same, List.mem_cons, List.mem_cons, List.mem_cons,
              or_self_left]
          · rw [List.mem_cons, inductionHypothesis, ← List.mem_cons]

end Repetitions

namespace Address

/-- Of sorted addresses, equal ones stand next to each other. -/
theorem ascending_eraseReps {addresses : List Address}
    (sorted : addresses.Pairwise fun first second => first.ule second = true) :
    addresses.eraseReps.Pairwise (· < ·) := by
  induction addresses with
  | nil => exact .nil
  | cons first rest inductionHypothesis =>
      obtain ⟨least, sortedRest⟩ := List.pairwise_cons.mp sorted
      cases rest with
      | nil => exact List.pairwise_singleton ..
      | cons second others =>
          rw [eraseReps_cons_cons]
          split
          · exact inductionHypothesis sortedRest
          · rename_i different
            refine List.pairwise_cons.mpr ⟨?_, inductionHypothesis sortedRest⟩
            intro address listed
            have apart : first.toNat ≠ second.toNat :=
              fun same => different (BitVec.eq_of_toNat_eq same)
            have before := BitVec.ule_iff_toNat_le.mp (least second List.mem_cons_self)
            rw [BitVec.lt_def]
            rcases List.mem_cons.mp (mem_eraseReps.mp listed) with rfl | behind
            · omega
            · have below := (List.pairwise_cons.mp sortedRest).1 address behind
              rw [BitVec.ule_iff_toNat_le] at below
              omega

/-- Strictly ascending addresses are told by their members. -/
theorem eq_of_ascending {first second : List Address} (ascending : first.Pairwise (· < ·))
    (ascendingToo : second.Pairwise (· < ·))
    (same : ∀ address, address ∈ first ↔ address ∈ second) : first = second := by
  have nodup {addresses : List Address} (above : addresses.Pairwise (· < ·)) : addresses.Nodup :=
    above.imp BitVec.ne_of_lt
  have rearranged : first.Perm second :=
    (List.perm_ext_iff_of_nodup (nodup ascending) (nodup ascendingToo)).mpr same
  refine rearranged.eq_of_pairwise ?_ ascending ascendingToo
  intro address other _ _ below above
  exact absurd above (BitVec.lt_asymm below)

end Address

theorem ascending_activeAddresses (precompiles : List Precompile) :
    (activeAddresses precompiles).Pairwise (· < ·) := by
  apply Address.ascending_eraseReps
  apply List.pairwise_mergeSort
  · intro first second third
    simp only [BitVec.ule_iff_toNat_le]
    exact Nat.le_trans
  · intro first second
    simp only [Bool.or_eq_true, BitVec.ule_iff_toNat_le]
    exact Nat.le_total _ _

theorem mem_activeAddresses {precompiles : List Precompile} {address : Address} :
    address ∈ activeAddresses precompiles ↔ address ∈ precompiles.map Precompile.address := by
  rw [activeAddresses, mem_eraseReps, List.mem_mergeSort]

namespace Registry

variable {codec : AbiCodec} {precompiles : List Precompile} {prices : StoragePrices}
  {registry : Registry}

theorem ascending_active (registry : Registry) : registry.active.Pairwise (· < ·) :=
  (Map.ascending_listKeys registry.containers).imp compareOfLessAndEq_eq_lt.mp

theorem exists_withCodec_iff (codec : AbiCodec) (precompiles : List Precompile)
    (prices : StoragePrices) :
    (∃ registry, withCodec codec precompiles prices = .ok registry) ↔
      (precompiles.map Precompile.address).Nodup ∧
        ∀ precompile ∈ precompiles, ∃ container, precompile.build codec = .ok container := by
  simp only [withCodec_eq_ok_iff, ← exists_mapM_iff]
  constructor
  · rintro ⟨_, distinct, containers, made, -⟩
    exact ⟨distinct, containers, made⟩
  · rintro ⟨distinct, containers, made⟩
    exact ⟨_, distinct, containers, made, rfl⟩

theorem contains_iff_of_built (built : withCodec codec precompiles prices = .ok registry)
    (address : Address) :
    registry.contains address = true ↔ address ∈ precompiles.map Precompile.address := by
  obtain ⟨-, containers, made, rfl⟩ := withCodec_eq_ok_iff.mp built
  have addresses := map_eq_of_mapM (fun _ _ => Precompile.address_build) made
  rw [← addresses, contains, Std.ExtTreeMap.contains_iff_mem]
  exact Map.mem_ofValues Container.address

theorem get?_of_built (built : withCodec codec precompiles prices = .ok registry)
    {precompile : Precompile} (member : precompile ∈ precompiles) :
    ∃ container, precompile.build codec = .ok container ∧
      registry.get? precompile.address = some container := by
  obtain ⟨distinct, containers, made, rfl⟩ := withCodec_eq_ok_iff.mp built
  obtain ⟨container, listed, builtOne⟩ := exists_mem_of_mapM made member
  rw [← map_eq_of_mapM (fun _ _ => Precompile.address_build) made] at distinct
  rw [← Precompile.address_build builtOne]
  exact ⟨container, builtOne, Map.get_ofValues_of_mem Container.address distinct listed⟩

/-- A registry is built if and only if the addresses differ and every precompile can be built. Its
addresses are then those that the declared precompiles have, strictly ascending, and each of the
precompiles is found under its own. Precompiles that share an address make no registry. -/
theorem active_agrees (codec : AbiCodec) (precompiles : List Precompile)
    (prices : StoragePrices) :
    ((∃ registry, withCodec codec precompiles prices = .ok registry) ↔
        (precompiles.map Precompile.address).Nodup ∧
          ∀ precompile ∈ precompiles, ∃ container, precompile.build codec = .ok container) ∧
      (¬ (precompiles.map Precompile.address).Nodup →
        ∃ fault, withCodec codec precompiles prices = .error fault) ∧
      ∀ registry, withCodec codec precompiles prices = .ok registry →
        registry.active = activeAddresses precompiles ∧ registry.active.Pairwise (· < ·) ∧
          ∀ precompile ∈ precompiles, registry.contains precompile.address = true ∧
            ∃ container, precompile.build codec = .ok container ∧
              registry.get? precompile.address = some container := by
  refine ⟨exists_withCodec_iff codec precompiles prices, ?_, ?_⟩
  · intro shared
    cases ended : withCodec codec precompiles prices with
    | error fault => exact ⟨fault, rfl⟩
    | ok registry =>
        have built := (exists_withCodec_iff codec precompiles prices).mp ⟨registry, ended⟩
        exact absurd built.1 shared
  · intro registry built
    refine ⟨?_, registry.ascending_active, ?_⟩
    · apply Address.eq_of_ascending registry.ascending_active (ascending_activeAddresses _)
      intro address
      rw [mem_activeAddresses, mem_active, contains_iff_of_built built]
    · intro precompile member
      refine ⟨?_, get?_of_built built member⟩
      exact (contains_iff_of_built built _).mpr (List.mem_map_of_mem member)

def pausing : MethodContract where
  address := 9
  interface := { functions := [{ name := "pause", inputs := [] }] }
  methods := [{ signature := "pause()", handler := fun _ _ => .finish (.ok []) }]

/-- A contract is declared ahead of the precompile with the lower address. A second precompile at
that address is refused. -/
theorem pausing_active :
    ∃ registry,
      ofPrecompiles (.stateful pausing :: builtinPrecompiles) .standard = .ok registry ∧
        registry.active = [4, 9] ∧ registry.contains 9 = true ∧
        ∃ fault, ofPrecompiles (.stateless .identity :: builtinPrecompiles) .standard =
          .error fault := by
  obtain ⟨builds, -, agrees⟩ :=
    active_agrees .standard (.stateful pausing :: builtinPrecompiles) .standard
  have declares : Precompile.Declares pausing (.stateful pausing) := .stateful
  obtain ⟨container, built⟩ := declares.builds_iff.mpr (by constructor <;> decide)
  have declared : ∀ precompile ∈ Precompile.stateful pausing :: builtinPrecompiles,
      ∃ container, precompile.build .standard = .ok container :=
    List.forall_mem_cons.mpr
      ⟨⟨container, built⟩, List.forall_mem_singleton.mpr ⟨.pure .identity, rfl⟩⟩
  obtain ⟨registry, registered⟩ := builds.mpr ⟨by decide, declared⟩
  obtain ⟨same, -, found⟩ := agrees registry registered
  have listed : activeAddresses (.stateful pausing :: builtinPrecompiles) = [4, 9] := by
    apply Address.eq_of_ascending (ascending_activeAddresses _) (by decide)
    intro address
    rw [mem_activeAddresses]
    exact List.mem_pair.trans (or_comm.trans List.mem_pair.symm)
  refine ⟨registry, registered, same.trans listed, (found _ List.mem_cons_self).1, ?_⟩
  have other := active_agrees .standard (.stateless .identity :: builtinPrecompiles) .standard
  exact other.2.1 (by decide)

end Registry

end HostedEvm
