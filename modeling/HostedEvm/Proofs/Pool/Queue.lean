import HostedEvm.Pool.Queue
import HostedEvm.Proofs.Map

set_option autoImplicit false

/-!
What holds of the transactions of one sender.

The pending ones have the nonces from `base` to `pendingEnd` without a gap, and a transaction at
`base` is always one of them. Bringing a queue up to date, putting a transaction into it and taking
one out keep both.
-/

namespace HostedEvm.SenderQueue

/-- No nonce is below the account's, and the pending ones have no gap. -/
structure Gapless (queue : SenderQueue) : Prop where
  not_below : ∀ nonce ∈ queue.txs, queue.base ≤ nonce
  base_le : queue.base ≤ queue.pendingEnd
  held : ∀ nonce, queue.base ≤ nonce → nonce < queue.pendingEnd → nonce ∈ queue.txs

structure Sound (queue : SenderQueue) : Prop extends Gapless queue where
  started : queue.base ∈ queue.txs → queue.base < queue.pendingEnd

theorem isPending_iff {queue : SenderQueue} {nonce : UInt64} :
    queue.isPending nonce = true ↔ queue.base ≤ nonce ∧ nonce < queue.pendingEnd := by
  simp [isPending]

theorem sound_empty : Sound {} where
  not_below := by
    intro nonce present
    exact absurd present Std.ExtTreeMap.not_mem_empty
  base_le := by decide
  held := by
    intro nonce _ beforeEnd
    exact absurd beforeEnd (UInt64.not_lt_zero)
  started := by
    intro present
    exact absurd present Std.ExtTreeMap.not_mem_empty

theorem le_add_one {start nonce : UInt64} (inRange : start ≠ 0xffffffffffffffff) :
    start + 1 ≤ nonce ↔ start < nonce := by
  have below : start.toNat ≠ 18446744073709551615 := by
    intro same
    exact inRange (UInt64.toNat_inj.mp same)
  have bound := start.toNat_lt
  rw [UInt64.le_iff_toNat_le, UInt64.lt_iff_toNat_lt, UInt64.toNat_add]
  simp only [UInt64.reduceToNat]
  omega

theorem le_greatest (nonce : UInt64) : nonce ≤ 0xffffffffffffffff := by
  rw [UInt64.le_iff_toNat_le]
  exact Nat.le_of_lt_succ nonce.toNat_lt

theorem runEnd?_spec {nonces : List UInt64} {start stop : UInt64}
    (ascending : nonces.Pairwise (· < ·)) (fromStart : ∀ nonce ∈ nonces, start ≤ nonce)
    (found : runEnd? start nonces = some stop) :
    start ≤ stop ∧ (∀ nonce, start ≤ nonce → nonce < stop → nonce ∈ nonces) ∧
      stop ∉ nonces := by
  induction nonces generalizing start with
  | nil =>
      cases found
      refine ⟨UInt64.le_refl _, ?_, List.not_mem_nil⟩
      intro nonce fromStart beforeEnd
      exact absurd beforeEnd (UInt64.not_lt.mpr fromStart)
  | cons first rest inductionHypothesis =>
      rcases List.pairwise_cons.mp ascending with ⟨firstLeast, restAscending⟩
      simp only [runEnd?] at found
      split at found
      · subst first
        split at found
        · cases found
        · rename_i inRange
          have restBehind : ∀ nonce ∈ rest, start + 1 ≤ nonce := by
            intro nonce listed
            exact (le_add_one inRange).mpr (firstLeast nonce listed)
          rcases inductionHypothesis restAscending restBehind found with
            ⟨nextLe, between, missing⟩
          have startLt : start < stop := (le_add_one inRange).mp nextLe
          refine ⟨UInt64.le_of_lt startLt, ?_, ?_⟩
          · intro nonce startLe beforeEnd
            by_cases same : nonce = start
            · exact List.mem_cons.mpr (.inl same)
            · have behind := UInt64.lt_of_le_of_ne startLe (Ne.symm same)
              exact List.mem_cons_of_mem _
                (between nonce ((le_add_one inRange).mpr behind) beforeEnd)
          · intro listed
            rcases List.mem_cons.mp listed with same | inRest
            · exact UInt64.ne_of_lt startLt same.symm
            · exact missing inRest
      · rename_i differs
        cases found
        refine ⟨UInt64.le_refl _, ?_, ?_⟩
        · intro nonce startLe beforeEnd
          exact absurd beforeEnd (UInt64.not_lt.mpr startLe)
        · intro listed
          rcases List.mem_cons.mp listed with same | inRest
          · exact differs same.symm
          · have firstBelow := firstLeast _ inRest
            have startLe := fromStart first (List.mem_cons_self)
            exact UInt64.not_lt.mpr startLe firstBelow

theorem runEnd?_of_absent {nonces : List UInt64} {start : UInt64} (absent : start ∉ nonces) :
    runEnd? start nonces = some start := by
  cases nonces with
  | nil => rfl
  | cons first rest =>
      have differs : first ≠ start := fun same => absent (same ▸ List.mem_cons_self)
      exact if_neg differs

/-- A run has no end only if it reaches the greatest nonce. -/
theorem runEnd?_eq_none_iff {nonces : List UInt64} {start : UInt64}
    (ascending : nonces.Pairwise (· < ·)) (fromStart : ∀ nonce ∈ nonces, start ≤ nonce) :
    runEnd? start nonces = none ↔ ∀ nonce, start ≤ nonce → nonce ∈ nonces := by
  induction nonces generalizing start with
  | nil =>
      constructor
      · nofun
      · intro filled
        exact absurd (filled start (UInt64.le_refl start)) List.not_mem_nil
  | cons first rest inductionHypothesis =>
      rcases List.pairwise_cons.mp ascending with ⟨firstLeast, restAscending⟩
      unfold runEnd?
      by_cases same : first = start
      · subst first
        rw [if_pos rfl]
        by_cases greatest : start = 0xffffffffffffffff
        · rw [if_pos greatest]
          refine ⟨fun _ => ?_, fun _ => rfl⟩
          intro nonce fromGreatest
          have within : nonce ≤ start := greatest ▸ le_greatest nonce
          rw [UInt64.le_antisymm within fromGreatest]
          exact List.mem_cons_self
        · have restBehind : ∀ nonce ∈ rest, start + 1 ≤ nonce := by
            intro nonce listed
            exact (le_add_one greatest).mpr (firstLeast nonce listed)
          rw [if_neg greatest, inductionHypothesis restAscending restBehind]
          constructor
          · intro filled nonce startLe
            by_cases equal : nonce = start
            · exact List.mem_cons.mpr (.inl equal)
            · have behind := UInt64.lt_of_le_of_ne startLe (Ne.symm equal)
              exact List.mem_cons_of_mem _ (filled nonce ((le_add_one greatest).mpr behind))
          · intro filled nonce behindLe
            have behind := (le_add_one greatest).mp behindLe
            rcases List.mem_cons.mp (filled nonce (UInt64.le_of_lt behind)) with equal | inRest
            · exact absurd equal.symm (UInt64.ne_of_lt behind)
            · exact inRest
      · rw [if_neg same]
        refine ⟨nofun, ?_⟩
        intro filled
        rcases List.mem_cons.mp (filled start (UInt64.le_refl start)) with equal | inRest
        · exact absurd equal.symm same
        · have startLe := fromStart first List.mem_cons_self
          exact absurd (firstLeast start inRest) (UInt64.not_lt.mpr startLe)

/-- The nonces in order, each greater than the one before. -/
theorem listKeys_ascending (txs : Map UInt64 Transaction) :
    (Map.listKeys txs).Pairwise (· < ·) := by
  rw [Map.listKeys, List.pairwise_map]
  apply List.Pairwise.imp _ Std.ExtTreeMap.ordered_keys_toList
  intro first second before
  exact Std.compare_eq_lt.mp before

theorem mem_behind {queue : SenderQueue} {start nonce : UInt64} :
    nonce ∈ (Map.listKeys queue.txs).filter (fun nonce => start ≤ nonce) ↔
      start ≤ nonce ∧ nonce ∈ queue.txs := by
  rw [List.mem_filter, Map.mem_listKeys, decide_eq_true_eq, and_comm]

theorem promote?_eq_none_iff {queue : SenderQueue} :
    queue.promote? = none ↔ ∀ nonce, queue.pendingEnd ≤ nonce → nonce ∈ queue.txs := by
  unfold promote?
  rw [Option.map_eq_none_iff, runEnd?_eq_none_iff]
  · apply forall_congr'
    intro nonce
    apply imp_congr_right
    intro behind
    rw [mem_behind]
    exact and_iff_right behind
  · exact (listKeys_ascending queue.txs).filter _
  · intro nonce listed
    exact (mem_behind.mp listed).1

/-- All nonces from `start` on are held up to `stop`, which is missing. -/
structure RunsTo (txs : Map UInt64 Transaction) (start stop : UInt64) : Prop where
  le : start ≤ stop
  held : ∀ nonce, start ≤ nonce → nonce < stop → nonce ∈ txs
  missing : stop ∉ txs

theorem promote?_runsTo {queue promoted : SenderQueue} (found : queue.promote? = some promoted) :
    RunsTo queue.txs queue.pendingEnd promoted.pendingEnd ∧
      promoted = { queue with pendingEnd := promoted.pendingEnd } := by
  obtain ⟨stop, run, rfl⟩ := Option.map_eq_some_iff.mp found
  have ascending := (listKeys_ascending queue.txs).filter fun nonce => queue.pendingEnd ≤ nonce
  obtain ⟨behind, between, missing⟩ :=
    runEnd?_spec ascending (fun _ listed => (mem_behind.mp listed).1) run
  refine ⟨⟨behind, ?_, ?_⟩, rfl⟩
  · intro nonce fromEnd beforeStop
    exact (mem_behind.mp (between nonce fromEnd beforeStop)).2
  · intro present
    exact missing (mem_behind.mpr ⟨behind, present⟩)

theorem promote?_sound {queue promoted : SenderQueue} (gapless : queue.Gapless)
    (found : queue.promote? = some promoted) :
    promoted.Sound ∧ promoted.base = queue.base ∧ promoted.txs = queue.txs := by
  obtain ⟨runs, same⟩ := promote?_runsTo found
  rw [same]
  have baseLe := UInt64.le_trans gapless.base_le runs.le
  refine ⟨⟨⟨gapless.not_below, baseLe, ?_⟩, ?_⟩, rfl, rfl⟩
  · intro nonce fromBase beforeStop
    by_cases pending : nonce < queue.pendingEnd
    · exact gapless.held nonce fromBase pending
    · exact runs.held nonce (UInt64.not_lt.mp pending) beforeStop
  · -- The run stops at a nonce that is missing, so it does not stop at an occupied base.
    intro present
    apply UInt64.lt_of_le_of_ne baseLe
    intro unstarted
    exact runs.missing (unstarted ▸ present)

theorem mem_moved {queue : SenderQueue} {base nonce : UInt64} :
    nonce ∈ (queue.moved base).txs ↔ base ≤ nonce ∧ nonce ∈ queue.txs := by
  simp only [moved, Map.mem_iff, Map.get_filter, decide_eq_true_eq]
  constructor
  · rintro ⟨tx, present, kept⟩
    exact ⟨kept, tx, present⟩
  · rintro ⟨kept, tx, present⟩
    exact ⟨tx, present, kept⟩

theorem moved_of_lt {queue : SenderQueue} {base : UInt64} (back : base < queue.base) :
    (queue.moved base).pendingEnd = base := by
  simp only [moved, if_pos back]
  exact if_pos (UInt64.le_refl base)

theorem moved_of_le {queue : SenderQueue} {base : UInt64} (ahead : queue.base ≤ base) :
    (queue.moved base).pendingEnd =
      if queue.pendingEnd ≤ base then base else queue.pendingEnd := by
  simp only [moved, if_neg (UInt64.not_lt.mpr ahead)]
  rfl

theorem moved_gapless {queue : SenderQueue} (gapless : queue.Gapless) (base : UInt64) :
    (queue.moved base).Gapless := by
  have notBelow : ∀ nonce ∈ (queue.moved base).txs, base ≤ nonce := by
    intro nonce present
    exact (mem_moved.mp present).1
  by_cases back : base < queue.base
  · refine ⟨notBelow, ?_, ?_⟩
    · rw [moved_of_lt back]
      exact UInt64.le_refl base
    · intro nonce fromBase beforeEnd
      rw [moved_of_lt back] at beforeEnd
      exact absurd beforeEnd (UInt64.not_lt.mpr fromBase)
  · have ahead := UInt64.not_lt.mp back
    refine ⟨notBelow, ?_, ?_⟩
    · rw [moved_of_le ahead]
      split
      · exact UInt64.le_refl base
      · rename_i further
        exact UInt64.le_of_lt (UInt64.not_le.mp further)
    · intro nonce fromBase beforeEnd
      rw [moved_of_le ahead] at beforeEnd
      split at beforeEnd
      · exact absurd beforeEnd (UInt64.not_lt.mpr fromBase)
      · have present := gapless.held nonce (UInt64.le_trans ahead fromBase) beforeEnd
        exact mem_moved.mpr ⟨fromBase, present⟩

theorem rebase?_sound {queue rebased : SenderQueue} {base : UInt64} (gapless : queue.Gapless)
    (found : queue.rebase? base = some rebased) :
    rebased.Sound ∧ rebased.base = base ∧ rebased.txs = (queue.moved base).txs := by
  have moved := moved_gapless gapless base
  simp only [rebase?] at found
  split at found
  · exact promote?_sound moved found
  · rename_i started
    cases found
    refine ⟨⟨moved, ?_⟩, rfl, rfl⟩
    intro _
    exact UInt64.lt_of_le_of_ne moved.base_le (Ne.symm started)

/-- A queue cannot be brought up to date only if a run is to start in it that reaches the greatest
nonce. -/
theorem rebase?_eq_none_iff {queue : SenderQueue} {base : UInt64} (gapless : queue.Gapless) :
    queue.rebase? base = none ↔
      queue.pendingEnd ≤ base ∧ ∀ nonce, base ≤ nonce → nonce ∈ queue.txs := by
  have filled (ended : (queue.moved base).pendingEnd = base) :
      (queue.moved base).promote? = none ↔ ∀ nonce, base ≤ nonce → nonce ∈ queue.txs := by
    rw [promote?_eq_none_iff, ended]
    apply forall_congr'
    intro nonce
    apply imp_congr_right
    intro fromBase
    rw [mem_moved]
    exact and_iff_right fromBase
  unfold rebase?
  simp only
  constructor
  · intro stuck
    split at stuck
    · rename_i ended
      have everywhere := (filled ended).mp stuck
      refine ⟨?_, everywhere⟩
      have ahead := gapless.not_below base (everywhere base (UInt64.le_refl base))
      rw [moved_of_le ahead] at ended
      split at ended
      · assumption
      · exact ended ▸ UInt64.le_refl _
    · cases stuck
  · rintro ⟨passed, everywhere⟩
    have ahead := gapless.not_below base (everywhere base (UInt64.le_refl base))
    have ended : (queue.moved base).pendingEnd = base := by
      rw [moved_of_le ahead, if_pos passed]
    rw [if_pos ended]
    exact (filled ended).mpr everywhere

/-- A queue that stands at the nonce of its account is up to date. -/
theorem rebase?_again {queue : SenderQueue} (sound : queue.Sound) :
    queue.rebase? queue.base = some queue := by
  have kept : queue.txs.filter (fun nonce _ => queue.base ≤ nonce) = queue.txs := by
    apply Std.ExtTreeMap.ext_getElem?
    intro nonce
    apply Option.ext
    intro tx
    rw [Map.get_filter, decide_eq_true_eq]
    refine and_iff_left_of_imp fun present => ?_
    exact sound.not_below nonce (Map.mem_iff.mpr ⟨tx, present⟩)
  have still : queue.moved queue.base = queue := by
    have ends : (queue.moved queue.base).pendingEnd = queue.pendingEnd := by
      rw [moved_of_le (UInt64.le_refl _)]
      split
      · rename_i ended
        exact UInt64.le_antisymm sound.base_le ended
      · rfl
    have same : queue.moved queue.base =
        { queue with pendingEnd := (queue.moved queue.base).pendingEnd } := by
      rw [moved, kept]
    rw [same, ends]
  unfold rebase?
  simp only
  rw [still]
  split
  · rename_i ended
    -- The run is over at the nonce of the account, where nothing stands.
    have absent : queue.pendingEnd ∉ (Map.listKeys queue.txs).filter
        fun nonce => queue.pendingEnd ≤ nonce := by
      intro listed
      have started := sound.started (ended ▸ (mem_behind.mp listed).2)
      rw [ended] at started
      exact UInt64.lt_irrefl _ started
    unfold promote?
    rw [runEnd?_of_absent absent]
    rfl
  · rfl

theorem put_gapless {queue : SenderQueue} (gapless : queue.Gapless) {tx : Transaction}
    (notBelow : queue.base ≤ tx.nonce) : (queue.put tx).Gapless where
  not_below := by
    intro nonce present
    rcases (Map.mem_insert _ _ _ _).mp present with rfl | before
    · exact notBelow
    · exact gapless.not_below nonce before
  base_le := gapless.base_le
  held := by
    intro nonce fromBase beforeEnd
    exact (Map.mem_insert _ _ _ _).mpr (.inr (gapless.held nonce fromBase beforeEnd))

theorem putAndPromote?_sound {queue placed : SenderQueue} {tx : Transaction}
    (sound : queue.Sound) (notBelow : queue.base ≤ tx.nonce)
    (found : queue.putAndPromote? tx = some placed) :
    placed.Sound ∧ placed.base = queue.base ∧ placed.txs = queue.txs.insert tx.nonce tx := by
  have gapless := put_gapless sound.toGapless notBelow
  simp only [putAndPromote?] at found
  split at found
  · exact promote?_sound gapless found
  · rename_i notNext
    cases found
    refine ⟨⟨gapless, ?_⟩, rfl, rfl⟩
    intro present
    rcases (Map.mem_insert _ _ _ _).mp present with next | before
    · apply UInt64.lt_of_le_of_ne sound.base_le
      intro unstarted
      exact notNext ⟨next, unstarted.symm⟩
    · exact sound.started before

theorem without_of_pending {queue : SenderQueue} {nonce : UInt64}
    (pending : queue.isPending nonce = true) : (queue.without nonce).pendingEnd = nonce :=
  if_pos pending

theorem without_of_waiting {queue : SenderQueue} {nonce : UInt64}
    (waiting : ¬queue.isPending nonce = true) :
    (queue.without nonce).pendingEnd = queue.pendingEnd := if_neg waiting

theorem without_gapless {queue : SenderQueue} (gapless : queue.Gapless) (nonce : UInt64) :
    (queue.without nonce).Gapless := by
  have notBelow : ∀ other ∈ (queue.without nonce).txs, queue.base ≤ other := by
    intro other present
    exact gapless.not_below other ((Map.mem_erase _ _ _).mp present).2
  by_cases pending : queue.isPending nonce = true
  · obtain ⟨fromBase, beforeEnd⟩ := isPending_iff.mp pending
    refine ⟨notBelow, ?_, ?_⟩
    · rw [without_of_pending pending]
      exact fromBase
    · intro other otherFromBase beforeNonce
      rw [without_of_pending pending] at beforeNonce
      have present := gapless.held other otherFromBase (UInt64.lt_trans beforeNonce beforeEnd)
      exact (Map.mem_erase _ _ _).mpr ⟨(UInt64.ne_of_lt beforeNonce).symm, present⟩
  · refine ⟨notBelow, ?_, ?_⟩
    · rw [without_of_waiting pending]
      exact gapless.base_le
    · intro other otherFromBase beforeEnd
      rw [without_of_waiting pending] at beforeEnd
      refine (Map.mem_erase _ _ _).mpr ⟨?_, gapless.held other otherFromBase beforeEnd⟩
      rintro rfl
      exact pending (isPending_iff.mpr ⟨otherFromBase, beforeEnd⟩)

theorem without_sound {queue : SenderQueue} (sound : queue.Sound) (nonce : UInt64) :
    (queue.without nonce).Sound := by
  refine ⟨without_gapless sound.toGapless nonce, ?_⟩
  intro present
  obtain ⟨differs, stood⟩ := (Map.mem_erase _ _ _).mp present
  by_cases pending : queue.isPending nonce = true
  · rw [without_of_pending pending]
    exact UInt64.lt_of_le_of_ne (isPending_iff.mp pending).1 (Ne.symm differs)
  · rw [without_of_waiting pending]
    exact sound.started stood

/-- Without a nonce, those before it are still pending. -/
theorem isPending_without {queue : SenderQueue} {nonce other : UInt64}
    (fromBase : queue.base ≤ nonce) :
    (queue.without nonce).isPending other = true ↔
      queue.isPending other = true ∧ other < nonce := by
  simp only [without, isPending_iff, UInt64.le_iff_toNat_le, UInt64.lt_iff_toNat_lt] at fromBase ⊢
  split <;> omega

/-- Without a nonce, those that were pending behind it wait. -/
theorem waits_without {queue : SenderQueue} {nonce other : UInt64}
    (fromBase : queue.base ≤ nonce) (differs : other ≠ nonce) :
    (queue.without nonce).pendingEnd ≤ other ↔
      queue.pendingEnd ≤ other ∨ queue.isPending other = true ∧ nonce < other := by
  rw [ne_eq, ← UInt64.toNat_inj] at differs
  simp only [without, isPending_iff, UInt64.le_iff_toNat_le, UInt64.lt_iff_toNat_lt] at fromBase ⊢
  split <;> omega

theorem all_partitioned {queue : SenderQueue} (sound : queue.Sound) :
    (queue.pending ++ queue.queued).Perm queue.all := by
  have groups : ∀ entry ∈ queue.txs.toList,
      (queue.pendingEnd ≤ entry.1) = (queue.isPending entry.1 = false) := by
    intro entry listed
    have present := Map.mem_iff.mpr ⟨entry.2, Map.mem_toList.mp listed⟩
    have fromBase := sound.not_below entry.1 present
    rw [← UInt64.not_lt, ← Bool.not_eq_true, isPending_iff]
    simp [fromBase]
  have queued : queue.queued =
      (queue.txs.toList.filter fun entry => !queue.isPending entry.1).map Prod.snd := by
    unfold SenderQueue.queued select
    congr 1
    apply List.filter_congr
    intro entry listed
    simp [groups entry listed]
  rw [queued, SenderQueue.pending, select, ← List.map_append]
  exact (List.filter_append_perm (fun entry => queue.isPending entry.1) _).map Prod.snd

end HostedEvm.SenderQueue
