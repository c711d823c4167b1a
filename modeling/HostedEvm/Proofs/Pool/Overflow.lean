import HostedEvm.Proofs.Pool.Holdings
import HostedEvm.Proofs.Pool.Senders

set_option autoImplicit false

/-!
Where the nonces of a pool end.

A nonce has 64 bits, and a pending run ends at the first nonce that is missing. A run that takes in
the greatest nonce has no end, and the operation that is to find one gives up. Apart from that, all
that is computed of nonces exists: the one behind a pending nonce, and each stretch of nonces that
is read starts before it ends.
-/

namespace HostedEvm

namespace SenderQueue

variable {queue changed : SenderQueue} {tx : Transaction} {nonceOf : NonceOf} {sender : Address}
  {txs : Map UInt64 Transaction} {start stop : UInt64}

/-- The first nonce from `start` on that is missing, looked for one by one. There is no nonce behind
the greatest one. -/
def firstMissing? (txs : Map UInt64 Transaction) (start : UInt64) : Option UInt64 :=
  if txs.contains start then
    if start = 0xffffffffffffffff then none else firstMissing? txs (start + 1)
  else some start
termination_by UInt64.size - start.toNat
decreasing_by
  rename_i inRange
  have next : start < start + 1 := (le_add_one inRange).mp (UInt64.le_refl _)
  rw [UInt64.lt_iff_toNat_lt] at next
  have bound := (start + 1).toNat_lt_size
  omega

theorem firstMissing?_of_runsTo (runs : RunsTo txs start stop) :
    firstMissing? txs start = some stop := by
  fun_induction firstMissing? txs start with
  | case1 present =>
      have last := UInt64.le_antisymm (le_greatest stop) runs.le
      exact absurd (Std.ExtTreeMap.mem_iff_contains.mpr present) (last ▸ runs.missing)
  | case2 start present inRange inductionHypothesis =>
      have differs : start ≠ stop := by
        rintro rfl
        exact runs.missing (Std.ExtTreeMap.mem_iff_contains.mpr present)
      have before := UInt64.lt_of_le_of_ne runs.le differs
      refine inductionHypothesis ⟨(le_add_one inRange).mpr before, ?_, runs.missing⟩
      intro nonce behind
      exact runs.held nonce (UInt64.le_of_lt ((le_add_one inRange).mp behind))
  | case3 start absent =>
      by_contra differs
      have before := UInt64.lt_of_le_of_ne runs.le fun same => differs (same ▸ rfl)
      exact absent (Std.ExtTreeMap.mem_iff_contains.mp (runs.held start (UInt64.le_refl _) before))

theorem firstMissing?_of_filled (filled : ∀ nonce, start ≤ nonce → nonce ∈ txs) :
    firstMissing? txs start = none := by
  fun_induction firstMissing? txs start with
  | case1 _ => rfl
  | case2 start _ inRange inductionHypothesis =>
      apply inductionHypothesis
      intro nonce behind
      exact filled nonce (UInt64.le_of_lt ((le_add_one inRange).mp behind))
  | case3 start absent =>
      exact absurd (Std.ExtTreeMap.mem_iff_contains.mp (filled start (UInt64.le_refl _))) absent

/-- Walking along the nonces that are held finds what looking nonce by nonce finds. -/
theorem promote?_eq_firstMissing? (queue : SenderQueue) :
    queue.promote? = (firstMissing? queue.txs queue.pendingEnd).map
      fun pendingEnd => { queue with pendingEnd } := by
  cases found : queue.promote? with
  | none =>
      rw [firstMissing?_of_filled (promote?_eq_none_iff.mp found)]
      rfl
  | some changed =>
      obtain ⟨runs, same⟩ := promote?_runsTo found
      rw [firstMissing?_of_runsTo runs, Option.map_some, ← same]

/-- What is read of the nonces of a queue starts before it ends: the pending run, and what lies in
it behind one of its nonces, which has a next one. -/
structure Ranged (queue : SenderQueue) : Prop where
  pending : queue.base ≤ queue.pendingEnd
  behind : ∀ nonce, queue.isPending nonce = true →
    nonce.toNat + 1 < UInt64.size ∧ nonce + 1 ≤ queue.pendingEnd

theorem Gapless.ranged (gapless : queue.Gapless) : queue.Ranged where
  pending := gapless.base_le
  behind := by
    intro nonce pending
    have beforeEnd := (isPending_iff.mp pending).2
    have inRange : nonce ≠ 0xffffffffffffffff := by
      rintro rfl
      exact UInt64.not_lt.mpr (le_greatest _) beforeEnd
    refine ⟨?_, (le_add_one inRange).mpr beforeEnd⟩
    rw [UInt64.lt_iff_toNat_lt] at beforeEnd
    have bound := queue.pendingEnd.toNat_lt_size
    omega

end SenderQueue

namespace Pool

variable {config : PoolConfig} {pool : Pool} {nonceOf : NonceOf} {tx : Transaction}
  {replacing : Bool} {sender : Address}

/-- A transaction may take the place at the nonce of its account, where its sender has none, while
every nonce behind it is held. -/
structure Fills (pool : Pool) (nonceOf : NonceOf) (tx : Transaction) : Prop where
  next : tx.nonce = nonceOf tx.sender
  behind : ∀ nonce, tx.nonce < nonce → nonce ∈ (pool.queue tx.sender).txs
  admitted : ∃ queue, (pool.queue tx.sender).rebase? (nonceOf tx.sender) = some queue ∧
    (pool.passed nonceOf tx.sender).placeFor queue tx false = .ok none

theorem place_gives_up_iff {queue : SenderQueue} {before : List Word} :
    completed (pool.place queue before tx replacing).1 = false ↔
      ∃ displaced, pool.placeFor queue tx replacing = .ok displaced ∧
        queue.putAndPromote? tx = none := by
  unfold place
  cases placed : pool.placeFor queue tx replacing with
  | error fault =>
      have running := (placeFor_eq_error placed).2
      simp [completed, running]
  | ok displaced => cases promoted : queue.putAndPromote? tx <;> simp [completed, PoolFault.isFatal]

theorem add_gives_up_iff :
    completed (pool.add nonceOf tx replacing).1 = false ↔
      tx.isEmpty = false ∧ nonceOf tx.sender ≤ tx.nonce ∧
        ((pool.queue tx.sender).rebase? (nonceOf tx.sender) = none ∨
          ∃ queue displaced, (pool.queue tx.sender).rebase? (nonceOf tx.sender) = some queue ∧
            (pool.passed nonceOf tx.sender).placeFor queue tx replacing = .ok displaced ∧
            queue.putAndPromote? tx = none) := by
  rw [← UInt64.not_lt, ← Bool.not_eq_true (tx.isEmpty)]
  unfold add
  simp only
  split
  · rename_i unsealed
    exact iff_of_false nofun fun opened => opened.1 unsealed
  · rename_i opened
    split
    · rename_i low
      exact iff_of_false nofun fun inTime => inTime.2.1 low
    · rename_i inTime
      rw [and_iff_right opened, and_iff_right inTime]
      cases rebased : (pool.queue tx.sender).rebase? (nonceOf tx.sender) with
      | none => exact iff_of_true rfl (.inl rfl)
      | some queue =>
          have same := @place_gives_up_iff (pool.passed nonceOf tx.sender) tx replacing queue
            (pool.queue tx.sender).pendingHashes
          refine same.trans ⟨?_, ?_⟩
          · rintro ⟨displaced, placed, stuck⟩
            exact .inr ⟨queue, displaced, rfl, placed, stuck⟩
          · intro causes
            rcases causes with before | ⟨_, displaced, found, placed, stuck⟩
            · cases before
            · cases found
              exact ⟨displaced, placed, stuck⟩

/-- Behind a queue that was brought up to date no run ends where a transaction fills the place at
the nonce of the account. Such a place is free, so that nothing is replaced there. -/
theorem Orderly.fills_iff (orderly : pool.Orderly) :
    (∃ queue displaced, (pool.queue tx.sender).rebase? (nonceOf tx.sender) = some queue ∧
        (pool.passed nonceOf tx.sender).placeFor queue tx replacing = .ok displaced ∧
        queue.putAndPromote? tx = none) ↔ replacing = false ∧ pool.Fills nonceOf tx := by
  constructor
  · rintro ⟨queue, displaced, rebased, placed, stuck⟩
    obtain ⟨sound, atNonce, txs⟩ :=
      SenderQueue.rebase?_sound (orderly.gapless tx.sender) rebased
    obtain ⟨⟨next, unstarted⟩, filled⟩ := SenderQueue.putAndPromote?_eq_none_iff.mp stuck
    have free : queue.txs[tx.nonce]? = none := by
      rw [next, ← Option.not_isSome_iff_eq_none, ← Std.ExtTreeMap.mem_iff_isSome_getElem?]
      intro present
      have started := sound.started present
      rw [unstarted] at started
      exact UInt64.lt_irrefl _ started
    have vacant : displaced = none := (placeFor_eq_ok placed).2.1.trans free
    subst vacant
    cases replacing with
    | true => cases placeFor_replacing placed
    | false =>
        refine ⟨rfl, next.trans atNonce, ?_, queue, rebased, placed⟩
        intro nonce behind
        rcases (Map.mem_insert _ _ _ _).mp (filled nonce (next ▸ UInt64.le_of_lt behind)) with
          same | present
        · exact absurd same (UInt64.ne_of_lt behind)
        · rw [txs] at present
          exact (SenderQueue.mem_moved.mp present).2
  · rintro ⟨rfl, next, behind, queue, rebased, placed⟩
    obtain ⟨sound, atNonce, txs⟩ :=
      SenderQueue.rebase?_sound (orderly.gapless tx.sender) rebased
    have atBase : tx.nonce = queue.base := next.trans atNonce.symm
    have free : queue.txs[tx.nonce]? = none := (placeFor_eq_ok placed).2.1.symm
    refine ⟨queue, none, rebased, placed, ?_⟩
    refine SenderQueue.putAndPromote?_eq_none_iff.mpr ⟨⟨atBase, ?_⟩, ?_⟩
    · by_contra started
      have beforeEnd := UInt64.lt_of_le_of_ne sound.base_le (Ne.symm started)
      have present := sound.held queue.base (UInt64.le_refl _) beforeEnd
      rw [Std.ExtTreeMap.mem_iff_isSome_getElem?, ← atBase, free] at present
      cases present
    · intro nonce fromBase
      by_cases same : tx.nonce = nonce
      · exact (Map.mem_insert _ _ _ _).mpr (.inl same)
      · have behindTx := UInt64.lt_of_le_of_ne (atBase ▸ fromBase) same
        have present := behind nonce behindTx
        refine (Map.mem_insert _ _ _ _).mpr (.inr ?_)
        rw [txs]
        exact SenderQueue.mem_moved.mpr ⟨next ▸ UInt64.le_of_lt behindTx, present⟩

/-- An offered transaction makes a pool give up exactly where a run is to be found that takes in the
greatest nonce: one that waits already, or one that the transaction starts. -/
theorem Orderly.add_gives_up_iff (orderly : pool.Orderly) :
    completed (pool.add nonceOf tx replacing).1 = false ↔
      tx.isEmpty = false ∧ nonceOf tx.sender ≤ tx.nonce ∧
        (pool.Overruns nonceOf tx.sender ∨ replacing = false ∧ pool.Fills nonceOf tx) := by
  rw [Pool.add_gives_up_iff, orderly.overruns_iff, orderly.fills_iff]

theorem Orderly.prune_gives_up_iff (orderly : pool.Orderly) :
    completed (pool.prune nonceOf).1 = false ↔ ∃ sender, pool.Overruns nonceOf sender := by
  have returns : completed (pool.prune nonceOf).1 = true ↔
      ∃ dropped fresh, pool.prune nonceOf = (.ok dropped, fresh) := by
    unfold prune
    simp only
    split <;> simp [completed, PoolFault.isFatal]
  rw [← Bool.not_eq_true, returns, orderly.prune_returns_iff, not_forall]
  simp only [not_not]

/-- What is computed of the nonces of a pool exists, but for the end of a run that takes in the
greatest nonce, and an operation gives up exactly where it is to find such an end. Every other
operation leaves the pool whole. -/
theorem arithmetic_exact (visited : Visited config pool) (nonceOf : NonceOf) :
    (∀ sender queue, (pool.queue sender).Evolves nonceOf sender queue →
      queue.Ranged ∧ queue.promote? = (SenderQueue.firstMissing? queue.txs queue.pendingEnd).map
        fun pendingEnd => { queue with pendingEnd }) ∧
      (∀ tx, completed (pool.insert nonceOf tx).1 = false ↔
        tx.isEmpty = false ∧ nonceOf tx.sender ≤ tx.nonce ∧
          (pool.Overruns nonceOf tx.sender ∨ pool.Fills nonceOf tx)) ∧
      (∀ tx, completed (pool.replace nonceOf tx).1 = false ↔
        tx.isEmpty = false ∧ nonceOf tx.sender ≤ tx.nonce ∧ pool.Overruns nonceOf tx.sender) ∧
      (completed (pool.prune nonceOf).1 = false ↔ ∃ sender, pool.Overruns nonceOf sender) ∧
      (pool.Consistent config →
        (∀ tx, completed (pool.insert nonceOf tx).1 = true →
          (pool.insert nonceOf tx).2.Consistent config) ∧
        (∀ tx, completed (pool.replace nonceOf tx).1 = true →
          (pool.replace nonceOf tx).2.Consistent config) ∧
        (∀ hash, (pool.remove hash).2.Consistent config) ∧
        (completed (pool.prune nonceOf).1 = true → (pool.prune nonceOf).2.Consistent config)) := by
  have orderly := visited.orderly
  refine ⟨?_, ?_, ?_, orderly.prune_gives_up_iff, ?_⟩
  · intro sender queue evolves
    have gapless := evolves.gapless (orderly.gapless sender)
    exact ⟨gapless.ranged, queue.promote?_eq_firstMissing?⟩
  · intro tx
    rw [(pool.insert_adds nonceOf tx).1, orderly.add_gives_up_iff]
    simp
  · intro tx
    rw [(pool.replace_adds nonceOf tx).1, orderly.add_gives_up_iff]
    simp
  · intro consistent
    exact ⟨fun _ => consistent.insert, fun _ => consistent.replace, consistent.remove,
      consistent.prune⟩

theorem waitingLast_ranged :
    Visited {} waitingLast ∧ (waitingLast.queue 1).Ranged ∧
      ¬waitingLast.Overruns (fun _ => 0) 1 ∧
      (∃ sender, waitingLast.Overruns (fun _ => 0xffffffffffffffff) sender) ∧
      completed (waitingLast.insert (fun _ => 0) later).1 = true ∧
      (waitingLast.insert (fun _ => 0) later).2.Consistent {} := by
  have visited : Visited {} waitingLast :=
    .insert (fun _ => 0) greatest (.insert (fun _ => 0) earlier .empty)
  have reached : Reached {} waitingLast :=
    .insert _ greatest (.insert _ earlier .empty (by decide +kernel)) (by decide +kernel)
  obtain ⟨ranged, _, _, pruned, whole⟩ := arithmetic_exact visited fun _ => 0
  obtain ⟨_, _, _, stuck, _⟩ := arithmetic_exact visited fun _ => 0xffffffffffffffff
  have done : completed (waitingLast.insert (fun _ => 0) later).1 = true := by decide +kernel
  refine ⟨visited, (ranged 1 _ .kept).1, ?_, stuck.mp (by decide +kernel), done,
    (whole reached.consistent).1 later done⟩
  intro overruns
  have running : completed (waitingLast.prune fun _ => 0).1 = true := by decide +kernel
  rw [pruned.mpr ⟨1, overruns⟩] at running
  cases running

/-- The pool that has given up on a transaction at the greatest nonce. -/
def leftHalfway : Pool := ((ofConfig {}).insert (fun _ => 0xffffffffffffffff) greatest).2

/-- A transaction at the greatest nonce is not placed when its account has come to it. It stays in
the pool, next in turn but not pending, and keeps every later one of its sender out. -/
theorem greatest_stuck :
    ((ofConfig {}).insert (fun _ => 0xffffffffffffffff) greatest).1 = .error (.breakdown .sum) ∧
      leftHalfway.Has greatest ∧ greatest ∉ leftHalfway.ready ∧ ¬leftHalfway.Consistent {} := by
  refine ⟨by decide +kernel, by unfold Has; decide +kernel, by decide +kernel, ?_⟩
  intro consistent
  have started := (consistent.queue_kept 1).sound.started
  exact absurd started (by decide +kernel)

end Pool

end HostedEvm
