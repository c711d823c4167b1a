import HostedEvm.Proofs.Pool.Runs
import HostedEvm.Proofs.Transaction

set_option autoImplicit false

/-!
What pruning a pool does.

With the nonces that the chain reports, pruning drops exactly the transactions with a nonce that the
chain has passed. Each sender that is left has its queue at the nonce of the account, so that its
pending transactions carry the nonces from there on in turn. Only a pending run up to the greatest
nonce keeps pruning from coming to an end.
-/

namespace HostedEvm

namespace SenderQueue

variable {config : PoolConfig} {sender : Address} {queue rebased : SenderQueue} {base : UInt64}

theorem KeptFor.select_eq (kept : queue.KeptFor config sender) (condition : UInt64 → Bool) :
    queue.select condition = queue.all.filter fun tx => condition tx.nonce := by
  unfold select all Map.listValues
  rw [List.filter_map]
  congr 1
  apply List.filter_congr
  rintro ⟨nonce, tx⟩ listed
  rw [Function.comp_apply, (kept.own nonce tx (Map.mem_toList.mp listed)).2]

theorem KeptFor.nonces_all (kept : queue.KeptFor config sender) :
    queue.all.map Transaction.nonce = Map.listKeys queue.txs := by
  unfold all Map.listValues Map.listKeys
  rw [List.map_map]
  apply List.map_congr_left
  rintro ⟨nonce, tx⟩ listed
  exact (kept.own nonce tx (Map.mem_toList.mp listed)).2

/-- The pending transactions carry the nonces from that of the account on in turn. -/
theorem KeptFor.inTurn_pending (kept : queue.KeptFor config sender) :
    InTurn queue.base.toNat queue.pending := by
  have nonces : queue.pending.map Transaction.nonce =
      (Map.listKeys queue.txs).filter queue.isPending := by
    rw [pending, kept.select_eq, ← kept.nonces_all, List.filter_map]
    rfl
  have listed : queue.pending.map (fun tx => tx.nonce.toNat) =
      ((Map.listKeys queue.txs).filter queue.isPending).map UInt64.toNat := by
    rw [← nonces, List.map_map]
    rfl
  apply @inTurn_of_ascending _ _ (queue.pendingEnd.toNat - queue.base.toNat)
  · rw [listed, List.pairwise_map]
    exact (listKeys_ascending queue.txs).filter _
  · intro nonce
    rw [listed]
    simp only [List.mem_map, List.mem_filter, Map.mem_listKeys, isPending_iff]
    constructor
    · rintro ⟨key, ⟨_, fromBase, beforeEnd⟩, rfl⟩
      rw [UInt64.le_iff_toNat_le] at fromBase
      rw [UInt64.lt_iff_toNat_lt] at beforeEnd
      omega
    · rintro ⟨fromBase, beforeEnd⟩
      have fits : nonce < UInt64.size := by
        have bound := queue.pendingEnd.toNat_lt
        rw [UInt64.size]
        omega
      have exact : (UInt64.ofNat nonce).toNat = nonce := UInt64.toNat_ofNat_of_lt fits
      have behind : queue.base ≤ UInt64.ofNat nonce := by
        rw [UInt64.le_iff_toNat_le, exact]
        exact fromBase
      have before : UInt64.ofNat nonce < queue.pendingEnd := by
        rw [UInt64.lt_iff_toNat_lt, exact]
        omega
      exact ⟨UInt64.ofNat nonce, ⟨kept.sound.held _ behind before, behind, before⟩, exact⟩

theorem runEnd?_isSome {nonces : List UInt64} (start : UInt64)
    (least : 0xffffffffffffffff ∉ nonces) : (runEnd? start nonces).isSome := by
  induction nonces generalizing start with
  | nil => rfl
  | cons first rest inductionHypothesis =>
      obtain ⟨firstLess, restLess⟩ := not_or.mp (mt List.mem_cons.mpr least)
      unfold runEnd?
      split
      · rename_i same
        rw [if_neg (same ▸ Ne.symm firstLess)]
        exact inductionHypothesis _ restLess
      · rfl

/-- A queue can be brought up to date unless it holds the greatest nonce. -/
theorem rebase?_isSome (base : UInt64) (least : 0xffffffffffffffff ∉ queue.txs) :
    (queue.rebase? base).isSome := by
  unfold rebase?
  simp only
  split
  · unfold promote?
    rw [Option.isSome_map]
    apply runEnd?_isSome
    intro listed
    exact least (mem_moved.mp (Map.mem_listKeys.mp (List.mem_filter.mp listed).1)).2
  · rfl

end SenderQueue

namespace Pool

variable {config : PoolConfig} {pool fresh : Pool} {nonceOf : NonceOf} {sender : Address}
  {queue : SenderQueue} {dropped : List Transaction}

def prunedQueue (pool : Pool) (nonceOf : NonceOf) (sender : Address) : Option SenderQueue :=
  (pool.queues[sender]?.bind fun queue => queue.rebase? (nonceOf sender)).filter
    fun queue => !queue.txs.isEmpty

/-- What pruning some senders leads to, if it comes to an end. -/
structure Prunes (nonceOf : NonceOf) (entries : List (Address × SenderQueue))
    (before after : Pruning) : Prop where
  ready : ∀ entry ∈ entries, (entry.2.rebase? (nonceOf entry.1)).isSome
  dropped : after.dropped =
    before.dropped ++ entries.flatMap fun entry => entry.2.below (nonceOf entry.1)
  reached : ∀ entry ∈ entries,
    after.pool.queues[entry.1]? = entry.2.rebase? (nonceOf entry.1)
  others : ∀ sender, (∀ entry ∈ entries, entry.1 ≠ sender) →
    after.pool.queues[sender]? = before.pool.queues[sender]?

/-- Senders are brought up to date one after the other, each apart from the others. -/
theorem foldl_step_prunes {entries : List (Address × SenderQueue)}
    (distinct : entries.Pairwise fun first second => first.1 ≠ second.1) {pruning : Pruning}
    (done : (entries.foldl (Pruning.step nonceOf) pruning).overflowed = false) :
    Prunes nonceOf entries pruning (entries.foldl (Pruning.step nonceOf) pruning) := by
  induction entries generalizing pruning with
  | nil => exact ⟨nofun, (List.append_nil _).symm, nofun, fun _ _ => rfl⟩
  | cons entry rest inductionHypothesis =>
      rcases entry with ⟨sender, queue⟩
      rcases List.pairwise_cons.mp distinct with ⟨apart, restDistinct⟩
      rw [List.foldl_cons] at done ⊢
      have stepDone : (pruning.step nonceOf (sender, queue)).overflowed = false := by
        rw [← Bool.not_eq_true]
        intro overflowed
        rw [overflowed_foldl nonceOf rest overflowed] at done
        cases done
      obtain ⟨rebased, found, left, below⟩ := pool_step stepDone
      obtain ⟨ready, dropped, reached, others⟩ := inductionHypothesis restDistinct done
      refine ⟨?_, ?_, ?_, ?_⟩
      · rintro other listed
        rcases List.mem_cons.mp listed with rfl | later
        · exact Option.isSome_iff_exists.mpr ⟨rebased, found⟩
        · exact ready other later
      · rw [dropped, below, List.flatMap_cons, List.append_assoc]
      · rintro other listed
        rcases List.mem_cons.mp listed with rfl | later
        · rw [others sender fun later listed => (apart later listed).symm, left, get_keepQueue,
            if_pos rfl, found]
        · exact reached other later
      · intro other differ
        have own := differ (sender, queue) List.mem_cons_self
        rw [others other fun later listed => differ later (List.mem_cons_of_mem _ listed), left,
          get_keepQueue, if_neg own]
        rfl

/-- Pruning that comes to an end has brought every sender up to date, and announces what became
pending. -/
theorem prune_eq_ok (pruned : pool.prune nonceOf = (.ok dropped, fresh)) :
    ∃ after, pool.queues.toList.foldl (Pruning.step nonceOf) { pool } = after ∧
      after.overflowed = false ∧ dropped = after.dropped ∧
      fresh = after.pool.swept.announce after.announced := by
  unfold prune at pruned
  simp only at pruned
  split at pruned
  · cases pruned
  · rename_i running
    cases pruned
    exact ⟨_, rfl, Bool.not_eq_true _ ▸ running, rfl, rfl⟩

theorem prunes_of_prune (pruned : pool.prune nonceOf = (.ok dropped, fresh)) :
    ∃ after, Prunes nonceOf pool.queues.toList { pool } after ∧ dropped = after.dropped ∧
      fresh.queues = after.pool.swept.queues := by
  obtain ⟨after, rfl, running, same, rfl⟩ := prune_eq_ok pruned
  refine ⟨_, foldl_step_prunes (Map.distinct_keys pool.queues) running, same, ?_⟩
  unfold announce
  split <;> rfl

/-- Pruning leaves the queues that are not used up, each at the nonce of its account. -/
theorem queues_prune (pruned : pool.prune nonceOf = (.ok dropped, fresh)) (sender : Address) :
    fresh.queues[sender]? = pool.prunedQueue nonceOf sender := by
  obtain ⟨after, prunes, _, same⟩ := prunes_of_prune pruned
  rw [same, get_swept, prunedQueue]
  cases present : pool.queues[sender]? with
  | some queue =>
      rw [prunes.reached (sender, queue) (Map.mem_toList.mpr present)]
      rfl
  | none =>
      rw [prunes.others sender, present]
      · rfl
      · rintro ⟨other, queue⟩ listed rfl
        cases (Map.mem_toList.mp listed).symm.trans present

theorem Consistent.dropped_prune (consistent : pool.Consistent config)
    (pruned : pool.prune nonceOf = (.ok dropped, fresh)) :
    dropped.Perm
      ((Map.listValues pool.index).filter fun tx => tx.nonce < nonceOf tx.sender) := by
  obtain ⟨after, prunes, same, _⟩ := prunes_of_prune pruned
  have listed : dropped =
      ((Map.listValues pool.queues).flatMap SenderQueue.all).filter
        fun tx => tx.nonce < nonceOf tx.sender := by
    rw [same, prunes.dropped, List.filter_flatMap, Map.listValues, List.flatMap_map]
    apply List.flatMap_congr
    rintro ⟨sender, queue⟩ held
    have kept := consistent.kept sender queue (Map.mem_toList.mp held)
    rw [SenderQueue.below, kept.select_eq]
    apply List.filter_congr
    intro tx listed
    obtain ⟨nonce, present⟩ := Map.mem_listValues.mp listed
    rw [(kept.own nonce tx present).1]
  rw [listed]
  exact consistent.all_perm.filter _

/-- A queue that pruning leaves stands at the nonce of its account and holds what the account has
not passed. -/
theorem Consistent.prunedQueue (consistent : pool.Consistent config)
    (left : pool.prunedQueue nonceOf sender = some queue) :
    queue.KeptFor config sender ∧ queue.base = nonceOf sender := by
  obtain ⟨found, _⟩ := Option.filter_eq_some_iff.mp left
  obtain ⟨old, present, rebased⟩ := Option.bind_eq_some_iff.mp found
  obtain ⟨kept, atBase, _⟩ := rebased_kept (consistent.kept sender old present) rebased
  exact ⟨kept, atBase⟩

theorem Consistent.pruned (consistent : pool.Consistent config)
    (pruned : pool.prune nonceOf = (.ok dropped, fresh)) : fresh.Consistent config := by
  have done : completed (pool.prune nonceOf).1 = true := by
    rw [pruned]
    rfl
  have kept := consistent.prune done
  rw [pruned] at kept
  exact kept

theorem txs_prune (consistent : pool.Consistent config)
    (pruned : pool.prune nonceOf = (.ok dropped, fresh)) (sender : Address) :
    (fresh.queue sender).txs = ((pool.queue sender).moved (nonceOf sender)).txs := by
  obtain ⟨after, prunes, _, _⟩ := prunes_of_prune pruned
  unfold Pool.queue
  rw [queues_prune pruned, Pool.prunedQueue]
  cases present : pool.queues[sender]? with
  | none =>
      apply Std.ExtTreeMap.ext_getElem?
      simp [SenderQueue.moved]
  | some queue =>
      obtain ⟨rebased, found⟩ := Option.isSome_iff_exists.mp
        (prunes.ready (sender, queue) (Map.mem_toList.mpr present))
      have sound := (consistent.kept sender queue present).sound
      have held := (SenderQueue.rebase?_sound sound.toGapless found).2.2
      rw [Option.bind_some, found, Option.getD_some, ← held, Option.filter_some]
      cases empty : rebased.txs.isEmpty with
      | true => exact (Std.ExtTreeMap.isEmpty_iff.mp empty).symm
      | false => rfl

/-- Pruning keeps every transaction with a nonce that the chain has not passed. -/
theorem Consistent.get_prune (consistent : pool.Consistent config)
    (pruned : pool.prune nonceOf = (.ok dropped, fresh)) (hash : Word) (tx : Transaction) :
    fresh.get? hash = some tx ↔ pool.get? hash = some tx ∧ nonceOf tx.sender ≤ tx.nonce := by
  unfold get?
  rw [(consistent.pruned pruned).indexed, consistent.indexed, Files, txs_prune consistent pruned,
    SenderQueue.moved, Map.get_filter, decide_eq_true_eq, and_assoc]
  rfl

theorem foldl_step_running {entries : List (Address × SenderQueue)}
    (ready : ∀ entry ∈ entries, (entry.2.rebase? (nonceOf entry.1)).isSome) {pruning : Pruning}
    (running : pruning.overflowed = false) :
    (entries.foldl (Pruning.step nonceOf) pruning).overflowed = false := by
  induction entries generalizing pruning with
  | nil => exact running
  | cons entry rest inductionHypothesis =>
      obtain ⟨rebased, found⟩ := Option.isSome_iff_exists.mp (ready entry List.mem_cons_self)
      apply inductionHypothesis fun later listed => ready later (List.mem_cons_of_mem _ listed)
      simp [Pruning.step, running, found]

/-- Pruning comes to an end if every queue can be brought up to date. -/
theorem prune_of_ready (ready : ∀ entry ∈ pool.queues.toList,
      (entry.2.rebase? (nonceOf entry.1)).isSome) :
    ∃ dropped fresh, pool.prune nonceOf = (.ok dropped, fresh) := by
  unfold Pool.prune
  simp only
  rw [foldl_step_running ready rfl]
  exact ⟨_, _, rfl⟩

/-- Pruning comes to an end where no transaction has the greatest nonce. -/
theorem Consistent.prune_returns (consistent : pool.Consistent config) (nonceOf : NonceOf)
    (least : ∀ (hash : Word) (tx : Transaction), pool.get? hash = some tx →
      tx.nonce ≠ 0xffffffffffffffff) :
    ∃ dropped fresh, pool.prune nonceOf = (.ok dropped, fresh) := by
  apply prune_of_ready
  rintro ⟨sender, queue⟩ listed
  apply SenderQueue.rebase?_isSome
  intro held
  obtain ⟨tx, found⟩ := Map.mem_iff.mp held
  have present := Map.mem_toList.mp listed
  obtain ⟨rfl, greatest⟩ := (consistent.kept sender queue present).own _ tx found
  apply least tx.hash tx _ greatest
  refine (consistent.indexed tx.hash tx).mpr ⟨rfl, ?_⟩
  rw [Files, queue_of_present present, greatest]
  exact found

/-- In the content of a pool a sender has what is found in its own queue. -/
theorem Consistent.sentBy_content (consistent : pool.Consistent config)
    {find : SenderQueue → List Transaction} (own : ∀ queue, ∀ tx ∈ find queue, tx ∈ queue.all)
    (sender : Address) :
    sentBy sender ((pool.contentOf find).flatMap Prod.snd) =
      (pool.queues[sender]?.map find).getD [] := by
  rw [flatMap_contentOf, Map.listValues, List.flatMap_map, sentBy_flatMap,
    ← Map.flatMap_toList_own]
  apply List.flatMap_congr
  rintro ⟨other, queue⟩ listed
  have kept := consistent.kept other queue (Map.mem_toList.mp listed)
  have sent : ∀ tx ∈ find queue, tx.sender = other := by
    intro tx found
    obtain ⟨nonce, present⟩ := Map.mem_listValues.mp (own queue tx found)
    exact (kept.own nonce tx present).1
  unfold sentBy
  by_cases same : other = sender
  · rw [if_pos same, List.filter_eq_self]
    intro tx found
    simp [sent tx found, same]
  · rw [if_neg same, List.filter_eq_nil_iff]
    intro tx found
    simp [sent tx found, same]

/-- The pending transactions of a pool that was pruned carry the nonces of each sender from that of
its account on in turn, cut by tips or not. -/
theorem Consistent.inTurn_pending (consistent : pool.Consistent config)
    (pruned : pool.prune nonceOf = (.ok dropped, fresh)) (enforceTips : Bool) (sender : Address) :
    InTurn (nonceOf sender).toNat
      (sentBy sender ((fresh.pending enforceTips).flatMap Prod.snd)) := by
  have own : ∀ queue : SenderQueue, ∀ tx ∈ queue.pending.takeWhile fun tx =>
      !enforceTips || fresh.config.minTip ≤ tx.gasPrice, tx ∈ queue.all := by
    intro queue tx listed
    have pending := (List.takeWhile_prefix _).subset listed
    obtain ⟨nonce, present, _⟩ := SenderQueue.mem_select.mp pending
    exact Map.mem_listValues.mpr ⟨nonce, present⟩
  unfold Pool.pending
  rw [(consistent.pruned pruned).sentBy_content own, queues_prune pruned]
  cases left : pool.prunedQueue nonceOf sender with
  | none => rfl
  | some queue =>
      obtain ⟨kept, atBase⟩ := consistent.prunedQueue left
      rw [← atBase]
      exact kept.inTurn_pending.of_start (List.takeWhile_prefix _)

end Pool

end HostedEvm
