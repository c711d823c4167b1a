import Mathlib.Data.List.Perm.Basic
import Mathlib.Data.List.TakeWhile
import HostedEvm.Proofs.Pool.Consistency

set_option autoImplicit false

/-!
The pending and the waiting transactions of a consistent pool.

Together they are the transactions of the index, each once, and the counts agree with that.
-/

namespace HostedEvm.Pool

variable {config : PoolConfig} {pool : Pool}

theorem flatMap_content (entries : PoolContent) :
    (entries.filter fun entry => !entry.2.isEmpty).flatMap Prod.snd = entries.flatMap Prod.snd := by
  induction entries with
  | nil => rfl
  | cons entry rest inductionHypothesis =>
      rcases entry with ⟨sender, txs⟩
      cases txs with
      | nil => exact inductionHypothesis
      | cons first others => simp [inductionHypothesis]

theorem flatMap_contentOf (pool : Pool) (find : SenderQueue → List Transaction) :
    (pool.contentOf find).flatMap Prod.snd = (Map.listValues pool.queues).flatMap find := by
  rw [contentOf, flatMap_content, Map.listValues, List.flatMap_map, List.flatMap_map]

theorem Consistent.kept_of_mem (consistent : pool.Consistent config) {queue : SenderQueue}
    (listed : queue ∈ Map.listValues pool.queues) :
    ∃ sender, pool.queues[sender]? = some queue ∧ queue.KeptFor config sender := by
  obtain ⟨sender, present⟩ := Map.mem_listValues.mp listed
  exact ⟨sender, present, consistent.kept sender queue present⟩

theorem Consistent.nodup_all (consistent : pool.Consistent config) :
    ((Map.listValues pool.queues).flatMap SenderQueue.all).Nodup := by
  rw [List.Nodup, List.pairwise_flatMap]
  constructor
  · intro queue listed
    obtain ⟨sender, _, kept⟩ := consistent.kept_of_mem listed
    exact Map.nodup_listValues fun nonce tx present => (kept.own nonce tx present).2
  · rw [Map.listValues, List.pairwise_map]
    apply List.Pairwise.imp_of_mem _ (Map.distinct_keys pool.queues)
    intro first second firstListed secondListed differ tx firstHolds other secondHolds same
    subst same
    obtain ⟨nonce, firstPresent⟩ := Map.mem_listValues.mp firstHolds
    obtain ⟨place, secondPresent⟩ := Map.mem_listValues.mp secondHolds
    have firstKept := consistent.kept first.1 first.2 (Map.mem_toList.mp firstListed)
    have secondKept := consistent.kept second.1 second.2 (Map.mem_toList.mp secondListed)
    have firstOwn := (firstKept.own nonce tx firstPresent).1
    have secondOwn := (secondKept.own place tx secondPresent).1
    exact differ (firstOwn.symm.trans secondOwn)

theorem Consistent.mem_all (consistent : pool.Consistent config) {tx : Transaction} :
    tx ∈ (Map.listValues pool.queues).flatMap SenderQueue.all ↔ pool.Files tx := by
  rw [List.mem_flatMap]
  constructor
  · rintro ⟨queue, listed, held⟩
    obtain ⟨sender, present, kept⟩ := consistent.kept_of_mem listed
    obtain ⟨nonce, found⟩ := Map.mem_listValues.mp held
    obtain ⟨rfl, rfl⟩ := kept.own nonce tx found
    rw [Files, queue_of_present present]
    exact found
  · intro filed
    cases present : pool.queues[tx.sender]? with
    | none => simp [Files, Pool.queue, present] at filed
    | some queue =>
        rw [Files, queue_of_present present] at filed
        exact ⟨queue, Map.mem_listValues.mpr ⟨tx.sender, present⟩,
          Map.mem_listValues.mpr ⟨tx.nonce, filed⟩⟩

theorem Consistent.nodup_index (consistent : pool.Consistent config) :
    (Map.listValues pool.index).Nodup :=
  Map.nodup_listValues fun hash tx present => ((consistent.indexed hash tx).mp present).1

theorem Consistent.all_perm (consistent : pool.Consistent config) :
    ((Map.listValues pool.queues).flatMap SenderQueue.all).Perm (Map.listValues pool.index) := by
  rw [List.perm_ext_iff_of_nodup consistent.nodup_all consistent.nodup_index]
  intro tx
  rw [consistent.mem_all, Map.mem_listValues]
  constructor
  · intro filed
    exact ⟨tx.hash, (consistent.indexed tx.hash tx).mpr ⟨rfl, filed⟩⟩
  · rintro ⟨hash, present⟩
    exact ((consistent.indexed hash tx).mp present).2

theorem pending_untipped (pool : Pool) :
    pool.pending false = pool.contentOf SenderQueue.pending := by
  unfold Pool.pending
  congr 1
  funext queue
  rw [List.takeWhile_eq_self_iff]
  intro tx _
  rfl

/-- Every transaction of a consistent pool is pending or waits, and none is both. -/
theorem Consistent.partitioned (consistent : pool.Consistent config) :
    ((pool.pending false).flatMap Prod.snd ++ pool.queued.flatMap Prod.snd).Perm
      (Map.listValues pool.index) := by
  rw [pending_untipped, Pool.queued, flatMap_contentOf, flatMap_contentOf]
  apply List.Perm.trans (List.flatMap_append_perm _ _ _)
  apply List.Perm.trans _ consistent.all_perm
  apply List.Perm.flatMap_left
  intro queue listed
  obtain ⟨sender, _, kept⟩ := consistent.kept_of_mem listed
  exact SenderQueue.all_partitioned kept.sound

theorem total_foldl (queues : List SenderQueue) (stats : PoolStats) :
    (queues.foldl
        (fun stats queue =>
          { pending := stats.pending + queue.pending.length
            queued := stats.queued + (queue.txs.size - queue.pending.length) })
        stats).total =
      stats.total + (queues.flatMap SenderQueue.all).length := by
  induction queues generalizing stats with
  | nil => rfl
  | cons queue rest inductionHypothesis =>
      have size : queue.all.length = queue.txs.size := Map.length_listValues queue.txs
      have pending : queue.pending.length ≤ queue.txs.size := by
        rw [← size, SenderQueue.pending, SenderQueue.select, SenderQueue.all, Map.listValues,
          List.length_map, List.length_map]
        exact List.length_filter_le _ _
      rw [List.foldl_cons, inductionHypothesis, List.flatMap_cons, List.length_append, size]
      simp only [PoolStats.total]
      omega

theorem Consistent.total_stats (consistent : pool.Consistent config) :
    pool.stats.total = pool.size := by
  rw [stats, total_foldl, consistent.all_perm.length_eq, Map.length_listValues]
  exact Nat.zero_add _

end HostedEvm.Pool
