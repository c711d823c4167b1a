import HostedEvm.Proofs.Pool.Content

set_option autoImplicit false

/-!
Every pool that operations lead to is consistent.

The chain may report any nonces at any time, so each operation comes with its own. A pool is only
followed as long as no operation gives up halfway.
-/

namespace HostedEvm.Pool

variable {config : PoolConfig} {pool : Pool}

theorem Consistent.ofConfig (config : PoolConfig) : (Pool.ofConfig config).Consistent config where
  configured := rfl
  kept := by
    intro sender queue present
    simp [Pool.ofConfig] at present
  nonempty := by
    intro sender queue present
    simp [Pool.ofConfig] at present
  indexed := by
    intro hash tx
    simp [Pool.ofConfig, Files, Pool.queue]
  few := Nat.zero_le _

theorem Consistent.add (consistent : pool.Consistent config) {nonceOf : NonceOf}
    {tx : Transaction} {replacing : Bool}
    (done : completed (pool.add nonceOf tx replacing).1 = true) :
    (pool.add nonceOf tx replacing).2.Consistent config := by
  unfold Pool.add at done ⊢
  by_cases unsealed : tx.isEmpty = true
  · rw [if_pos unsealed]
    exact consistent
  · rw [if_neg unsealed] at done ⊢
    by_cases low : tx.nonce < nonceOf tx.sender
    · rw [if_pos low]
      exact consistent
    · rw [if_neg low] at done ⊢
      simp only at done ⊢
      cases found : (pool.queue tx.sender).rebase? (nonceOf tx.sender) with
      | none =>
          rw [found] at done
          cases done
      | some rebased =>
          rw [found] at done
          obtain ⟨kept, atBase, _⟩ := rebased_kept (consistent.queue_kept tx.sender) found
          apply place_consistent (consistent.rebased found) kept _ done
          rw [atBase]
          exact UInt64.not_lt.mp low

/-- Inserting leaves what adding leaves, and gives up where adding does. -/
theorem insert_adds (pool : Pool) (nonceOf : NonceOf) (tx : Transaction) :
    completed (pool.insert nonceOf tx).1 = completed (pool.add nonceOf tx false).1 ∧
      (pool.insert nonceOf tx).2 = (pool.add nonceOf tx false).2 := by
  unfold Pool.insert
  rcases pool.add nonceOf tx false with ⟨fault | placed, after⟩ <;> exact ⟨rfl, rfl⟩

theorem replace_adds (pool : Pool) (nonceOf : NonceOf) (tx : Transaction) :
    completed (pool.replace nonceOf tx).1 = completed (pool.add nonceOf tx true).1 ∧
      (pool.replace nonceOf tx).2 = (pool.add nonceOf tx true).2 := by
  unfold Pool.replace
  rcases pool.add nonceOf tx true with ⟨fault | ⟨status, displaced | displaced⟩, after⟩ <;>
    exact ⟨rfl, rfl⟩

theorem Consistent.insert (consistent : pool.Consistent config) {nonceOf : NonceOf}
    {tx : Transaction} (done : completed (pool.insert nonceOf tx).1 = true) :
    (pool.insert nonceOf tx).2.Consistent config := by
  obtain ⟨outcome, left⟩ := pool.insert_adds nonceOf tx
  rw [outcome] at done
  exact left ▸ consistent.add done

theorem Consistent.replace (consistent : pool.Consistent config) {nonceOf : NonceOf}
    {tx : Transaction} (done : completed (pool.replace nonceOf tx).1 = true) :
    (pool.replace nonceOf tx).2.Consistent config := by
  obtain ⟨outcome, left⟩ := pool.replace_adds nonceOf tx
  rw [outcome] at done
  exact left ▸ consistent.add done

theorem without_kept {sender : Address} {queue : SenderQueue} {tx : Transaction}
    (kept : queue.KeptFor config sender) (present : queue.txs[tx.nonce]? = some tx) :
    (queue.without tx.nonce).KeptFor config sender ∧
      ∀ (nonce : UInt64) (other : Transaction), (queue.without tx.nonce).txs[nonce]? = some other ↔
        queue.txs[nonce]? = some other ∧ other ∉ [tx] := by
  refine ⟨⟨SenderQueue.without_sound kept.sound tx.nonce, ?_, ?_⟩, ?_⟩
  · intro nonce other otherPresent
    rw [SenderQueue.without, Map.get_erase] at otherPresent
    split at otherPresent
    · cases otherPresent
    · exact kept.own nonce other otherPresent
  · exact Nat.le_trans Std.ExtTreeMap.size_erase_le kept.few
  · intro nonce other
    rw [SenderQueue.without, Map.get_erase, List.mem_singleton]
    by_cases same : tx.nonce = nonce
    · subst same
      simp [present, eq_comm]
    · rw [if_neg same]
      constructor
      · intro otherPresent
        refine ⟨otherPresent, ?_⟩
        rintro rfl
        exact same (kept.own nonce other otherPresent).2
      · exact And.left

theorem Consistent.remove (consistent : pool.Consistent config) (hash : Word) :
    (pool.remove hash).2.Consistent config := by
  cases present : pool.index[hash]? with
  | none =>
      unfold Pool.remove
      rw [present]
      exact consistent
  | some tx =>
      obtain ⟨rfl, filed⟩ := (consistent.indexed hash tx).mp present
      cases held : pool.queues[tx.sender]? with
      | none =>
          simp [Files, Pool.queue, held] at filed
      | some queue =>
          have reached : (pool.remove tx.hash).2 =
              (pool.forget [tx]).withQueue tx.sender (queue.without tx.nonce) := by
            unfold Pool.remove
            rw [present]
            simp only [held]
            rfl
          have single : ∀ other ∈ [tx], other.sender = tx.sender ∧ pool.Files other := by
            intro other listed
            cases List.mem_singleton.mp listed
            exact ⟨rfl, filed⟩
          unfold Files at filed
          obtain ⟨kept, left⟩ := without_kept (consistent.queue_kept tx.sender) filed
          rw [queue_of_present held] at kept left
          rw [reached]
          apply consistent.dropped single kept
          rw [queue_of_present held]
          exact left

theorem overflowed_foldl (nonceOf : NonceOf) (entries : List (Address × SenderQueue))
    {pruning : Pruning} (overflowed : pruning.overflowed = true) :
    (entries.foldl (Pruning.step nonceOf) pruning).overflowed = true := by
  induction entries with
  | nil => exact overflowed
  | cons entry rest inductionHypothesis =>
      have stays : pruning.step nonceOf entry = pruning := if_pos overflowed
      rw [List.foldl_cons, stays]
      exact inductionHypothesis

theorem pool_step {nonceOf : NonceOf} {pruning : Pruning} {sender : Address}
    {queue : SenderQueue}
    (done : (pruning.step nonceOf (sender, queue)).overflowed = false) :
    ∃ rebased, queue.rebase? (nonceOf sender) = some rebased ∧
      (pruning.step nonceOf (sender, queue)).pool =
        (pruning.pool.forget (queue.below (nonceOf sender))).keepQueue sender rebased ∧
      (pruning.step nonceOf (sender, queue)).dropped =
        pruning.dropped ++ queue.below (nonceOf sender) := by
  unfold Pruning.step at done ⊢
  simp only at done ⊢
  by_cases overflowed : pruning.overflowed = true
  · rw [if_pos overflowed, overflowed] at done
    cases done
  · rw [if_neg overflowed] at done ⊢
    cases found : queue.rebase? (nonceOf sender) with
    | none =>
        rw [found] at done
        cases done
    | some rebased => exact ⟨rebased, rfl, rfl, rfl⟩

/-- Senders are brought up to date one after the other, and each finds its queue as the pool had
it before. Those without transactions left aside, the pool is consistent all the time. -/
theorem foldl_step_consistent {nonceOf : NonceOf} {entries : List (Address × SenderQueue)}
    (distinct : entries.Pairwise fun first second => first.1 ≠ second.1) {pruning : Pruning}
    (consistent : pruning.pool.swept.Consistent config)
    (waiting : ∀ entry ∈ entries, pruning.pool.swept.queues[entry.1]? = some entry.2)
    (done : (entries.foldl (Pruning.step nonceOf) pruning).overflowed = false) :
    (entries.foldl (Pruning.step nonceOf) pruning).pool.swept.Consistent config := by
  induction entries generalizing pruning with
  | nil => exact consistent
  | cons entry rest inductionHypothesis =>
      rcases entry with ⟨sender, queue⟩
      rcases List.pairwise_cons.mp distinct with ⟨others, restDistinct⟩
      rw [List.foldl_cons] at done ⊢
      have stepDone : (pruning.step nonceOf (sender, queue)).overflowed = false := by
        rw [← Bool.not_eq_true]
        intro overflowed
        rw [overflowed_foldl nonceOf rest overflowed] at done
        cases done
      obtain ⟨rebased, found, reached, _⟩ := pool_step stepDone
      have held : pruning.pool.swept.queues[sender]? = some queue :=
        waiting (sender, queue) List.mem_cons_self
      have swept : (pruning.step nonceOf (sender, queue)).pool.swept =
          (pruning.pool.swept.forget (queue.below (nonceOf sender))).withQueue sender rebased := by
        rw [reached, swept_keepQueue]
        rfl
      apply inductionHypothesis restDistinct _ _ done
      · rw [← queue_of_present held] at found
        rw [swept, ← queue_of_present held]
        exact consistent.rebased found
      · intro other listed
        rw [swept, get_withQueue, if_neg (others other listed)]
        exact waiting other (List.mem_cons_of_mem _ listed)

theorem Consistent.prune (consistent : pool.Consistent config) {nonceOf : NonceOf}
    (done : completed (pool.prune nonceOf).1 = true) :
    (pool.prune nonceOf).2.Consistent config := by
  unfold Pool.prune at done ⊢
  simp only at done ⊢
  by_cases overflowed :
      (pool.queues.toList.foldl (Pruning.step nonceOf) { pool }).overflowed = true
  · rw [if_pos overflowed] at done
    cases done
  · rw [if_neg overflowed]
    apply Consistent.announce
    have same : ({ pool } : Pruning).pool.swept = pool := consistent.swept
    apply foldl_step_consistent (Map.distinct_keys pool.queues) (same.symm ▸ consistent)
    · intro entry listed
      rw [same]
      exact Map.mem_toList.mp listed
    · exact Bool.not_eq_true _ ▸ overflowed

/-- The pools that operations lead to from an empty one, none of which gives up halfway. -/
inductive Reached (config : PoolConfig) : Pool → Prop
  | empty : Reached config (Pool.ofConfig config)
  | insert {pool : Pool} (nonceOf : NonceOf) (tx : Transaction) :
      Reached config pool → completed (pool.insert nonceOf tx).1 = true →
      Reached config (pool.insert nonceOf tx).2
  | replace {pool : Pool} (nonceOf : NonceOf) (tx : Transaction) :
      Reached config pool → completed (pool.replace nonceOf tx).1 = true →
      Reached config (pool.replace nonceOf tx).2
  | remove {pool : Pool} (hash : Word) :
      Reached config pool → Reached config (pool.remove hash).2
  | prune {pool : Pool} (nonceOf : NonceOf) :
      Reached config pool → completed (pool.prune nonceOf).1 = true →
      Reached config (pool.prune nonceOf).2

theorem Reached.consistent (reached : Reached config pool) : pool.Consistent config := by
  induction reached with
  | empty => exact .ofConfig config
  | insert nonceOf tx _ done inductionHypothesis => exact inductionHypothesis.insert done
  | replace nonceOf tx _ done inductionHypothesis => exact inductionHypothesis.replace done
  | remove hash _ inductionHypothesis => exact inductionHypothesis.remove hash
  | prune nonceOf _ done inductionHypothesis => exact inductionHypothesis.prune done

/-- Every pool that operations lead to keeps both indexes and its limits, and its pending and
waiting transactions are those of the index. -/
theorem reached_consistent (reached : Reached config pool) :
    pool.Consistent config ∧
      ((pool.pending false).flatMap Prod.snd ++ pool.queued.flatMap Prod.snd).Perm
        (Map.listValues pool.index) ∧
      (Map.listValues pool.index).Nodup ∧ pool.stats.total = pool.size := by
  have consistent := reached.consistent
  exact ⟨consistent, consistent.partitioned, consistent.nodup_index, consistent.total_stats⟩

def earlier : Transaction := { nonce := 0, sender := 1, hash := 10 }

def later : Transaction := { nonce := 1, sender := 1, hash := 11 }

def passedOn : Pool :=
  (((((ofConfig {}).insert (fun _ => 0) later).2).insert (fun _ => 0) earlier).2.prune
    fun _ => 1).2

theorem passedOn_consistent :
    Reached {} passedOn ∧ passedOn.Consistent {} ∧ passedOn.stats.total = passedOn.size ∧
      passedOn.get? later.hash = some later ∧ passedOn.get? earlier.hash = none := by
  have reached : Reached {} passedOn :=
    .prune _ (.insert _ earlier (.insert _ later .empty (by decide +kernel)) (by decide +kernel))
      (by decide +kernel)
  obtain ⟨consistent, _, _, total⟩ := reached_consistent reached
  exact ⟨reached, consistent, total, by decide +kernel, by decide +kernel⟩

end HostedEvm.Pool
