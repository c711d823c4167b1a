import HostedEvm.Proofs.Pool.Announcements

set_option autoImplicit false

/-!
What one operation does to the queue of a sender.

An operation leaves a queue alone, brings it up to date, or puts one transaction into it or takes
one out. Whatever operations lead to, also where one of them gives up halfway, the pending nonces of
every sender therefore go without a gap from the nonce that its account had when it was last asked
for up to the end of the run.
-/

namespace HostedEvm

namespace SenderQueue

variable {nonceOf : NonceOf} {sender : Address} {queue changed : SenderQueue} {tx : Transaction}

inductive Evolves (nonceOf : NonceOf) (sender : Address) (queue : SenderQueue) :
    SenderQueue → Prop
  | kept : Evolves nonceOf sender queue queue
  /-- A queue without transactions is forgotten. -/
  | forgotten : Evolves nonceOf sender queue {}
  | stuckBefore :
      queue.rebase? (nonceOf sender) = none →
      Evolves nonceOf sender queue (queue.moved (nonceOf sender))
  | rebased {changed : SenderQueue} :
      queue.rebase? (nonceOf sender) = some changed → Evolves nonceOf sender queue changed
  | stuckBehind {rebased : SenderQueue} {tx : Transaction} :
      queue.rebase? (nonceOf sender) = some rebased → rebased.putAndPromote? tx = none →
      Evolves nonceOf sender queue (rebased.put tx)
  | placed {rebased changed : SenderQueue} {tx : Transaction} :
      queue.rebase? (nonceOf sender) = some rebased → nonceOf sender ≤ tx.nonce →
      rebased.putAndPromote? tx = some changed → Evolves nonceOf sender queue changed
  | without (nonce : UInt64) : Evolves nonceOf sender queue (queue.without nonce)

theorem putAndPromote?_gapless (gapless : queue.Gapless) (notBelow : queue.base ≤ tx.nonce)
    (found : queue.putAndPromote? tx = some changed) : changed.Gapless := by
  have put := put_gapless gapless notBelow
  simp only [putAndPromote?] at found
  split at found
  · exact (promote?_sound put found).1.toGapless
  · cases found
    exact put

/-- Behind a transaction no run ends if it is to start one and everything behind it is held. -/
theorem putAndPromote?_eq_none_iff :
    queue.putAndPromote? tx = none ↔
      (tx.nonce = queue.base ∧ queue.pendingEnd = queue.base) ∧
        ∀ nonce, queue.base ≤ nonce → nonce ∈ (queue.put tx).txs := by
  simp only [putAndPromote?]
  split
  · rename_i next
    rw [promote?_eq_none_iff, show (queue.put tx).pendingEnd = queue.base from next.2]
    exact (and_iff_right next).symm
  · rename_i notNext
    exact iff_of_false (Option.some_ne_none _) fun stuck => notNext stuck.1

theorem Evolves.gapless (evolves : queue.Evolves nonceOf sender changed)
    (gapless : queue.Gapless) : changed.Gapless := by
  cases evolves with
  | kept => exact gapless
  | forgotten => exact sound_empty.toGapless
  | stuckBefore _ => exact moved_gapless gapless (nonceOf sender)
  | rebased found => exact (rebase?_sound gapless found).1.toGapless
  | stuckBehind found stuck =>
      obtain ⟨⟨next, _⟩, _⟩ := putAndPromote?_eq_none_iff.mp stuck
      have rebased := (rebase?_sound gapless found).1.toGapless
      exact put_gapless rebased (next ▸ UInt64.le_refl _)
  | placed found notBelow promoted =>
      obtain ⟨sound, atNonce, _⟩ := rebase?_sound gapless found
      exact putAndPromote?_gapless sound.toGapless (atNonce ▸ notBelow) promoted
  | without nonce => exact without_gapless gapless nonce

end SenderQueue

namespace Pool

variable {config : PoolConfig} {pool changed : Pool} {nonceOf : NonceOf} {tx : Transaction}
  {replacing : Bool} {sender : Address} {queue : SenderQueue}

theorem queue_withQueue (pool : Pool) (sender other : Address) (queue : SenderQueue) :
    (pool.withQueue sender queue).queue other =
      if sender = other then (if queue.txs.isEmpty then {} else queue) else pool.queue other := by
  unfold Pool.queue
  rw [get_withQueue]
  split
  · split <;> rfl
  · rfl

theorem queue_announce (pool : Pool) (txs : List Transaction) (sender : Address) :
    (pool.announce txs).queue sender = pool.queue sender := by
  rw [Pool.queue, queues_announce]
  rfl

theorem evolves_withQueue (same : changed.queues = pool.queues)
    (own : (pool.queue sender).Evolves nonceOf sender queue) (other : Address) :
    (pool.queue other).Evolves nonceOf other ((changed.withQueue sender queue).queue other) := by
  rw [queue_withQueue]
  split
  · rename_i mine
    subst mine
    split
    · exact .forgotten
    · exact own
  · unfold Pool.queue
    rw [same]
    exact .kept

theorem evolves_keepQueue (same : changed.queues = pool.queues)
    (own : (pool.queue sender).Evolves nonceOf sender queue) (other : Address) :
    (pool.queue other).Evolves nonceOf other ((changed.keepQueue sender queue).queue other) := by
  unfold Pool.queue at own ⊢
  rw [get_keepQueue, same]
  split
  · rename_i mine
    exact mine ▸ own
  · exact .kept

theorem evolves_add (pool : Pool) (nonceOf : NonceOf) (tx : Transaction) (replacing : Bool)
    (sender : Address) :
    (pool.queue sender).Evolves nonceOf sender
      ((pool.add nonceOf tx replacing).2.queue sender) := by
  have admission := admission_add pool nonceOf tx replacing
  generalize pool.add nonceOf tx replacing = result at admission ⊢
  cases admission with
  | turnedAway _ => exact .kept
  | stuckBefore stuck => exact evolves_withQueue rfl (.stuckBefore stuck) sender
  | refused rebased _ _ =>
      rw [queue_announce]
      exact evolves_withQueue rfl (.rebased rebased) sender
  | stuckBehind rebased _ stuck => exact evolves_withQueue rfl (.stuckBehind rebased stuck) sender
  | taken notBelow rebased _ promoted =>
      rw [queue_announce]
      exact evolves_withQueue rfl (.placed rebased notBelow promoted) sender

theorem evolves_remove (pool : Pool) (nonceOf : NonceOf) (hash : Word) (sender : Address) :
    (pool.queue sender).Evolves nonceOf sender ((pool.remove hash).2.queue sender) := by
  cases found : pool.index[hash]? with
  | none =>
      unfold Pool.remove
      rw [found]
      exact .kept
  | some tx =>
      rw [remove_of_found found]
      exact evolves_withQueue rfl (.without tx.nonce) sender

theorem evolves_step {pruning : Pruning} (present : pruning.pool.queues[sender]? = some queue)
    (other : Address) :
    (pruning.pool.queue other).Evolves nonceOf other
      ((pruning.step nonceOf (sender, queue)).pool.queue other) := by
  have same := queue_of_present present
  unfold Pruning.step
  simp only
  split
  · exact .kept
  · split
    · rename_i stuck
      rw [← same] at stuck ⊢
      exact evolves_keepQueue rfl (.stuckBefore stuck) other
    · rename_i rebased found
      rw [← same] at found
      exact evolves_keepQueue rfl (.rebased found) other

theorem get_foldl_step_other {entries : List (Address × SenderQueue)} {pruning : Pruning}
    (differ : ∀ entry ∈ entries, entry.1 ≠ sender) :
    (entries.foldl (Pruning.step nonceOf) pruning).pool.queues[sender]? =
      pruning.pool.queues[sender]? := by
  induction entries generalizing pruning with
  | nil => rfl
  | cons entry rest inductionHypothesis =>
      rw [List.foldl_cons,
        inductionHypothesis fun later listed => differ later (List.mem_cons_of_mem _ listed)]
      exact get_step_other (differ entry List.mem_cons_self)

/-- Each sender is brought up to date once, before or behind those of the others. -/
theorem evolves_foldl_step {entries : List (Address × SenderQueue)}
    (distinct : entries.Pairwise fun first second => first.1 ≠ second.1) {pruning : Pruning}
    (waiting : ∀ entry ∈ entries, pruning.pool.queues[entry.1]? = some entry.2)
    (sender : Address) :
    (pruning.pool.queue sender).Evolves nonceOf sender
      ((entries.foldl (Pruning.step nonceOf) pruning).pool.queue sender) := by
  induction entries generalizing pruning with
  | nil => exact .kept
  | cons entry rest inductionHypothesis =>
      rcases List.pairwise_cons.mp distinct with ⟨others, restDistinct⟩
      have present := waiting entry List.mem_cons_self
      rw [List.foldl_cons]
      by_cases mine : entry.1 = sender
      · subst mine
        unfold Pool.queue
        rw [get_foldl_step_other fun later listed => (others later listed).symm]
        exact evolves_step present entry.1
      · have untouched : (pruning.step nonceOf entry).pool.queue sender =
            pruning.pool.queue sender := by
          unfold Pool.queue
          rw [get_step_other mine]
        rw [← untouched]
        apply inductionHypothesis restDistinct
        intro later listed
        rw [get_step_other (others later listed)]
        exact waiting later (List.mem_cons_of_mem _ listed)

theorem evolves_swept (evolves : queue.Evolves nonceOf sender (pool.queue sender)) :
    queue.Evolves nonceOf sender (pool.swept.queue sender) := by
  unfold Pool.queue at evolves ⊢
  rw [get_swept]
  cases present : pool.queues[sender]? with
  | none => exact .forgotten
  | some left =>
      rw [present] at evolves
      rw [Option.filter_some]
      split
      · exact evolves
      · exact .forgotten

theorem evolves_prune (pool : Pool) (nonceOf : NonceOf) (sender : Address) :
    (pool.queue sender).Evolves nonceOf sender ((pool.prune nonceOf).2.queue sender) := by
  have evolves := @evolves_foldl_step nonceOf _ (Map.distinct_keys pool.queues) { pool }
    (fun _ held => Map.mem_toList.mp held) sender
  unfold Pool.prune
  simp only
  split
  · exact evolves
  · rw [queue_announce]
    exact evolves_swept evolves

theorem Visited.gapless (visited : Visited config pool) (sender : Address) :
    (pool.queue sender).Gapless := by
  induction visited with
  | empty =>
      have unused : (Pool.ofConfig config).queue sender = {} := by simp [Pool.ofConfig, Pool.queue]
      rw [unused]
      exact SenderQueue.sound_empty.toGapless
  | insert nonceOf tx _ inductionHypothesis =>
      exact (evolves_add _ nonceOf tx false sender).gapless inductionHypothesis
  | replace nonceOf tx _ inductionHypothesis =>
      rw [(replace_adds _ nonceOf tx).2]
      exact (evolves_add _ nonceOf tx true sender).gapless inductionHypothesis
  | remove hash _ inductionHypothesis =>
      exact (evolves_remove _ (fun _ => 0) hash sender).gapless inductionHypothesis
  | prune nonceOf _ inductionHypothesis =>
      exact (evolves_prune _ nonceOf sender).gapless inductionHypothesis

theorem Visited.orderly (visited : Visited config pool) : pool.Orderly :=
  ⟨visited.listed, visited.gapless⟩

end Pool

end HostedEvm
