import HostedEvm.Proofs.Pool.Senders

set_option autoImplicit false

/-!
The nonce that a pool suggests for the next transaction of a sender.

It is the nonce of the account as the chain reports it now, or the first one behind the pending run
if that lies further. The run starts where the account was when the pool last asked for it. As long
as no account goes back, everything below the suggested nonce is therefore pending; where one has
gone back since, exactly the nonces up to the start of the run are missing.
-/

namespace HostedEvm.Pool

variable {config : PoolConfig} {pool : Pool} {nonceOf : NonceOf} {sender : Address}
  {queue changed : SenderQueue}

def ReadyAt (pool : Pool) (sender : Address) (nonce : UInt64) : Prop :=
  ∃ tx ∈ pool.ready, tx.sender = sender ∧ tx.nonce = nonce

/-- Every nonce from that of the account up to the suggested one is taken by a pending
transaction. -/
def LeavesNoGap (pool : Pool) (nonceOf : NonceOf) (sender : Address) : Prop :=
  ∀ nonce, nonceOf sender ≤ nonce → nonce < pool.nextNonce nonceOf sender →
    pool.ReadyAt sender nonce

/-- The pools that operations lead to while no account goes back, with the nonces that the chain has
come to. -/
inductive Advancing (config : PoolConfig) : NonceOf → Pool → Prop
  | empty (nonceOf : NonceOf) : Advancing config nonceOf (Pool.ofConfig config)
  | advance {nonceOf later : NonceOf} {pool : Pool} :
      Advancing config nonceOf pool → (∀ sender, nonceOf sender ≤ later sender) →
      Advancing config later pool
  | insert {nonceOf : NonceOf} {pool : Pool} (tx : Transaction) :
      Advancing config nonceOf pool → Advancing config nonceOf (pool.insert nonceOf tx).2
  | replace {nonceOf : NonceOf} {pool : Pool} (tx : Transaction) :
      Advancing config nonceOf pool → Advancing config nonceOf (pool.replace nonceOf tx).2
  | remove {nonceOf : NonceOf} {pool : Pool} (hash : Word) :
      Advancing config nonceOf pool → Advancing config nonceOf (pool.remove hash).2
  | prune {nonceOf : NonceOf} {pool : Pool} :
      Advancing config nonceOf pool → Advancing config nonceOf (pool.prune nonceOf).2

/-- A queue stands where it stood, or at the nonce of the account. -/
theorem base_evolved_le (evolves : queue.Evolves nonceOf sender changed)
    (behind : queue.base ≤ nonceOf sender) : changed.base ≤ nonceOf sender := by
  cases evolves with
  | kept => exact behind
  | forgotten => exact UInt64.zero_le
  | stuckBefore _ => exact UInt64.le_refl _
  | rebased found => exact UInt64.le_of_eq (SenderQueue.rebase?_eq_some found).1
  | stuckBehind found _ => exact UInt64.le_of_eq (SenderQueue.rebase?_eq_some found).1
  | placed found _ promoted =>
      have still := (SenderQueue.putAndPromote?_eq_some promoted).1
      exact UInt64.le_of_eq (still.trans (SenderQueue.rebase?_eq_some found).1)
  | without _ => exact behind

theorem Advancing.base_le (advancing : Advancing config nonceOf pool) (sender : Address) :
    (pool.queue sender).base ≤ nonceOf sender := by
  induction advancing with
  | empty nonceOf => simp [Pool.ofConfig, Pool.queue]
  | advance _ further inductionHypothesis =>
      exact UInt64.le_trans inductionHypothesis (further sender)
  | insert tx _ inductionHypothesis =>
      exact base_evolved_le (evolves_add _ _ tx false sender) inductionHypothesis
  | replace tx _ inductionHypothesis =>
      rw [(replace_adds _ _ tx).2]
      exact base_evolved_le (evolves_add _ _ tx true sender) inductionHypothesis
  | remove hash _ inductionHypothesis =>
      exact base_evolved_le (evolves_remove _ _ hash sender) inductionHypothesis
  | prune _ inductionHypothesis =>
      exact base_evolved_le (evolves_prune _ _ sender) inductionHypothesis

theorem nextNonce_eq (pool : Pool) (nonceOf : NonceOf) (sender : Address) :
    pool.nextNonce nonceOf sender =
      if (pool.queue sender).pendingEnd ≤ nonceOf sender then nonceOf sender
      else (pool.queue sender).pendingEnd := by
  unfold nextNonce Pool.queue
  cases pool.queues[sender]? with
  | some queue => rfl
  | none => exact (if_pos UInt64.zero_le).symm

theorem nonceOf_le_nextNonce (pool : Pool) (nonceOf : NonceOf) (sender : Address) :
    nonceOf sender ≤ pool.nextNonce nonceOf sender := by
  rw [nextNonce_eq]
  split
  · exact UInt64.le_refl _
  · rename_i further
    exact UInt64.le_of_lt (UInt64.not_le.mp further)

theorem pendingEnd_le_nextNonce (pool : Pool) (nonceOf : NonceOf) (sender : Address) :
    (pool.queue sender).pendingEnd ≤ pool.nextNonce nonceOf sender := by
  rw [nextNonce_eq]
  split
  · assumption
  · exact UInt64.le_refl _

theorem lt_nextNonce_iff {nonce : UInt64} (behind : nonceOf sender ≤ nonce) :
    nonce < pool.nextNonce nonceOf sender ↔ nonce < (pool.queue sender).pendingEnd := by
  rw [nextNonce_eq]
  split
  · rename_i ended
    have waits := UInt64.le_trans ended behind
    exact iff_of_false (UInt64.not_lt.mpr behind) (UInt64.not_lt.mpr waits)
  · rfl

theorem Orderly.readyAt_iff (orderly : pool.Orderly) {nonce : UInt64} :
    pool.ReadyAt sender nonce ↔ (pool.queue sender).isPending nonce = true := by
  constructor
  · rintro ⟨tx, ready, rfl, rfl⟩
    exact (orderly.mem_ready.mp ready).2
  · intro pending
    obtain ⟨fromBase, beforeEnd⟩ := SenderQueue.isPending_iff.mp pending
    obtain ⟨tx, present⟩ := Map.mem_iff.mp ((orderly.gapless sender).held nonce fromBase beforeEnd)
    obtain ⟨rfl, rfl⟩ := orderly.own sender nonce tx present
    exact ⟨tx, orderly.mem_ready.mpr ⟨present, pending⟩, rfl, rfl⟩

/-- From the nonce of the account on and below the suggested one, what is pending is what lies
behind the nonce at which the pool last saw the account. -/
theorem Orderly.readyAt_below_next (orderly : pool.Orderly) {nonce : UInt64}
    (behind : nonceOf sender ≤ nonce) (before : nonce < pool.nextNonce nonceOf sender) :
    pool.ReadyAt sender nonce ↔ (pool.queue sender).base ≤ nonce := by
  rw [orderly.readyAt_iff, SenderQueue.isPending_iff]
  exact and_iff_left ((lt_nextNonce_iff behind).mp before)

theorem Orderly.leavesNoGap_iff (orderly : pool.Orderly) :
    pool.LeavesNoGap nonceOf sender ↔ (pool.queue sender).base ≤ nonceOf sender := by
  constructor
  · intro noGap
    by_contra back
    -- The nonce that the account has gone back to is itself a gap.
    have before : nonceOf sender < pool.nextNonce nonceOf sender := by
      apply UInt64.lt_of_lt_of_le (UInt64.not_le.mp back)
      exact UInt64.le_trans (orderly.gapless sender).base_le (pendingEnd_le_nextNonce _ _ _)
    have ready := noGap _ (UInt64.le_refl _) before
    exact back ((orderly.readyAt_below_next (UInt64.le_refl _) before).mp ready)
  · intro ahead nonce behind before
    exact (orderly.readyAt_below_next behind before).mpr (UInt64.le_trans ahead behind)

/-- The suggested nonce is free, and between the nonce of the account and it exactly the nonces are
pending that lie behind the one at which the pool last saw the account. There is no gap as long as
no account goes back. -/
theorem nextNonce_exact (visited : Visited config pool) (nonceOf : NonceOf) (sender : Address) :
    nonceOf sender ≤ pool.nextNonce nonceOf sender ∧
      ¬pool.ReadyAt sender (pool.nextNonce nonceOf sender) ∧
      (∀ nonce, nonceOf sender ≤ nonce → nonce < pool.nextNonce nonceOf sender →
        (pool.ReadyAt sender nonce ↔ (pool.queue sender).base ≤ nonce)) ∧
      (pool.LeavesNoGap nonceOf sender ↔ (pool.queue sender).base ≤ nonceOf sender) ∧
      (Advancing config nonceOf pool → pool.LeavesNoGap nonceOf sender) := by
  have orderly := visited.orderly
  have behind := nonceOf_le_nextNonce pool nonceOf sender
  refine ⟨behind, ?_, fun _ => orderly.readyAt_below_next, orderly.leavesNoGap_iff, ?_⟩
  · rw [orderly.readyAt_iff, SenderQueue.isPending_iff, ← lt_nextNonce_iff behind]
    exact fun pending => UInt64.lt_irrefl _ pending.2
  · intro advancing
    exact orderly.leavesNoGap_iff.mpr (advancing.base_le sender)

theorem passedOn_nextNonce :
    Visited {} passedOn ∧ passedOn.nextNonce (fun _ => 1) 1 = 2 ∧ passedOn.ReadyAt 1 1 ∧
      ¬passedOn.ReadyAt 1 2 ∧ passedOn.LeavesNoGap (fun _ => 1) 1 := by
  have visited : Visited {} passedOn :=
    .prune (fun _ => 1) (.insert (fun _ => 0) earlier (.insert (fun _ => 0) later .empty))
  have advancing : Advancing {} (fun _ => 1) passedOn :=
    .prune (.advance (.insert earlier (.insert later (.empty fun _ => 0))) fun _ => by decide)
  have next : passedOn.nextNonce (fun _ => 1) 1 = 2 := by decide +kernel
  obtain ⟨_, free, _, _, noGap⟩ := nextNonce_exact visited (fun _ => 1) 1
  have ready := noGap advancing 1 (UInt64.le_refl _) (by rw [next]; decide)
  exact ⟨visited, next, ready, next ▸ free, noGap advancing⟩

def fifth : Transaction := { nonce := 5, sender := 1, hash := 15 }

def startedAtFive : Pool := ((ofConfig {}).insert (fun _ => 5) fifth).2

/-- When the account has gone back, the suggested nonce leaves out those before the pending one. -/
theorem startedAtFive_gap :
    Visited {} startedAtFive ∧ startedAtFive.nextNonce (fun _ => 3) 1 = 6 ∧
      ¬startedAtFive.ReadyAt 1 3 ∧ ¬startedAtFive.LeavesNoGap (fun _ => 3) 1 := by
  have visited : Visited {} startedAtFive := .insert _ fifth .empty
  have next : startedAtFive.nextNonce (fun _ => 3) 1 = 6 := by decide +kernel
  have missing : ¬startedAtFive.ReadyAt 1 3 := by
    rintro ⟨tx, ready, _, atThree⟩
    have only : startedAtFive.ready = [fifth] := by decide +kernel
    rw [only, List.mem_singleton] at ready
    rw [ready] at atThree
    exact absurd atThree (by decide)
  refine ⟨visited, next, missing, ?_⟩
  intro noGap
  exact missing (noGap 3 (by decide) (by rw [next]; decide))

end HostedEvm.Pool
