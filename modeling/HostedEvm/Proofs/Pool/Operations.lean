import HostedEvm.Proofs.Pool.Runs

set_option autoImplicit false

/-!
What one operation does to a pool.

An offered transaction is turned away at the door, or its sender is brought up to date first, and
then it is refused or takes its place. Either step can fail to find the end of a pending run. A
transaction that is removed leaves the index and the queue of its sender.
-/

namespace HostedEvm

/-- Whether a transaction is refused before the pool is touched. -/
def PoolFault.turnsAway : PoolFault → Bool
  | .unsealed => true
  | .nonceTooLow _ _ => true
  | _ => false

namespace SenderQueue

variable {sender : Address} {queue changed : SenderQueue} {tx : Transaction} {base : UInt64}

def OwnedBy (sender : Address) (queue : SenderQueue) : Prop :=
  ∀ (nonce : UInt64) (tx : Transaction), queue.txs[nonce]? = some tx →
    tx.sender = sender ∧ tx.nonce = nonce

theorem OwnedBy.mem_select (own : queue.OwnedBy sender) {condition : UInt64 → Bool} :
    tx ∈ queue.select condition ↔
      queue.txs[tx.nonce]? = some tx ∧ condition tx.nonce = true := by
  rw [SenderQueue.mem_select]
  constructor
  · rintro ⟨nonce, present, selected⟩
    obtain ⟨_, rfl⟩ := own nonce tx present
    exact ⟨present, selected⟩
  · rintro ⟨present, selected⟩
    exact ⟨tx.nonce, present, selected⟩

theorem OwnedBy.ascending (own : queue.OwnedBy sender) (condition : UInt64 → Bool) :
    (queue.select condition).Pairwise fun first second => first.nonce < second.nonce := by
  have listed : queue.select condition =
      ((queue.txs.toList.filter fun entry => condition entry.1).map Prod.snd) := rfl
  have keys := listKeys_ascending queue.txs
  rw [Map.listKeys, List.pairwise_map] at keys
  rw [listed, List.pairwise_map]
  apply List.Pairwise.imp_of_mem _ (keys.filter _)
  intro first second firstListed secondListed before
  have firstPresent := Map.mem_toList.mp (List.mem_of_mem_filter firstListed)
  have secondPresent := Map.mem_toList.mp (List.mem_of_mem_filter secondListed)
  rw [(own first.1 first.2 firstPresent).2, (own second.1 second.2 secondPresent).2]
  exact before

theorem promote?_eq_some (found : queue.promote? = some changed) :
    changed.base = queue.base ∧ changed.txs = queue.txs := by
  obtain ⟨stop, _, rfl⟩ := Option.map_eq_some_iff.mp found
  exact ⟨rfl, rfl⟩

theorem rebase?_eq_some (found : queue.rebase? base = some changed) :
    changed.base = base ∧ changed.txs = (queue.moved base).txs := by
  simp only [rebase?] at found
  split at found
  · exact promote?_eq_some found
  · cases found
    exact ⟨rfl, rfl⟩

theorem putAndPromote?_eq_some (found : queue.putAndPromote? tx = some changed) :
    changed.base = queue.base ∧ changed.txs = queue.txs.insert tx.nonce tx := by
  simp only [putAndPromote?] at found
  split at found
  · exact promote?_eq_some found
  · cases found
    exact ⟨rfl, rfl⟩

theorem get_moved {nonce : UInt64} :
    (queue.moved base).txs[nonce]? = some tx ↔ queue.txs[nonce]? = some tx ∧ base ≤ nonce := by
  rw [moved, Map.get_filter, decide_eq_true_eq]

/-- Where the end of the pending run is not found, nothing is pending: the run was to start at the
nonce of the account. -/
theorem pending_eq_nil (ended : queue.pendingEnd = queue.base) : queue.pending = [] := by
  rw [List.eq_nil_iff_forall_not_mem]
  intro tx listed
  obtain ⟨nonce, _, pending⟩ := SenderQueue.mem_select.mp listed
  obtain ⟨fromBase, beforeEnd⟩ := isPending_iff.mp pending
  rw [ended] at beforeEnd
  exact UInt64.not_lt.mpr fromBase beforeEnd

theorem pending_of_stuck (stuck : queue.rebase? base = none) :
    (queue.moved base).pending = [] := by
  simp only [rebase?] at stuck
  split at stuck
  · rename_i ended
    exact pending_eq_nil ended
  · cases stuck

theorem pending_of_stuck_behind (stuck : queue.putAndPromote? tx = none) :
    (queue.put tx).pending = [] := by
  simp only [putAndPromote?] at stuck
  split at stuck
  · rename_i next
    exact pending_eq_nil next.2
  · cases stuck

end SenderQueue

namespace Pool

variable {config : PoolConfig} {pool : Pool} {nonceOf : NonceOf} {tx other : Transaction}
  {replacing : Bool} {sender : Address} {queue : SenderQueue}

def ready (pool : Pool) : List Transaction := (pool.pending false).flatMap Prod.snd

def waiting (pool : Pool) : List Transaction := pool.queued.flatMap Prod.snd

/-- Every queue holds transactions of its sender, each at its nonce, and each of them is in the
index. Unlike consistency, this outlasts an operation that gives up halfway. -/
structure Listed (pool : Pool) : Prop where
  own : ∀ sender : Address, (pool.queue sender).OwnedBy sender
  known : ∀ tx : Transaction, pool.Files tx → pool.index[tx.hash]? = some tx

theorem Consistent.listed (consistent : pool.Consistent config) : pool.Listed where
  own := fun sender => (consistent.queue_kept sender).own
  known := fun tx filed => (consistent.indexed tx.hash tx).mpr ⟨rfl, filed⟩

/-- Besides, the pending transactions of every sender follow one another without a gap. -/
structure Orderly (pool : Pool) : Prop extends pool.Listed where
  gapless : ∀ sender : Address, (pool.queue sender).Gapless

theorem Consistent.orderly (consistent : pool.Consistent config) : pool.Orderly :=
  ⟨consistent.listed, fun sender => (consistent.queue_kept sender).sound.toGapless⟩

theorem Listed.unique (listed : pool.Listed) {first second : Transaction}
    (firstFiled : pool.Files first) (secondFiled : pool.Files second)
    (same : first.hash = second.hash) : first = second := by
  have firstKnown := listed.known first firstFiled
  rw [same, listed.known second secondFiled] at firstKnown
  exact (Option.some.inj firstKnown).symm

/-- The content of a pool consists of the transactions at the nonces that are selected in their own
queues. -/
theorem Listed.mem_content (listed : pool.Listed) {find : SenderQueue → List Transaction}
    {condition : SenderQueue → UInt64 → Bool}
    (finds : ∀ queue, find queue = queue.select (condition queue)) :
    tx ∈ (pool.contentOf find).flatMap Prod.snd ↔
      pool.Files tx ∧ condition (pool.queue tx.sender) tx.nonce = true := by
  rw [flatMap_contentOf, List.mem_flatMap]
  constructor
  · rintro ⟨queue, held, found⟩
    obtain ⟨sender, present⟩ := Map.mem_listValues.mp held
    have same := queue_of_present present
    have own := listed.own sender
    rw [same] at own
    rw [finds, own.mem_select] at found
    obtain ⟨rfl, _⟩ := own tx.nonce tx found.1
    rw [Files, same]
    exact found
  · rintro ⟨filed, selected⟩
    cases present : pool.queues[tx.sender]? with
    | none => simp [Files, Pool.queue, present] at filed
    | some queue =>
        have same := queue_of_present present
        refine ⟨queue, Map.mem_listValues.mpr ⟨tx.sender, present⟩, ?_⟩
        rw [finds, SenderQueue.mem_select]
        rw [Files, same] at filed
        rw [same] at selected
        exact ⟨tx.nonce, filed, selected⟩

theorem Listed.mem_ready (listed : pool.Listed) :
    tx ∈ pool.ready ↔
      pool.Files tx ∧ (pool.queue tx.sender).isPending tx.nonce = true := by
  rw [ready, pending_untipped]
  exact listed.mem_content fun _ => rfl

theorem Listed.mem_waiting (listed : pool.Listed) :
    tx ∈ pool.waiting ↔
      pool.Files tx ∧ (pool.queue tx.sender).pendingEnd ≤ tx.nonce := by
  rw [waiting, queued, ← decide_eq_true_eq (p := _ ≤ _)]
  exact listed.mem_content fun _ => rfl

theorem queues_announce (pool : Pool) (txs : List Transaction) :
    (pool.announce txs).queues = pool.queues := by
  unfold announce
  split <;> rfl

theorem files_announce (pool : Pool) (txs : List Transaction) (tx : Transaction) :
    (pool.announce txs).Files tx ↔ pool.Files tx := by
  rw [Files, Pool.queue, queues_announce]
  rfl

/-- What is selected in the queues of a pool changes only for the sender whose queue does. -/
theorem selected_withQueue (pool : Pool) (sender : Address) (queue : SenderQueue)
    (tx : Transaction) (condition : SenderQueue → UInt64 → Prop) :
    ((pool.withQueue sender queue).Files tx ∧
        condition ((pool.withQueue sender queue).queue tx.sender) tx.nonce) ↔
      if sender = tx.sender then queue.txs[tx.nonce]? = some tx ∧ condition queue tx.nonce
      else pool.Files tx ∧ condition (pool.queue tx.sender) tx.nonce := by
  rw [files_withQueue]
  unfold Pool.queue
  rw [get_withQueue]
  by_cases same : sender = tx.sender
  · simp only [if_pos same]
    apply and_congr_right
    intro present
    have filled : queue.txs.isEmpty = false := by
      rw [← Bool.not_eq_true, Std.ExtTreeMap.isEmpty_iff]
      exact Std.ExtTreeMap.ne_empty_of_mem (Map.mem_iff.mpr ⟨tx, present⟩)
    rw [filled]
    rfl
  · simp only [if_neg same]

theorem placeFor_eq_error {fault : PoolFault}
    (refused : pool.placeFor queue tx replacing = .error fault) :
    fault.turnsAway = false ∧ fault.isFatal = false := by
  unfold placeFor at refused
  split at refused
  · cases refused
    exact ⟨rfl, rfl⟩
  · split at refused
    · split at refused
      · cases refused
        exact ⟨rfl, rfl⟩
      · cases refused
    · split at refused
      · cases refused
        exact ⟨rfl, rfl⟩
      · split at refused
        · cases refused
          exact ⟨rfl, rfl⟩
        · split at refused
          · cases refused
            exact ⟨rfl, rfl⟩
          · cases refused

theorem placeFor_replacing {displaced : Option Transaction}
    (placed : pool.placeFor queue tx true = .ok displaced) : displaced.isSome := by
  unfold placeFor at placed
  split at placed
  · cases placed
  · split at placed
    · cases placed
      rfl
    · cases placed

/-- The pool in which the sender of a transaction has been brought up to date, but for its queue. -/
def passed (pool : Pool) (nonceOf : NonceOf) (sender : Address) : Pool :=
  pool.forget ((pool.queue sender).below (nonceOf sender))

theorem files_passed (rebased : (pool.queue sender).rebase? (nonceOf sender) = some queue) :
    ((pool.passed nonceOf sender).withQueue sender queue).Files other ↔
      pool.Files other ∧ ¬(other.sender = sender ∧ other.nonce < nonceOf sender) := by
  rw [files_withQueue]
  split
  · rename_i own
    subst own
    rw [(SenderQueue.rebase?_eq_some rebased).2, SenderQueue.get_moved, ← UInt64.not_lt]
    simp [Files]
  · rename_i foreign
    simp [Ne.symm foreign, Files, passed, forget, Pool.queue]

inductive Admission (pool : Pool) (nonceOf : NonceOf) (tx : Transaction) (replacing : Bool) :
    Except PoolFault (PoolStatus × Option Transaction) × Pool → Prop
  | turnedAway {fault : PoolFault} :
      fault.turnsAway = true → Admission pool nonceOf tx replacing (.error fault, pool)
  | stuckBefore :
      (pool.queue tx.sender).rebase? (nonceOf tx.sender) = none →
      Admission pool nonceOf tx replacing (.error (.breakdown .sum),
        pool.withQueue tx.sender ((pool.queue tx.sender).moved (nonceOf tx.sender)))
  | refused {queue : SenderQueue} {fault : PoolFault} :
      (pool.queue tx.sender).rebase? (nonceOf tx.sender) = some queue →
      fault.turnsAway = false → fault.isFatal = false →
      Admission pool nonceOf tx replacing (.error fault,
        ((pool.passed nonceOf tx.sender).withQueue tx.sender queue).announce
          (queue.newlyPending (pool.queue tx.sender).pendingHashes))
  | stuckBehind {queue : SenderQueue} {displaced : Option Transaction} :
      (pool.queue tx.sender).rebase? (nonceOf tx.sender) = some queue →
      (pool.passed nonceOf tx.sender).placeFor queue tx replacing = .ok displaced →
      queue.putAndPromote? tx = none →
      Admission pool nonceOf tx replacing (.error (.breakdown .sum),
        ((pool.passed nonceOf tx.sender).indexed tx displaced).withQueue tx.sender (queue.put tx))
  | taken {queue placed : SenderQueue} {displaced : Option Transaction} {status : PoolStatus} :
      nonceOf tx.sender ≤ tx.nonce →
      (pool.queue tx.sender).rebase? (nonceOf tx.sender) = some queue →
      (pool.passed nonceOf tx.sender).placeFor queue tx replacing = .ok displaced →
      queue.putAndPromote? tx = some placed →
      Admission pool nonceOf tx replacing (.ok (status, displaced),
        (((pool.passed nonceOf tx.sender).indexed tx displaced).withQueue tx.sender placed).announce
          (placed.newlyPending (pool.queue tx.sender).pendingHashes))

theorem admission_add (pool : Pool) (nonceOf : NonceOf) (tx : Transaction) (replacing : Bool) :
    Admission pool nonceOf tx replacing (pool.add nonceOf tx replacing) := by
  unfold add
  simp only
  split
  · exact .turnedAway rfl
  · split
    · exact .turnedAway rfl
    · rename_i low
      cases rebased : (pool.queue tx.sender).rebase? (nonceOf tx.sender) with
      | none => exact .stuckBefore rebased
      | some queue =>
          simp only [place]
          cases placed : (pool.passed nonceOf tx.sender).placeFor queue tx replacing with
          | error fault =>
              obtain ⟨inside, running⟩ := placeFor_eq_error placed
              unfold passed at placed
              simp only [placed]
              exact .refused rebased inside running
          | ok displaced =>
              cases promoted : queue.putAndPromote? tx with
              | none =>
                  have stuck := Admission.stuckBehind rebased placed promoted
                  unfold passed at placed stuck
                  simp only [placed]
                  exact stuck
              | some changed =>
                  have taken := @Admission.taken pool nonceOf tx replacing queue changed displaced
                    (if changed.isPending tx.nonce then .pending else .queued)
                    (UInt64.not_lt.mp low) rebased placed promoted
                  unfold passed at placed taken
                  simp only [placed]
                  exact taken

/-- A transaction that takes the place of another one displaces it. -/
theorem Admission.displaces {status : PoolStatus} {displaced : Option Transaction} {after : Pool}
    (admission : Admission pool nonceOf tx true (.ok (status, displaced), after)) :
    ∃ other, displaced = some other ∧
      ((pool.queue tx.sender).moved (nonceOf tx.sender)).txs[tx.nonce]? = some other := by
  cases admission with
  | taken notBelow rebased placed promoted =>
      obtain ⟨other, same⟩ := Option.isSome_iff_exists.mp (placeFor_replacing placed)
      obtain ⟨_, occupant, _⟩ := placeFor_eq_ok placed
      refine ⟨other, same, ?_⟩
      rw [← (SenderQueue.rebase?_eq_some rebased).2, ← occupant, same]

/-- A transaction that is removed leaves the index, and its nonce the queue of its sender. -/
theorem remove_of_found {hash : Word} (found : pool.index[hash]? = some tx) :
    pool.remove hash = (some tx, { pool with index := pool.index.erase hash }.withQueue tx.sender
      ((pool.queue tx.sender).without tx.nonce)) := by
  unfold remove
  rw [found]
  simp only
  cases present : pool.queues[tx.sender]? with
  | some queue => rw [queue_of_present present]
  | none =>
      have unused : pool.queue tx.sender = {} := by
        rw [Pool.queue, present]
        rfl
      have empty : (({} : SenderQueue).without tx.nonce).txs.isEmpty = true := by
        simp [SenderQueue.without]
      rw [unused, withQueue, if_pos empty, Map.erase_of_absent present]

def SharesPlace (first second : Transaction) : Prop :=
  first.sender = second.sender ∧ first.nonce = second.nonce

/-- Removing a transaction leaves what stands in other places, and selects it as before but for the
queue of the sender. -/
theorem selected_remove {hash : Word} (found : pool.index[hash]? = some tx) (other : Transaction)
    (condition : SenderQueue → UInt64 → Prop) :
    ((pool.remove hash).2.Files other ∧
        condition ((pool.remove hash).2.queue other.sender) other.nonce) ↔
      (pool.Files other ∧ ¬SharesPlace other tx) ∧
        if other.sender = tx.sender then
          condition ((pool.queue tx.sender).without tx.nonce) other.nonce
        else condition (pool.queue other.sender) other.nonce := by
  rw [remove_of_found found, selected_withQueue, SharesPlace]
  by_cases own : other.sender = tx.sender
  · rw [if_pos own.symm, if_pos own, SenderQueue.without, Map.get_erase, Files, own]
    by_cases place : tx.nonce = other.nonce
    · simp [place]
    · simp [place, Ne.symm place]
  · rw [if_neg (Ne.symm own), if_neg own]
    simp [own, Files, Pool.queue]

end Pool

end HostedEvm
