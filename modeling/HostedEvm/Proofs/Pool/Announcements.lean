import HostedEvm.Proofs.Pool.Operations
import HostedEvm.Proofs.Pool.Pruning

set_option autoImplicit false

/-!
What a pool announces.

With every operation, whether it succeeds, refuses or gives up, a pool sends exactly the
transactions that are pending after it and were not before, each once and those of a sender in the
order of their nonces. An operation that makes nothing pending sends nothing. Only a pruning that
gives up halfway sends nothing at all, also where it has made transactions of other senders pending
before.
-/

namespace HostedEvm

namespace SenderQueue

theorem OwnedBy.of_txs {sender : Address} {queue changed : SenderQueue}
    (own : queue.OwnedBy sender)
    (left : ∀ (nonce : UInt64) (tx : Transaction), changed.txs[nonce]? = some tx →
      queue.txs[nonce]? = some tx) : changed.OwnedBy sender :=
  fun nonce tx present => own nonce tx (left nonce tx present)

theorem mem_newlyPending {queue : SenderQueue} {before : List Word} {tx : Transaction} :
    tx ∈ queue.newlyPending before ↔ tx ∈ queue.pending ∧ tx.hash ∉ before := by
  rw [newlyPending, List.mem_filter]
  simp

theorem isPending_of_without {queue : SenderQueue} {nonce other : UInt64}
    (pending : (queue.without nonce).isPending other = true) : queue.isPending other = true := by
  unfold without at pending
  by_cases removed : queue.isPending nonce = true
  · simp only [if_pos removed] at pending
    obtain ⟨fromBase, before⟩ := isPending_iff.mp pending
    have beforeEnd := UInt64.lt_trans before (isPending_iff.mp removed).2
    exact isPending_iff.mpr ⟨fromBase, beforeEnd⟩
  · simp only [if_neg removed] at pending
    exact pending

end SenderQueue

namespace Pool

variable {config : PoolConfig} {pool changed after : Pool} {nonceOf : NonceOf} {tx : Transaction}
  {sender : Address} {queue : SenderQueue}

/-- The pools that operations lead to from an empty one, also where one of them gives up halfway. -/
inductive Visited (config : PoolConfig) : Pool → Prop
  | empty : Visited config (Pool.ofConfig config)
  | insert {pool : Pool} (nonceOf : NonceOf) (tx : Transaction) :
      Visited config pool → Visited config (pool.insert nonceOf tx).2
  | replace {pool : Pool} (nonceOf : NonceOf) (tx : Transaction) :
      Visited config pool → Visited config (pool.replace nonceOf tx).2
  | remove {pool : Pool} (hash : Word) :
      Visited config pool → Visited config (pool.remove hash).2
  | prune {pool : Pool} (nonceOf : NonceOf) :
      Visited config pool → Visited config (pool.prune nonceOf).2

/-! Every queue keeps to its sender, and the index knows what the queues hold. -/

/-- A pool stays listed when the queue of one sender changes and the index knows what it holds. -/
theorem Listed.withQueue (listed : pool.Listed)
    (others : ∀ other : Address, sender ≠ other → changed.queues[other]? = pool.queues[other]?)
    (own : queue.OwnedBy sender)
    (known : ∀ tx, (changed.withQueue sender queue).Files tx →
      changed.index[tx.hash]? = some tx) :
    (changed.withQueue sender queue).Listed := by
  refine ⟨?_, known⟩
  intro other
  unfold Pool.queue
  rw [get_withQueue]
  split
  · rename_i same
    subst same
    split
    · intro nonce tx present
      simp at present
    · exact own
  · rename_i differs
    rw [others other differs]
    exact listed.own other

theorem Listed.announce (listed : pool.Listed) (txs : List Transaction) :
    (pool.announce txs).Listed := by
  unfold Pool.announce
  split
  · exact listed
  · exact ⟨listed.own, listed.known⟩

theorem Listed.moved (listed : pool.Listed) (sender : Address) (base : UInt64) :
    (pool.withQueue sender ((pool.queue sender).moved base)).Listed := by
  have left (nonce : UInt64) (tx : Transaction)
      (present : ((pool.queue sender).moved base).txs[nonce]? = some tx) :
      (pool.queue sender).txs[nonce]? = some tx := (SenderQueue.get_moved.mp present).1
  apply listed.withQueue (fun _ _ => rfl) ((listed.own sender).of_txs left)
  intro tx filed
  apply listed.known
  rw [files_withQueue] at filed
  split at filed
  · rename_i same
    subst same
    exact left tx.nonce tx filed
  · exact filed

theorem get_rebased {nonce : UInt64}
    (rebased : (pool.queue sender).rebase? (nonceOf sender) = some queue)
    (present : queue.txs[nonce]? = some tx) : (pool.queue sender).txs[nonce]? = some tx := by
  rw [(SenderQueue.rebase?_eq_some rebased).2] at present
  exact (SenderQueue.get_moved.mp present).1

theorem Listed.passed (listed : pool.Listed)
    (rebased : (pool.queue sender).rebase? (nonceOf sender) = some queue) :
    ((pool.passed nonceOf sender).withQueue sender queue).Listed := by
  have others (other : Address) (_ : sender ≠ other) :
      (pool.passed nonceOf sender).queues[other]? = pool.queues[other]? := rfl
  apply listed.withQueue others ((listed.own sender).of_txs fun nonce tx => get_rebased rebased)
  intro tx filed
  obtain ⟨before, notPassed⟩ := (files_passed rebased).mp filed
  refine (get_forget _ _ _ _).mpr ⟨listed.known tx before, ?_⟩
  intro dropped below same
  obtain ⟨present, passed⟩ := (listed.own sender).mem_select.mp below
  obtain ⟨own, _⟩ := listed.own sender _ dropped present
  rw [← own] at present
  cases listed.unique present before same
  exact notPassed ⟨own, of_decide_eq_true passed⟩

/-- A transaction takes its place in the index and in the queue of its sender. -/
theorem Listed.seated {displaced : Option Transaction} {placed : SenderQueue}
    (listed : (pool.withQueue tx.sender queue).Listed) (own : queue.OwnedBy tx.sender)
    (unknown : pool.index[tx.hash]? = none) (occupant : displaced = queue.txs[tx.nonce]?)
    (txs : placed.txs = queue.txs.insert tx.nonce tx) :
    ((pool.indexed tx displaced).withQueue tx.sender placed).Listed := by
  subst occupant
  apply listed.withQueue
  · intro other differs
    rw [get_withQueue, if_neg differs]
    rfl
  · intro nonce found present
    rw [txs, Map.get_insert] at present
    split at present
    · rename_i same
      cases present
      exact ⟨rfl, same⟩
    · exact own nonce found present
  · intro other filed
    rw [files_withQueue, txs, Map.get_insert] at filed
    rw [get_indexed]
    by_cases seat : tx.sender = other.sender ∧ tx.nonce = other.nonce
    · rw [if_pos seat.1, if_pos seat.2] at filed
      cases filed
      exact .inl ⟨rfl, rfl⟩
    · -- What stands in another place stood there before, under another hash.
      have before : (pool.withQueue tx.sender queue).Files other := by
        rw [files_withQueue]
        split at filed
        · rename_i same
          rw [if_neg fun place => seat ⟨same, place⟩] at filed
          exact (if_pos same).mpr filed
        · rename_i foreign
          exact (if_neg foreign).mpr filed
      have known : pool.index[other.hash]? = some other := listed.known other before
      refine .inr ⟨?_, known, ?_⟩
      · intro same
        rw [← same, unknown] at known
        cases known
      · intro dropped present same
        obtain ⟨droppedOwn, droppedPlace⟩ := own tx.nonce dropped present
        have stood : (pool.withQueue tx.sender queue).Files dropped := by
          rw [files_withQueue, if_pos droppedOwn.symm, droppedPlace]
          exact present
        cases listed.unique stood before same
        exact seat ⟨droppedOwn.symm, droppedPlace.symm⟩

theorem Listed.accepted {placed : SenderQueue} {displaced : Option Transaction}
    {replacing : Bool} (listed : pool.Listed)
    (rebased : (pool.queue tx.sender).rebase? (nonceOf tx.sender) = some queue)
    (accepted : (pool.passed nonceOf tx.sender).placeFor queue tx replacing = .ok displaced)
    (txs : placed.txs = queue.txs.insert tx.nonce tx) :
    (((pool.passed nonceOf tx.sender).indexed tx displaced).withQueue tx.sender placed).Listed := by
  obtain ⟨unknown, occupant, _⟩ := placeFor_eq_ok accepted
  apply (listed.passed rebased).seated _ unknown occupant txs
  exact (listed.own tx.sender).of_txs fun nonce other => get_rebased rebased

theorem Listed.add (listed : pool.Listed) (nonceOf : NonceOf) (tx : Transaction)
    (replacing : Bool) : (pool.add nonceOf tx replacing).2.Listed := by
  have admission := admission_add pool nonceOf tx replacing
  generalize pool.add nonceOf tx replacing = result at admission ⊢
  cases admission with
  | turnedAway _ => exact listed
  | stuckBefore _ => exact listed.moved tx.sender (nonceOf tx.sender)
  | refused rebased _ _ => exact (listed.passed rebased).announce _
  | stuckBehind rebased accepted _ => exact listed.accepted rebased accepted rfl
  | taken _ rebased accepted promoted =>
      have txs := (SenderQueue.putAndPromote?_eq_some promoted).2
      exact (listed.accepted rebased accepted txs).announce _

theorem Listed.remove (listed : pool.Listed) (hash : Word) : (pool.remove hash).2.Listed := by
  cases found : pool.index[hash]? with
  | none =>
      unfold Pool.remove
      rw [found]
      exact listed
  | some tx =>
      have left := selected_remove found
      rw [remove_of_found found] at left ⊢
      have others (other : Address) (_ : tx.sender ≠ other) :
          ({ pool with index := pool.index.erase hash } : Pool).queues[other]? =
            pool.queues[other]? := rfl
      apply listed.withQueue others
      · apply (listed.own tx.sender).of_txs
        intro nonce other present
        rw [SenderQueue.without, Map.get_erase] at present
        split at present
        · cases present
        · exact present
      · intro other filed
        obtain ⟨⟨before, apart⟩, _⟩ := (left other fun _ _ => True).mp ⟨filed, trivial⟩
        have known := listed.known other before
        rw [Map.get_erase, known, if_neg]
        rintro rfl
        cases known.symm.trans found
        exact apart ⟨rfl, rfl⟩

/-- Whether a sender without transactions is forgotten makes no difference to what is listed. -/
theorem Listed.of_txs (listed : pool.Listed) (index : changed.index = pool.index)
    (txs : ∀ sender, (changed.queue sender).txs = (pool.queue sender).txs) : changed.Listed where
  own sender := (listed.own sender).of_txs fun nonce tx present => txs sender ▸ present
  known tx filed := by
    rw [Files, txs] at filed
    rw [index]
    exact listed.known tx filed

theorem txs_keepQueue (pool : Pool) (sender : Address) (queue : SenderQueue) (other : Address) :
    ((pool.keepQueue sender queue).queue other).txs =
      ((pool.withQueue sender queue).queue other).txs := by
  unfold Pool.queue
  rw [get_keepQueue, get_withQueue]
  split
  · cases empty : queue.txs.isEmpty with
    | true => exact Std.ExtTreeMap.isEmpty_iff.mp empty
    | false => rfl
  · rfl

theorem txs_swept (pool : Pool) (sender : Address) :
    (pool.swept.queue sender).txs = (pool.queue sender).txs := by
  unfold Pool.queue
  rw [get_swept]
  cases pool.queues[sender]? with
  | none => rfl
  | some queue =>
      cases empty : queue.txs.isEmpty with
      | true => simp [Option.filter_some, Std.ExtTreeMap.isEmpty_iff.mp empty]
      | false => simp [Option.filter_some, empty]

theorem Listed.swept (listed : pool.Listed) : pool.swept.Listed := listed.of_txs rfl pool.txs_swept

theorem Listed.step {pruning : Pruning} (listed : pruning.pool.Listed)
    (present : pruning.pool.queues[sender]? = some queue) :
    (pruning.step nonceOf (sender, queue)).pool.Listed := by
  have same := queue_of_present present
  unfold Pruning.step
  simp only
  split
  · exact listed
  · split
    · have moved := listed.moved sender (nonceOf sender)
      rw [same] at moved
      exact moved.of_txs rfl (txs_keepQueue _ _ _)
    · rename_i rebased found
      have passed := @listed.passed _ nonceOf sender rebased (same.symm ▸ found)
      rw [Pool.passed, same] at passed
      exact passed.of_txs rfl (txs_keepQueue _ _ _)

theorem get_step_other {pruning : Pruning} {other : Address} (differs : sender ≠ other) :
    (pruning.step nonceOf (sender, queue)).pool.queues[other]? =
      pruning.pool.queues[other]? := by
  unfold Pruning.step
  simp only
  split
  · rfl
  · split
    · rw [get_keepQueue, if_neg differs]
    · rw [get_keepQueue, if_neg differs]
      rfl

theorem Listed.foldl_step {entries : List (Address × SenderQueue)}
    (distinct : entries.Pairwise fun first second => first.1 ≠ second.1) {pruning : Pruning}
    (listed : pruning.pool.Listed)
    (waiting : ∀ entry ∈ entries, pruning.pool.queues[entry.1]? = some entry.2) :
    (entries.foldl (Pruning.step nonceOf) pruning).pool.Listed := by
  induction entries generalizing pruning with
  | nil => exact listed
  | cons entry rest inductionHypothesis =>
      rcases entry with ⟨sender, queue⟩
      rcases List.pairwise_cons.mp distinct with ⟨others, restDistinct⟩
      apply inductionHypothesis restDistinct (listed.step (waiting _ List.mem_cons_self))
      intro other later
      rw [get_step_other (others other later)]
      exact waiting other (List.mem_cons_of_mem _ later)

theorem Listed.prune (listed : pool.Listed) (nonceOf : NonceOf) :
    (pool.prune nonceOf).2.Listed := by
  have reached : (pool.queues.toList.foldl (Pruning.step nonceOf) { pool }).pool.Listed :=
    listed.foldl_step (Map.distinct_keys pool.queues) fun _ held => Map.mem_toList.mp held
  unfold Pool.prune
  simp only
  split
  · exact reached
  · exact reached.swept.announce _

theorem Visited.listed (visited : Visited config pool) : pool.Listed := by
  induction visited with
  | empty => exact (Consistent.ofConfig config).listed
  | insert nonceOf tx _ inductionHypothesis => exact inductionHypothesis.add nonceOf tx false
  | replace nonceOf tx _ inductionHypothesis =>
      rw [(replace_adds _ nonceOf tx).2]
      exact inductionHypothesis.add nonceOf tx true
  | remove hash _ inductionHypothesis => exact inductionHypothesis.remove hash
  | prune nonceOf _ inductionHypothesis => exact inductionHypothesis.prune nonceOf

/-- Between two states of a pool, the transactions that became pending were sent, in one event if
there are any. -/
structure Announced (before after : Pool) (txs : List Transaction) : Prop where
  entering : ∀ tx, tx ∈ txs ↔
    tx ∈ after.ready ∧ ∀ old ∈ before.ready, old.hash ≠ tx.hash
  once : (txs.map Transaction.hash).Nodup
  inOrder : ∀ sender,
    (sentBy sender txs).Pairwise fun first second => first.nonce < second.nonce
  sent : after.feed = if txs.isEmpty then before.feed else before.feed.send txs

def Announces (before after : Pool) : Prop := ∃ txs, Announced before after txs

theorem feed_announce (pool : Pool) (txs : List Transaction) :
    (pool.announce txs).feed = if txs.isEmpty then pool.feed else pool.feed.send txs := by
  unfold announce
  split <;> rfl

theorem Listed.mem_ready_announce (listed : pool.Listed) (txs : List Transaction) :
    tx ∈ (pool.announce txs).ready ↔ tx ∈ pool.ready := by
  rw [(listed.announce txs).mem_ready, listed.mem_ready, files_announce, Pool.queue,
    queues_announce]
  rfl

/-- Transactions of a pool that come in the order of their nonces for each sender come once. -/
theorem Announced.of_order {before : Pool} {txs : List Transaction} (listed : after.Listed)
    (entering : ∀ tx, tx ∈ txs ↔
      tx ∈ after.ready ∧ ∀ old ∈ before.ready, old.hash ≠ tx.hash)
    (inOrder : ∀ sender,
      (sentBy sender txs).Pairwise fun first second => first.nonce < second.nonce)
    (sent : after.feed = before.feed) :
    Announced before (after.announce txs) txs := by
  refine ⟨?_, ?_, inOrder, ?_⟩
  · intro tx
    rw [listed.mem_ready_announce]
    exact entering tx
  · -- Ascending nonces keep a sender's transactions apart, and the index those of all senders.
    have distinct : txs.Nodup := by
      apply nodup_of_sentBy
      intro tx _
      apply (inOrder tx.sender).imp
      rintro first second before rfl
      exact UInt64.lt_irrefl _ before
    apply distinct.map_on
    intro first firstListed second secondListed same
    have firstReady := ((entering first).mp firstListed).1
    have secondReady := ((entering second).mp secondListed).1
    exact listed.unique (listed.mem_ready.mp firstReady).1 (listed.mem_ready.mp secondReady).1 same
  · rw [feed_announce, sent]

/-- An operation that makes nothing pending sends nothing. -/
theorem announces_nothing (fewer : ∀ tx ∈ after.ready, tx ∈ pool.ready)
    (sent : after.feed = pool.feed) : Announces pool after := by
  refine ⟨[], ?_, List.nodup_nil, fun _ => List.Pairwise.nil, sent⟩
  intro tx
  constructor
  · nofun
  · rintro ⟨ready, differs⟩
    exact absurd rfl (differs tx (fewer tx ready))

/-- What is new in the pending run of a queue was not pending in the pool. -/
theorem Listed.mem_newlyPending (listed : pool.Listed) (own : queue.OwnedBy sender)
    (apart : ∀ (nonce : UInt64) (tx : Transaction), queue.txs[nonce]? = some tx →
      ∀ old, pool.Files old → old.hash = tx.hash → old.sender = sender) :
    tx ∈ queue.newlyPending (pool.queue sender).pendingHashes ↔
      (queue.txs[tx.nonce]? = some tx ∧ queue.isPending tx.nonce = true) ∧
        ∀ old ∈ pool.ready, old.hash ≠ tx.hash := by
  rw [SenderQueue.mem_newlyPending, SenderQueue.pending, own.mem_select]
  apply and_congr_right
  rintro ⟨present, _⟩
  constructor
  · intro new old ready same
    obtain ⟨filed, pending⟩ := listed.mem_ready.mp ready
    have oldOwn := apart tx.nonce tx present old filed same
    rw [Files, oldOwn] at filed
    rw [oldOwn] at pending
    apply new
    rw [← same]
    exact List.mem_map_of_mem ((listed.own sender).mem_select.mpr ⟨filed, pending⟩)
  · intro new known
    obtain ⟨old, oldPending, same⟩ := List.mem_map.mp known
    obtain ⟨filed, pending⟩ := (listed.own sender).mem_select.mp oldPending
    obtain ⟨oldOwn, _⟩ := listed.own sender _ old filed
    rw [← oldOwn] at filed pending
    exact new old (listed.mem_ready.mpr ⟨filed, pending⟩) same

/-- What a change of one queue makes pending is what is new in the queue. -/
theorem announces_of_queue (listed : pool.Listed)
    (reached : (changed.withQueue sender queue).Listed)
    (others : ∀ other : Address, sender ≠ other → changed.queues[other]? = pool.queues[other]?)
    (sent : changed.feed = pool.feed) (own : queue.OwnedBy sender)
    (apart : ∀ (nonce : UInt64) (tx : Transaction), queue.txs[nonce]? = some tx →
      ∀ old, pool.Files old → old.hash = tx.hash → old.sender = sender) :
    Announces pool ((changed.withQueue sender queue).announce
      (queue.newlyPending (pool.queue sender).pendingHashes)) := by
  refine ⟨_, .of_order reached ?_ ?_ sent⟩
  · intro tx
    rw [listed.mem_newlyPending own apart, reached.mem_ready,
      selected_withQueue changed sender queue tx fun queue nonce => queue.isPending nonce = true]
    apply and_congr_left
    intro new
    split
    · rfl
    · rename_i foreign
      unfold Files Pool.queue
      rw [others tx.sender foreign]
      constructor
      · rintro ⟨present, _⟩
        exact absurd (own tx.nonce tx present).1.symm foreign
      · intro ready
        exact absurd rfl (new tx (listed.mem_ready.mpr ready))
  · intro other
    exact (own.ascending _).sublist (List.filter_sublist.trans List.filter_sublist)

theorem Listed.apart (listed : pool.Listed) {nonce : UInt64} {old : Transaction}
    (held : (pool.queue sender).txs[nonce]? = some tx) (filed : pool.Files old)
    (same : old.hash = tx.hash) : old.sender = sender := by
  obtain ⟨rfl, rfl⟩ := listed.own sender nonce tx held
  rw [listed.unique filed held same]

/-- A transaction that is new but for what the chain has passed shares its hash with none of another
sender. -/
theorem Listed.apart_of_unknown (listed : pool.Listed) {old : Transaction}
    (unknown : (pool.passed nonceOf sender).index[tx.hash]? = none) (filed : pool.Files old)
    (same : old.hash = tx.hash) : old.sender = sender := by
  by_contra foreign
  have kept : (pool.passed nonceOf sender).index[tx.hash]? = some old := by
    refine (get_forget _ _ _ _).mpr ⟨same ▸ listed.known old filed, ?_⟩
    intro dropped below hash
    have held := ((listed.own sender).mem_select.mp below).1
    exact foreign (listed.apart held filed (same.trans hash.symm))
  rw [unknown] at kept
  cases kept

theorem announce_pending_nil (pool : Pool) {before : List Word} (none : queue.pending = []) :
    pool.announce (queue.newlyPending before) = pool := by
  rw [SenderQueue.newlyPending, none]
  rfl

theorem Listed.announces_accepted {placed : SenderQueue} {displaced : Option Transaction}
    {replacing : Bool} (listed : pool.Listed)
    (rebased : (pool.queue tx.sender).rebase? (nonceOf tx.sender) = some queue)
    (accepted : (pool.passed nonceOf tx.sender).placeFor queue tx replacing = .ok displaced)
    (txs : placed.txs = queue.txs.insert tx.nonce tx) :
    Announces pool
      ((((pool.passed nonceOf tx.sender).indexed tx displaced).withQueue tx.sender placed).announce
        (placed.newlyPending (pool.queue tx.sender).pendingHashes)) := by
  apply announces_of_queue listed (listed.accepted rebased accepted txs) (fun _ _ => rfl) rfl
  · intro nonce other present
    rw [txs, Map.get_insert] at present
    split at present
    · rename_i same
      cases present
      exact ⟨rfl, same⟩
    · exact listed.own tx.sender nonce other (get_rebased rebased present)
  · intro nonce other present old filed same
    rw [txs, Map.get_insert] at present
    split at present
    · cases present
      exact listed.apart_of_unknown (placeFor_eq_ok accepted).1 filed same
    · exact listed.apart (get_rebased rebased present) filed same

theorem Listed.announces_add (listed : pool.Listed) (nonceOf : NonceOf) (tx : Transaction)
    (replacing : Bool) : Announces pool (pool.add nonceOf tx replacing).2 := by
  have admission := admission_add pool nonceOf tx replacing
  generalize pool.add nonceOf tx replacing = result at admission ⊢
  cases admission with
  | turnedAway _ => exact announces_nothing (fun _ ready => ready) rfl
  | stuckBefore stuck =>
      have left (nonce : UInt64) (other : Transaction) (present : ((pool.queue tx.sender).moved
          (nonceOf tx.sender)).txs[nonce]? = some other) :
          (pool.queue tx.sender).txs[nonce]? = some other :=
        (SenderQueue.get_moved.mp present).1
      -- No run was found, so that nothing is pending and an event would be empty.
      rw [← announce_pending_nil (Pool.withQueue _ _ _) (SenderQueue.pending_of_stuck stuck)]
      exact announces_of_queue listed (listed.moved _ _) (fun _ _ => rfl) rfl
        ((listed.own tx.sender).of_txs left)
        fun nonce other present _ => listed.apart (left nonce other present)
  | refused rebased _ _ =>
      exact announces_of_queue listed (listed.passed rebased) (fun _ _ => rfl) rfl
        ((listed.own tx.sender).of_txs fun nonce other => get_rebased rebased)
        fun nonce other present _ => listed.apart (get_rebased rebased present)
  | stuckBehind rebased accepted stuck =>
      rw [← announce_pending_nil (Pool.withQueue _ _ _)
        (SenderQueue.pending_of_stuck_behind stuck)]
      exact listed.announces_accepted rebased accepted rfl
  | taken _ rebased accepted promoted =>
      exact listed.announces_accepted rebased accepted
        (SenderQueue.putAndPromote?_eq_some promoted).2

theorem Listed.announces_remove (listed : pool.Listed) (hash : Word) :
    Announces pool (pool.remove hash).2 := by
  cases found : pool.index[hash]? with
  | none =>
      unfold Pool.remove
      rw [found]
      exact announces_nothing (fun _ ready => ready) rfl
  | some removed =>
      have left := selected_remove found
      have reached := listed.remove hash
      have sent : (pool.remove hash).2.feed = pool.feed := by
        rw [remove_of_found found]
        rfl
      apply announces_nothing _ sent
      intro tx ready
      rw [reached.mem_ready, left tx fun queue nonce => queue.isPending nonce = true] at ready
      obtain ⟨⟨filed, _⟩, pending⟩ := ready
      refine listed.mem_ready.mpr ⟨filed, ?_⟩
      split at pending
      · rename_i own
        rw [own]
        exact SenderQueue.isPending_of_without pending
      · exact pending

def news (nonceOf : NonceOf) (sender : Address) (queue : SenderQueue) : List Transaction :=
  ((queue.rebase? (nonceOf sender)).map fun rebased =>
    rebased.newlyPending queue.pendingHashes).getD []

theorem foldl_step_announced {entries : List (Address × SenderQueue)}
    (ready : ∀ entry ∈ entries, (entry.2.rebase? (nonceOf entry.1)).isSome) {pruning : Pruning}
    (running : pruning.overflowed = false) :
    (entries.foldl (Pruning.step nonceOf) pruning).announced =
      pruning.announced ++ entries.flatMap fun entry => news nonceOf entry.1 entry.2 := by
  induction entries generalizing pruning with
  | nil => exact (List.append_nil _).symm
  | cons entry rest inductionHypothesis =>
      obtain ⟨rebased, found⟩ := Option.isSome_iff_exists.mp (ready entry List.mem_cons_self)
      have announced : (pruning.step nonceOf entry).announced =
          pruning.announced ++ news nonceOf entry.1 entry.2 := by
        simp [Pruning.step, running, found, news]
      have stepRunning : (pruning.step nonceOf entry).overflowed = false := by
        simp [Pruning.step, running, found]
      rw [List.foldl_cons, inductionHypothesis
        (fun later listed => ready later (List.mem_cons_of_mem _ listed)) stepRunning, announced,
        List.flatMap_cons, List.append_assoc]

theorem foldl_step_feed (entries : List (Address × SenderQueue)) (pruning : Pruning) :
    (entries.foldl (Pruning.step nonceOf) pruning).pool.feed = pruning.pool.feed := by
  induction entries generalizing pruning with
  | nil => rfl
  | cons entry rest inductionHypothesis =>
      have kept : (pruning.step nonceOf entry).pool.feed = pruning.pool.feed := by
        unfold Pruning.step
        simp only
        split
        · rfl
        · split <;> rfl
      rw [List.foldl_cons, inductionHypothesis, kept]

theorem Listed.mem_news (listed : pool.Listed)
    (present : pool.queues[sender]? = some queue) {rebased : SenderQueue}
    (found : queue.rebase? (nonceOf sender) = some rebased) :
    tx ∈ news nonceOf sender queue ↔
      (rebased.txs[tx.nonce]? = some tx ∧ rebased.isPending tx.nonce = true) ∧
        ∀ old ∈ pool.ready, old.hash ≠ tx.hash := by
  have same := queue_of_present present
  rw [news, found, ← same]
  rw [← same] at found
  apply listed.mem_newlyPending ((listed.own sender).of_txs fun nonce tx => get_rebased found)
  intro nonce tx held old
  exact listed.apart (get_rebased found held)

/-- In what pruning announces, a sender has what became pending in its own queue. -/
theorem Listed.sentBy_news (listed : pool.Listed)
    (ready : ∀ entry ∈ pool.queues.toList, (entry.2.rebase? (nonceOf entry.1)).isSome)
    (sender : Address) :
    sentBy sender (pool.queues.toList.flatMap fun entry => news nonceOf entry.1 entry.2) =
      (pool.queues[sender]?.map (news nonceOf sender)).getD [] := by
  rw [sentBy_flatMap, ← Map.flatMap_toList_own]
  apply List.flatMap_congr
  rintro ⟨other, queue⟩ held
  have present := Map.mem_toList.mp held
  obtain ⟨rebased, found⟩ := Option.isSome_iff_exists.mp (ready _ held)
  have own (tx : Transaction) (new : tx ∈ news nonceOf other queue) : tx.sender = other := by
    have kept := ((listed.mem_news present found).mp new).1.1
    have same := queue_of_present present
    rw [← same] at found
    exact (listed.own other _ tx (get_rebased found kept)).1
  unfold sentBy
  by_cases same : other = sender
  · subst same
    rw [if_pos rfl, List.filter_eq_self]
    intro tx new
    simp [own tx new]
  · rw [if_neg same, List.filter_eq_nil_iff]
    intro tx new
    simp [own tx new, same]

/-- Where pruning comes to an end, the news of a sender are what became pending by it. -/
theorem Listed.mem_news_iff {after : Pruning} (listed : pool.Listed)
    (prunes : Prunes nonceOf pool.queues.toList { pool } after)
    (reached : after.pool.swept.Listed) :
    tx ∈ (pool.queues[tx.sender]?.map (news nonceOf tx.sender)).getD [] ↔
      tx ∈ after.pool.swept.ready ∧ ∀ old ∈ pool.ready, old.hash ≠ tx.hash := by
  rw [reached.mem_ready]
  unfold Files Pool.queue
  rw [get_swept]
  cases present : pool.queues[tx.sender]? with
  | none =>
      have absent : after.pool.queues[tx.sender]? = none := by
        rw [prunes.others tx.sender, present]
        rintro ⟨sender, queue⟩ held rfl
        cases (Map.mem_toList.mp held).symm.trans present
      simp [absent]
  | some queue =>
      have held := Map.mem_toList.mpr present
      obtain ⟨rebased, found⟩ := Option.isSome_iff_exists.mp (prunes.ready _ held)
      rw [prunes.reached _ held, found, Option.filter_some, Option.map_some, Option.getD_some,
        listed.mem_news present found]
      apply and_congr_left
      intro _
      cases empty : rebased.txs.isEmpty with
      | true => simp [Std.ExtTreeMap.isEmpty_iff.mp empty]
      | false => rfl

theorem Listed.ascending_news (listed : pool.Listed)
    (ready : ∀ entry ∈ pool.queues.toList, (entry.2.rebase? (nonceOf entry.1)).isSome)
    (sender : Address) :
    ((pool.queues[sender]?.map (news nonceOf sender)).getD []).Pairwise fun first second =>
      first.nonce < second.nonce := by
  cases present : pool.queues[sender]? with
  | none => exact List.Pairwise.nil
  | some queue =>
      obtain ⟨rebased, found⟩ := Option.isSome_iff_exists.mp
        (ready _ (Map.mem_toList.mpr present))
      rw [Option.map_some, Option.getD_some, news, found]
      rw [← queue_of_present present] at found
      have rebasedOwn := (listed.own sender).of_txs fun nonce tx => get_rebased found
      exact (rebasedOwn.ascending _).sublist List.filter_sublist

theorem Listed.announces_prune (listed : pool.Listed) {dropped : List Transaction} {fresh : Pool}
    (pruned : pool.prune nonceOf = (.ok dropped, fresh)) : Announces pool fresh := by
  obtain ⟨after, same, running, _, rfl⟩ := prune_eq_ok pruned
  have distinct := Map.distinct_keys pool.queues
  have reached : after.pool.swept.Listed := by
    rw [← same]
    exact (listed.foldl_step distinct fun _ held => Map.mem_toList.mp held).swept
  have sent : after.pool.feed = pool.feed := by
    rw [← same]
    exact foldl_step_feed _ _
  have prunes : Prunes nonceOf pool.queues.toList { pool } after := by
    rw [← same] at running ⊢
    exact foldl_step_prunes distinct running
  have announced : after.announced =
      pool.queues.toList.flatMap fun entry => news nonceOf entry.1 entry.2 := by
    rw [← same]
    exact foldl_step_announced prunes.ready rfl
  have own (sender : Address) : sentBy sender after.announced =
      (pool.queues[sender]?.map (news nonceOf sender)).getD [] := by
    rw [announced]
    exact listed.sentBy_news prunes.ready sender
  refine ⟨_, .of_order reached ?_ ?_ sent⟩
  · intro tx
    have mine : tx ∈ after.announced ↔ tx ∈ sentBy tx.sender after.announced := by
      simp [sentBy]
    rw [mine, own]
    exact listed.mem_news_iff prunes reached
  · intro sender
    rw [own]
    exact listed.ascending_news prunes.ready sender

/-- Every operation announces exactly what it makes pending. A pruning that gives up announces
nothing. -/
theorem announced_exactly (visited : Visited config pool) (nonceOf : NonceOf) :
    (∀ tx, Announces pool (pool.insert nonceOf tx).2) ∧
      (∀ tx, Announces pool (pool.replace nonceOf tx).2) ∧
      (∀ hash, Announces pool (pool.remove hash).2) ∧
      (∀ dropped fresh, pool.prune nonceOf = (.ok dropped, fresh) → Announces pool fresh) ∧
      ∀ fault fresh, pool.prune nonceOf = (.error fault, fresh) → fresh.feed = pool.feed := by
  have listed := visited.listed
  refine ⟨fun tx => listed.announces_add nonceOf tx false, ?_, listed.announces_remove,
    fun _ _ => listed.announces_prune, ?_⟩
  · intro tx
    rw [(replace_adds _ nonceOf tx).2]
    exact listed.announces_add nonceOf tx true
  · intro fault fresh stuck
    unfold Pool.prune at stuck
    simp only at stuck
    split at stuck
    · cases stuck
      exact foldl_step_feed _ _
    · cases stuck

def waitingLater : Pool := ((ofConfig {}).insert (fun _ => 0) later).2

def reopened : Pool := ((waitingLater.insert (fun _ => 0) earlier).2.remove earlier.hash).2

theorem reopened_announced :
    Visited {} reopened ∧ reopened.feed.kept = [[earlier, later]] ∧
      Announces reopened (reopened.insert (fun _ => 0) earlier).2 ∧
      (reopened.insert (fun _ => 0) earlier).2.feed.kept =
        [[earlier, later], [earlier, later]] := by
  have visited : Visited {} reopened :=
    .remove earlier.hash (.insert (fun _ => 0) earlier (.insert (fun _ => 0) later .empty))
  exact ⟨visited, by decide +kernel, (announced_exactly visited fun _ => 0).1 earlier,
    by decide +kernel⟩

def lastOfAnother : Transaction := { nonce := 0xffffffffffffffff, sender := 2, hash := 22 }

def stalled : Pool := (waitingLater.insert (fun _ => 0) lastOfAnother).2

def caughtUp : NonceOf := fun sender => if sender = 1 then 1 else 0xffffffffffffffff

/-- A pruning that gives up at the second sender has made a transaction of the first one pending,
and does not announce it. -/
theorem stalled_unannounced :
    Visited {} stalled ∧ ¬Announces stalled (stalled.prune caughtUp).2 := by
  have visited : Visited {} stalled := .insert (fun _ => 0) lastOfAnother (.insert _ later .empty)
  refine ⟨visited, ?_⟩
  rintro ⟨txs, announced⟩
  have ready : later ∈ (stalled.prune caughtUp).2.ready := by
    rw [(Visited.prune caughtUp visited).listed.mem_ready, Files]
    decide +kernel
  have unready : stalled.ready = [] := by decide +kernel
  have listed : later ∈ txs := (announced.entering later).mpr ⟨ready, by simp [unready]⟩
  have sent := congrArg Feed.sent announced.sent
  rw [if_neg (by simpa using List.ne_nil_of_mem listed)] at sent
  have silent : (stalled.prune caughtUp).2.feed.sent = stalled.feed.sent := by decide +kernel
  exact Nat.succ_ne_self _ (sent.symm.trans silent)

end Pool

end HostedEvm
