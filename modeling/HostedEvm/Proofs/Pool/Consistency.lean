import HostedEvm.Pool.Pool
import HostedEvm.Proofs.Pool.Queue

set_option autoImplicit false

/-!
The two indexes of a pool agree.

A pool keeps every transaction twice: by its hash, and in the queue of its sender by its nonce.
Whatever is taken in, replaced, removed or pruned, and whatever nonces the chain reports meanwhile,
both hold the same transactions, the pending ones of each sender follow one another from the nonce
of the account, and the limits of the pool are kept.
-/

namespace HostedEvm

structure SenderQueue.KeptFor (config : PoolConfig) (sender : Address) (queue : SenderQueue) :
    Prop where
  sound : queue.Sound
  own : ∀ (nonce : UInt64) (tx : Transaction), queue.txs[nonce]? = some tx →
    tx.sender = sender ∧ tx.nonce = nonce
  few : queue.txs.size ≤ config.maxPerAccount

theorem SenderQueue.mem_select {queue : SenderQueue} {condition : UInt64 → Bool}
    {tx : Transaction} :
    tx ∈ queue.select condition ↔
      ∃ nonce, queue.txs[nonce]? = some tx ∧ condition nonce = true := by
  simp only [select, List.mem_map, List.mem_filter]
  constructor
  · rintro ⟨⟨nonce, found⟩, ⟨listed, selected⟩, rfl⟩
    exact ⟨nonce, Map.mem_toList.mp listed, selected⟩
  · rintro ⟨nonce, present, selected⟩
    exact ⟨(nonce, tx), ⟨Map.mem_toList.mpr present, selected⟩, rfl⟩

namespace Pool

def Files (pool : Pool) (tx : Transaction) : Prop :=
  (pool.queue tx.sender).txs[tx.nonce]? = some tx

structure Consistent (config : PoolConfig) (pool : Pool) : Prop where
  configured : pool.config = config
  kept : ∀ (sender : Address) (queue : SenderQueue), pool.queues[sender]? = some queue →
    queue.KeptFor config sender
  nonempty : ∀ (sender : Address) (queue : SenderQueue), pool.queues[sender]? = some queue →
    queue.txs.isEmpty = false
  /-- The index holds exactly the transactions of the queues, each at its hash. -/
  indexed : ∀ (hash : Word) (tx : Transaction),
    pool.index[hash]? = some tx ↔ tx.hash = hash ∧ pool.Files tx
  few : pool.size ≤ config.maxTotal

variable {config : PoolConfig} {pool : Pool} {sender : Address} {queue : SenderQueue}

theorem queue_of_present (present : pool.queues[sender]? = some queue) :
    pool.queue sender = queue := by
  unfold Pool.queue
  rw [present]
  rfl

theorem Consistent.queue_kept (consistent : pool.Consistent config) (sender : Address) :
    (pool.queue sender).KeptFor config sender := by
  cases present : pool.queues[sender]? with
  | some queue =>
      rw [queue_of_present present]
      exact consistent.kept sender queue present
  | none =>
      have unused : pool.queue sender = {} := by
        unfold Pool.queue
        rw [present]
        rfl
      rw [unused]
      refine ⟨SenderQueue.sound_empty, ?_, Nat.zero_le _⟩
      intro nonce tx found
      simp at found

theorem get_withQueue (pool : Pool) (sender other : Address) (queue : SenderQueue) :
    (pool.withQueue sender queue).queues[other]? =
      if sender = other then (if queue.txs.isEmpty then none else some queue)
      else pool.queues[other]? := by
  unfold withQueue
  split
  · rw [Map.get_erase]
  · rw [Map.get_insert]

theorem get_keepQueue (pool : Pool) (sender other : Address) (queue : SenderQueue) :
    (pool.keepQueue sender queue).queues[other]? =
      if sender = other then some queue else pool.queues[other]? :=
  Map.get_insert ..

theorem get_swept (pool : Pool) (sender : Address) :
    pool.swept.queues[sender]? =
      pool.queues[sender]?.filter fun queue => !queue.txs.isEmpty :=
  Std.ExtTreeMap.getElem?_filter'

/-- A queue that is kept until the senders without transactions are forgotten might as well have
been put in its place. -/
theorem swept_keepQueue (pool : Pool) (sender : Address) (queue : SenderQueue) :
    (pool.keepQueue sender queue).swept = pool.swept.withQueue sender queue := by
  have queues : (pool.keepQueue sender queue).swept.queues =
      (pool.swept.withQueue sender queue).queues := by
    apply Std.ExtTreeMap.ext_getElem?
    intro other
    rw [get_swept, get_keepQueue, get_withQueue, get_swept]
    split
    · cases empty : queue.txs.isEmpty <;> simp [Option.filter_some, empty]
    · rfl
  exact congrArg (fun queues => { pool with queues }) queues

theorem files_withQueue (pool : Pool) (sender : Address) (queue : SenderQueue)
    (tx : Transaction) :
    (pool.withQueue sender queue).Files tx ↔
      if sender = tx.sender then queue.txs[tx.nonce]? = some tx else pool.Files tx := by
  unfold Files Pool.queue
  rw [get_withQueue]
  by_cases same : sender = tx.sender
  · rw [if_pos same, if_pos same]
    by_cases empty : queue.txs.isEmpty = true
    · rw [if_pos empty, Std.ExtTreeMap.isEmpty_iff.mp empty]
      simp
    · rw [if_neg empty]
      rfl
  · rw [if_neg same, if_neg same]

/-- A pool stays consistent when the queue of one sender and the index change together. -/
theorem Consistent.withQueue {changed : Pool} (consistent : pool.Consistent config)
    (configured : changed.config = config)
    (others : ∀ other : Address, sender ≠ other → changed.queues[other]? = pool.queues[other]?)
    (kept : queue.KeptFor config sender)
    (indexed : ∀ (hash : Word) (tx : Transaction), changed.index[hash]? = some tx ↔
      tx.hash = hash ∧ (changed.withQueue sender queue).Files tx)
    (few : changed.size ≤ config.maxTotal) :
    (changed.withQueue sender queue).Consistent config := by
  refine ⟨configured, ?_, ?_, indexed, few⟩
  · intro other found present
    rw [get_withQueue] at present
    split at present
    · rename_i same
      split at present
      · cases present
      · cases present
        exact same ▸ kept
    · rename_i differs
      rw [others other differs] at present
      exact consistent.kept other found present
  · intro other found present
    rw [get_withQueue] at present
    split at present
    · split at present
      · cases present
      · rename_i filled
        cases present
        exact Bool.not_eq_true _ ▸ filled
    · rename_i differs
      rw [others other differs] at present
      exact consistent.nonempty other found present

/-- A consistent pool has no sender without transactions. -/
theorem Consistent.swept (consistent : pool.Consistent config) : pool.swept = pool := by
  have queues : pool.swept.queues = pool.queues := by
    apply Std.ExtTreeMap.ext_getElem?
    intro sender
    rw [get_swept]
    cases present : pool.queues[sender]? with
    | none => rfl
    | some queue => simp [Option.filter_some, consistent.nonempty sender queue present]
  exact congrArg (fun queues => { pool with queues }) queues

theorem Consistent.announce (consistent : pool.Consistent config) (txs : List Transaction) :
    (pool.announce txs).Consistent config := by
  unfold Pool.announce
  split
  · exact consistent
  · exact ⟨consistent.configured, consistent.kept, consistent.nonempty, consistent.indexed,
      consistent.few⟩

theorem Consistent.unique (consistent : pool.Consistent config) {first second : Transaction}
    (firstFiled : pool.Files first) (secondFiled : pool.Files second)
    (same : first.hash = second.hash) : first = second := by
  have firstFound := (consistent.indexed first.hash first).mpr ⟨rfl, firstFiled⟩
  have secondFound := (consistent.indexed first.hash second).mpr ⟨same.symm, secondFiled⟩
  exact Option.some.inj (firstFound.symm.trans secondFound)

theorem get_forget (pool : Pool) (txs : List Transaction) (hash : Word) (tx : Transaction) :
    (pool.forget txs).index[hash]? = some tx ↔
      pool.index[hash]? = some tx ∧ ∀ dropped ∈ txs, dropped.hash ≠ hash := by
  unfold forget
  simp only
  generalize pool.index = index
  induction txs generalizing index with
  | nil => simp
  | cons first rest inductionHypothesis =>
      rw [List.foldl_cons, inductionHypothesis, Map.get_erase, List.forall_mem_cons]
      by_cases same : first.hash = hash
      · simp [same]
      · simp [same]

theorem size_forget_le (pool : Pool) (txs : List Transaction) :
    (pool.forget txs).size ≤ pool.size := by
  unfold forget Pool.size
  simp only
  generalize pool.index = index
  induction txs generalizing index with
  | nil => exact Nat.le_refl _
  | cons first rest inductionHypothesis =>
      exact Nat.le_trans (inductionHypothesis _) Std.ExtTreeMap.size_erase_le

/-- Transactions of one sender can be dropped from its queue and from the index. -/
theorem Consistent.dropped (consistent : pool.Consistent config) {txs : List Transaction}
    (filed : ∀ tx ∈ txs, tx.sender = sender ∧ pool.Files tx)
    (kept : queue.KeptFor config sender)
    (left : ∀ (nonce : UInt64) (tx : Transaction), queue.txs[nonce]? = some tx ↔
      (pool.queue sender).txs[nonce]? = some tx ∧ tx ∉ txs) :
    ((pool.forget txs).withQueue sender queue).Consistent config := by
  refine consistent.withQueue ?_ (fun _ _ => rfl) kept ?_ ?_
  · exact consistent.configured
  · intro hash tx
    have stays : pool.Files tx →
        ((∀ dropped ∈ txs, dropped.hash ≠ tx.hash) ↔ tx ∉ txs) := by
      intro txFiled
      constructor
      · intro differ listed
        exact differ tx listed rfl
      · intro unlisted dropped listed same
        have equal := consistent.unique (filed dropped listed).2 txFiled same
        exact unlisted (equal ▸ listed)
    rw [get_forget, consistent.indexed, files_withQueue]
    constructor
    · rintro ⟨⟨rfl, txFiled⟩, differ⟩
      refine ⟨rfl, ?_⟩
      split
      · rename_i same
        subst same
        exact (left tx.nonce tx).mpr ⟨txFiled, (stays txFiled).mp differ⟩
      · exact txFiled
    · rintro ⟨rfl, txKept⟩
      split at txKept
      · rename_i same
        subst same
        obtain ⟨txFiled, unlisted⟩ := (left tx.nonce tx).mp txKept
        exact ⟨⟨rfl, txFiled⟩, (stays txFiled).mpr unlisted⟩
      · rename_i differs
        refine ⟨⟨rfl, txKept⟩, (stays txKept).mpr ?_⟩
        intro listed
        exact differs (filed tx listed).1.symm
  · exact Nat.le_trans (size_forget_le pool txs) consistent.few

theorem rebased_kept (kept : queue.KeptFor config sender) {base : UInt64}
    {rebased : SenderQueue} (found : queue.rebase? base = some rebased) :
    rebased.KeptFor config sender ∧ rebased.base = base ∧
      ∀ (nonce : UInt64) (tx : Transaction), rebased.txs[nonce]? = some tx ↔
        queue.txs[nonce]? = some tx ∧ tx ∉ queue.below base := by
  obtain ⟨sound, atBase, txs⟩ := SenderQueue.rebase?_sound kept.sound.toGapless found
  have held : ∀ (nonce : UInt64) (tx : Transaction), rebased.txs[nonce]? = some tx ↔
      queue.txs[nonce]? = some tx ∧ base ≤ nonce := by
    intro nonce tx
    rw [txs, SenderQueue.moved, Map.get_filter, decide_eq_true_eq]
  refine ⟨⟨sound, ?_, ?_⟩, atBase, ?_⟩
  · intro nonce tx present
    exact kept.own nonce tx ((held nonce tx).mp present).1
  · rw [txs]
    exact Nat.le_trans Std.ExtTreeMap.size_filter_le_size kept.few
  · intro nonce tx
    rw [held, SenderQueue.below, SenderQueue.mem_select]
    simp only [decide_eq_true_eq, not_exists, not_and, UInt64.not_lt]
    constructor
    · rintro ⟨present, notBelow⟩
      refine ⟨present, ?_⟩
      intro other otherPresent
      have same : other = nonce :=
        (kept.own other tx otherPresent).2.symm.trans (kept.own nonce tx present).2
      rw [same]
      exact notBelow
    · rintro ⟨present, notBelow⟩
      exact ⟨present, notBelow nonce present⟩

/-- Bringing a sender up to date drops the transactions that the chain has passed from both
indexes. -/
theorem Consistent.rebased (consistent : pool.Consistent config) {base : UInt64}
    {rebased : SenderQueue} (found : (pool.queue sender).rebase? base = some rebased) :
    ((pool.forget ((pool.queue sender).below base)).withQueue sender rebased).Consistent
      config := by
  have kept := consistent.queue_kept sender
  obtain ⟨rebasedKept, _, left⟩ := rebased_kept kept found
  refine consistent.dropped ?_ rebasedKept left
  intro tx listed
  obtain ⟨nonce, present, _⟩ := SenderQueue.mem_select.mp listed
  obtain ⟨rfl, rfl⟩ := kept.own nonce tx present
  exact ⟨rfl, present⟩

theorem placeFor_eq_ok {tx : Transaction} {replacing : Bool} {displaced : Option Transaction}
    (placed : pool.placeFor queue tx replacing = .ok displaced) :
    pool.index[tx.hash]? = none ∧ displaced = queue.txs[tx.nonce]? ∧
      (displaced = none →
        queue.txs.size < pool.config.maxPerAccount ∧ pool.size < pool.config.maxTotal) := by
  unfold placeFor at placed
  split at placed
  · cases placed
  · rename_i unknown
    have absent : pool.index[tx.hash]? = none := by
      rw [Std.ExtTreeMap.contains_eq_isSome_getElem?] at unknown
      exact Option.not_isSome_iff_eq_none.mp unknown
    refine ⟨absent, ?_⟩
    split at placed
    · rename_i existing present
      split at placed
      · cases placed
      · cases placed
        refine ⟨present.symm, ?_⟩
        intro none
        cases none
    · rename_i free
      split at placed
      · cases placed
      · split at placed
        · cases placed
        · split at placed
          · cases placed
          · rename_i room poolRoom
            cases placed
            exact ⟨free.symm, fun _ => ⟨Nat.lt_of_not_le room, Nat.lt_of_not_le poolRoom⟩⟩

theorem put_kept (kept : queue.KeptFor config sender) {placed : SenderQueue} {tx : Transaction}
    (own : tx.sender = sender) (notBelow : queue.base ≤ tx.nonce)
    (room : queue.txs[tx.nonce]? = none → queue.txs.size < config.maxPerAccount)
    (found : queue.putAndPromote? tx = some placed) :
    placed.KeptFor config sender ∧ placed.txs = queue.txs.insert tx.nonce tx := by
  obtain ⟨sound, _, txs⟩ := SenderQueue.putAndPromote?_sound kept.sound notBelow found
  refine ⟨⟨sound, ?_, ?_⟩, txs⟩
  · intro nonce found present
    rw [txs, Map.get_insert] at present
    split at present
    · rename_i same
      cases present
      exact ⟨own, same⟩
    · exact kept.own nonce found present
  · rw [txs, Std.ExtTreeMap.size_insert]
    split
    · exact kept.few
    · rename_i free
      exact room (Std.ExtTreeMap.getElem?_eq_none free)

theorem get_indexed (pool : Pool) (tx : Transaction) (displaced : Option Transaction)
    (hash : Word) (found : Transaction) :
    (pool.indexed tx displaced).index[hash]? = some found ↔
      (tx.hash = hash ∧ tx = found) ∨
        (tx.hash ≠ hash ∧ pool.index[hash]? = some found ∧
          ∀ dropped ∈ displaced, dropped.hash ≠ hash) := by
  unfold indexed
  simp only [Map.get_insert]
  by_cases same : tx.hash = hash
  · simp [same]
  · rw [if_neg same, get_forget]
    simp [same]

theorem size_indexed_le {tx : Transaction} {displaced : Option Transaction} {most : Nat}
    (few : pool.size ≤ most) (room : displaced = none → pool.size < most)
    (known : ∀ dropped ∈ displaced, dropped.hash ∈ pool.index) :
    (pool.indexed tx displaced).size ≤ most := by
  apply Nat.le_trans Std.ExtTreeMap.size_insert_le
  cases displaced with
  | none => exact room rfl
  | some dropped =>
      have smaller := Map.size_erase_of_mem (known dropped rfl)
      exact Nat.le_trans (Nat.le_of_eq smaller) few

/-- A transaction takes its place in the queue of its sender and in the index, and what it displaces
leaves both. -/
theorem Consistent.placed {tx : Transaction} {displaced : Option Transaction}
    {placed : SenderQueue}
    (consistent : (pool.withQueue tx.sender queue).Consistent config)
    (kept : queue.KeptFor config tx.sender) (unknown : pool.index[tx.hash]? = none)
    (occupant : displaced = queue.txs[tx.nonce]?)
    (room : displaced = none →
      queue.txs.size < config.maxPerAccount ∧ pool.size < config.maxTotal)
    (notBelow : queue.base ≤ tx.nonce) (found : queue.putAndPromote? tx = some placed) :
    ((pool.indexed tx displaced).withQueue tx.sender placed).Consistent config := by
  subst occupant
  obtain ⟨placedKept, txs⟩ :=
    put_kept kept rfl notBelow (fun free => (room free).1) found
  have before : ∀ (hash : Word) (other : Transaction), pool.index[hash]? = some other ↔
      other.hash = hash ∧ (pool.withQueue tx.sender queue).Files other := consistent.indexed
  have displacedFiled : ∀ dropped ∈ queue.txs[tx.nonce]?,
      tx.sender = dropped.sender ∧ tx.nonce = dropped.nonce ∧
        (pool.withQueue tx.sender queue).Files dropped := by
    intro dropped present
    obtain ⟨sameSender, sameNonce⟩ := kept.own tx.nonce dropped present
    refine ⟨sameSender.symm, sameNonce.symm, ?_⟩
    rw [files_withQueue, if_pos sameSender.symm, sameNonce]
    exact present
  refine consistent.withQueue consistent.configured ?_ placedKept ?_ ?_
  · intro other differs
    rw [get_withQueue, if_neg differs]
    rfl
  · intro hash other
    rw [get_indexed, before, files_withQueue, files_withQueue, txs, Map.get_insert]
    constructor
    · rintro (⟨rfl, rfl⟩ | ⟨_, ⟨rfl, filed⟩, notDropped⟩)
      · simp
      · refine ⟨rfl, ?_⟩
        split
        · rename_i own
          rw [if_pos own] at filed
          split
          · rename_i same
            rw [← same] at filed
            exact absurd rfl (notDropped other filed)
          · exact filed
        · rename_i foreign
          rw [if_neg foreign] at filed
          exact filed
    · rintro ⟨rfl, filed⟩
      by_cases taken : tx.sender = other.sender ∧ tx.nonce = other.nonce
      · rw [if_pos taken.1, if_pos taken.2] at filed
        cases filed
        exact .inl ⟨rfl, rfl⟩
      · -- Everything that stands elsewhere stood there before, under another hash.
        have earlier : (pool.withQueue tx.sender queue).Files other := by
          rw [files_withQueue]
          split at filed
          · rename_i own
            rw [if_neg fun same => taken ⟨own, same⟩] at filed
            exact (if_pos own).mpr filed
          · rename_i foreign
            exact (if_neg foreign).mpr filed
        refine .inr ⟨?_, ⟨rfl, (files_withQueue _ _ _ _).mp earlier⟩, ?_⟩
        · intro same
          have present := (before other.hash other).mpr ⟨rfl, earlier⟩
          rw [← same, unknown] at present
          cases present
        · intro dropped present same
          obtain ⟨sameSender, sameNonce, filed⟩ := displacedFiled dropped present
          cases consistent.unique filed earlier same
          exact taken ⟨sameSender, sameNonce⟩
  · refine size_indexed_le consistent.few (fun free => (room free).2) ?_
    intro dropped present
    have filed := (displacedFiled dropped present).2.2
    exact Map.mem_iff.mpr ⟨dropped, (before dropped.hash dropped).mpr ⟨rfl, filed⟩⟩

/-- The outcome of an operation that has not given up halfway. -/
def completed {Value : Type} : Except PoolFault Value → Bool
  | .error fault => !fault.isFatal
  | .ok _ => true

theorem place_consistent {tx : Transaction} {before : List Word} {replacing : Bool}
    (consistent : (pool.withQueue tx.sender queue).Consistent config)
    (kept : queue.KeptFor config tx.sender) (notBelow : queue.base ≤ tx.nonce)
    (done : completed (pool.place queue before tx replacing).1 = true) :
    (pool.place queue before tx replacing).2.Consistent config := by
  unfold place at done ⊢
  split at done
  · exact consistent.announce _
  · rename_i displaced placed
    obtain ⟨unknown, occupant, room⟩ := placeFor_eq_ok placed
    have configured : pool.config = config := consistent.configured
    rw [configured] at room
    simp only at done ⊢
    split at done
    · cases done
    · rename_i promoted found
      exact (consistent.placed kept unknown occupant room notBelow found).announce _

end Pool

end HostedEvm
