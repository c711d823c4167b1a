import HostedEvm.Proofs.Pool.Operations
import HostedEvm.Proofs.Pool.Pruning

set_option autoImplicit false

/-!
What a pool holds after each operation.

Nothing is lost and nothing made up. A transaction leaves a pool when the chain has passed its
nonce, when another one takes its place, or when it is removed by its hash; and a refusal drops at
most what the chain has passed. Only a sender whose waiting transactions reach up to the greatest
nonce keeps pruning from coming to an end.
-/

namespace HostedEvm.Pool

variable {config : PoolConfig} {pool : Pool} {nonceOf : NonceOf} {tx other : Transaction}
  {sender : Address} {queue : SenderQueue}

def Has (pool : Pool) (tx : Transaction) : Prop := pool.get? tx.hash = some tx

/-- A pool holds the transactions with a property and no others, by their hashes as well as among
the pending and the waiting ones. -/
structure HoldsExactly (pool : Pool) (held : Transaction → Prop) : Prop where
  found : ∀ (hash : Word) (tx : Transaction),
    pool.get? hash = some tx ↔ tx.hash = hash ∧ held tx
  grouped : ∀ tx : Transaction, tx ∈ pool.ready ∨ tx ∈ pool.waiting ↔ held tx
  once : (pool.ready ++ pool.waiting).Nodup

theorem Consistent.has_iff (consistent : pool.Consistent config) :
    pool.Has tx ↔ pool.Files tx := by
  rw [Has, get?, consistent.indexed]
  exact and_iff_right rfl

theorem Consistent.holdsExactly (consistent : pool.Consistent config)
    {held : Transaction → Prop} (same : ∀ tx, pool.Files tx ↔ held tx) :
    pool.HoldsExactly held where
  found := by
    intro hash tx
    rw [get?, consistent.indexed, same]
  grouped := by
    intro tx
    rw [consistent.listed.mem_ready, consistent.listed.mem_waiting, ← and_or_left, ← same]
    apply and_iff_left_of_imp
    intro filed
    have sound := (consistent.queue_kept tx.sender).sound
    have fromBase := sound.not_below tx.nonce (Map.mem_iff.mpr ⟨tx, filed⟩)
    by_cases beforeEnd : tx.nonce < (pool.queue tx.sender).pendingEnd
    · exact .inl (SenderQueue.isPending_iff.mpr ⟨fromBase, beforeEnd⟩)
    · exact .inr (UInt64.not_lt.mp beforeEnd)
  once := consistent.partitioned.nodup_iff.mpr consistent.nodup_index

/-- A pool had a transaction, and the chain has not passed it if it is one of a sender. -/
def Keeps (pool : Pool) (nonceOf : NonceOf) (sender : Address) (tx : Transaction) : Prop :=
  pool.Has tx ∧ ¬(tx.sender = sender ∧ tx.nonce < nonceOf sender)

/-- What offering a transaction does to the content of a pool, unless the pool gives up. -/
structure Settles (pool : Pool) (nonceOf : NonceOf) (tx : Transaction) {Value : Type}
    (outcome : Except PoolFault Value) (after : Pool) : Prop where
  taken : ∀ value, outcome = .ok value → after.HoldsExactly fun other =>
    other = tx ∨ pool.Keeps nonceOf tx.sender other ∧ ¬SharesPlace other tx
  turnedAway : ∀ fault, outcome = .error fault → fault.turnsAway = true → after = pool
  refused : ∀ fault, outcome = .error fault → fault.turnsAway = false → fault.isFatal = false →
    after.HoldsExactly (pool.Keeps nonceOf tx.sender)

/-- A transaction that takes its place is held, and so is what stood in another place. -/
theorem files_taken {displaced : Option Transaction} {placed : SenderQueue}
    (rebased : (pool.queue tx.sender).rebase? (nonceOf tx.sender) = some queue)
    (promoted : queue.putAndPromote? tx = some placed) :
    (((pool.passed nonceOf tx.sender).indexed tx displaced).withQueue tx.sender placed).Files
        other ↔
      other = tx ∨ (pool.Files other ∧
        ¬(other.sender = tx.sender ∧ other.nonce < nonceOf tx.sender)) ∧
        ¬SharesPlace other tx := by
  rw [← files_passed rebased, files_withQueue, files_withQueue,
    (SenderQueue.putAndPromote?_eq_some promoted).2, Map.get_insert, SharesPlace]
  by_cases own : tx.sender = other.sender
  · rw [if_pos own, if_pos own]
    by_cases place : tx.nonce = other.nonce
    · simp [own, place, eq_comm]
    · have differs : other ≠ tx := fun same => place (same ▸ rfl)
      simp [place, Ne.symm place, differs]
  · have differs : other ≠ tx := fun same => own (same ▸ rfl)
    rw [if_neg own, if_neg own]
    simp only [Ne.symm own, differs, false_or, false_and, not_false_eq_true, and_true]
    rfl

theorem Consistent.settles_add (consistent : pool.Consistent config) (nonceOf : NonceOf)
    (tx : Transaction) (replacing : Bool) :
    Settles pool nonceOf tx (pool.add nonceOf tx replacing).1
      (pool.add nonceOf tx replacing).2 := by
  have kept : completed (pool.add nonceOf tx replacing).1 = true →
      (pool.add nonceOf tx replacing).2.Consistent config := consistent.add
  have admission := admission_add pool nonceOf tx replacing
  generalize pool.add nonceOf tx replacing = result at kept admission ⊢
  cases admission with
  | turnedAway atDoor =>
      refine ⟨nofun, fun _ _ _ => rfl, ?_⟩
      rintro _ ⟨⟩ inside
      rw [atDoor] at inside
      cases inside
  | stuckBefore _ =>
      -- Of an operation in which the host gave up, nothing is said.
      refine ⟨nofun, ?_, ?_⟩
      · rintro _ ⟨⟩ ⟨⟩
      · rintro _ ⟨⟩ _ ⟨⟩
  | stuckBehind _ _ _ =>
      refine ⟨nofun, ?_, ?_⟩
      · rintro _ ⟨⟩ ⟨⟩
      · rintro _ ⟨⟩ _ ⟨⟩
  | refused rebased inside running =>
      refine ⟨nofun, ?_, ?_⟩
      · rintro _ ⟨⟩ atDoor
        rw [inside] at atDoor
        cases atDoor
      · intro _ _ _ _
        apply (kept (by rw [completed, running]; rfl)).holdsExactly
        intro other
        rw [files_announce, files_passed rebased, Keeps, consistent.has_iff]
  | taken _ rebased _ promoted =>
      refine ⟨?_, nofun, nofun⟩
      intro _ _
      apply (kept rfl).holdsExactly
      intro other
      rw [files_announce, files_taken rebased promoted, Keeps, consistent.has_iff]

theorem Consistent.settles_insert (consistent : pool.Consistent config) (nonceOf : NonceOf)
    (tx : Transaction) :
    Settles pool nonceOf tx (pool.insert nonceOf tx).1 (pool.insert nonceOf tx).2 := by
  have settles := consistent.settles_add nonceOf tx false
  unfold Pool.insert
  generalize pool.add nonceOf tx false = result at settles ⊢
  rcases result with ⟨fault | placed, after⟩
  · refine ⟨nofun, ?_, ?_⟩
    · rintro _ ⟨⟩
      exact settles.turnedAway _ rfl
    · rintro _ ⟨⟩
      exact settles.refused _ rfl
  · exact ⟨fun _ _ => settles.taken _ rfl, nofun, nofun⟩

/-- A replacement that succeeds returns the transaction that stood in the place. -/
theorem Consistent.settles_replace (consistent : pool.Consistent config) (nonceOf : NonceOf)
    (tx : Transaction) :
    Settles pool nonceOf tx (pool.replace nonceOf tx).1 (pool.replace nonceOf tx).2 ∧
      ∀ displaced after, pool.replace nonceOf tx = (.ok displaced, after) →
        pool.Keeps nonceOf tx.sender displaced ∧ SharesPlace displaced tx := by
  have settles := consistent.settles_add nonceOf tx true
  have admission := admission_add pool nonceOf tx true
  unfold Pool.replace
  generalize pool.add nonceOf tx true = result at settles admission ⊢
  rcases result with ⟨fault | ⟨status, displaced⟩, after⟩
  · refine ⟨⟨nofun, ?_, ?_⟩, nofun⟩
    · rintro _ ⟨⟩
      exact settles.turnedAway _ rfl
    · rintro _ ⟨⟩
      exact settles.refused _ rfl
  · obtain ⟨other, rfl, stood⟩ := admission.displaces
    refine ⟨⟨fun _ _ => settles.taken _ rfl, nofun, nofun⟩, ?_⟩
    rintro _ _ ⟨⟩
    obtain ⟨present, notBelow⟩ := SenderQueue.get_moved.mp stood
    obtain ⟨own, place⟩ := (consistent.queue_kept tx.sender).own _ _ present
    refine ⟨⟨consistent.has_iff.mpr ?_, ?_⟩, own, place⟩
    · rw [Files, own, place]
      exact present
    · rintro ⟨_, below⟩
      exact UInt64.not_lt.mpr notBelow (place ▸ below)

/-- What dropping a transaction leaves: those behind it wait if they were pending. -/
structure TakesOut (pool : Pool) (removed : Transaction) (after : Pool) : Prop where
  held : after.HoldsExactly fun other => pool.Has other ∧ other.hash ≠ removed.hash
  ready : ∀ other, other ∈ after.ready ↔
    other ∈ pool.ready ∧ ¬(other.sender = removed.sender ∧ removed.nonce ≤ other.nonce)
  waiting : ∀ other, other ∈ after.waiting ↔
    other ∈ pool.waiting ∧ other.hash ≠ removed.hash ∨
      other ∈ pool.ready ∧ other.sender = removed.sender ∧ removed.nonce < other.nonce

theorem Consistent.sharesPlace_iff (consistent : pool.Consistent config) (filed : pool.Files tx)
    (otherFiled : pool.Files other) : SharesPlace other tx ↔ other.hash = tx.hash := by
  constructor
  · rintro ⟨own, place⟩
    rw [Files, own, place] at otherFiled
    rw [Option.some.inj (otherFiled.symm.trans filed)]
  · intro same
    cases consistent.unique otherFiled filed same
    exact ⟨rfl, rfl⟩

theorem Consistent.takesOut (consistent : pool.Consistent config)
    (present : pool.get? tx.hash = some tx) :
    TakesOut pool tx (pool.remove tx.hash).2 := by
  have reached := consistent.remove tx.hash
  have filed : pool.Files tx := consistent.has_iff.mp present
  have fromBase : (pool.queue tx.sender).base ≤ tx.nonce :=
    (consistent.queue_kept tx.sender).sound.not_below tx.nonce (Map.mem_iff.mpr ⟨tx, filed⟩)
  have differs (other : Transaction) :
      pool.Files other ∧ ¬SharesPlace other tx ↔ pool.Files other ∧ other.hash ≠ tx.hash :=
    and_congr_right fun otherFiled => not_congr (consistent.sharesPlace_iff filed otherFiled)
  refine ⟨reached.holdsExactly ?_, ?_, ?_⟩
  · intro other
    have left := selected_remove present other fun _ _ => True
    rw [ite_self, and_true, and_true] at left
    rw [left, consistent.has_iff, differs]
  · intro other
    rw [reached.listed.mem_ready, consistent.listed.mem_ready,
      selected_remove present other fun queue nonce => queue.isPending nonce = true,
      SenderQueue.isPending_without fromBase]
    by_cases own : other.sender = tx.sender
    · rw [if_pos own, own, SharesPlace, ← UInt64.not_lt]
      grind
    · simp [own, SharesPlace]
  · intro other
    rw [reached.listed.mem_waiting, consistent.listed.mem_waiting, consistent.listed.mem_ready,
      selected_remove present other fun queue nonce => queue.pendingEnd ≤ nonce, differs]
    by_cases own : other.sender = tx.sender
    · rw [if_pos own, own]
      constructor
      · rintro ⟨left, behind⟩
        have place : other.nonce ≠ tx.nonce :=
          fun same => ((differs other).mpr left).2 ⟨own, same⟩
        rcases (SenderQueue.waits_without fromBase place).mp behind with waited | moved
        · exact .inl ⟨⟨left.1, waited⟩, left.2⟩
        · exact .inr ⟨⟨left.1, moved.1⟩, rfl, moved.2⟩
      · rintro (⟨⟨otherFiled, waited⟩, hash⟩ | ⟨⟨otherFiled, pending⟩, _, behind⟩)
        · have left := And.intro otherFiled hash
          have place : other.nonce ≠ tx.nonce :=
            fun same => ((differs other).mpr left).2 ⟨own, same⟩
          exact ⟨left, (SenderQueue.waits_without fromBase place).mpr (.inl waited)⟩
        · have place : other.nonce ≠ tx.nonce := (UInt64.ne_of_lt behind).symm
          have left := (differs other).mp ⟨otherFiled, fun shared => place shared.2⟩
          exact ⟨left, (SenderQueue.waits_without fromBase place).mpr (.inr ⟨pending, behind⟩)⟩
    · simp only [own, false_and, and_false, or_false]
      exact and_right_comm

/-- The transactions of a sender that wait for the chain reach up to the greatest nonce, from the
nonce of the account on. -/
def Overruns (pool : Pool) (nonceOf : NonceOf) (sender : Address) : Prop :=
  ∀ nonce, nonceOf sender ≤ nonce →
    ∃ tx ∈ pool.waiting, tx.sender = sender ∧ tx.nonce = nonce

theorem Orderly.overruns_iff (orderly : pool.Orderly) :
    pool.Overruns nonceOf sender ↔ (pool.queue sender).rebase? (nonceOf sender) = none := by
  rw [SenderQueue.rebase?_eq_none_iff (orderly.gapless sender)]
  constructor
  · intro overruns
    have waits (nonce : UInt64) (behind : nonceOf sender ≤ nonce) :
        nonce ∈ (pool.queue sender).txs ∧ (pool.queue sender).pendingEnd ≤ nonce := by
      obtain ⟨tx, listed, rfl, rfl⟩ := overruns nonce behind
      obtain ⟨filed, waited⟩ := orderly.mem_waiting.mp listed
      exact ⟨Map.mem_iff.mpr ⟨tx, filed⟩, waited⟩
    exact ⟨(waits _ (UInt64.le_refl _)).2, fun nonce behind => (waits nonce behind).1⟩
  · rintro ⟨ended, everywhere⟩ nonce behind
    obtain ⟨tx, present⟩ := Map.mem_iff.mp (everywhere nonce behind)
    obtain ⟨rfl, rfl⟩ := orderly.own sender nonce tx present
    have waited := UInt64.le_trans ended behind
    exact ⟨tx, orderly.mem_waiting.mpr ⟨present, waited⟩, rfl, rfl⟩

/-- Pruning comes to an end exactly where no sender has waiting transactions up to the greatest
nonce. -/
theorem Orderly.prune_returns_iff (orderly : pool.Orderly) :
    (∃ dropped fresh, pool.prune nonceOf = (.ok dropped, fresh)) ↔
      ∀ sender, ¬pool.Overruns nonceOf sender := by
  constructor
  · rintro ⟨dropped, fresh, pruned⟩ sender overruns
    obtain ⟨after, prunes, _, _⟩ := prunes_of_prune pruned
    cases present : pool.queues[sender]? with
    | none =>
        obtain ⟨tx, listed, rfl, _⟩ := overruns _ (UInt64.le_refl _)
        have filed := (orderly.mem_waiting.mp listed).1
        simp [Files, Pool.queue, present] at filed
    | some queue =>
        have ready := prunes.ready (sender, queue) (Map.mem_toList.mpr present)
        rw [orderly.overruns_iff, queue_of_present present] at overruns
        rw [overruns] at ready
        cases ready
  · intro none
    apply prune_of_ready
    rintro ⟨sender, queue⟩ listed
    have same := queue_of_present (Map.mem_toList.mp listed)
    have running := none sender
    rw [orderly.overruns_iff, same] at running
    exact Option.isSome_iff_ne_none.mpr running

theorem Consistent.prune_returns_iff (consistent : pool.Consistent config) :
    (∃ dropped fresh, pool.prune nonceOf = (.ok dropped, fresh)) ↔
      ∀ sender, ¬pool.Overruns nonceOf sender := consistent.orderly.prune_returns_iff

/-- A sender that is up to date is left as it is. -/
theorem step_of_current {pruning : Pruning} (consistent : pruning.pool.Consistent config)
    (present : pruning.pool.queues[sender]? = some queue) (current : queue.base = nonceOf sender)
    (running : pruning.overflowed = false) :
    pruning.step nonceOf (sender, queue) = pruning := by
  have kept := consistent.kept sender queue present
  have rebased := SenderQueue.rebase?_again kept.sound
  have below : queue.below queue.base = [] := by
    rw [List.eq_nil_iff_forall_not_mem]
    intro tx listed
    obtain ⟨nonce, held, passed⟩ := SenderQueue.mem_select.mp listed
    have fromBase := kept.sound.not_below nonce (Map.mem_iff.mpr ⟨tx, held⟩)
    exact UInt64.not_lt.mpr fromBase (of_decide_eq_true passed)
  have news : queue.newlyPending queue.pendingHashes = [] := by
    rw [SenderQueue.newlyPending, List.filter_eq_nil_iff]
    intro tx listed
    simp [SenderQueue.pendingHashes, List.mem_map_of_mem listed]
  rw [current] at rebased below
  rcases pruning with ⟨pool, dropped, announced, overflowed⟩
  cases running
  simp [Pruning.step, rebased, below, news, keepQueue, forget, Map.insert_of_present present]

theorem foldl_step_current {entries : List (Address × SenderQueue)} {pruning : Pruning}
    (consistent : pruning.pool.Consistent config)
    (current : ∀ entry ∈ entries,
      pruning.pool.queues[entry.1]? = some entry.2 ∧ entry.2.base = nonceOf entry.1)
    (running : pruning.overflowed = false) :
    entries.foldl (Pruning.step nonceOf) pruning = pruning := by
  induction entries with
  | nil => rfl
  | cons entry rest inductionHypothesis =>
      obtain ⟨present, atNonce⟩ := current entry List.mem_cons_self
      rw [List.foldl_cons, step_of_current consistent present atNonce running]
      exact inductionHypothesis fun later listed => current later (List.mem_cons_of_mem _ listed)

/-- What pruning leaves is up to date, so that pruning again does nothing. -/
theorem Consistent.prune_again (consistent : pool.Consistent config)
    {dropped : List Transaction} {fresh : Pool}
    (pruned : pool.prune nonceOf = (.ok dropped, fresh)) :
    fresh.prune nonceOf = (.ok [], fresh) := by
  have still : fresh.queues.toList.foldl (Pruning.step nonceOf) { pool := fresh } =
      { pool := fresh } := by
    apply foldl_step_current (consistent.pruned pruned) _ rfl
    rintro ⟨sender, queue⟩ listed
    have present := Map.mem_toList.mp listed
    refine ⟨present, ?_⟩
    rw [queues_prune pruned] at present
    exact (consistent.prunedQueue present).2
  unfold Pool.prune
  rw [still]
  simp only [(consistent.pruned pruned).swept]
  rfl

theorem Consistent.holds_pruned (consistent : pool.Consistent config)
    {dropped : List Transaction} {fresh : Pool}
    (pruned : pool.prune nonceOf = (.ok dropped, fresh)) :
    (dropped.Nodup ∧ ∀ tx, tx ∈ dropped ↔ pool.Has tx ∧ tx.nonce < nonceOf tx.sender) ∧
      fresh.HoldsExactly fun tx => pool.Has tx ∧ nonceOf tx.sender ≤ tx.nonce := by
  have perm := consistent.dropped_prune pruned
  refine ⟨⟨perm.nodup_iff.mpr (consistent.nodup_index.filter _), ?_⟩, ?_⟩
  · intro tx
    rw [perm.mem_iff, List.mem_filter, Map.mem_listValues, decide_eq_true_eq, consistent.has_iff]
    apply and_congr_left
    intro _
    constructor
    · rintro ⟨hash, present⟩
      exact ((consistent.indexed hash tx).mp present).2
    · intro filed
      exact ⟨tx.hash, (consistent.indexed tx.hash tx).mpr ⟨rfl, filed⟩⟩
  · apply (consistent.pruned pruned).holdsExactly
    intro tx
    rw [← (consistent.pruned pruned).has_iff]
    exact consistent.get_prune pruned tx.hash tx

/-- What each operation leaves of the content of a pool that operations lead to. -/
theorem content_exact (reached : Reached config pool) (nonceOf : NonceOf) :
    (∀ tx, Settles pool nonceOf tx (pool.insert nonceOf tx).1 (pool.insert nonceOf tx).2) ∧
      (∀ tx, Settles pool nonceOf tx (pool.replace nonceOf tx).1 (pool.replace nonceOf tx).2 ∧
        ∀ displaced after, pool.replace nonceOf tx = (.ok displaced, after) →
          pool.Keeps nonceOf tx.sender displaced ∧ SharesPlace displaced tx) ∧
      (∀ hash, (pool.remove hash).1 = pool.get? hash ∧
        (pool.get? hash = none → (pool.remove hash).2 = pool) ∧
        ∀ removed, pool.get? hash = some removed →
          removed.hash = hash ∧ TakesOut pool removed (pool.remove hash).2) ∧
      ((∃ dropped fresh, pool.prune nonceOf = (.ok dropped, fresh)) ↔
        ∀ sender, ¬pool.Overruns nonceOf sender) ∧
      ∀ dropped fresh, pool.prune nonceOf = (.ok dropped, fresh) →
        (dropped.Nodup ∧ ∀ tx, tx ∈ dropped ↔ pool.Has tx ∧ tx.nonce < nonceOf tx.sender) ∧
          (fresh.HoldsExactly fun tx => pool.Has tx ∧ nonceOf tx.sender ≤ tx.nonce) ∧
          fresh.prune nonceOf = (.ok [], fresh) := by
  have consistent := reached.consistent
  refine ⟨consistent.settles_insert nonceOf, consistent.settles_replace nonceOf, ?_,
    consistent.prune_returns_iff, ?_⟩
  · intro hash
    refine ⟨?_, ?_, ?_⟩
    · cases found : pool.index[hash]? with
      | none => simp [remove, get?, found]
      | some tx => rw [remove_of_found found, get?, found]
    · intro absent
      simp [remove, show pool.index[hash]? = none from absent]
    · intro removed present
      obtain ⟨rfl, _⟩ := (consistent.indexed hash removed).mp present
      exact ⟨rfl, consistent.takesOut present⟩
  · intro dropped fresh pruned
    obtain ⟨returned, left⟩ := consistent.holds_pruned pruned
    exact ⟨returned, left, consistent.prune_again pruned⟩

def behindLater : Transaction := { nonce := 2, sender := 1, hash := 12 }

def insteadOfLater : Transaction := { nonce := 1, sender := 1, hash := 21 }

def inRow : Pool :=
  (((((ofConfig {}).insert (fun _ => 0) behindLater).2.insert (fun _ => 0) later).2).insert
    (fun _ => 0) earlier).2

theorem inRow_content :
    Reached {} inRow ∧ (inRow.replace (fun _ => 1) insteadOfLater).1 = .ok later ∧
      ¬(inRow.replace (fun _ => 1) insteadOfLater).2.Has earlier ∧
      (inRow.replace (fun _ => 1) insteadOfLater).2.Has behindLater ∧
      behindLater ∈ (inRow.remove later.hash).2.waiting ∧
      ∃ fresh, inRow.prune (fun _ => 1) = (.ok [earlier], fresh) ∧
        fresh.prune (fun _ => 1) = (.ok [], fresh) := by
  have reached : Reached {} inRow :=
    .insert _ earlier (.insert _ later (.insert _ behindLater .empty (by decide +kernel))
      (by decide +kernel)) (by decide +kernel)
  obtain ⟨_, replaced, removed, _, pruned⟩ := content_exact reached fun _ => 1
  have displaced : (inRow.replace (fun _ => 1) insteadOfLater).1 = .ok later := by decide +kernel
  have content := (replaced insteadOfLater).1.taken later displaced
  have takesOut := ((removed later.hash).2.2 later (by decide +kernel)).2
  have dropped : (inRow.prune fun _ => 1).1 = .ok [earlier] := by decide +kernel
  refine ⟨reached, displaced, ?_, ?_, ?_, _, Prod.ext dropped rfl, ?_⟩
  · intro held
    obtain ⟨_, taken | ⟨⟨_, kept⟩, _⟩⟩ := (content.found _ _).mp held
    · cases taken
    · exact kept ⟨rfl, by decide⟩
  · have kept : inRow.Keeps (fun _ => 1) insteadOfLater.sender behindLater :=
      ⟨by unfold Has; decide +kernel, by decide⟩
    exact (content.found _ _).mpr ⟨rfl, .inr ⟨kept, by unfold SharesPlace; decide⟩⟩
  · have ready : behindLater ∈ inRow.ready := by
      rw [reached.consistent.listed.mem_ready, Files]
      decide +kernel
    exact (takesOut.waiting behindLater).mpr (.inr ⟨ready, rfl, by decide⟩)
  · exact (pruned _ _ (Prod.ext dropped rfl)).2.2

def greatest : Transaction := { nonce := 0xffffffffffffffff, sender := 1, hash := 13 }

def waitingLast : Pool :=
  (((ofConfig {}).insert (fun _ => 0) earlier).2.insert (fun _ => 0) greatest).2

/-- When the account reaches the greatest nonce, pruning gives up and does not return what the chain
has passed. -/
theorem waitingLast_unpruned :
    Reached {} waitingLast ∧ waitingLast.Has earlier ∧
      (waitingLast.prune fun _ => 0xffffffffffffffff).1 = .error (.breakdown .sum) ∧
      (waitingLast.prune fun _ => 0xffffffffffffffff).2.Has earlier := by
  refine ⟨.insert _ greatest (.insert _ earlier .empty (by decide +kernel)) (by decide +kernel),
    ?_, by decide +kernel, ?_⟩
  · unfold Has
    decide +kernel
  · unfold Has
    decide +kernel

end HostedEvm.Pool
