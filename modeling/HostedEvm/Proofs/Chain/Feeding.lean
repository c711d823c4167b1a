import HostedEvm.Proofs.Chain.Nonces
import HostedEvm.Proofs.Chain.Order
import HostedEvm.Proofs.Execution.ReadOnly
import HostedEvm.Proofs.Pool.Pruning

set_option autoImplicit false

/-!
Blocks made of what a pool has pending.

Once a pool is pruned with the nonces that the chain shows, the pending transactions of each sender
start at its nonce and leave no gap. Whatever way they are interleaved in a block, one of them
misses its nonce only where another one of its sender failed to be included before. When the block
is closed, pruning drops exactly what the chain has passed.
-/

namespace HostedEvm

/-- The transactions of each sender are taken from the front of its list, in the order of the list.
-/
def Interleaves (content : PoolContent) (txs : List Transaction) : Prop :=
  ∀ sender, sentBy sender txs <+: sentBy sender (content.flatMap Prod.snd)

/-- A transaction is turned down for its nonce only behind one of its sender that got no receipt. -/
def GapsFollowRefusals (attempts : List (Transaction × Except ChainFault Receipt)) : Prop :=
  ∀ (before rest : List (Transaction × Except ChainFault Receipt)) (tx : Transaction)
    (expected given : UInt64),
    attempts = before ++ (tx, .error (.vm (.invalidNonce expected given))) :: rest →
    ∃ earlier ∈ before, earlier.1.sender = tx.sender ∧ earlier.2.isOk = false

/-- An open block with transactions to come. Those of every sender that is not given up carry its
nonces in turn. -/
structure Processor.Feeds (spared spoiled : Address → Prop) (processor : Processor)
    (txs : List Transaction) : Prop where
  building : ∃ block, processor.openBlock = some block
  plain : processor.interpreter = TransferMachine.interpreter
  spares : processor.registry.Spares spared
  known : ∀ tx ∈ txs, spared tx.sender
  fresh : Fresh spared txs
  ready : ∀ sender, spared sender → spoiled sender ∨
    InTurn (processor.nonceOf sender).toNat (sentBy sender txs)

namespace Processor

variable {processor next : Processor} {spared spoiled : Address → Prop} {first : Transaction}
  {others : List Transaction} {outcome : Except ChainFault Receipt}

namespace Feeds

theorem head (feeds : processor.Feeds spared spoiled (first :: others)) {expected given : UInt64}
    (processed : processor.process first = (.error (.vm (.invalidNonce expected given)), next)) :
    spoiled first.sender := by
  obtain ⟨block, opened⟩ := feeds.building
  rcases feeds.ready first.sender (feeds.known first List.mem_cons_self) with lost | inTurn
  · exact lost
  · rw [sentBy_cons_own, inTurn_cons] at inTurn
    have differs := nonce_ne_of_invalidNonce opened feeds.plain processed
    exact absurd (UInt64.toNat_inj.mp inTurn.1) differs

/-- Handing over the first transaction gives up its sender if there is no receipt, and no other. -/
theorem process (feeds : processor.Feeds spared spoiled (first :: others))
    (processed : processor.process first = (outcome, next)) :
    next.Feeds spared
      (fun sender => spoiled sender ∨ (sender = first.sender ∧ outcome.isOk = false)) others := by
  obtain ⟨block, opened⟩ := feeds.building
  have plain := feeds.plain
  have spares := feeds.spares
  have unborn := feeds.fresh first List.mem_cons_self
  have ready : ∀ sender, spared sender →
      (spoiled sender ∨ (sender = first.sender ∧ outcome.isOk = false)) ∨
        InTurn (next.nonceOf sender).toNat (sentBy sender others) := by
    intro sender safe
    rcases feeds.ready sender safe with lost | inTurn
    · exact .inl (.inl lost)
    by_cases own : sender = first.sender
    · subst own
      cases outcome with
      | error cause => exact .inl (.inr ⟨rfl, rfl⟩)
      | ok receipt =>
          obtain ⟨expected, fits, moved⟩ :=
            nonces_of_accepted opened plain spares unborn processed
          have step : (first.nonce + 1).toNat = first.nonce.toNat + 1 :=
            (UInt64.toNat_add _ _).trans (Nat.mod_eq_of_lt fits)
          rw [sentBy_cons_own, inTurn_cons] at inTurn
          rw [moved _ safe, if_pos rfl, ← expected, step, inTurn.1]
          exact .inr inTurn.2
    · have kept := nonceOf_process_other opened plain spares unborn safe own
      rw [processed] at kept
      rw [sentBy_cons_other own] at inTurn
      rw [kept]
      exact .inr inTurn
  have same : next = (processor.process first).2 := (congrArg Prod.snd processed).symm
  obtain ⟨_, _, _, _, _, left⟩ := processor.process_snd first
  rw [left] at same
  subst same
  exact ⟨⟨block, opened⟩, plain, spares,
    fun tx listed => feeds.known tx (List.mem_cons_of_mem _ listed),
    fun tx listed => feeds.fresh tx (List.mem_cons_of_mem _ listed), ready⟩

/-- Only transactions of a sender that was given up or refused before miss their nonces. -/
theorem processAll {txs : List Transaction} (feeds : processor.Feeds spared spoiled txs)
    {before rest : List (Transaction × Except ChainFault Receipt)} {tx : Transaction}
    {expected given : UInt64}
    (split : txs.zip (processor.processAll txs).1 =
      before ++ (tx, .error (.vm (.invalidNonce expected given))) :: rest) :
    spoiled tx.sender ∨
      ∃ earlier ∈ before, earlier.1.sender = tx.sender ∧ earlier.2.isOk = false := by
  -- the senders that are given up grow along the list
  induction txs generalizing processor spoiled before with
  | nil => simp at split
  | cons first others inductionHypothesis =>
      rcases processed : processor.process first with ⟨outcome, next⟩
      have attempts : (first :: others).zip (processor.processAll (first :: others)).1 =
          (first, outcome) :: others.zip (next.processAll others).1 := by
        simp only [Processor.processAll, processed, List.zip_cons_cons]
      rw [attempts] at split
      cases before with
      | nil =>
          cases (List.cons.inj split).1
          exact .inl (feeds.head processed)
      | cons entry before =>
          obtain ⟨rfl, remaining⟩ := List.cons.inj split
          rcases inductionHypothesis (feeds.process processed) remaining with
            (lost | ⟨own, refused⟩) | ⟨earlier, listed, own, refused⟩
          · exact .inl lost
          · exact .inr ⟨(first, outcome), List.mem_cons_self, own.symm, refused⟩
          · exact .inr ⟨earlier, List.mem_cons_of_mem _ listed, own, refused⟩

end Feeds

variable {config : PoolConfig} {pool fresh : Pool} {dropped : List Transaction}
  {block : OpenBlock} {txs : List Transaction} {enforceTips : Bool}

/-- What a pruned pool has pending fills a block in which a transaction misses its nonce only behind
one of its sender that got no receipt, however the senders are interleaved. With the nonces behind
the block, pruning drops exactly the transactions that the chain has passed, and comes to an end
where none has the greatest nonce. No created account may be a sender, and no precompile may reach
the nonce of one. -/
theorem pending_feeds (reached : Pool.Reached config pool)
    (opened : processor.openBlock = some block)
    (plain : processor.interpreter = TransferMachine.interpreter)
    (pruned : pool.prune processor.nonceOf = (.ok dropped, fresh))
    (taken : Interleaves (fresh.pending enforceTips) txs)
    (spares : processor.registry.Spares (IsSender txs)) (unborn : Fresh (IsSender txs) txs) :
    let ran := processor.processAll txs
    let nonceOf := ran.2.finalize.2.nonceOf
    GapsFollowRefusals (txs.zip ran.1) ∧
      (∀ passed later, fresh.prune nonceOf = (.ok passed, later) →
        passed.Perm ((Map.listValues fresh.index).filter fun tx => tx.nonce < nonceOf tx.sender) ∧
          ∀ hash tx, later.get? hash = some tx ↔
            fresh.get? hash = some tx ∧ nonceOf tx.sender ≤ tx.nonce) ∧
      ((∀ hash tx, fresh.get? hash = some tx → tx.nonce ≠ 0xffffffffffffffff) →
        ∃ passed later, fresh.prune nonceOf = (.ok passed, later)) := by
  have consistent := reached.consistent
  have kept := consistent.pruned pruned
  have feeds : processor.Feeds (IsSender txs) (fun _ => False) txs :=
    ⟨⟨block, opened⟩, plain, spares, fun tx listed => ⟨tx, listed, rfl⟩, unborn, fun sender _ =>
      .inr ((consistent.inTurn_pending pruned enforceTips sender).of_start (taken sender))⟩
  refine ⟨?_, ?_, kept.prune_returns _⟩
  · intro before rest tx expected given split
    exact (feeds.processAll split).resolve_left id
  · intro passed later again
    exact ⟨kept.dropped_prune again, kept.get_prune again⟩

def meetingBlock (handler : Handler) : Processor where
  state :=
    { store :=
        { accounts := ((∅ : Accounts).insert 1 { balance := 1000000, nonce := 7 }).insert 2
            (.funded 1000000) } }
  meter := .forBlock 300000 0
  precompiles _ := []
  interpreter := TransferMachine.interpreter
  registry :=
    { containers := (∅ : Map Address Container).insert 9 (TransferMachine.single 9 handler) }
  openBlock := some
    ⟨{}, { number := 1, timestamp := 0, coinbase := 3, gasLimit := 300000, baseFee := 0
           chainId := 1, rules := {} }⟩

def poolOf (nonceOf : NonceOf) (txs : List Transaction) : Pool :=
  txs.foldl (fun pool tx => (pool.insert nonceOf tx).2) (.ofConfig {})

def rewarding : Handler := fun _ _ =>
  .perform (.store (.addBalance 2 5)) fun _ => .finish (.ok [])

def passedPayment : Transaction := { sender := 1, nonce := 6, recipient := some 2, hash := 11 }

def firstCreation : Transaction := { sender := 1, nonce := 7, gasLimit := 60000, hash := 12 }

def precompileCall : Transaction :=
  { sender := 1, nonce := 8, recipient := some 9, input := [0, 0, 0, 1], gasLimit := 60000
    hash := 13 }

def otherPayment : Transaction :=
  { sender := 2, recipient := some 1, value := 5, gasLimit := 21000, hash := 14 }

def earlierNonces : NonceOf := fun sender => if sender = 1 then 6 else 0

def meetingPool : Pool :=
  poolOf earlierNonces [precompileCall, passedPayment, otherPayment, firstCreation]

theorem rewarding_spares (spared : Address → Prop) :
    (meetingBlock rewarding).registry.Spares spared := by
  apply Registry.spares_of_only
  · exact Map.every_empty.insert 9
      (TransferMachine.single_every 9 fun _ _ => .perform rfl fun _ => .finish)
  · exact Map.every_empty.insert 9
      (TransferMachine.single_every 9 fun _ _ => .perform trivial fun _ => .finish)

theorem interleaves_of_sentBy {content : PoolContent} {txs listed : List Transaction}
    (same : content.flatMap Prod.snd = listed)
    (ordered : ∀ sender, sentBy sender txs = sentBy sender listed) : Interleaves content txs := by
  intro sender
  subst same
  exact ordered sender ▸ List.prefix_rfl

def meeting : List Transaction := [otherPayment, firstCreation, precompileCall]

theorem meeting_fresh : Fresh (IsSender meeting) meeting := by
  rintro tx listed creation ⟨sent, present, same⟩
  have creator : tx = firstCreation := by
    simp only [meeting, List.mem_cons, List.not_mem_nil, or_false] at listed
    rcases listed with rfl | rfl | rfl
    · cases creation
    · rfl
    · cases creation
  have account : sent.sender = 1 ∨ sent.sender = 2 := by
    simp only [meeting, List.mem_cons, List.not_mem_nil, or_false] at present
    rcases present with rfl | rfl | rfl
    · exact .inr rfl
    · exact .inl rfl
    · exact .inl rfl
  rw [same, creator, firstCreation, createdAddress_sample] at account
  exact absurd account (by decide)

theorem meeting_fed : ∃ dropped fresh,
    Pool.Reached {} meetingPool ∧
      meetingPool.prune (meetingBlock rewarding).nonceOf = (.ok dropped, fresh) ∧
      Interleaves (fresh.pending true) meeting ∧
      GapsFollowRefusals (meeting.zip ((meetingBlock rewarding).processAll meeting).1) ∧
      let nonceOf := ((meetingBlock rewarding).processAll meeting).2.finalize.2.nonceOf
      ∃ passed later, fresh.prune nonceOf = (.ok passed, later) ∧
        passed.Perm
          ((Map.listValues fresh.index).filter fun tx => tx.nonce < nonceOf tx.sender) := by
  have reached : Pool.Reached {} meetingPool :=
    .insert _ firstCreation
      (.insert _ otherPayment
        (.insert _ passedPayment
          (.insert _ precompileCall .empty (by decide +kernel)) (by decide +kernel))
        (by decide +kernel))
      (by decide +kernel)
  have ended : (meetingPool.prune (meetingBlock rewarding).nonceOf).1.isOk = true := by
    decide +kernel
  have content : ((meetingPool.prune (meetingBlock rewarding).nonceOf).2.pending true).flatMap
      Prod.snd = [firstCreation, precompileCall, otherPayment] := by
    decide +kernel
  have small : ∀ tx ∈ Map.listValues (meetingPool.prune (meetingBlock rewarding).nonceOf).2.index,
      tx.nonce ≠ 0xffffffffffffffff := by
    decide +kernel
  rcases pruned : meetingPool.prune (meetingBlock rewarding).nonceOf with ⟨outcome, fresh⟩
  rw [pruned] at ended content small
  cases outcome with
  | error fault => cases ended
  | ok dropped =>
      have ordered : ∀ sender, sentBy sender meeting =
          sentBy sender [firstCreation, precompileCall, otherPayment] := by
        intro sender
        by_cases own : sender = otherPayment.sender
        · subst own
          rfl
        · rw [meeting, sentBy_cons_other own]
          exact (sentBy_concat_other own [firstCreation, precompileCall]).symm
      have taken := interleaves_of_sentBy content ordered
      obtain ⟨inTurn, exact, ends⟩ := pending_feeds reached rfl rfl pruned taken
        (rewarding_spares _) meeting_fresh
      obtain ⟨passed, later, again⟩ := ends fun hash tx found =>
        small tx (Map.mem_listValues.mpr ⟨hash, found⟩)
      exact ⟨dropped, fresh, reached, rfl, taken, inTurn, passed, later, again,
        (exact passed later again).1⟩

/-- A handler that moves the nonce of another account. -/
def meddling : Handler := fun _ _ =>
  .perform (.store (.setNonce 2 5)) fun _ => .finish (.ok [])

def meddled : List Transaction := [{ precompileCall with nonce := 7 }, otherPayment]

def meddledPool : Pool := poolOf (meetingBlock meddling).nonceOf meddled

def missesNonce : Except ChainFault Receipt → Bool
  | .error (.vm (.invalidNonce _ _)) => true
  | _ => false

theorem eq_of_missesNonce {outcome : Except ChainFault Receipt}
    (missed : missesNonce outcome = true) :
    ∃ expected given, outcome = .error (.vm (.invalidNonce expected given)) := by
  unfold missesNonce at missed
  split at missed
  · exact ⟨_, _, rfl⟩
  · cases missed

/-- Where a precompile moves the nonce of a sender, a pending transaction misses its nonce although
every other one was included. -/
theorem meddling_misfeeds :
    ¬ ∀ (config : PoolConfig) (pool fresh : Pool) (processor : Processor) (block : OpenBlock)
        (dropped txs : List Transaction) (enforceTips : Bool),
      Pool.Reached config pool → processor.openBlock = some block →
      processor.interpreter = TransferMachine.interpreter →
      pool.prune processor.nonceOf = (.ok dropped, fresh) →
      Interleaves (fresh.pending enforceTips) txs → Fresh (IsSender txs) txs →
      GapsFollowRefusals (txs.zip (processor.processAll txs).1) := by
  intro claimed
  have reached : Pool.Reached {} meddledPool :=
    .insert _ otherPayment
      (.insert _ { precompileCall with nonce := 7 } .empty (by decide +kernel)) (by decide +kernel)
  have ended : (meddledPool.prune (meetingBlock meddling).nonceOf).1.isOk = true := by
    decide +kernel
  have content : ((meddledPool.prune (meetingBlock meddling).nonceOf).2.pending false).flatMap
      Prod.snd = meddled := by
    decide +kernel
  have called : ∀ tx ∈ meddled, tx.recipient ≠ none := by decide
  have outcomes : ((meetingBlock meddling).processAll meddled).1.map
      (fun outcome => (outcome.isOk, missesNonce outcome)) = [(true, false), (false, true)] := by
    decide +kernel
  rcases pruned : meddledPool.prune (meetingBlock meddling).nonceOf with ⟨outcome, fresh⟩
  rw [pruned] at ended content
  cases outcome with
  | error fault => cases ended
  | ok dropped =>
      have gaps := claimed {} meddledPool fresh (meetingBlock meddling) _ dropped meddled false
        reached rfl rfl pruned (interleaves_of_sentBy content fun _ => rfl)
        fun tx listed creation => absurd creation (called tx listed)
      obtain ⟨accepted, others, both, first, second⟩ := List.map_eq_cons_iff.mp outcomes
      obtain ⟨late, rest, rfl, missed, done⟩ := List.map_eq_cons_iff.mp second
      cases List.map_eq_nil_iff.mp done
      obtain ⟨expected, given, rfl⟩ := eq_of_missesNonce (congrArg Prod.snd missed)
      rw [both] at gaps
      obtain ⟨earlier, listed, _, refused⟩ :=
        gaps [({ precompileCall with nonce := 7 }, accepted)] [] otherPayment expected given rfl
      cases List.mem_singleton.mp listed
      exact absurd ((congrArg Prod.fst first).symm.trans refused) (by decide)

end Processor

end HostedEvm
