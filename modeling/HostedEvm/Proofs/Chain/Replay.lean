import HostedEvm.Proofs.Chain.History
import HostedEvm.Proofs.Chain.Nonces
import HostedEvm.Proofs.Execution.Returns
import HostedEvm.Proofs.Transaction

set_option autoImplicit false

/-!
Each nonce of a sender is used once.

Over any number of blocks, the included transactions of a sender carry its nonces one after the
other, from that of the genesis on, and the state shows the next one. A transaction that was
included is therefore never included again.
-/

namespace HostedEvm

open TransferMachine

/-- The included transactions account for the nonces of some senders. -/
structure Counted (senders : Address → Prop) (genesis : Accounts) (txs : List Transaction)
    (nonceOf : NonceOf) : Prop where
  known : ∀ tx ∈ txs, senders tx.sender
  inTurn : ∀ sender, senders sender →
    InTurn (genesis.nonceOf sender).toNat (sentBy sender txs)
  next : ∀ sender, senders sender →
    (nonceOf sender).toNat = (genesis.nonceOf sender).toNat + (sentBy sender txs).length

namespace Counted

variable {senders : Address → Prop} {genesis : Accounts} {txs : List Transaction}
  {nonceOf later : NonceOf} {tx : Transaction}

theorem start (genesis : Accounts) : Counted senders genesis [] genesis.nonceOf :=
  ⟨nofun, fun _ _ => rfl, fun _ _ => rfl⟩

theorem keep (counted : Counted senders genesis txs nonceOf)
    (same : ∀ sender, senders sender → later sender = nonceOf sender) :
    Counted senders genesis txs later where
  known := counted.known
  inTurn := counted.inTurn
  next sender known := by rw [same sender known, counted.next sender known]

/-- One more transaction, with the next nonce of its sender. -/
theorem accept (counted : Counted senders genesis txs nonceOf) (known : senders tx.sender)
    (expected : tx.nonce = nonceOf tx.sender) (fits : tx.nonce.toNat + 1 < UInt64.size)
    (moved : ∀ sender, senders sender → later sender =
      if sender = tx.sender then nonceOf sender + 1 else nonceOf sender) :
    Counted senders genesis (txs ++ [tx]) later where
  known other listed := by
    rcases List.mem_append.mp listed with before | new
    · exact counted.known other before
    · rw [List.mem_singleton.mp new]
      exact known
  inTurn sender safe := by
    by_cases own : sender = tx.sender
    · subst own
      rw [sentBy_concat_own]
      apply (counted.inTurn _ safe).concat
      rw [expected, counted.next _ safe]
    · rw [sentBy_concat_other own]
      exact counted.inTurn sender safe
  next sender safe := by
    rw [moved sender safe]
    by_cases own : sender = tx.sender
    · subst own
      have step : (tx.nonce + 1).toNat = tx.nonce.toNat + 1 :=
        (UInt64.toNat_add _ _).trans (Nat.mod_eq_of_lt fits)
      rw [if_pos rfl, ← expected, step, expected, counted.next _ safe, sentBy_concat_own,
        List.length_append, List.length_singleton, Nat.add_assoc]
    · rw [if_neg own, sentBy_concat_other own, counted.next sender safe]

theorem nodup (counted : Counted senders genesis txs nonceOf) : txs.Nodup :=
  nodup_of_sentBy fun tx listed => (counted.inTurn _ (counted.known tx listed)).nodup

end Counted

namespace Processor

variable {processor after : Processor} {block : OpenBlock} {tx : Transaction}

/-- A transaction without a receipt is not included. -/
theorem transactions_of_refused {cause : ChainFault}
    (processed : processor.process tx = (.error cause, after)) :
    after.transactions = processor.transactions := by
  have ran := processor.processes tx
  rw [processed] at ran
  cases ran with
  | rejected _ _ _ refused =>
      obtain ⟨_, rejected⟩ := reject_eq _ _ _
      cases refused.symm.trans rejected
      rfl
  | _ => rfl

variable {senders : Address → Prop} {genesis : Accounts} {past : List Transaction}

/-- The included transactions go on accounting for the nonces, whatever comes of one more. -/
theorem counted_process (opened : processor.openBlock = some block)
    (plain : processor.interpreter = TransferMachine.interpreter)
    (steady : processor.registry.Steady) (known : senders tx.sender)
    (fresh : TransferMachine.Fresh senders tx)
    (unmarked : ∀ sender, senders sender → sender ∉ processor.state.destroyed.order)
    (counted : Counted senders genesis (past ++ processor.transactions) processor.nonceOf) :
    (∀ sender, senders sender → sender ∉ (processor.process tx).2.state.destroyed.order) ∧
      Counted senders genesis (past ++ (processor.process tx).2.transactions)
        (processor.process tx).2.nonceOf := by
  rcases processed : processor.process tx with ⟨outcome, after⟩
  cases outcome with
  | ok receipt =>
      obtain ⟨expected, fits, moved⟩ :=
        nonces_of_accepted opened plain steady.handlerless.spares fresh processed
      have included := counted.accept known expected fits moved
      obtain ⟨_, _, _, _, rfl⟩ := process_eq_ok opened processed
      rw [List.append_assoc] at included
      exact ⟨fun _ _ => List.not_mem_nil, included⟩
  | error cause =>
      have kept : KeepsNonces senders processor.state after.state :=
        refused_keepsNonces opened plain (perform_returned steady tx) processed
      have same := transactions_of_refused processed
      refine ⟨fun sender safe marked => ?_, ?_⟩
      · exact unmarked sender safe (kept.destroyed sender safe marked)
      · simp only [same]
        exact counted.keep kept.nonce

end Processor

namespace ChainCommand

def hands : ChainCommand → List Transaction
  | .process tx => [tx]
  | _ => []

/-- A command that reaches some accounts only through transactions of their own. -/
def Spares (senders : Address → Prop) : ChainCommand → Prop
  | .process tx => senders tx.sender ∧ TransferMachine.Fresh senders tx
  | .change command => command.Spares senders ∧ command.isReversible = true
  | _ => True

end ChainCommand

namespace Chain

/-- The transactions of some closed blocks, newest block first, and of the open one, in the order of
inclusion. -/
def included (blocks : List FinalizedBlock) (processor : Processor) : List Transaction :=
  (blocks.reverse.flatMap fun closed => closed.block.transactions) ++ processor.transactions

/-- At every moment the included transactions account for the nonces that the state shows. -/
structure Tallied (senders : Address → Prop) (genesis : Accounts) (blocks : List FinalizedBlock)
    (phase : Phase) (processor : Processor) : Prop where
  building : phase = .accepting → ∃ block, processor.openBlock = some block
  resting : phase ≠ .accepting → processor.transactions = []
  unmarked : ∀ sender, senders sender → sender ∉ processor.state.destroyed.order
  counted : Counted senders genesis (included blocks processor) processor.nonceOf

namespace Tallied

variable {senders : Address → Prop} {genesis : Accounts} {blocks : List FinalizedBlock}
  {phase : Phase}
  {processor : Processor}

theorem begin (tallied : Tallied senders genesis blocks phase processor)
    (idle : phase ≠ .accepting) (maxGas : Gas) :
    Tallied senders genesis blocks .preparing (processor.beginBlock maxGas) where
  building := nofun
  resting _ := rfl
  unmarked := tallied.unmarked
  counted := by
    have counted := tallied.counted
    unfold included at counted
    rw [tallied.resting idle] at counted
    exact counted

/-- A block that is not opened leaves the tally as it is. -/
theorem stay (tallied : Tallied senders genesis blocks phase processor) (idle : phase ≠ .accepting)
    {other : Phase} (still : other ≠ .accepting) :
    Tallied senders genesis blocks other processor where
  building accepting := absurd accepting still
  resting _ := tallied.resting idle
  unmarked := tallied.unmarked
  counted := tallied.counted

theorem prepare (tallied : Tallied senders genesis blocks phase processor) {ready : Processor}
    {header : Header} {context : BlockContext}
    (prepared : processor.prepare header context = (.ok (), ready)) :
    Tallied senders genesis blocks .accepting ready := by
  obtain ⟨registry, rules, rfl⟩ := Processor.prepare_eq_ok prepared
  exact ⟨fun _ => ⟨_, rfl⟩, fun other => absurd rfl other, tallied.unmarked, tallied.counted⟩

theorem process (tallied : Tallied senders genesis blocks .accepting processor)
    {prices : StoragePrices}
    (equipped : processor.Equipped Registry.Steady prices TransferMachine.interpreter)
    {tx : Transaction} (known : senders tx.sender) (fresh : TransferMachine.Fresh senders tx) :
    Tallied senders genesis blocks .accepting (processor.process tx).2 := by
  obtain ⟨block, opened⟩ := tallied.building rfl
  obtain ⟨_, _, _, _, _, left⟩ := processor.process_snd tx
  obtain ⟨unmarked, counted⟩ := Processor.counted_process opened equipped.interpreter
    equipped.loaded known fresh tallied.unmarked tallied.counted
  refine ⟨fun _ => ⟨block, ?_⟩, fun other => absurd rfl other, unmarked, counted⟩
  rw [left]
  exact opened

theorem change (tallied : Tallied senders genesis blocks phase processor)
    {command : StateCommand} (spares : command.Spares senders)
    (reversible : command.isReversible = true) :
    Tallied senders genesis blocks phase
      { processor with state := (command.run processor.state).2 } := by
  have kept := StateCommand.keepsNonces_run spares reversible processor.state
  exact ⟨tallied.building, tallied.resting,
    fun sender safe marked => tallied.unmarked sender safe (kept.destroyed sender safe marked),
    tallied.counted.keep kept.nonce⟩

theorem close {block : OpenBlock}
    (tallied : Tallied senders genesis blocks .accepting processor)
    (opened : processor.openBlock = some block) :
    Tallied senders genesis (processor.assemble block.header :: blocks) .idle
      processor.finalize.2 := by
  rw [Processor.finalize_snd opened]
  -- the end of the block deletes marked accounts only, and no sender is marked
  refine ⟨nofun, fun _ => rfl, fun _ _ => List.not_mem_nil, ?_⟩
  have counted := tallied.counted.keep fun sender safe =>
    (KeepsNonces.refl processor.state).finalize_nonce safe (tallied.unmarked sender safe)
  simpa [included, Processor.assemble, Processor.nonceOf] using counted

variable {chain next : Chain} {command : ChainCommand} {wants started : List UInt64}
  {closes : List FinalizedBlock} {prices : StoragePrices}

/-- Every command that reaches the senders through their transactions only keeps the tally. -/
theorem advances (tallied : Tallied senders genesis blocks chain.phase chain.processor)
    (equipped : chain.processor.Equipped Registry.Steady prices TransferMachine.interpreter)
    (spares : command.Spares senders)
    (advanced : command.Advances chain next wants started closes) :
    Tallied senders genesis (closes ++ blocks) next.phase next.processor := by
  have begun (idle : chain.phase = .idle) :
      Tallied senders genesis blocks .preparing chain.begun.processor :=
    tallied.begin (by simp [idle]) _
  cases advanced with
  | aside phase processor =>
      rw [phase, processor]
      exact tallied
  | changed own phase processor =>
      subst own
      rw [phase, processor]
      exact tallied.change spares.1 spares.2
  | declared _ phase processor =>
      rw [phase, processor]
      exact { tallied with }
  | processed own accepting still processor =>
      subst own
      rw [still, processor]
      rw [accepting] at tallied
      exact tallied.process equipped spares.1 spares.2
  | abandoned idle preparing _ processor =>
      rw [preparing, processor]
      exact begun idle
  | unopened idle still refused =>
      rw [still, (Processor.prepare_eq_error refused).1]
      exact (begun idle).stay nofun nofun
  | opened idle accepting _ opens =>
      rw [accepting]
      exact (begun idle).prepare opens
  | unclosed accepting missing _ _ =>
      obtain ⟨block, opened⟩ := tallied.building accepting
      cases missing.symm.trans opened
  | closed accepting opened idle processor =>
      rw [idle, processor]
      rw [accepting] at tallied
      exact tallied.close opened

end Tallied

def handed (commands : List ChainCommand) : List Transaction := commands.flatMap ChainCommand.hands

def onGenesis (chain : Chain) (genesis : Store) : Chain :=
  { chain with processor := { chain.processor with state := { store := genesis } } }

variable {host : Host} {config : RuntimeConfig} {start : Chain} {commands : List ChainCommand}
  {senders : Address → Prop}

theorem spares_of_handed {command : ChainCommand} (listed : command ∈ commands)
    (fresh : Fresh (IsSender (handed commands)) (handed commands))
    (harmless : ∀ inner, .change inner ∈ commands →
      inner.Spares (IsSender (handed commands)) ∧ inner.isReversible = true) :
    command.Spares (IsSender (handed commands)) := by
  cases command with
  | process tx =>
      have given : tx ∈ handed commands :=
        List.mem_flatMap.mpr ⟨_, listed, List.mem_singleton_self tx⟩
      exact ⟨⟨tx, given, rfl⟩, fresh tx given⟩
  | change inner => exact harmless inner listed
  | _ => trivial

/-- A chain starts with the nonces of its genesis. -/
theorem tallied_of_create {interpreter : Interpreter}
    (created : create host interpreter config = .ok start) (genesis : Store) :
    Tallied senders genesis.accounts [] (start.onGenesis genesis).phase
      (start.onGenesis genesis).processor := by
  obtain ⟨registry, rules, _, rfl⟩ := start_of_create created
  exact ⟨nofun, fun _ => rfl, fun _ _ => List.not_mem_nil, .start genesis.accounts⟩

/-- In every run of a chain with the built-in precompiles, over any number of blocks and whatever
becomes of the transactions, no transaction is included twice: the included transactions of a sender
carry its nonces in turn from that of the genesis on, and the state shows the next one. No created
account may be a sender, and what the host does to the state between two steps may not reach one. -/
theorem included_once (created : create host TransferMachine.interpreter config = .ok start)
    (builtin : ∀ rules, host.precompiles rules = builtinPrecompiles)
    (fixed : ∀ precompiles, .declare precompiles ∉ commands) (genesis : Store)
    (fresh : Fresh (IsSender (handed commands)) (handed commands))
    (harmless : ∀ inner, .change inner ∈ commands →
      inner.Spares (IsSender (handed commands)) ∧ inner.isReversible = true) :
    let processor := (runAll commands (start.onGenesis genesis)).2.processor
    let txs := included (closed commands (start.onGenesis genesis)) processor
    txs.Nodup ∧ ∀ sender, IsSender (handed commands) sender →
      InTurn (genesis.accounts.nonceOf sender).toNat (sentBy sender txs) ∧
        (processor.nonceOf sender).toNat =
          (genesis.accounts.nonceOf sender).toNat + (sentBy sender txs).length := by
  have supplied : Registry.Supplied Registry.Steady host.precompilePrices host.precompiles := by
    intro rules registry built
    rw [builtin rules] at built
    exact steady_builtin built
  let invariant (past : List FinalizedBlock) (chain : Chain) : Prop :=
    Tallied (IsSender (handed commands)) genesis.accounts past chain.phase chain.processor ∧
      chain.processor.Equipped Registry.Steady host.precompilePrices TransferMachine.interpreter
  have step : ∀ (past : List FinalizedBlock) (chain : Chain) (command : ChainCommand),
      invariant past chain → command ∈ commands →
      invariant (command.closes chain ++ past) (command.run chain).2 := by
    rintro past chain command ⟨tallied, equipped⟩ listed
    have advanced := command.advances_run chain
    refine ⟨tallied.advances equipped (spares_of_handed listed fresh harmless) advanced,
      equipped_advances equipped ?_ advanced⟩
    rintro precompiles rfl
    exact absurd listed (fixed precompiles)
  have atStart : invariant [] (start.onGenesis genesis) :=
    ⟨tallied_of_create created genesis, { equipped_of_create created supplied with }⟩
  have behind := runAll_permitted step atStart fun _ listed => listed
  rw [List.append_nil] at behind
  have counted := behind.1.counted
  exact ⟨counted.nodup, fun sender known =>
    ⟨counted.inTurn sender known, counted.next sender known⟩⟩

def usedGenesis : Store := Store.withAccount {} 1 { balance := 1000000, nonce := 5 }

def payment (nonce : UInt64) (hash : Word) : Transaction :=
  { sender := 1, nonce, recipient := some 2, value := 9, gasLimit := 21000, hash }

/-- A payment and the same again in two blocks, and a creation ahead of its turn. -/
def replayingRun : List ChainCommand :=
  [.prepare 1, .process (payment 5 1), .process (payment 5 1), .finalize,
    .change (.store (.addBalance 1 5)),
    .prepare 2, .process (payment 5 1),
    .process { sender := 1, nonce := 7, gasLimit := 60000, hash := 2 },
    .process (payment 6 3)]

theorem isSender_replayingRun {address : Address} :
    IsSender (handed replayingRun) address ↔ address = 1 := by
  have all : handed replayingRun =
      [payment 5 1, payment 5 1, payment 5 1,
        { sender := 1, nonce := 7, gasLimit := 60000, hash := 2 }, payment 6 3] := rfl
  simp [IsSender, all, payment, eq_comm]

theorem replayingRun_fresh : Fresh (IsSender (handed replayingRun)) (handed replayingRun) := by
  intro tx listed creation
  rw [isSender_replayingRun]
  have all : tx = payment 5 1 ∨ tx = { sender := 1, nonce := 7, gasLimit := 60000, hash := 2 } ∨
      tx = payment 6 3 := by
    simpa [handed, replayingRun, ChainCommand.hands] using listed
  rcases all with rfl | rfl | rfl
  · cases creation
  · rw [createdAddress_sample]
    decide
  · cases creation

theorem replayingRun_included : ∃ start,
    create {} TransferMachine.interpreter {} = .ok start ∧
      let processor := (runAll replayingRun (start.onGenesis usedGenesis)).2.processor
      let txs := included (closed replayingRun (start.onGenesis usedGenesis)) processor
      txs = [payment 5 1, payment 6 3] ∧ txs.Nodup ∧ InTurn 5 (sentBy 1 txs) ∧
        (processor.nonceOf 1).toNat = 7 := by
  have ran : ((create {} TransferMachine.interpreter {}).toOption.any fun start =>
      decide (included (closed replayingRun (start.onGenesis usedGenesis))
        (runAll replayingRun (start.onGenesis usedGenesis)).2.processor =
          [payment 5 1, payment 6 3])) = true := by
    decide +kernel
  obtain ⟨start, created, passed⟩ := exists_created ran
  have listed := of_decide_eq_true passed
  have genesis : usedGenesis.accounts.nonceOf 1 = 5 := by decide
  have harmless : ∀ inner, .change inner ∈ replayingRun →
      inner.Spares (IsSender (handed replayingRun)) ∧ inner.isReversible = true := by
    intro inner given
    have same : inner = .store (.addBalance 1 5) := by simpa [replayingRun] using given
    rw [same]
    exact ⟨trivial, rfl⟩
  obtain ⟨once, each⟩ := included_once created (fun _ => rfl) (by simp [replayingRun])
    usedGenesis replayingRun_fresh harmless
  obtain ⟨inTurn, next⟩ := each 1 (isSender_replayingRun.mpr rfl)
  rw [genesis] at inTurn next
  refine ⟨start, created, listed, once, inTurn, next.trans ?_⟩
  rw [listed]
  decide

end Chain

end HostedEvm
