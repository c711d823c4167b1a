import HostedEvm.Proofs.Chain.Processing
import HostedEvm.Proofs.Execution.Settlement

set_option autoImplicit false

/-!
Rejected transactions.

A rejected transaction leaves charges, a warm set and a gas meter that splits the total otherwise.
The next transaction starts from a clean slate and sees none of it. Two processors are alike when
they are the same at rest; a rejection keeps a processor like itself, and alike processors treat
every transaction alike.
-/

namespace HostedEvm.Processor

variable {processor other after : Processor} {block : OpenBlock} {tx : Transaction}

/-- The processor without what the next transaction clears anyway: the journals, the charges and
how the consumed gas is split between the block and the last transaction. -/
def rested (processor : Processor) : Processor :=
  { processor with
    state := { store := processor.state.store.resetCharges }
    meter := processor.meter.beginTransaction 0 }

theorem setUp_rested (processor : Processor) (context : BlockContext) (tx : Transaction) :
    processor.rested.setUp context tx = processor.setUp context tx := by
  have meter : (processor.meter.beginTransaction 0).beginTransaction tx.gasLimit =
      processor.meter.beginTransaction tx.gasLimit := by
    simp only [Meter.beginTransaction, Gas.plus_zero]
  unfold setUp rested
  simp only [meter]
  rfl

theorem runIn_rested (processor : Processor) (block : OpenBlock) (tx : Transaction) :
    processor.rested.runIn block tx = processor.runIn block tx := by
  unfold runIn
  rw [setUp_rested]

theorem openBlock_congr (alike : processor.rested = other.rested)
    (opened : processor.openBlock = some block) : other.openBlock = some block := by
  have same := congrArg openBlock alike
  exact same.symm.trans opened

/-- Alike processors do the same with a sealed transaction. -/
theorem process_congr (alike : processor.rested = other.rested)
    (opened : processor.openBlock = some block) (filled : tx.isEmpty = false) :
    processor.process tx = other.process tx := by
  rw [process_of_filled filled, process_of_filled filled, opened, openBlock_congr alike opened]
  simp only
  rw [← runIn_rested processor, alike, runIn_rested]

/-- A rejected transaction only reads, and what it was charged is all that its rewind keeps. -/
theorem rejected_eq {cause : ChainFault} (opened : processor.openBlock = some block)
    (plain : processor.interpreter = TransferMachine.interpreter)
    (processed : processor.process tx = (.error cause, after)) (ordinary : cause.isFatal = false) :
    ∃ state,
      JournaledState.Charged (processor.setUp block.context tx).state.snapshot.2 state ∧
        after =
          { processor.setUp block.context tx with
            state := state.restoredTo (processor.setUp block.context tx).state
            meter := (processor.meter.beginTransaction tx.gasLimit).discardTransaction } := by
  obtain ⟨fault, left, ran, mild, refused⟩ := process_eq_error opened processed ordinary
  rw [plain] at ran
  obtain ⟨charged, meter⟩ := TransferMachine.interpreter_rejected mild ran
  have taken : (processor.behind block.context tx left).state.rewound
      (processor.setUp block.context tx).state.snapshot.1 =
        (.ok (), left.state.restoredTo (processor.setUp block.context tx).state) :=
    JournaledState.rewound_of_extends charged.continues.grown
  refine ⟨left.state, charged, ?_⟩
  unfold reject at refused
  simp only at refused
  rw [taken, behind, meter, workspace_meter] at refused
  exact (congrArg Prod.snd refused).symm

/-- A rejected transaction leaves the processor as it found it, at rest. -/
theorem rested_of_rejected {cause : ChainFault} (opened : processor.openBlock = some block)
    (plain : processor.interpreter = TransferMachine.interpreter)
    (processed : processor.process tx = (.error cause, after)) (ordinary : cause.isFatal = false) :
    after.rested = processor.rested := by
  obtain ⟨state, charged, rfl⟩ := rejected_eq opened plain processed ordinary
  have store : (state.restoredTo (processor.setUp block.context tx).state).store.resetCharges =
      processor.state.store.resetCharges := by
    obtain ⟨accessList, ready⟩ := processor.setUp_cleared block.context tx
    rw [charged.restoredTo_store, ready]
    rfl
  have meter :
      (processor.meter.beginTransaction tx.gasLimit).discardTransaction.beginTransaction 0 =
        processor.meter.beginTransaction 0 := by
    simp only [Meter.beginTransaction, Meter.discardTransaction, Gas.plus_zero]
  unfold rested
  simp only [store, meter]
  rfl

/-- Nothing is marked destroyed behind a transaction, rejected or not. -/
theorem destroyed_of_process {outcome : Except ChainFault Receipt}
    (opened : processor.openBlock = some block)
    (plain : processor.interpreter = TransferMachine.interpreter)
    (processed : processor.process tx = (outcome, after))
    (ordinary : ∀ cause, outcome = .error cause → cause.isFatal = false) :
    after.state.destroyed.order = [] := by
  cases outcome with
  | ok receipt =>
      obtain ⟨execution, left, _, _, rfl⟩ := process_eq_ok opened processed
      rfl
  | error cause =>
      obtain ⟨state, _, rfl⟩ := rejected_eq opened plain processed (ordinary cause rfl)
      obtain ⟨accessList, ready⟩ := processor.setUp_cleared block.context tx
      rw [ready]
      rfl

theorem filled_of_ok {receipt : Receipt} (processed : processor.process tx = (.ok receipt, after)) :
    tx.isEmpty = false := by
  have ran := processor.processes tx
  rw [processed] at ran
  cases ran
  assumption

theorem process_keeps {outcome : Except ChainFault Receipt}
    (opened : processor.openBlock = some block)
    (plain : processor.interpreter = TransferMachine.interpreter)
    (processed : processor.process tx = (outcome, after))
    (ordinary : ∀ cause, outcome = .error cause → cause.isFatal = false) :
    after.openBlock = some block ∧ after.interpreter = TransferMachine.interpreter := by
  cases outcome with
  | ok receipt =>
      obtain ⟨execution, left, _, _, rfl⟩ := process_eq_ok opened processed
      exact ⟨opened, plain⟩
  | error cause =>
      have same := rested_of_rejected opened plain processed (ordinary cause rfl)
      exact ⟨(congrArg openBlock same).trans opened, (congrArg interpreter same).trans plain⟩

def processAll (processor : Processor) :
    List Transaction → List (Except ChainFault Receipt) × Processor
  | [] => ([], processor)
  | tx :: rest =>
    let (outcome, next) := processor.process tx
    let (outcomes, last) := next.processAll rest
    (outcome :: outcomes, last)

/-- Those of the transactions that get a receipt when all are handed over in order. -/
def accepted (processor : Processor) : List Transaction → List Transaction
  | [] => []
  | tx :: rest =>
    match processor.process tx with
    | (.ok _, next) => tx :: next.accepted rest
    | (.error _, next) => next.accepted rest

def Returns (processor : Processor) (txs : List Transaction) : Prop :=
  ∀ outcome ∈ (processor.processAll txs).1, ∀ cause, outcome = .error cause → cause.isFatal = false

instance : (outcome : Except ChainFault Receipt) →
    Decidable (∀ cause, outcome = .error cause → cause.isFatal = false)
  | .ok _ => .isTrue fun _ same => nomatch same
  | .error cause => decidable_of_iff (cause.isFatal = false)
      ⟨fun ordinary _ same => by cases same; exact ordinary, fun all => all cause rfl⟩

instance (txs : List Transaction) : Decidable (processor.Returns txs) :=
  inferInstanceAs (Decidable (∀ outcome ∈ (processor.processAll txs).1, _))

theorem Returns.head {rest : List Transaction} (returns : processor.Returns (tx :: rest)) :
    ∀ cause, (processor.process tx).1 = .error cause → cause.isFatal = false :=
  returns _ (List.mem_cons_self ..)

theorem Returns.tail {rest : List Transaction} (returns : processor.Returns (tx :: rest)) :
    (processor.process tx).2.Returns rest := by
  intro outcome member
  exact returns outcome (List.mem_cons_of_mem _ member)

theorem accepted_alike {txs : List Transaction} (alike : processor.rested = other.rested)
    (opened : processor.openBlock = some block)
    (plain : processor.interpreter = TransferMachine.interpreter)
    (returns : processor.Returns txs) :
    (other.processAll (processor.accepted txs)).1 =
        (processor.processAll txs).1.filter Except.isOk ∧
      (processor.processAll txs).2.rested =
        (other.processAll (processor.accepted txs)).2.rested := by
  induction txs generalizing processor other with
  | nil => exact ⟨rfl, alike⟩
  | cons tx rest inductionHypothesis =>
      have ordinary := returns.head
      have remaining := returns.tail
      rcases processed : processor.process tx with ⟨outcome, next⟩
      rw [processed] at ordinary remaining
      obtain ⟨openedNext, plainNext⟩ := process_keeps opened plain processed ordinary
      cases outcome with
      | ok receipt =>
          have same := process_congr alike opened (filled_of_ok processed)
          rw [processed] at same
          obtain ⟨outcomes, last⟩ := inductionHypothesis rfl openedNext plainNext remaining
          simp only [processAll, accepted, processed, ← same]
          refine ⟨?_, last⟩
          rw [outcomes]
          rfl
      | error cause =>
          have rejected := rested_of_rejected opened plain processed (ordinary cause rfl)
          have later := inductionHypothesis (rejected.trans alike) openedNext plainNext remaining
          simp only [processAll, accepted, processed]
          exact later

/-- Alike processors finalize the same block. -/
theorem finalize_congr (alike : processor.rested = other.rested)
    (opened : processor.openBlock = some block) :
    ∃ finalized, processor.finalize.1 = .ok finalized ∧ other.finalize.1 = .ok finalized := by
  have assembled : processor.rested.assemble block.header = other.rested.assemble block.header := by
    rw [alike]
  change processor.assemble block.header = other.assemble block.header at assembled
  refine ⟨processor.assemble block.header, ?_, ?_⟩
  · unfold finalize
    rw [opened]
  · unfold finalize
    rw [openBlock_congr alike opened, assembled]

/-- Alike processors without destroyed accounts finalize the same store, charges apart. -/
theorem finalize_store_congr (alike : processor.rested = other.rested)
    (opened : processor.openBlock = some block) (spared : processor.state.destroyed.order = [])
    (sparedToo : other.state.destroyed.order = []) :
    processor.finalize.2.state.store.resetCharges =
      other.finalize.2.state.store.resetCharges := by
  have store : processor.rested.state.store = other.rested.state.store := by
    rw [alike]
  change processor.state.store.resetCharges = other.state.store.resetCharges at store
  unfold finalize
  rw [opened, openBlock_congr alike opened]
  simp only [JournaledState.finalize_eq, spared, sparedToo]
  exact congrArg Store.commit store

/-- A run keeps the block open, and marks nothing destroyed once a transaction was handed over. -/
theorem processAll_keeps {txs : List Transaction} (opened : processor.openBlock = some block)
    (plain : processor.interpreter = TransferMachine.interpreter)
    (returns : processor.Returns txs) :
    (processor.processAll txs).2.openBlock = some block ∧
      (processor.state.destroyed.order = [] ∨ txs ≠ [] →
        (processor.processAll txs).2.state.destroyed.order = []) := by
  induction txs generalizing processor with
  | nil =>
      refine ⟨opened, ?_⟩
      rintro (spared | handed)
      · exact spared
      · exact absurd rfl handed
  | cons tx rest inductionHypothesis =>
      have ordinary := returns.head
      have remaining := returns.tail
      rcases processed : processor.process tx with ⟨outcome, next⟩
      rw [processed] at ordinary remaining
      obtain ⟨openedNext, plainNext⟩ := process_keeps opened plain processed ordinary
      have spared := destroyed_of_process opened plain processed ordinary
      obtain ⟨openedLast, sparedLast⟩ := inductionHypothesis openedNext plainNext remaining
      simp only [processAll, processed]
      exact ⟨openedLast, fun _ => sparedLast (.inl spared)⟩

/-- Rejected transactions are invisible. Handing over the accepted ones alone gives the same
receipts and the same finalized block. It gives the same store, up to charges, unless accounts were
marked destroyed before the first transaction and none was accepted: then the first rejected
transaction clears the marks, and nothing clears them without it. -/
theorem accepted_alone {txs : List Transaction} (opened : processor.openBlock = some block)
    (plain : processor.interpreter = TransferMachine.interpreter)
    (returns : processor.Returns txs) :
    let ran := processor.processAll txs
    let alone := processor.processAll (processor.accepted txs)
    alone.1 = ran.1.filter Except.isOk ∧
      (∃ finalized, ran.2.finalize.1 = .ok finalized ∧ alone.2.finalize.1 = .ok finalized) ∧
      (processor.state.destroyed.order = [] ∨ processor.accepted txs ≠ [] →
        alone.2.finalize.2.state.store.resetCharges =
          ran.2.finalize.2.state.store.resetCharges) := by
  obtain ⟨outcomes, alike⟩ := accepted_alike rfl opened plain returns
  have returnsAlone : processor.Returns (processor.accepted txs) := by
    intro outcome member cause failed
    rw [outcomes, List.mem_filter, failed] at member
    cases member.2
  obtain ⟨openedRan, sparedRan⟩ := processAll_keeps opened plain returns
  obtain ⟨_, sparedAlone⟩ := processAll_keeps opened plain returnsAlone
  refine ⟨outcomes, finalize_congr alike openedRan, ?_⟩
  intro condition
  have handed : processor.state.destroyed.order = [] ∨ txs ≠ [] := by
    rcases condition with spared | some
    · exact .inl spared
    · right
      intro none
      rw [none] at some
      exact some rfl
  exact (finalize_store_congr alike openedRan (sparedRan handed) (sparedAlone condition)).symm

def fundedBlock : Processor where
  state := { store := { accounts := (∅ : Accounts).insert 1 (.funded 50000) } }
  meter := .forBlock 30000 0
  precompiles _ := builtinPrecompiles
  interpreter := TransferMachine.interpreter
  openBlock := some
    ⟨{}, { number := 1, timestamp := 0, coinbase := 7, gasLimit := 30000, baseFee := 0, chainId := 1
           rules := {} }⟩

def neighbours : List Transaction :=
  [{ nonce := 5, sender := 1, gasLimit := 30000, hash := 1 },
    { sender := 1, recipient := some 2, value := 5, gasLimit := 21000, gasPrice := 1, hash := 2 }]

theorem neighbours_accepted :
    fundedBlock.Returns neighbours ∧ (fundedBlock.accepted neighbours).length = 1 ∧
      (fundedBlock.processAll (fundedBlock.accepted neighbours)).1 =
        (fundedBlock.processAll neighbours).1.filter Except.isOk ∧
      (fundedBlock.processAll
          (fundedBlock.accepted neighbours)).2.finalize.2.state.store.resetCharges =
        (fundedBlock.processAll neighbours).2.finalize.2.state.store.resetCharges := by
  have returns : fundedBlock.Returns neighbours := by decide +kernel
  obtain ⟨outcomes, _, store⟩ := accepted_alone rfl rfl returns
  exact ⟨returns, by decide +kernel, outcomes, store (.inl rfl)⟩

/-- A single rejected transaction is the whole of its run, and leaves none to accept. -/
theorem processAll_rejected {cause : ChainFault}
    (processed : processor.process tx = (.error cause, after)) :
    processor.processAll [tx] = ([.error cause], after) ∧ processor.accepted [tx] = [] := by
  constructor
  · simp only [processAll, processed]
  · simp only [accepted, processed]

/-- A processor whose host marked an account destroyed before it prepared the block. -/
def marked : Processor :=
  let start : Processor :=
    { state :=
        ({ store := { accounts := (∅ : Accounts).insert 9 (.funded 3) } } :
          JournaledState).selfDestruct 9
      meter := .forBlock 0 0
      precompiles := fun _ => builtinPrecompiles
      interpreter := TransferMachine.interpreter }
  ((start.beginBlock 30000).prepare {}
    { number := 1, timestamp := 0, coinbase := 7, gasLimit := 30000, baseFee := 0, chainId := 1
      rules := {} }).2

def stray : Transaction := { nonce := 5, sender := 1, gasLimit := 30000 : Transaction }.sealed

theorem stray_filled : stray.isEmpty = false := by decide +kernel

/-- The rejected transaction saves the marked account, which is removed without it. -/
theorem stray_saves_marked :
    marked.Returns [stray] ∧ marked.accepted [stray] = [] ∧
      (marked.processAll [stray]).2.finalize.2.state.store.accounts ≠
        (marked.processAll (marked.accepted [stray])).2.finalize.2.state.store.accounts := by
  have rejected : (match (marked.process stray).1 with
      | .ok _ => false
      | .error cause => !cause.isFatal) = true := by
    rw [process_of_filled stray_filled]
    decide +kernel
  have saved : (marked.process stray).2.finalize.2.state.store.accounts.contains 9 = true := by
    rw [process_of_filled stray_filled]
    decide +kernel
  have removed : marked.finalize.2.state.store.accounts.contains 9 = false := by decide +kernel
  rcases processed : marked.process stray with ⟨outcome, after⟩
  rw [processed] at rejected saved
  cases outcome with
  | ok receipt => cases rejected
  | error cause =>
      obtain ⟨ran, none⟩ := processAll_rejected processed
      rw [none, ran]
      refine ⟨?_, rfl, ?_⟩
      · intro outcome member reason failed
        rw [ran, List.mem_singleton, failed] at member
        cases member
        simpa using rejected
      · intro same
        change after.finalize.2.state.store.accounts =
          marked.finalize.2.state.store.accounts at same
        rw [same, removed] at saved
        cases saved

end HostedEvm.Processor
