import HostedEvm.Proofs.Chain.Frame
import HostedEvm.Proofs.Chain.Receipts
import HostedEvm.Proofs.Chain.Rejection
import HostedEvm.Proofs.Execution.Invariance
import HostedEvm.Proofs.State.Stamps

set_option autoImplicit false

/-!
The parts of a finalized block fit together.

The places of transactions and logs, the sums of gas and the limit of the block are counted apart
from each other: by the list of transactions, by a count of logs, by the last receipt and by the
meter. An accepted transaction moves all of them alike, and a rejected one none.
-/

namespace HostedEvm

abbrev Method.StaysInTransaction (method : Method) : Prop :=
  method.Only fun command => command.startsTransaction = false

namespace Processor

open TransferMachine

variable {processor after : Processor} {block : OpenBlock} {registry : Registry} {tx : Transaction}
  {limit : Gas}

/-- A block under construction whose counters agree. -/
structure Assembling (limit : Gas) (block : OpenBlock) (registry : Registry)
    (processor : Processor) : Prop where
  opened : processor.openBlock = some block
  loaded : processor.registry = registry
  plain : processor.interpreter = TransferMachine.interpreter
  assembled : Assembled block.header.number 0 processor.transactions processor.receipts
  counted : processor.logCount = (processor.receipts.flatMap Receipt.logs).length
  metered : processor.meter.blockConsumed.plus processor.meter.txConsumed = processor.gasUsed
  blockLimit : processor.meter.blockLimit = limit
  limited : processor.gasUsed ≤ limit
  inPlace : registry.Every Method.StaysInTransaction →
    ∀ receipt ∈ processor.receipts, receipt.InPlace

theorem gasUsed_eq (processor : Processor) :
    processor.gasUsed = (processor.receipts.getLast?.map Receipt.cumulativeGasUsed).getD 0 := by
  unfold gasUsed
  cases processor.receipts.getLast? with
  | none => rfl
  | some receipt => rfl

/-- The logs that a transaction leaves are stamped with its place. -/
theorem stamped_executed {execution : Execution} {left : Workspace}
    (stays : processor.registry.Every Method.StaysInTransaction)
    (executed : Executed tx ⟨processor.registry, block.context⟩
      (processor.workspace block.context tx) execution left) :
    left.state.Stamped (UInt64.ofNat processor.transactions.length) := by
  apply executed.keeps (JournaledState.stamped_lasting _) _ stays
  · obtain ⟨accessList, same⟩ := processor.workspace_cleared block.context tx
    rw [same]
    exact ⟨rfl, nofun⟩
  · intro command within state stamped
    exact StateCommand.stamped_run within stamped

theorem describes_receiptOf {execution : Execution} {left : Workspace}
    (executed : Executed tx ⟨processor.registry, block.context⟩
      (processor.workspace block.context tx) execution left) :
    ((processor.behind block.context tx left).receiptOf block.header.number tx execution).Describes
      block.header.number 0 processor.transactions.length tx := by
  refine ⟨rfl, rfl, rfl, rfl, executed.baseGas_le, executed.gasUsed_le UInt64.zero_le, ?_⟩
  intro log listed
  obtain ⟨placed, member, index, rfl⟩ := mem_placeLogs listed
  obtain ⟨entry, _, rfl⟩ := List.mem_map.mp member
  exact ⟨rfl, rfl, rfl⟩

theorem inPlace_receiptOf {execution : Execution} {left : Workspace}
    (stays : processor.registry.Every Method.StaysInTransaction)
    (executed : Executed tx ⟨processor.registry, block.context⟩
      (processor.workspace block.context tx) execution left) :
    ((processor.behind block.context tx left).receiptOf block.header.number tx
      execution).InPlace := by
  have stamped := stamped_executed stays executed
  intro log listed
  obtain ⟨placed, member, index, rfl⟩ := mem_placeLogs listed
  obtain ⟨entry, written, rfl⟩ := List.mem_map.mp member
  exact stamped.entries entry written

theorem gasUsed_record (processor : Processor) (tx : Transaction) (receipt : Receipt) :
    (processor.record tx receipt).gasUsed = receipt.cumulativeGasUsed := by
  rw [gasUsed_eq]
  unfold record
  simp only [List.getLast?_concat, Option.map_some, Option.getD_some]

/-- The counters agree whether or not the last transaction has been added to the block's gas. -/
theorem assembling_rested :
    processor.rested.Assembling limit block registry ↔
      processor.Assembling limit block registry := by
  have consumed : processor.rested.meter.blockConsumed.plus processor.rested.meter.txConsumed =
      processor.meter.blockConsumed.plus processor.meter.txConsumed := Gas.plus_zero _
  constructor
  · intro rested
    exact ⟨rested.opened, rested.loaded, rested.plain, rested.assembled, rested.counted,
      consumed.symm.trans rested.metered, rested.blockLimit, rested.limited, rested.inPlace⟩
  · intro moving
    exact ⟨moving.opened, moving.loaded, moving.plain, moving.assembled, moving.counted,
      consumed.trans moving.metered, moving.blockLimit, moving.limited, moving.inPlace⟩

/-- An accepted transaction moves all counters alike. -/
theorem Assembling.accept {receipt : Receipt}
    (assembling : processor.Assembling limit block registry)
    (processed : processor.process tx = (.ok receipt, after)) :
    after.Assembling limit block registry := by
  obtain ⟨execution, left, ran, rfl, rfl⟩ := process_eq_ok assembling.opened processed
  rw [assembling.plain] at ran
  have executed := interpreter_executed ran
  have describes := describes_receiptOf executed
  have within := executed.withinBlock
  have meter := executed.meter_eq
  rw [workspace_meter] at within meter
  have started : (processor.meter.beginTransaction tx.gasLimit).blockConsumed =
      processor.gasUsed := assembling.metered
  have room : (processor.meter.beginTransaction tx.gasLimit).blockLimit = limit :=
    assembling.blockLimit
  rw [started, room] at within
  refine ⟨assembling.opened, assembling.loaded, assembling.plain, ?_, ?_, ?_, ?_, ?_, ?_⟩
  · apply assembling.assembled.concat describes
    · rw [← gasUsed_eq]
      rfl
    · intro k log present
      rw [index_placeLogs present, ← assembling.counted]
      rfl
  · unfold record
    simp only [List.flatMap_append, List.flatMap_singleton, List.length_append]
    exact congrArg (fun count => count + _) assembling.counted
  · rw [gasUsed_record]
    change left.meter.blockConsumed.plus left.meter.txConsumed =
      processor.gasUsed.plus execution.gasUsed
    rw [meter, ← started]
  · change left.meter.blockLimit = limit
    rw [meter]
    exact room
  · rw [gasUsed_record]
    exact within
  · intro stays receipt listed
    rcases List.mem_append.mp listed with earlier | last
    · exact assembling.inPlace stays receipt earlier
    · rw [List.mem_singleton.mp last]
      rw [← assembling.loaded] at stays
      exact inPlace_receiptOf stays executed

/-- Behind a transaction that comes back, accepted or rejected, the counters still agree. -/
theorem Assembling.process {outcome : Except ChainFault Receipt}
    (assembling : processor.Assembling limit block registry)
    (processed : processor.process tx = (outcome, after))
    (ordinary : ∀ cause, outcome = .error cause → cause.isFatal = false) :
    after.Assembling limit block registry := by
  cases outcome with
  | ok receipt => exact assembling.accept processed
  | error cause =>
      have same := rested_of_rejected assembling.opened assembling.plain processed
        (ordinary cause rfl)
      rw [← assembling_rested] at assembling ⊢
      rw [same]
      exact assembling

theorem Assembling.processAll {txs : List Transaction}
    (assembling : processor.Assembling limit block registry) (returns : processor.Returns txs) :
    (processor.processAll txs).2.Assembling limit block registry := by
  induction txs generalizing processor with
  | nil => exact assembling
  | cons tx rest inductionHypothesis =>
      have next := assembling.process rfl returns.head
      exact inductionHypothesis next returns.tail

/-- A block that is prepared after its start has nothing to count yet. -/
theorem assembling_prepare {header : Header} {context : BlockContext} {maxGas : Gas}
    {ready : Processor} (plain : processor.interpreter = TransferMachine.interpreter)
    (prepared : (processor.beginBlock maxGas).prepare header context = (.ok (), ready)) :
    ready.Assembling (processor.beginBlock maxGas).meter.blockLimit ⟨header, context⟩
      ready.registry := by
  obtain ⟨registry, rules, rfl⟩ := prepare_eq_ok prepared
  exact ⟨rfl, rfl, plain, Assembled.empty _ _, rfl, rfl, rfl, UInt64.zero_le, nofun⟩

theorem Assembling.consistent_assemble (assembling : processor.Assembling limit block registry) :
    (processor.assemble block.header).Consistent := by
  refine ⟨assembling.assembled.stamp _, rfl, ?_⟩
  have last := processor.gasUsed_eq
  unfold assemble
  simp only [List.getLast?_map, Option.map_map]
  exact last

theorem transactions_processAll {txs : List Transaction}
    (assembling : processor.Assembling limit block registry) (returns : processor.Returns txs) :
    (processor.processAll txs).2.transactions =
      processor.transactions ++ processor.accepted txs := by
  induction txs generalizing processor with
  | nil => exact (List.append_nil _).symm
  | cons tx rest inductionHypothesis =>
      have ordinary := returns.head
      have remaining := returns.tail
      rcases processed : processor.process tx with ⟨outcome, next⟩
      rw [processed] at ordinary remaining
      have later := inductionHypothesis (assembling.process processed ordinary) remaining
      simp only [Processor.processAll, accepted, processed]
      rw [later]
      cases outcome with
      | ok receipt =>
          obtain ⟨execution, left, _, _, rfl⟩ := process_eq_ok assembling.opened processed
          exact List.append_assoc _ [tx] _
      | error cause =>
          have same := rested_of_rejected assembling.opened assembling.plain processed
            (ordinary cause rfl)
          have kept : next.transactions = processor.transactions := by
            have transactions := congrArg transactions same
            exact transactions
          simp only [kept]

/-- Every block that is started, prepared and finalized is consistent, whatever transactions it was
handed. Its logs name the places of their transactions unless a handler starts a transaction of its
own, and its gas is limited by the limit that the block was started with. -/
theorem finalized_consistent {header : Header} {context : BlockContext} {maxGas : Gas}
    {ready : Processor} {txs : List Transaction}
    (plain : processor.interpreter = TransferMachine.interpreter)
    (prepared : (processor.beginBlock maxGas).prepare header context = (.ok (), ready))
    (returns : ready.Returns txs) :
    ∃ finalized, (ready.processAll txs).2.finalize.1 = .ok finalized ∧
      finalized.block.transactions = ready.accepted txs ∧ finalized.Consistent ∧
      (ready.registry.Every Method.StaysInTransaction →
        ∀ receipt ∈ finalized.receipts, receipt.InPlace) ∧
      finalized.block.gasUsed ≤ (processor.beginBlock maxGas).meter.blockLimit ∧
      ((processor.beginBlock maxGas).meter.blockLimit ≤ header.gasLimit →
        finalized.block.gasUsed ≤ finalized.block.header.gasLimit) := by
  have assembling := assembling_prepare plain prepared
  have last := assembling.processAll returns
  have listed := transactions_processAll assembling returns
  have nothing : ready.transactions = [] := by
    obtain ⟨_, _, rfl⟩ := prepare_eq_ok prepared
    rfl
  rw [nothing, List.nil_append] at listed
  refine ⟨(ready.processAll txs).2.assemble header, ?_, listed, last.consistent_assemble, ?_,
    last.limited, ?_⟩
  · unfold finalize
    rw [last.opened]
  · intro stays receipt stamped
    obtain ⟨original, member, rfl⟩ := List.mem_map.mp stamped
    exact (last.inPlace stays original member).stampReceipt _
  · intro room
    exact UInt64.le_trans last.limited room

def sampleLimit : Gas := 30000000

/-- A host with one funded account and one precompile, whose only method has the given handler. -/
def sampleStart (handler : Handler) : Processor where
  state := { store := { accounts := (∅ : Accounts).insert 1 (.funded 1000000) } }
  meter := .forBlock 0 0
  precompiles _ :=
    [.stateful
      { address := 9
        interface := { functions := [{ name := "f", inputs := [] }] }
        methods := [{ signature := "f()", handler }] }]
  interpreter := TransferMachine.interpreter

def prepareSample (handler : Handler) (stated : Gas) : Except ChainFault Unit × Processor :=
  ((sampleStart handler).beginBlock sampleLimit).prepare { number := 1, gasLimit := stated }
    { number := 1, timestamp := 0, coinbase := 7, gasLimit := stated, baseFee := 0, chainId := 1
      rules := {} }

def announce : Handler := fun _ _ =>
  .perform (.addLog { address := 9, topics := [], data := [] }) fun _ => .finish (.ok [])

/-- A handler that starts a transaction at another place of the block before it logs. -/
def restart : Handler := fun invocation arguments =>
  .perform (.beginTransaction 0 7) fun _ => announce invocation arguments

/-- A call of the precompile, a transaction with the wrong nonce and a call that fails. -/
def sampleTransactions : List Transaction :=
  [{ sender := 1, recipient := some 9, input := [0x26, 0x12, 0x1f, 0xf0], gasLimit := 30000
     hash := 1 },
    { sender := 1, nonce := 5, gasLimit := 30000, hash := 2 },
    { sender := 1, nonce := 1, recipient := some 2, input := [invalidOperation], gasLimit := 22000
      hash := 3 }]

theorem announce_stays (stated : Gas) :
    (prepareSample announce stated).2.registry.Every Method.StaysInTransaction := by
  apply prepare_every
  · intro _ precompile member
    rw [List.mem_singleton.mp member]
    intro method declared invocation arguments
    rw [List.mem_singleton.mp declared]
    exact .perform rfl fun _ => .finish
  · exact Map.every_empty

/-- The block that the host announces in is consistent. -/
theorem announced_consistent :
    (prepareSample announce sampleLimit).2.Returns sampleTransactions ∧
      ((prepareSample announce sampleLimit).2.accepted sampleTransactions).length = 2 ∧
      ∃ finalized,
        ((prepareSample announce sampleLimit).2.processAll sampleTransactions).2.finalize.1 =
          .ok finalized ∧ finalized.Consistent ∧
          (∀ receipt ∈ finalized.receipts, receipt.InPlace) ∧
          finalized.block.gasUsed ≤ finalized.block.header.gasLimit := by
  have ran : (prepareSample announce sampleLimit).1.isOk = true ∧
      (prepareSample announce sampleLimit).2.Returns sampleTransactions ∧
      ((prepareSample announce sampleLimit).2.accepted sampleTransactions).length = 2 := by
    decide +kernel
  obtain ⟨loaded, returns, accepted⟩ := ran
  rcases prepared : prepareSample announce sampleLimit with ⟨outcome, ready⟩
  have stays := announce_stays sampleLimit
  rw [prepared] at loaded returns accepted stays
  cases outcome with
  | error fault => cases loaded
  | ok _ =>
      obtain ⟨finalized, closed, _, consistent, inPlace, _, limited⟩ :=
        finalized_consistent rfl prepared returns
      exact ⟨returns, accepted, finalized, closed, consistent, inPlace stays,
        limited (UInt64.le_refl _)⟩

/-- The log of the restarted transaction names the other place, and a header that states a limit of
its own is not heeded. -/
theorem restart_misplaced : ∃ finalized,
    (prepareSample restart 0).1.isOk = true ∧
      (prepareSample restart 0).2.Returns sampleTransactions ∧
      ((prepareSample restart 0).2.processAll sampleTransactions).2.finalize.1 = .ok finalized ∧
      (∃ receipt ∈ finalized.receipts, ¬ receipt.InPlace) ∧
      ¬ finalized.block.gasUsed ≤ finalized.block.header.gasLimit := by
  have ran : (prepareSample restart 0).1.isOk = true ∧
      (prepareSample restart 0).2.Returns sampleTransactions ∧
      (match ((prepareSample restart 0).2.processAll sampleTransactions).2.finalize.1 with
        | .ok finalized =>
          decide ((∃ receipt ∈ finalized.receipts, ¬ receipt.InPlace) ∧
            ¬ finalized.block.gasUsed ≤ finalized.block.header.gasLimit)
        | .error _ => false) = true := by
    decide +kernel
  obtain ⟨loaded, returns, misplaced⟩ := ran
  split at misplaced
  · rename_i finalized closed
    obtain ⟨elsewhere, beyond⟩ := of_decide_eq_true misplaced
    exact ⟨finalized, loaded, returns, closed, elsewhere, beyond⟩
  · cases misplaced

end Processor

end HostedEvm
