import HostedEvm.Proofs.Chain.History
import HostedEvm.Proofs.Chain.Lifecycle
import HostedEvm.Proofs.Chain.Rejection
import HostedEvm.Proofs.State.Warmth

set_option autoImplicit false

/-!
What every transaction starts from.

Whatever an earlier transaction or the host left in the journals, in the counter of charges and in
the meter, the interpreter is asked about a transaction in a workspace without any of it. What is
warm there follows from the transaction, the registered precompiles and the context of the block,
and the context names the collector of the fees where the host has one.
-/

namespace HostedEvm

/-- A workspace in which no earlier transaction left a trace. -/
structure Workspace.Clean (workspace : Workspace) : Prop where
  refund : workspace.state.refund.value = 0
  logs : workspace.state.logs.entries = []
  transient : ∀ slot, workspace.state.transient.get slot = 0
  destroyed : ∀ address, workspace.state.destroyed.contains address = false
  charged : workspace.state.store.charged = 0
  consumed : workspace.meter.txConsumed = 0

/-- Warm are the sender, the recipient, the registered precompiles, what the access list names and
the coinbase, each from its fork on, and nothing else. -/
structure Workspace.WarmFor (workspace : Workspace) (around : Surroundings) (tx : Transaction) :
    Prop where
  cold : around.context.rules.berlin = false →
    workspace.state.accessList.addresses = ∅ ∧ workspace.state.accessList.slots = ∅
  addresses : around.context.rules.berlin = true → ∀ address,
    address ∈ workspace.state.accessList.addresses ↔
      address = tx.sender ∨ tx.recipient = some address ∨ around.registry.contains address = true ∨
        address ∈ AccessListItem.addresses tx.accessList ∨
        (around.context.rules.shanghai = true ∧ address = around.context.coinbase)
  slots : around.context.rules.berlin = true →
    workspace.state.accessList.slots = AccessListItem.slots tx.accessList

def Interpreter.givingUp (cause : Breakdown) : Interpreter :=
  fun _ _ found => (.error (.breakdown cause), found)

namespace Processor

/-- The processor asks its interpreter about a transaction in one workspace only. It does the same
with every interpreter that gives the same answer there, and one that gives up at once leaves that
workspace behind. -/
structure AsksIn (processor : Processor) (block : OpenBlock) (tx : Transaction)
    (start : Workspace) : Prop where
  only : ∀ interpreter : Interpreter,
    interpreter tx ⟨processor.registry, block.context⟩ start =
        processor.interpreter tx ⟨processor.registry, block.context⟩ start →
      { processor with interpreter }.process tx =
        ((processor.process tx).1, { (processor.process tx).2 with interpreter })
  left : ∀ cause : Breakdown,
    let after := ({ processor with interpreter := .givingUp cause }.process tx).2
    after.state = start.state ∧ after.meter = start.meter

variable {processor : Processor} {block : OpenBlock} {tx : Transaction}

theorem reject_with (processor : Processor) (interpreter : Interpreter) (snapshot : Snapshot)
    (fault : Fault) :
    { processor with interpreter }.reject snapshot fault =
      ((processor.reject snapshot fault).1,
        { (processor.reject snapshot fault).2 with interpreter }) := by
  unfold reject
  simp only
  split
  · rfl
  · rfl

/-- The interpreter takes no part in what is made of its answer. -/
theorem conclude_with (processor : Processor) (interpreter : Interpreter) (block : OpenBlock)
    (tx : Transaction) (answer : Except Fault Execution × Workspace) :
    { processor with interpreter }.conclude block tx answer =
      ((processor.conclude block tx answer).1,
        { (processor.conclude block tx answer).2 with interpreter }) := by
  obtain ⟨outcome, left⟩ := answer
  cases outcome with
  | ok execution => rfl
  | error fault =>
      unfold conclude
      simp only
      split
      · rfl
      · exact reject_with (processor.behind block.context tx left) interpreter _ fault

theorem asksIn_workspace (opened : processor.openBlock = some block)
    (filled : tx.isEmpty = false) :
    processor.AsksIn block tx (processor.workspace block.context tx) := by
  constructor
  · intro interpreter same
    -- only the answer comes from the interpreter
    have other : { processor with interpreter }.openBlock = some block := opened
    rw [process_eq_conclude other filled, process_eq_conclude opened filled, ← conclude_with]
    exact congrArg _ same
  · intro cause
    have other : { processor with interpreter := .givingUp cause }.openBlock = some block := opened
    rw [process_eq_conclude other filled]
    exact ⟨rfl, rfl⟩

theorem clean_workspace (processor : Processor) (context : BlockContext) (tx : Transaction) :
    (processor.workspace context tx).Clean := by
  obtain ⟨accessList, same⟩ := processor.workspace_cleared context tx
  constructor
  · rw [same]
    rfl
  · rw [same]
    rfl
  · intro slot
    rw [same]
    exact congrArg (Option.getD · 0) Std.ExtTreeMap.getElem?_empty
  · intro address
    rw [same]
    rfl
  · rw [same]
    rfl
  · rfl

theorem warm_workspace (processor : Processor) (context : BlockContext) (tx : Transaction) :
    (processor.workspace context tx).WarmFor ⟨processor.registry, context⟩ tx := by
  -- marking the state before the interpreter runs changes nothing that is warm
  have warmed : (processor.workspace context tx).state.accessList =
      (processor.setUp context tx).state.accessList := rfl
  have bare : (processor.cleared tx).accessList = {} := rfl
  rw [setUp_state] at warmed
  constructor
  · intro early
    rw [warmed, JournaledState.prepareAccessList_of_not_berlin early, bare]
    exact ⟨AccessList.addresses_empty, AccessList.slots_empty⟩
  · intro berlin address
    rw [warmed, JournaledState.mem_addresses_prepareAccessList berlin, bare, Registry.mem_active]
    simp
  · intro berlin
    rw [warmed, JournaledState.slots_prepareAccessList berlin, bare]
    simp

theorem openBlock_finalize (processor : Processor) : processor.finalize.2.openBlock = none := by
  unfold finalize
  split
  · assumption
  · rfl

end Processor

namespace Chain

variable {chain start : Chain}

/-- The block under construction was opened for its header, and the fees go where the host says. -/
structure Contextual (start chain : Chain) : Prop where
  context : ∀ block, chain.processor.openBlock = some block →
    block.context = .ofHeader block.header
      (start.config.rules block.header.number block.header.timestamp) start.host.feeCollector
  config : chain.config = start.config
  collector : chain.host.feeCollector = start.host.feeCollector

/-- The chain closed its block, or has the one that it had. -/
theorem Contextual.carry {next : Chain} (contextual : Contextual start chain)
    (opened : next.processor.openBlock = none ∨
      next.processor.openBlock = chain.processor.openBlock)
    (config : next.config = chain.config)
    (collector : next.host.feeCollector = chain.host.feeCollector) : Contextual start next where
  context block found := by
    rcases opened with closed | same
    · cases closed.symm.trans found
    · exact contextual.context block (same.symm.trans found)
  config := config.trans contextual.config
  collector := collector.trans contextual.collector

theorem Contextual.prepare (contextual : Contextual start chain) (height : UInt64) :
    Contextual start (chain.prepare height).2 := by
  by_cases idle : chain.phase = .idle
  · rw [prepare_of_idle idle]
    cases chain.begun.header? height with
    | error fault => exact contextual.carry (.inl rfl) rfl rfl
    | ok header =>
        simp only [openWith]
        split
        · rename_i processor prepared
          obtain ⟨registry, rules, rfl⟩ := Processor.prepare_eq_ok prepared
          refine ⟨?_, contextual.config, contextual.collector⟩
          intro block found
          cases found
          have rules : chain.begun.config = start.config := contextual.config
          have collector : chain.begun.host.feeCollector = start.host.feeCollector :=
            contextual.collector
          rw [rules, collector]
        · rename_i fault processor refused
          obtain ⟨rfl, _⟩ := Processor.prepare_eq_error refused
          exact contextual.carry (.inl rfl) rfl rfl
  · unfold Chain.prepare
    rw [if_pos idle]
    exact contextual

theorem Contextual.process (contextual : Contextual start chain) (tx : Transaction) :
    Contextual start (chain.process tx).2 := by
  unfold Chain.process
  split
  · exact contextual
  · obtain ⟨_, _, _, _, _, left⟩ := chain.processor.process_snd tx
    have still : (chain.processor.process tx).2.openBlock = chain.processor.openBlock := by
      rw [left]
    exact contextual.carry (.inr still) rfl rfl

theorem Contextual.finalize (contextual : Contextual start chain) :
    Contextual start chain.finalize.2 := by
  have closed := chain.processor.openBlock_finalize
  unfold Chain.finalize
  split
  · exact contextual
  · split
    · rename_i fault processor failed
      rw [failed] at closed
      exact contextual.carry (.inl closed) rfl rfl
    · rename_i finalized processor finished
      rw [finished] at closed
      obtain ⟨headers, archive, filed⟩ := file_snd chain.host finalized
      refine contextual.carry (.inl closed) ?_ ?_
      · simp only [Chain.config, filed]
      · simp only [filed]

theorem Contextual.run (contextual : Contextual start chain) (command : ChainCommand) :
    Contextual start (command.run chain).2 := by
  cases command with
  | prepare height => exact contextual.prepare height
  | process tx => exact contextual.process tx
  | finalize => exact contextual.finalize
  | _ => exact contextual.carry (.inr rfl) rfl rfl

theorem Contextual.runAll (contextual : Contextual start chain) (commands : List ChainCommand) :
    Contextual start (runAll commands chain).2 := by
  induction commands generalizing chain with
  | nil => exact contextual
  | cons command rest inductionHypothesis =>
      apply inductionHypothesis
      exact contextual.run command

theorem contextual_of_create {host : Host} {interpreter : Interpreter} {config : RuntimeConfig}
    (created : create host interpreter config = .ok start) : Contextual start start := by
  obtain ⟨_, _, _, rfl⟩ := start_of_create created
  exact ⟨nofun, rfl, rfl⟩

/-- Every sealed transaction starts in a clean workspace, in which exactly what is prescribed is
warm, whatever was left behind before. In every run of a chain, the block under construction has
the context of its header, with the fees going to the collector of the host if there is one. -/
theorem transactions_start_clean :
    (∀ (processor : Processor) (block : OpenBlock) (tx : Transaction),
      processor.openBlock = some block → tx.isEmpty = false →
        ∃ start, processor.AsksIn block tx start ∧ start.Clean ∧
          start.WarmFor ⟨processor.registry, block.context⟩ tx) ∧
    ∀ (host : Host) (interpreter : Interpreter) (config : RuntimeConfig) (start : Chain)
      (commands : List ChainCommand) (block : OpenBlock),
      create host interpreter config = .ok start →
        (runAll commands start).2.processor.openBlock = some block →
          block.context = .ofHeader block.header
            (start.config.rules block.header.number block.header.timestamp) host.feeCollector := by
  constructor
  · intro processor block tx opened filled
    exact ⟨processor.workspace block.context tx, Processor.asksIn_workspace opened filled,
      processor.clean_workspace block.context tx, processor.warm_workspace block.context tx⟩
  · intro host interpreter config start commands block created opened
    have contextual := (contextual_of_create created).runAll commands
    have opens := contextual.context block opened
    obtain ⟨_, _, _, rfl⟩ := start_of_create created
    exact opens

def litteredProcessor : Processor where
  state :=
    { store := { charged := 7 }
      logs := { entries := [{ address := 3, topics := [], data := [] }] }
      refund := ({} : Refund).add 5
      accessList := (({} : AccessList).addSlot 3 1).2
      transient := ({} : TransientStorage).set (.of 3 1) 1
      destroyed := (({} : DestroyedAccounts).mark 3).2 }
  meter := { txConsumed := 21000 }
  precompiles := fun _ => builtinPrecompiles
  interpreter := TransferMachine.interpreter
  registry := { containers := (∅ : Map Address Container).insert 4 (.pure .identity) }
  openBlock := some ⟨{}, .ofHeader {} { berlin := true, shanghai := true } (some 6)⟩

def repetitiveCall : Transaction where
  sender := 1
  recipient := some 2
  accessList := [⟨7, [1, 2]⟩, ⟨1, [1]⟩, ⟨7, [2, 3]⟩]
  hash := 5

def collectingHost : Host := { feeCollector := some 6 }

theorem littered_starts_clean :
    (∃ block start, litteredProcessor.openBlock = some block ∧
      litteredProcessor.AsksIn block repetitiveCall start ∧ start.Clean ∧
      start.state.accessList.addresses = {1, 2, 4, 6, 7} ∧
      start.state.accessList.slots = {(1, 1), (7, 1), (7, 2), (7, 3)}) ∧
    ∃ start block, create collectingHost TransferMachine.interpreter {} = .ok start ∧
      (runAll [.prepare 1] start).2.processor.openBlock = some block ∧
      block.context.coinbase = 6 := by
  obtain ⟨starts, opens⟩ := transactions_start_clean
  constructor
  · obtain ⟨start, asks, clean, warm⟩ := starts litteredProcessor _ repetitiveCall rfl (by decide)
    refine ⟨_, start, rfl, asks, clean, ?_, ?_⟩
    · ext address
      have registered : litteredProcessor.registry.contains address = true ↔ 4 = address := by
        simp [litteredProcessor, Registry.contains]
      rw [warm.addresses rfl address, registered]
      simp only [AccessListItem.addresses, repetitiveCall, BlockContext.ofHeader, Option.getD_some,
        Option.some.injEq, Set.mem_ofPred_eq, Set.mem_insert_iff, Set.mem_singleton_iff,
        List.mem_cons, List.not_mem_nil, or_false, exists_eq_or_imp, exists_eq_left, true_and,
        eq_comm]
      tauto
    · rw [warm.slots rfl]
      ext ⟨address, key⟩
      simp only [AccessListItem.slots, repetitiveCall, Set.mem_ofPred_eq, Set.mem_insert_iff,
        Set.mem_singleton_iff, Prod.mk.injEq, List.mem_cons, List.not_mem_nil, or_false,
        exists_eq_or_imp, exists_eq_left, eq_comm]
      tauto
  · have ran : ((create collectingHost TransferMachine.interpreter {}).toOption.any fun start =>
        (runAll [.prepare 1] start).2.processor.openBlock.isSome) = true := by
      decide +kernel
    obtain ⟨start, created, opened⟩ := exists_created ran
    obtain ⟨block, found⟩ := Option.isSome_iff_exists.mp opened
    have context := opens _ _ _ start _ block created found
    exact ⟨start, block, created, found, congrArg BlockContext.coinbase context⟩

end Chain

end HostedEvm
