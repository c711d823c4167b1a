import HostedEvm.Execution.TransferMachine
import HostedEvm.Proofs.Chain.Records

set_option autoImplicit false

/-!
Chains with caches of different sizes.

A chain without caches does what the chain with caches does, since nothing but an answer of the
reader ever comes from a cache. The answers are the same as well as long as no height is closed
twice: then caches and archive hold the same entries, and it does not matter which of them answers.
-/

namespace HostedEvm

open FinalizedBlock

variable {blocks : List FinalizedBlock}

namespace Reader

variable {reader : Reader}

def uncached (reader : Reader) : Reader :=
  { reader with
    receipts := .roomless, blocksByNumber := .roomless, blocksByHash := .roomless
    lookups := .roomless }

theorem uncached_publish (reader : Reader) (finalized : FinalizedBlock) :
    (reader.publish finalized).uncached = reader.uncached.publish finalized := by
  have kept := Cache.foldl_put_roomless
    (fun inclusion : Inclusion => inclusion.transaction.hash) finalized.block.inclusions
  simp only [publish, uncached, kept]
  rfl

/-- A question changes nothing but caches. -/
theorem uncached_ask (reader : Reader) (archive : Option Archive) (query : Query) :
    (reader.ask archive query).2.uncached = reader.uncached := by
  cases query <;> rfl

theorem ask_uncached (reader : Reader) (archive : Option Archive) (query : Query) :
    (reader.uncached.ask archive query).2 = reader.uncached := by
  cases query <;> simp only [ask, blockByNumber, blockByHash, receiptsByHash, inclusion, uncached,
    Cache.lookUp_roomless]

theorem faithful_uncached (reader : Reader) (blocks : List FinalizedBlock) :
    reader.uncached.Faithful blocks where
  receipts := Cache.within_empty _ _
  blocksByNumber := Cache.within_empty _ _
  blocksByHash := Cache.within_empty _ _
  lookups := Cache.within_empty _ _

/-- Readers of the same blocks answer alike, whatever their caches hold, where no height was closed
twice. -/
theorem Faithful.answers {other : Reader} {archive : Archive} (faithful : reader.Faithful blocks)
    (alike : other.Faithful blocks) (holds : archive.Holds blocks)
    (distinct : (blocks.map fun finalized => finalized.block.number).Nodup) (query : Query) :
    (reader.ask (some archive) query).1 = (other.ask (some archive) query).1 := by
  cases query with
  | blockByNumber number =>
      have same := (faithful.blockByNumber holds number).trans
        (alike.blockByNumber holds number).symm
      exact congrArg Finding.block same
  | blockByHash hash =>
      have same := (faithful.blockByHash holds distinct hash).trans
        (alike.blockByHash holds distinct hash).symm
      exact congrArg Finding.block same
  | receiptsByHash hash =>
      have same := (faithful.receiptsByHash holds hash).trans
        (alike.receiptsByHash holds hash).symm
      exact congrArg Finding.receipts same
  | inclusion hash =>
      have same := (faithful.inclusion holds hash).trans (alike.inclusion holds hash).symm
      exact congrArg Finding.inclusion same

end Reader

namespace Chain

variable {chain first second : Chain} {commands : List ChainCommand}

/-- The chain in front of another archive, whose reader keeps nothing in its caches. -/
def pared (books : Option Archive → Option Archive) (chain : Chain) : Chain :=
  { chain with
    host := { chain.host with archive := books chain.host.archive }
    reader := chain.reader.uncached }

section Pared

variable (books : Option Archive → Option Archive)

theorem openWith_pared (chain : Chain) (header : Header) :
    (chain.pared books).openWith header =
      ((chain.openWith header).1, (chain.openWith header).2.pared books) := by
  simp only [openWith, pared, config]
  split <;> rfl

/-- Nothing that goes into a new block comes from the archive or from a cache. -/
theorem prepare_pared (chain : Chain) (height : UInt64) :
    (chain.pared books).prepare height =
      ((chain.prepare height).1, (chain.prepare height).2.pared books) := by
  by_cases idle : chain.phase = .idle
  · have begun : (chain.pared books).begun = chain.begun.pared books := rfl
    have idleToo : (chain.pared books).phase = .idle := idle
    have header : (chain.begun.pared books).header? height = chain.begun.header? height := rfl
    rw [prepare_of_idle idle, prepare_of_idle idleToo, begun, header]
    split
    · rfl
    · exact openWith_pared books chain.begun _
  · simp only [prepare, pared, ne_eq, idle, not_false_eq_true, if_true]

theorem process_pared (chain : Chain) (tx : Transaction) :
    (chain.pared books).process tx =
      ((chain.process tx).1, (chain.process tx).2.pared books) := by
  by_cases accepting : chain.phase = .accepting <;> simp [process, pared, accepting]

theorem closes_pared (command : ChainCommand) (chain : Chain) :
    command.closes (chain.pared books) = command.closes chain := by
  cases command <;> rfl

end Pared

/-- A step that goes the same way in a view of the chain has the same outcome for chains with the
same view. -/
theorem outcome_alike {Outcome : Type} {view : Chain → Chain} (step : Chain → Outcome × Chain)
    (passes : ∀ chain, step (view chain) = ((step chain).1, view (step chain).2))
    (same : view first = view second) : (step first).1 = (step second).1 := by
  have both := (passes first).symm.trans ((congrArg step same).trans (passes second))
  exact (Prod.mk.inj both).1

def uncached (chain : Chain) : Chain := chain.pared id

@[simp] theorem uncached_phase (chain : Chain) : chain.uncached.phase = chain.phase := rfl

@[simp] theorem uncached_host (chain : Chain) : chain.uncached.host = chain.host := rfl

@[simp] theorem uncached_processor (chain : Chain) :
    chain.uncached.processor = chain.processor := rfl

theorem finalize_uncached (chain : Chain) :
    chain.uncached.finalize = (chain.finalize.1, chain.finalize.2.uncached) := by
  by_cases accepting : chain.phase = .accepting
  · simp only [finalize, uncached_phase, uncached_processor, uncached_host, accepting, ne_eq,
      not_true_eq_false, if_false]
    split
    · rfl
    · simp only [uncached, pared, Reader.uncached_publish]
      rfl
  · simp only [finalize, uncached_phase, ne_eq, accepting, not_false_eq_true, if_true]

end Chain

namespace ChainCommand

variable {first second : Chain}

theorem run_uncached (command : ChainCommand) (chain : Chain) :
    (command.run chain.uncached).2 = (command.run chain).2.uncached := by
  cases command with
  | prepare height => exact congrArg Prod.snd (chain.prepare_pared id height)
  | process tx => exact congrArg Prod.snd (chain.process_pared id tx)
  | finalize => exact congrArg Prod.snd chain.finalize_uncached
  | ask query =>
      have asked := (chain.reader.ask_uncached chain.host.archive query).trans
        (chain.reader.uncached_ask chain.host.archive query).symm
      exact congrArg (fun reader => { chain with reader }) asked
  | _ => rfl

/-- Chains that differ in their caches alone differ in nothing else after the same command, which
closes the same block. -/
theorem run_alike (same : first.uncached = second.uncached) (command : ChainCommand) :
    (command.run first).2.uncached = (command.run second).2.uncached ∧
      command.closes first = command.closes second := by
  constructor
  · rw [← command.run_uncached first, same, command.run_uncached second]
  · exact (Chain.closes_pared id command first).symm.trans
      ((congrArg command.closes same).trans (Chain.closes_pared id command second))

/-- Chains that differ in their caches alone answer alike, where no height was closed twice. -/
theorem reply_alike (same : first.uncached = second.uncached) (ledgered : first.Ledgered blocks)
    (alike : second.Ledgered blocks)
    (distinct : (blocks.map fun finalized => finalized.block.number).Nodup)
    (command : ChainCommand) : (command.run first).1 = (command.run second).1 := by
  cases command with
  | prepare height =>
      have outcome := Chain.outcome_alike (·.prepare height) (·.prepare_pared id height) same
      exact congrArg ChainReply.prepared outcome
  | process tx =>
      have outcome := Chain.outcome_alike (·.process tx) (·.process_pared id tx) same
      exact congrArg ChainReply.processed outcome
  | finalize =>
      have outcome := Chain.outcome_alike Chain.finalize Chain.finalize_uncached same
      exact congrArg ChainReply.finalized outcome
  | ask query =>
      have host : first.host = second.host := by
        rw [← first.uncached_host, same, second.uncached_host]
      obtain ⟨archive, present, holds⟩ := ledgered.archive
      have answers := ledgered.reader.answers alike.reader holds distinct query
      rw [← present] at answers
      calc ((ask query).run first).1
          = .found (first.reader.ask first.host.archive query).1 := rfl
        _ = .found (second.reader.ask first.host.archive query).1 := congrArg _ answers
        _ = .found (second.reader.ask second.host.archive query).1 := by rw [host]
  | change command =>
      have processor : first.processor = second.processor := by
        rw [← first.uncached_processor, same, second.uncached_processor]
      exact congrArg (fun processor => ChainReply.changed (command.run processor.state).1) processor
  | _ => rfl

end ChainCommand

namespace Chain

variable {first second : Chain} {commands : List ChainCommand}

/-- Chains that differ in their caches alone give the same replies to the same commands, where no
height is closed twice, and differ in nothing else behind them. -/
theorem runAll_alike (same : first.uncached = second.uncached) (ledgered : first.Ledgered blocks)
    (alike : second.Ledgered blocks) (filed : Filed commands first)
    (distinct : ((closed commands first ++ blocks).map fun finalized =>
      finalized.block.number).Nodup) :
    (runAll commands first).1 = (runAll commands second).1 ∧
      (runAll commands first).2.uncached = (runAll commands second).2.uncached := by
  induction commands generalizing first second blocks with
  | nil => exact ⟨rfl, same⟩
  | cons command rest inductionHypothesis =>
      have settled : (blocks.map fun finalized => finalized.block.number).Nodup :=
        distinct.sublist ((List.sublist_append_right _ _).map _)
      have reply := command.reply_alike same ledgered alike settled
      obtain ⟨left, closes⟩ := command.run_alike same
      have taken : (command.run first).1.isUnfiled = false := filed _ List.mem_cons_self
      -- the replies are the same, so the second chain filed its block as well
      have takenToo := taken
      rw [reply] at takenToo
      have behind := alike.run takenToo
      rw [← closes] at behind
      rw [closed, List.append_assoc] at distinct
      obtain ⟨replies, later⟩ := inductionHypothesis left (ledgered.run taken) behind
        (fun reply listed => filed reply (List.mem_cons_of_mem _ listed)) distinct
      exact ⟨congrArg₂ List.cons reply replies, later⟩

variable {host : Host} {interpreter : Interpreter} {narrow wide : CacheBudgets}

theorem create_alike {config : RuntimeConfig}
    (created : create host interpreter { config with caches := narrow } = .ok first)
    (other : create host interpreter { config with caches := wide } = .ok second) :
    first.uncached = second.uncached := by
  obtain ⟨processor, loaded, rfl⟩ := create_eq_ok created
  obtain ⟨_, again, rfl⟩ := create_eq_ok other
  cases loaded.symm.trans again
  rfl

/-- How much room the caches of a reader have cannot be told from any reply, nor whether there are
caches, as long as no height is closed twice. -/
theorem budgets_unobservable (config : RuntimeConfig) (kept : host.archive = some {})
    (created : create host interpreter { config with caches := narrow } = .ok first)
    (other : create host interpreter { config with caches := wide } = .ok second)
    (filed : Filed commands first)
    (distinct : ((closed commands first).map fun finalized => finalized.block.number).Nodup) :
    (runAll commands first).1 = (runAll commands second).1 ∧
      (runAll commands first).1 = (runAll commands first.uncached).1 ∧
      (runAll commands first).2.uncached = (runAll commands second).2.uncached := by
  have ledgered := ledgered_of_create kept created
  have same : first.uncached = first.uncached.uncached := rfl
  have bare : first.uncached.Ledgered [] :=
    { ledgered with reader := first.reader.faithful_uncached [] }
  rw [← List.append_nil (closed commands first)] at distinct
  obtain ⟨replies, behind⟩ := runAll_alike (create_alike created other) ledgered
    (ledgered_of_create kept other) filed distinct
  exact ⟨replies, (runAll_alike same ledgered bare filed distinct).1, behind⟩

def sampleHost : Host := { accounts := [(1, 1000000)], archive := some {} }

/-- Two blocks, the first with a transaction, and questions that crowd the smallest caches. -/
def sampleRun : List ChainCommand :=
  [.prepare 1, .process { sender := 1, recipient := some 2, gasLimit := 21000, hash := 5 },
    .finalize, .ask (.blockByNumber 1), .prepare 2, .finalize, .ask (.blockByNumber 1),
    .ask (.inclusion 5), .ask (.blockByNumber 2), .ask (.blockByNumber 1)]

theorem smallest_unobservable : ∃ first second,
    create sampleHost TransferMachine.interpreter { caches := ⟨1, 1, 1, 1⟩ } = .ok first ∧
      create sampleHost TransferMachine.interpreter {} = .ok second ∧ Filed sampleRun first ∧
      ((closed sampleRun first).map fun finalized => finalized.block.number) = [2, 1] ∧
      (runAll sampleRun first).1 = (runAll sampleRun second).1 := by
  have ran : ((create sampleHost TransferMachine.interpreter
      { caches := ⟨1, 1, 1, 1⟩ }).toOption.any fun first =>
      decide (Filed sampleRun first ∧
        ((closed sampleRun first).map fun finalized => finalized.block.number) = [2, 1])) = true ∧
      ((create sampleHost TransferMachine.interpreter {}).toOption.any fun _ => true) = true := by
    decide +kernel
  obtain ⟨first, created, passed⟩ := exists_created ran.1
  obtain ⟨second, other, _⟩ := exists_created ran.2
  obtain ⟨filed, numbers⟩ := of_decide_eq_true passed
  have distinct : ((closed sampleRun first).map fun finalized => finalized.block.number).Nodup := by
    rw [numbers]
    decide
  have replies := budgets_unobservable {} rfl created other filed distinct
  exact ⟨first, second, created, other, filed, numbers, replies.1⟩

end Chain

end HostedEvm
