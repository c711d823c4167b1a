import HostedEvm.Proofs.Chain.Budgets
import HostedEvm.Proofs.Chain.Order
import HostedEvm.Proofs.Feed

set_option autoImplicit false

/-!
Chains with different archives.

A block is final and announced before the archive gets it, and nothing but an answer of the reader
ever comes from the archive. Chains whose archives differ, in what they hold and in what they take,
therefore close the same blocks and announce the same, as long as they go through the same steps.
What the host says of headers counts among the steps, since the next block names its parent by them.
-/

namespace HostedEvm

open FinalizedBlock

variable {blocks closes : List FinalizedBlock} {finalized : FinalizedBlock}
  {chain next first second : Chain} {commands others : List ChainCommand}

/-- Whether a command goes on with a block or changes the state, whatever the archive is. -/
def ChainCommand.isStep : ChainCommand → Bool
  | .ask _ => false
  | .closeArchive _ => false
  | _ => true

def ChainReply.isGivenUp : ChainReply → Bool
  | .prepared (.error fault) => fault.isFatal
  | _ => false

namespace Host

def refuses (host : Host) : Bool := host.archive.any Archive.refuses

def unarchived (host : Host) : Host := { host with archive := none }

end Host

namespace Reader

variable {reader : Reader}

/-- A reader shows the last of some blocks, newest first, and has announced each of them. -/
structure Announced (blocks : List FinalizedBlock) (reader : Reader) : Prop where
  current : reader.current = blocks.head?.map FinalizedBlock.block
  finalized : reader.finalized = blocks.head?.map FinalizedBlock.block
  currentReceipts : reader.currentReceipts = (blocks.head?.map FinalizedBlock.receipts).getD []
  currentLogs : reader.currentLogs = (blocks.head?.map FinalizedBlock.logs).getD []
  chain : reader.feeds.chain.Carries
    (blocks.map fun finalized => ⟨finalized.block, finalized.block.hash, finalized.logs⟩)
  head : reader.feeds.head.Carries (blocks.map FinalizedBlock.block)
  logs : reader.feeds.logs.Carries
    ((blocks.map FinalizedBlock.logs).filter fun logs => !logs.isEmpty)
  pendingLogs : reader.feeds.pendingLogs.Carries (blocks.map FinalizedBlock.logs)

theorem announced_ofConfig (config : RuntimeConfig) : Announced [] (ofConfig config) :=
  ⟨rfl, rfl, rfl, rfl, Feed.carries_ofCapacity _, Feed.carries_ofCapacity _,
    Feed.carries_ofCapacity _, Feed.carries_ofCapacity _⟩

theorem Announced.publish (announced : reader.Announced blocks) (finalized : FinalizedBlock) :
    (reader.publish finalized).Announced (finalized :: blocks) where
  current := rfl
  finalized := rfl
  currentReceipts := rfl
  currentLogs := rfl
  chain := announced.chain.send _
  head := announced.head.send _
  logs := by
    simp only [Reader.publish, ChainFeeds.publish]
    by_cases silent : finalized.logs.isEmpty
    · simpa [silent] using announced.logs
    · simpa [silent] using announced.logs.send finalized.logs
  pendingLogs := announced.pendingLogs.send _

theorem Announced.ask (announced : reader.Announced blocks) (archive : Option Archive)
    (query : Query) : (reader.ask archive query).2.Announced blocks := by
  cases query <;> exact { announced with }

end Reader

namespace Chain

/-- The chain without an archive, whose reader keeps nothing in its caches. -/
def bare (chain : Chain) : Chain := chain.pared fun _ => none

theorem file_fst (host : Host) (finalized : FinalizedBlock) :
    (file host finalized).1 =
      if host.headersClosed then .error .headersUnavailable
      else if host.refuses then .error .archiveUnavailable else .ok finalized.block := by
  unfold file
  split
  · rfl
  · unfold Host.refuses
    cases present : host.archive with
    | none => simp [Host.withHeader, present]
    | some archive =>
        simp only [Host.withHeader, present, Archive.store_fst, Option.any_some]
        split <;> rfl

theorem file_unarchived (host : Host) (finalized : FinalizedBlock) :
    (file host.unarchived finalized).2 = (file host finalized).2.unarchived := by
  unfold file Host.unarchived
  simp only
  split
  · rfl
  · cases present : host.archive <;> simp [Host.withHeader, present]

theorem closing?_bare (chain : Chain) : chain.bare.closing? = chain.closing? := rfl

theorem finalize_of_some (closing : chain.closing? = some finalized) :
    chain.finalize.1 =
        (if chain.host.headersClosed then .error .headersUnavailable
        else if chain.host.refuses then .error .archiveUnavailable else .ok finalized.block) ∧
      chain.bare.finalize.2 = chain.finalize.2.bare := by
  have alike : chain.bare.closing? = some finalized := closing
  have host : (file chain.bare.host finalized).2 = (file chain.host finalized).2.unarchived :=
    file_unarchived chain.host finalized
  have reader : chain.bare.reader.publish finalized = (chain.reader.publish finalized).uncached :=
    (chain.reader.uncached_publish finalized).symm
  rw [finalize_of_closing closing, finalize_of_closing alike]
  refine ⟨file_fst _ _, ?_⟩
  simp only [host, reader]
  rfl

theorem finalize_of_none (closing : chain.closing? = none) :
    chain.bare.finalize = (chain.finalize.1, chain.finalize.2.bare) := by
  by_cases accepting : chain.phase = .accepting
  · cases opened : chain.processor.openBlock with
    | none => simp [finalize, Processor.finalize, bare, pared, accepting, opened]
    | some block =>
        simp [closing?, Processor.finalize, accepting, opened, Except.toOption] at closing
  · simp [finalize, bare, pared, accepting]

end Chain

namespace ChainCommand

theorem run_bare {command : ChainCommand} (step : command.isStep) (chain : Chain) :
    (command.run chain.bare).2 = (command.run chain).2.bare := by
  cases command with
  | prepare height => exact congrArg Prod.snd (chain.prepare_pared _ height)
  | process tx => exact congrArg Prod.snd (chain.process_pared _ tx)
  | finalize =>
      cases closing : chain.closing? with
      | some finalized => exact (Chain.finalize_of_some closing).2
      | none => exact congrArg Prod.snd (Chain.finalize_of_none closing)
  | ask query => cases step
  | closeArchive closed => cases step
  | _ => rfl

/-- A command that is no step changes nothing but archive and caches. -/
theorem bare_aside {command : ChainCommand} (aside : command.isStep = false) (chain : Chain) :
    (command.run chain).2.bare = chain.bare ∧ command.closes chain = [] := by
  cases command with
  | ask query =>
      have asked := chain.reader.uncached_ask chain.host.archive query
      exact ⟨congrArg (fun reader => { chain.bare with reader }) asked, rfl⟩
  | closeArchive closed => exact ⟨rfl, rfl⟩
  | _ => cases aside

end ChainCommand

namespace Chain

/-- A chain does what it does without archive, caches and the commands that concern them. -/
theorem runAll_bare (commands : List ChainCommand) (chain : Chain) :
    (runAll commands chain).2.bare =
        (runAll (commands.filter ChainCommand.isStep) chain.bare).2 ∧
      closed commands chain = closed (commands.filter ChainCommand.isStep) chain.bare := by
  -- a step is taken by both chains, anything else by the one with the archive alone
  induction commands generalizing chain with
  | nil => exact ⟨rfl, rfl⟩
  | cons command rest inductionHypothesis =>
      obtain ⟨behind, blocks⟩ := inductionHypothesis (command.run chain).2
      cases step : command.isStep with
      | true =>
          rw [← command.run_bare step] at behind blocks
          rw [List.filter_cons_of_pos step]
          exact ⟨behind, congrArg₂ (· ++ ·) blocks (Chain.closes_pared _ command chain).symm⟩
      | false =>
          obtain ⟨same, nothing⟩ := command.bare_aside step chain
          rw [same] at behind blocks
          rw [List.filter_cons_of_neg (by simp [step]), closed, nothing, List.append_nil]
          exact ⟨behind, blocks⟩

theorem create_bare {host : Host} {interpreter : Interpreter} {config : RuntimeConfig}
    {archive other : Option Archive}
    (created : create { host with archive } interpreter config = .ok first)
    (again : create { host with archive := other } interpreter config = .ok second) :
    first.bare = second.bare := by
  obtain ⟨processor, loaded, rfl⟩ := create_eq_ok created
  obtain ⟨_, loadedToo, rfl⟩ := create_eq_ok again
  cases loaded.symm.trans loadedToo
  rfl

theorem announced_moves (announced : chain.reader.Announced blocks)
    (moved : chain.Moves closes next) : next.reader.Announced (closes ++ blocks) := by
  cases moved with
  | asked query => exact announced.ask _ query
  | closed => exact announced.publish _
  | _ => exact announced

theorem announced_of_run {host : Host} {interpreter : Interpreter} {config : RuntimeConfig}
    {start : Chain} (created : create host interpreter config = .ok start)
    (commands : List ChainCommand) :
    (runAll commands start).2.reader.Announced (closed commands start) := by
  have step : ∀ (past : List FinalizedBlock) (chain : Chain) (command : ChainCommand),
      chain.reader.Announced past → True →
      (command.run chain).2.reader.Announced (command.closes chain ++ past) :=
    fun _ chain command announced _ => announced_moves announced (command.moves_run chain)
  have atStart : start.reader.Announced [] := by
    obtain ⟨_, _, rfl⟩ := create_eq_ok created
    exact Reader.announced_ofConfig config
  have announced := runAll_keeps step atStart fun _ (_ : _ ∈ (runAll commands start).1) => trivial
  rw [List.append_nil] at announced
  exact announced

theorem isFatal_of_header? {height : UInt64} {fault : ChainFault}
    (failed : chain.header? height = .error fault) : fault.isFatal = true := by
  unfold header? at failed
  cases timed : chain.host.timeOf height with
  | error cause =>
      rw [timed] at failed
      cases failed
      rfl
  | ok timestamp =>
      cases found : chain.parentHash height with
      | ok hash =>
          rw [timed, found] at failed
          cases failed
      | error missing =>
          rw [timed, found] at failed
          cases failed
          unfold parentHash at found
          split at found
          · cases found
          · split at found <;> cases found
            rfl

def Steady (chain : Chain) : Prop := chain.phase = .idle ∨ chain.phase = .accepting

theorem Steady.prepare {height : UInt64} (steady : chain.Steady)
    (kept : ChainReply.isGivenUp (.prepared (chain.prepare height).1) = false) :
    (chain.prepare height).2.Steady := by
  by_cases idle : chain.phase = .idle
  · rw [prepare_of_idle idle] at kept ⊢
    cases made : chain.begun.header? height with
    | error fault =>
        simp [made, ChainReply.isGivenUp, isFatal_of_header? made] at kept
    | ok header =>
        simp only [openWith]
        split
        · exact .inr rfl
        · exact .inl rfl
  · unfold Chain.prepare
    rw [if_pos idle]
    exact steady

theorem Steady.process (steady : chain.Steady) (tx : Transaction) :
    (chain.process tx).2.Steady := by
  unfold Chain.process
  split <;> exact steady

/-- A chain that is not in the middle of a step is idle behind the end of a block, whether or not
the archive took it. -/
theorem Steady.finalize (steady : chain.Steady) : chain.finalize.2.phase = .idle := by
  unfold Chain.finalize
  rcases steady with idle | accepting
  · simp [idle]
  · simp only [accepting, ne_eq, not_true_eq_false, if_false]
    split <;> rfl

theorem Steady.run {command : ChainCommand} (steady : chain.Steady)
    (kept : (command.run chain).1.isGivenUp = false) : (command.run chain).2.Steady := by
  cases command with
  | prepare height => exact steady.prepare kept
  | process tx => exact steady.process tx
  | finalize => exact .inl steady.finalize
  | _ => exact steady

variable {host : Host} {interpreter : Interpreter} {config : RuntimeConfig} {start : Chain}

theorem steady_of_run (created : create host interpreter config = .ok start)
    (kept : ∀ reply ∈ (runAll commands start).1, reply.isGivenUp = false) :
    (runAll commands start).2.Steady := by
  let invariant (_ : List FinalizedBlock) (chain : Chain) : Prop := chain.Steady
  have atStart : invariant [] start := by
    obtain ⟨_, _, rfl⟩ := create_eq_ok created
    exact .inl rfl
  have step : ∀ (past : List FinalizedBlock) (chain : Chain) (command : ChainCommand),
      invariant past chain → (command.run chain).1.isGivenUp = false →
      invariant (command.closes chain ++ past) (command.run chain).2 :=
    fun _ _ _ steady => steady.run
  exact runAll_keeps step atStart kept

/-- Whatever archives two hosts have, and whichever parts of a block they take, chains on them that
go through the same steps close the same blocks with the same receipts and logs, and differ in
nothing but the archives and the caches in front of them. They give the same replies to every step,
except that the end of a block whose header the host takes fails exactly where the archive refuses
the block. Each block is announced once, and one that is prepared right behind another names it as
its parent, whether or not it was filed, as long as the host takes headers. -/
theorem archive_unobservable (host : Host) {archive other : Option Archive}
    (created : create { host with archive } interpreter config = .ok first)
    (again : create { host with archive := other } interpreter config = .ok second)
    (same : commands.filter ChainCommand.isStep = others.filter ChainCommand.isStep)
    (counted : CountedUp (prepared commands first)) :
    let left := (runAll commands first).2
    let right := (runAll others second).2
    closed commands first = closed others second ∧ left.bare = right.bare ∧
      (∀ height, (left.prepare height).1 = (right.prepare height).1) ∧
      (∀ tx, (left.process tx).1 = (right.process tx).1) ∧
      left.closing? = right.closing? ∧
      (left.closing? = none → left.finalize.1 = right.finalize.1) ∧
      (∀ finalized, left.closing? = some finalized →
        left.finalize.1 =
          if left.host.headersClosed then .error .headersUnavailable
          else if left.host.refuses then .error .archiveUnavailable else .ok finalized.block) ∧
      ((∀ reply ∈ (runAll commands first).1, reply.isGivenUp = false) →
        left.finalize.2.phase = .idle) ∧
      (host.headersClosed = false → .closeHeaders true ∉ commands →
        left.host.headersClosed = false ∧ Linked (closed commands first)) ∧
      left.reader.Announced (closed commands first) := by
  obtain ⟨leftBare, leftBlocks⟩ := runAll_bare commands first
  obtain ⟨rightBare, rightBlocks⟩ := runAll_bare others second
  rw [create_bare created again, same] at leftBare leftBlocks
  have alike := leftBare.trans rightBare.symm
  have closings := congrArg closing? alike
  rw [closing?_bare, closing?_bare] at closings
  refine ⟨leftBlocks.trans rightBlocks.symm, alike, ?_, ?_, closings, ?_, ?_, ?_, ?_,
    announced_of_run created commands⟩
  · intro height
    exact outcome_alike (·.prepare height) (·.prepare_pared _ height) alike
  · intro tx
    exact outcome_alike (·.process tx) (·.process_pared _ tx) alike
  · intro nothing
    have nothingToo := closings.symm.trans nothing
    have outcome := congrArg (fun chain => chain.finalize.1) alike
    simpa [finalize_of_none nothing, finalize_of_none nothingToo] using outcome
  · intro finalized closing
    exact (finalize_of_some closing).1
  · intro kept
    exact (steady_of_run created kept).finalize
  · intro taking still
    exact ⟨(kept_of_run created taking still).taking, linked_of_run created taking still counted⟩

def fundedHost : Host := { accounts := [(1, 1000000)] }

def twoBlocks : List ChainCommand :=
  [.prepare 1, .process { sender := 1, recipient := some 2, gasLimit := 21000, hash := 5 },
    .finalize, .prepare 2, .finalize]

/-- The same two blocks, where the archive takes the first without its receipts. -/
def firstRefused : List ChainCommand :=
  .closeArchive (· == .receipts) :: twoBlocks.take 3 ++
    .closeArchive (fun _ => false) :: twoBlocks.drop 3

theorem twoBlocks_unobservable : ∃ first second,
    create { fundedHost with archive := none } TransferMachine.interpreter {} = .ok first ∧
      create { fundedHost with archive := some {} } TransferMachine.interpreter {} = .ok second ∧
      prepared twoBlocks first = [2, 1] ∧ closed twoBlocks first = closed firstRefused second ∧
      (runAll twoBlocks first).2.bare = (runAll firstRefused second).2.bare ∧
      Linked (closed twoBlocks first) := by
  have ran : ((create { fundedHost with archive := none } TransferMachine.interpreter
        {}).toOption.any fun first => decide (prepared twoBlocks first = [2, 1])) = true ∧
      ((create { fundedHost with archive := some {} } TransferMachine.interpreter
        {}).toOption.any fun _ => true) = true := by
    decide +kernel
  obtain ⟨first, created, passed⟩ := exists_created ran.1
  obtain ⟨second, again, _⟩ := exists_created ran.2
  have heights := of_decide_eq_true passed
  have counted : CountedUp (prepared twoBlocks first) := by
    rw [heights]
    decide
  have same : twoBlocks.filter ChainCommand.isStep = firstRefused.filter ChainCommand.isStep := rfl
  have still : .closeHeaders true ∉ twoBlocks := by simp [twoBlocks]
  obtain ⟨blocks, bare, _, _, _, _, _, _, linked, _⟩ :=
    archive_unobservable fundedHost created again same counted
  exact ⟨first, second, created, again, heights, blocks, bare, (linked rfl still).2⟩

end Chain

end HostedEvm
