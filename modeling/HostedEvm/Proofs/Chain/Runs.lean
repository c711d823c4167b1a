import HostedEvm.Chain.Chain
import HostedEvm.State.Command

set_option autoImplicit false

/-!
Runs of a chain.

Whatever a host does with a chain is a sequence of commands: the steps of a block, questions to the
reader, changes of the state between the steps, other precompiles, and what of a block the host
takes. All that a command can do to the books, the host and the reader, is to look something up, to
turn writes on or off, or to close a block. A statement about the blocks closed so far therefore
needs one proof for each of these.
-/

namespace HostedEvm

inductive Query
  | blockByNumber (number : UInt64)
  | blockByHash (hash : Word)
  | receiptsByHash (hash : Word)
  | inclusion (hash : Word)

inductive Finding
  | block (found : Option Block)
  | receipts (found : Option (List Receipt))
  | inclusion (found : Option Inclusion)

def Reader.ask (reader : Reader) (archive : Option Archive) : Query → Finding × Reader
  | .blockByNumber number =>
    let (found, reader) := reader.blockByNumber archive number
    (.block found, reader)
  | .blockByHash hash =>
    let (found, reader) := reader.blockByHash archive hash
    (.block found, reader)
  | .receiptsByHash hash =>
    let (found, reader) := reader.receiptsByHash archive hash
    (.receipts found, reader)
  | .inclusion hash =>
    let (found, reader) := reader.inclusion archive hash
    (.inclusion found, reader)

namespace Host

/-- The host with an archive, if it has one, that does not take some parts of a block. -/
def closeArchive (host : Host) (closed : Filing → Bool) : Host :=
  { host with archive := host.archive.map fun archive => { archive with closed } }

def closeHeaders (host : Host) (closed : Bool) : Host := { host with headersClosed := closed }

end Host

inductive ChainCommand
  | prepare (height : UInt64)
  | process (tx : Transaction)
  | finalize
  | ask (query : Query)
  /-- Change the state between two steps. -/
  | change (command : StateCommand)
  /-- Let the host have other precompiles from now on. -/
  | declare (precompiles : ForkRules → List Precompile)
  /-- Let the archive not take some parts of a block. -/
  | closeArchive (closed : Filing → Bool)
  /-- Let the host take no headers, or take them again. -/
  | closeHeaders (closed : Bool)

inductive ChainReply
  | prepared (outcome : Except ChainFault Unit)
  | processed (outcome : Except ChainFault Receipt)
  | finalized (outcome : Except ChainFault Block)
  | found (finding : Finding)
  | changed (reply : Reply)
  | done

/-- Whether a block was closed and the host did not take all of it. -/
def ChainReply.isUnfiled : ChainReply → Bool
  | .finalized (.error .archiveUnavailable) | .finalized (.error .headersUnavailable) => true
  | _ => false

namespace Chain

variable {chain next : Chain} {finalized : FinalizedBlock}

theorem withPrecompiles_eq_ok (loaded : chain.withPrecompiles = .ok next) :
    ∃ processor, chain.processor.loadPrecompiles (chain.config.rules 0 0) = (.ok (), processor) ∧
      next = { chain with processor } := by
  unfold withPrecompiles at loaded
  split at loaded
  · rename_i processor built
    cases loaded
    exact ⟨processor, built, rfl⟩
  · cases loaded

/-- A chain starts with the books of its host and an empty reader. -/
theorem create_eq_ok {host : Host} {interpreter : Interpreter} {config : RuntimeConfig}
    (created : create host interpreter config = .ok chain) :
    ∃ processor,
      (processorOf host interpreter).loadPrecompiles
          ((config.chain.getD host.chainConfig).rules 0 0) = (.ok (), processor) ∧
        chain =
          { host, configured := config.chain, processor, reader := Reader.ofConfig config } := by
  unfold create at created
  split at created
  · cases created
  · cases created
  · exact withPrecompiles_eq_ok created

/-- A chain that was created passes a test, if the outcome of its creation does. -/
theorem exists_created {outcome : Except ChainFault Chain} {test : Chain → Bool}
    (passed : outcome.toOption.any test = true) : ∃ start, outcome = .ok start ∧ test start := by
  cases outcome with
  | error fault => cases passed
  | ok start => exact ⟨start, rfl, passed⟩

def closing? (chain : Chain) : Option FinalizedBlock :=
  if chain.phase = .accepting then chain.processor.finalize.1.toOption else none

theorem finalize_of_closing (closing : chain.closing? = some finalized) :
    chain.finalize =
      ((file chain.host finalized).1,
        { chain with
          phase := .idle, processor := chain.processor.finalize.2
          host := (file chain.host finalized).2, reader := chain.reader.publish finalized }) := by
  unfold closing? at closing
  split at closing
  · rename_i accepting
    unfold finalize
    rw [if_neg (not_not_intro accepting)]
    rcases ran : chain.processor.finalize with ⟨outcome, processor⟩
    rw [ran] at closing
    cases outcome with
    | ok found =>
        cases closing
        rfl
    | error fault => cases closing
  · cases closing

theorem finalize_of_not_closing (closing : chain.closing? = none) :
    ∃ fault phase processor, chain.finalize = (.error fault, { chain with phase, processor }) := by
  unfold closing? at closing
  unfold finalize
  split at closing
  · rename_i accepting
    rw [if_neg (not_not_intro accepting)]
    rcases ran : chain.processor.finalize with ⟨outcome, processor⟩
    rw [ran] at closing
    cases outcome with
    | ok found => cases closing
    | error fault => exact ⟨_, _, _, rfl⟩
  · rename_i other
    rw [if_pos other]
    exact ⟨_, _, _, rfl⟩

def begun (chain : Chain) : Chain :=
  { chain with
    phase := .preparing, processor := chain.processor.beginBlock chain.config.maxGas }

theorem prepare_of_idle (idle : chain.phase = .idle) (height : UInt64) :
    chain.prepare height =
      match chain.begun.header? height with
      | .error fault => (.error fault, chain.begun)
      | .ok header => chain.begun.openWith header :=
  if_neg (not_not_intro idle)

theorem openWith_snd (chain : Chain) (header : Header) :
    ∃ phase processor, (chain.openWith header).2 = { chain with phase, processor } := by
  unfold openWith
  simp only
  split
  · exact ⟨_, _, rfl⟩
  · exact ⟨_, _, rfl⟩

theorem prepare_snd (chain : Chain) (height : UInt64) :
    ∃ phase processor, (chain.prepare height).2 = { chain with phase, processor } := by
  by_cases idle : chain.phase = .idle
  · rw [prepare_of_idle idle]
    split
    · exact ⟨_, _, rfl⟩
    · exact chain.begun.openWith_snd _
  · unfold prepare
    rw [if_pos idle]
    exact ⟨_, _, rfl⟩

theorem process_snd (chain : Chain) (tx : Transaction) :
    ∃ phase processor, (chain.process tx).2 = { chain with phase, processor } := by
  unfold process
  split
  · exact ⟨_, _, rfl⟩
  · exact ⟨_, _, rfl⟩

/-- What one command can do to the host and the reader of a chain, with the blocks it closes. -/
inductive Moves (chain : Chain) : List FinalizedBlock → Chain → Prop
  | within {phase : Phase} {processor : Processor} : Moves chain [] { chain with phase, processor }
  | asked (query : Query) :
      Moves chain [] { chain with reader := (chain.reader.ask chain.host.archive query).2 }
  | archive (closed : Filing → Bool) :
      Moves chain [] { chain with host := chain.host.closeArchive closed }
  | headers (closed : Bool) : Moves chain [] { chain with host := chain.host.closeHeaders closed }
  | closed {finalized : FinalizedBlock} {processor : Processor} :
      chain.closing? = some finalized →
      Moves chain [finalized]
        { chain with
          phase := .idle, processor, host := (file chain.host finalized).2
          reader := chain.reader.publish finalized }

end Chain

namespace ChainCommand

def run : ChainCommand → Chain → ChainReply × Chain
  | .prepare height, chain =>
    let (outcome, chain) := chain.prepare height
    (.prepared outcome, chain)
  | .process tx, chain =>
    let (outcome, chain) := chain.process tx
    (.processed outcome, chain)
  | .finalize, chain =>
    let (outcome, chain) := chain.finalize
    (.finalized outcome, chain)
  | .ask query, chain =>
    let (finding, reader) := chain.reader.ask chain.host.archive query
    (.found finding, { chain with reader })
  | .change command, chain =>
    let (reply, state) := command.run chain.processor.state
    (.changed reply, { chain with processor := { chain.processor with state } })
  | .declare precompiles, chain =>
    (.done, { chain with processor := { chain.processor with precompiles } })
  | .closeArchive closed, chain => (.done, { chain with host := chain.host.closeArchive closed })
  | .closeHeaders closed, chain => (.done, { chain with host := chain.host.closeHeaders closed })

def closes : ChainCommand → Chain → List FinalizedBlock
  | .finalize, chain => chain.closing?.toList
  | _, _ => []

theorem moves_run (command : ChainCommand) (chain : Chain) :
    chain.Moves (command.closes chain) (command.run chain).2 := by
  cases command with
  | prepare height =>
      obtain ⟨phase, processor, left⟩ := chain.prepare_snd height
      have ran : ((prepare height).run chain).2 = (chain.prepare height).2 := rfl
      rw [ran, left]
      exact .within
  | process tx =>
      obtain ⟨phase, processor, left⟩ := chain.process_snd tx
      have ran : ((process tx).run chain).2 = (chain.process tx).2 := rfl
      rw [ran, left]
      exact .within
  | finalize =>
      have ran : (finalize.run chain).2 = chain.finalize.2 := rfl
      rw [ran, closes]
      cases closing : chain.closing? with
      | none =>
          obtain ⟨fault, phase, processor, left⟩ := Chain.finalize_of_not_closing closing
          rw [left]
          exact .within
      | some finalized =>
          rw [Chain.finalize_of_closing closing]
          exact .closed closing
  | ask query => exact .asked query
  | change command => exact .within
  | declare precompiles => exact .within
  | closeArchive closed => exact .archive closed
  | closeHeaders closed => exact .headers closed

end ChainCommand

namespace Chain

def runAll : List ChainCommand → Chain → List ChainReply × Chain
  | [], chain => ([], chain)
  | command :: rest, chain =>
    let (reply, chain) := command.run chain
    let (replies, chain) := runAll rest chain
    (reply :: replies, chain)

/-- The blocks that commands finalize, newest first. -/
def closed : List ChainCommand → Chain → List FinalizedBlock
  | [], _ => []
  | command :: rest, chain => closed rest (command.run chain).2 ++ command.closes chain

def Filed (commands : List ChainCommand) (chain : Chain) : Prop :=
  ∀ reply ∈ (runAll commands chain).1, reply.isUnfiled = false

instance (commands : List ChainCommand) (chain : Chain) : Decidable (Filed commands chain) :=
  inferInstanceAs (Decidable (∀ reply ∈ (runAll commands chain).1, _))

/-- What holds of the blocks closed so far and the chain, and is kept by every command with an
allowed reply, holds behind a run. -/
theorem runAll_keeps {invariant : List FinalizedBlock → Chain → Prop} {allowed : ChainReply → Prop}
    (step : ∀ (past : List FinalizedBlock) (chain : Chain) (command : ChainCommand),
      invariant past chain → allowed (command.run chain).1 →
      invariant (command.closes chain ++ past) (command.run chain).2)
    {commands : List ChainCommand} {past : List FinalizedBlock} {chain : Chain}
    (start : invariant past chain) (replies : ∀ reply ∈ (runAll commands chain).1, allowed reply) :
    invariant (closed commands chain ++ past) (runAll commands chain).2 := by
  induction commands generalizing past chain with
  | nil => exact start
  | cons command rest inductionHypothesis =>
      have first := step past chain command start (replies _ List.mem_cons_self)
      have later := inductionHypothesis first fun reply member =>
        replies reply (List.mem_cons_of_mem _ member)
      rw [closed, List.append_assoc]
      exact later

/-- What holds of the blocks closed so far and the chain, and is kept by every allowed command,
holds behind a run of such commands. -/
theorem runAll_permitted {invariant : List FinalizedBlock → Chain → Prop}
    {allowed : ChainCommand → Prop}
    (step : ∀ (past : List FinalizedBlock) (chain : Chain) (command : ChainCommand),
      invariant past chain → allowed command →
      invariant (command.closes chain ++ past) (command.run chain).2)
    {commands : List ChainCommand} {past : List FinalizedBlock} {chain : Chain}
    (start : invariant past chain) (permitted : ∀ command ∈ commands, allowed command) :
    invariant (closed commands chain ++ past) (runAll commands chain).2 := by
  induction commands generalizing past chain with
  | nil => exact start
  | cons command rest inductionHypothesis =>
      have first := step past chain command start (permitted command List.mem_cons_self)
      have later := inductionHypothesis first fun other listed =>
        permitted other (List.mem_cons_of_mem _ listed)
      rw [closed, List.append_assoc]
      exact later

end Chain

end HostedEvm
