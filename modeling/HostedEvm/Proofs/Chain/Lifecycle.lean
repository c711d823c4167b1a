import HostedEvm.Proofs.Chain.Persistence
import HostedEvm.Proofs.Chain.Replay

set_option autoImplicit false

/-!
The order of the steps of a chain.

Whatever is asked of a chain, a step is refused as out of turn exactly where the chain is not in the
phase that the step needs, and then nothing changes. The other steps read as one block after the
other, each with its preparation, its transactions and its end, and the blocks that were closed are
the ones that read so. A preparation that fails opens no block, a block that is not filed is closed
all the same, and behind a preparation in which the host gave up every step is refused.
-/

namespace HostedEvm

/-- The phases that a fault names if a step was out of turn: the needed one and the one found. -/
def ChainFault.outOfTurn? : ChainFault → Option (Phase × Phase)
  | .wrongPhase needed found => some (needed, found)
  | _ => none

def ChainReply.fault? : ChainReply → Option ChainFault
  | .prepared (.error fault) | .processed (.error fault) | .finalized (.error fault) => some fault
  | _ => none

def ChainReply.outOfTurn? (reply : ChainReply) : Option (Phase × Phase) :=
  reply.fault?.bind ChainFault.outOfTurn?

def ChainCommand.turn? : ChainCommand → Option Phase
  | .prepare _ => some .idle
  | .process _ | .finalize => some .accepting
  | _ => none

inductive TakenStep
  | opened (height : UInt64)
  /-- The preparation of a block that failed. -/
  | unopened (height : UInt64)
  /-- The preparation of a block in which the host gave up. -/
  | stuck (height : UInt64)
  | processed (tx : Transaction) (included : Bool)
  | closed (filed : Bool)
  deriving DecidableEq

def ChainCommand.taken? (command : ChainCommand) (reply : ChainReply) : Option TakenStep :=
  if reply.outOfTurn?.isSome then none
  else match command, reply with
    | .prepare height, .prepared (.ok ()) => some (.opened height)
    | .prepare height, reply =>
      some (if reply.isGivenUp then .stuck height else .unopened height)
    | .process tx, .processed outcome => some (.processed tx outcome.isOk)
    | .finalize, .finalized outcome => some (.closed outcome.isOk)
    | _, _ => none

/-- The transactions of a block with whether each was included. -/
abbrev Processed := List (Transaction × Bool)

namespace Processed

def steps (calls : Processed) : List TakenStep :=
  calls.map fun (tx, included) => .processed tx included

def included (calls : Processed) : List Transaction := (calls.filter Prod.snd).map Prod.fst

theorem steps_concat (calls : Processed) (tx : Transaction) (included : Bool) :
    steps (calls ++ [(tx, included)]) = calls.steps ++ [.processed tx included] :=
  List.map_append

theorem included_concat (calls : Processed) (tx : Transaction) (included : Bool) :
    Processed.included (calls ++ [(tx, included)]) =
      calls.included ++ (if included then [tx] else []) := by
  cases included <;> simp [Processed.included]

end Processed

/-- Steps that read as whole blocks, with the height and the included transactions of each. -/
inductive ReadsAs : List TakenStep → List (UInt64 × List Transaction) → Prop
  | nothing : ReadsAs [] []
  | unopened {steps : List TakenStep} {blocks : List (UInt64 × List Transaction)}
      (height : UInt64) :
      ReadsAs steps blocks → ReadsAs (steps ++ [.unopened height]) blocks
  | block {steps : List TakenStep} {blocks : List (UInt64 × List Transaction)}
      (height : UInt64) (calls : Processed) (filed : Bool) :
      ReadsAs steps blocks →
      ReadsAs (steps ++ .opened height :: (calls.steps ++ [.closed filed]))
        (blocks ++ [(height, calls.included)])

theorem ReadsAs.unstuck {steps : List TakenStep} {read : List (UInt64 × List Transaction)}
    (reads : ReadsAs steps read) (height : UInt64) : .stuck height ∉ steps := by
  induction reads with
  | nothing => exact List.not_mem_nil
  | unopened other _ inductionHypothesis => simp [inductionHypothesis]
  | block other calls filed _ inductionHypothesis =>
      simp [inductionHypothesis, Processed.steps]

namespace Chain

variable {chain : Chain} {steps : List TakenStep} {blocks : List FinalizedBlock} {phase : Phase}
  {command : ChainCommand}

def taken : List ChainCommand → Chain → List TakenStep
  | [], _ => []
  | command :: rest, chain =>
    (command.taken? (command.run chain).1).toList ++ taken rest (command.run chain).2

def summary (finalized : FinalizedBlock) : UInt64 × List Transaction :=
  (finalized.block.header.number, finalized.block.transactions)

/-- Steps read as the blocks closed so far, oldest first, and the one that is open. -/
inductive Reads (steps : List TakenStep) (blocks : List FinalizedBlock) (chain : Chain) : Prop
  | resting :
      chain.phase = .idle → ReadsAs steps (blocks.map summary) → Reads steps blocks chain
  | building {before : List TakenStep} (calls : Processed) {block : OpenBlock} :
      chain.phase = .accepting → chain.processor.openBlock = some block →
      chain.processor.transactions = calls.included →
      steps = before ++ .opened block.header.number :: calls.steps →
      ReadsAs before (blocks.map summary) → Reads steps blocks chain
  | stuck {before : List TakenStep} {height : UInt64} :
      chain.phase = .preparing → steps = before ++ [.stuck height] →
      ReadsAs before (blocks.map summary) → Reads steps blocks chain

/-- A step out of turn is refused and changes nothing. -/
theorem run_out_of_turn (needs : command.turn? = some phase) (other : chain.phase ≠ phase) :
    (command.run chain).1.outOfTurn? = some (phase, chain.phase) ∧
      (command.run chain).2 = chain := by
  cases command with
  | prepare height =>
      cases needs
      have refused : (ChainCommand.prepare height).run chain =
          (.prepared (.error (.wrongPhase .idle chain.phase)), chain) := by
        simp only [ChainCommand.run, Chain.prepare, if_pos other]
      rw [refused]
      exact ⟨rfl, rfl⟩
  | process tx =>
      cases needs
      have refused : (ChainCommand.process tx).run chain =
          (.processed (.error (.wrongPhase .accepting chain.phase)), chain) := by
        simp only [ChainCommand.run, Chain.process, if_pos other]
      rw [refused]
      exact ⟨rfl, rfl⟩
  | finalize =>
      cases needs
      have refused : ChainCommand.finalize.run chain =
          (.finalized (.error (.wrongPhase .accepting chain.phase)), chain) := by
        simp only [ChainCommand.run, Chain.finalize, if_pos other]
      rw [refused]
      exact ⟨rfl, rfl⟩
  | _ => cases needs

end Chain

theorem ChainFault.inTurn_of_isFatal {fault : ChainFault} (fatal : fault.isFatal = true) :
    fault.outOfTurn? = none := by
  cases fault with
  | wrongPhase needed found => cases fatal
  | _ => rfl

theorem Fault.ordinary_of_registration {fault : Fault} (category : fault.category = .registration) :
    fault.isFatal = false := by
  cases fault with
  | breakdown cause => cases category
  | _ => rfl

namespace Processor

variable {processor after : Processor} {block : OpenBlock} {tx : Transaction}

/-- A transaction leaves its block open, is in it exactly where it gets a receipt, and is never out
of turn. -/
theorem process_opened (opened : processor.openBlock = some block) (tx : Transaction) :
    (processor.process tx).2.openBlock = some block ∧
      (processor.process tx).2.transactions =
        processor.transactions ++ (if (processor.process tx).1.isOk then [tx] else []) ∧
      ∀ fault, (processor.process tx).1 = .error fault → fault.outOfTurn? = none := by
  obtain ⟨state, meter, transactions, receipts, logCount, left⟩ := processor.process_snd tx
  refine ⟨left ▸ opened, ?_, ?_⟩
  · rcases ran : processor.process tx with ⟨cause | receipt, after⟩
    · rw [transactions_of_refused ran]
      exact (List.append_nil _).symm
    · obtain ⟨execution, left, _, _, rfl⟩ := process_eq_ok opened ran
      rfl
  · intro fault refused
    have ran := processor.processes tx
    generalize processor.process tx = result at ran refused
    cases ran with
    | unsealed =>
        cases refused
        rfl
    | unopened closed => cases opened.symm.trans closed
    | abandoned _ _ fatal =>
        cases refused
        exact ChainFault.inTurn_of_isFatal fatal
    | rejected =>
        cases refused
        rfl
    | executed => cases refused

end Processor

namespace Chain

variable {chain start : Chain} {steps : List TakenStep} {blocks : List FinalizedBlock}
  {phase : Phase} {command : ChainCommand}

/-- What the preparation of a block can lead to from an idle chain. -/
inductive Preparing (chain : Chain) (height : UInt64) : Except ChainFault Unit × Chain → Prop
  | stuck {fault : ChainFault} :
      fault.isFatal = true → Preparing chain height (.error fault, chain.begun)
  | unopened {cause : Fault} :
      cause.category = .registration →
      Preparing chain height (.error (.vm cause), { chain.begun with phase := .idle })
  | opened {header : Header} {context : BlockContext} {processor : Processor} :
      header.number = height → processor.openBlock = some ⟨header, context⟩ →
      processor.transactions = [] →
      Preparing chain height (.ok (), { chain.begun with processor, phase := .accepting })

theorem preparing (idle : chain.phase = .idle) (height : UInt64) :
    Preparing chain height (chain.prepare height) := by
  rw [prepare_of_idle idle]
  cases made : chain.begun.header? height with
  | error fault => exact .stuck (isFatal_of_header? made)
  | ok header =>
      obtain ⟨timestamp, parentHash, _, rfl⟩ := header?_eq_ok made
      unfold openWith
      simp only
      split
      · rename_i processor prepared
        obtain ⟨registry, rules, rfl⟩ := Processor.prepare_eq_ok prepared
        exact .opened rfl rfl rfl
      · rename_i fault processor refused
        obtain ⟨rfl, cause, rfl, unregistered⟩ := Processor.prepare_eq_error refused
        exact .unopened (Registry.category_withCodec unregistered)

theorem Reads.prepare (reads : Reads steps blocks chain) (idle : chain.phase = .idle)
    (height : UInt64) :
    Reads (steps ++ ((ChainCommand.prepare height).taken?
        (.prepared (chain.prepare height).1)).toList) blocks (chain.prepare height).2 ∧
      ChainReply.outOfTurn? (.prepared (chain.prepare height).1) = none := by
  have read : ReadsAs steps (blocks.map summary) := by
    cases reads with
    | resting _ read => exact read
    | building _ accepting => cases idle.symm.trans accepting
    | stuck preparing => cases idle.symm.trans preparing
  have prepared := preparing idle height
  generalize chain.prepare height = result at prepared ⊢
  cases prepared with
  | @stuck fault fatal =>
      have inTurn : ChainReply.outOfTurn? (.prepared (.error fault)) = none :=
        ChainFault.inTurn_of_isFatal fatal
      refine ⟨?_, inTurn⟩
      simp only [ChainCommand.taken?, inTurn, ChainReply.isGivenUp, fatal]
      exact .stuck rfl rfl read
  | @unopened cause category =>
      refine ⟨?_, rfl⟩
      have ordinary : ChainFault.isFatal (.vm cause) = false :=
        Fault.ordinary_of_registration category
      have left : (ChainCommand.prepare height).taken? (.prepared (.error (.vm cause))) =
          some (.unopened height) := by
        simp [ChainCommand.taken?, ChainReply.outOfTurn?, ChainReply.fault?,
          ChainFault.outOfTurn?, ChainReply.isGivenUp, ordinary]
      rw [left]
      exact .resting rfl (.unopened height read)
  | @opened header context processor atHeight opened unfilled =>
      refine ⟨?_, rfl⟩
      have left : (ChainCommand.prepare height).taken? (.prepared (.ok ())) =
          some (.opened header.number) := by
        rw [atHeight]
        rfl
      rw [left]
      exact .building [] rfl opened unfilled rfl read

theorem Reads.process (reads : Reads steps blocks chain) (accepting : chain.phase = .accepting)
    (tx : Transaction) :
    Reads (steps ++ ((ChainCommand.process tx).taken?
        (.processed (chain.process tx).1)).toList) blocks (chain.process tx).2 ∧
      ChainReply.outOfTurn? (.processed (chain.process tx).1) = none := by
  cases reads with
  | resting idle => cases accepting.symm.trans idle
  | stuck preparing => cases accepting.symm.trans preparing
  | @building before calls block _ opened filled same read =>
      have ran : chain.process tx = ((chain.processor.process tx).1,
          { chain with processor := (chain.processor.process tx).2 }) :=
        if_neg (not_not_intro accepting)
      obtain ⟨stillOpen, transactions, ordinary⟩ := Processor.process_opened opened tx
      have inTurn : ChainReply.outOfTurn? (.processed (chain.process tx).1) = none := by
        rw [ran]
        cases outcome : (chain.processor.process tx).1 with
        | ok receipt => rfl
        | error fault => exact ordinary fault outcome
      refine ⟨?_, inTurn⟩
      have left : (ChainCommand.process tx).taken? (.processed (chain.process tx).1) =
          some (.processed tx (chain.processor.process tx).1.isOk) := by
        unfold ChainCommand.taken?
        rw [inTurn, ran]
        rfl
      rw [left, ran, same]
      refine .building (calls ++ [(tx, (chain.processor.process tx).1.isOk)]) accepting stillOpen
        ?_ ?_ read
      · rw [transactions, filled, Processed.included_concat]
      · rw [Processed.steps_concat]
        simp

theorem Reads.finalize (reads : Reads steps blocks chain) (accepting : chain.phase = .accepting) :
    Reads (steps ++ (ChainCommand.finalize.taken? (.finalized chain.finalize.1)).toList)
        (blocks ++ chain.closing?.toList) chain.finalize.2 ∧
      ChainReply.outOfTurn? (.finalized chain.finalize.1) = none := by
  cases reads with
  | resting idle => cases accepting.symm.trans idle
  | stuck preparing => cases accepting.symm.trans preparing
  | @building before calls block _ opened filled same read =>
      have closing : chain.closing? = some (chain.processor.assemble block.header) := by
        unfold closing?
        rw [if_pos accepting, Processor.finalize, opened]
        rfl
      have ran := finalize_of_closing closing
      have inTurn : ChainReply.outOfTurn? (.finalized chain.finalize.1) = none := by
        rw [ran, file_fst]
        split
        · rfl
        · split <;> rfl
      refine ⟨?_, inTurn⟩
      have left : ChainCommand.finalize.taken? (.finalized chain.finalize.1) =
          some (.closed chain.finalize.1.isOk) := by
        unfold ChainCommand.taken?
        rw [inTurn]
        rfl
      rw [left, closing, ran, same]
      refine .resting rfl ?_
      have whole := ReadsAs.block block.header.number calls
        (file chain.host (chain.processor.assemble block.header)).1.isOk read
      rw [← filled] at whole
      simpa [Processor.assemble, summary] using whole

/-- A step fails as out of turn exactly where the chain is not in the phase that it needs. -/
theorem Reads.outOfTurn_iff (reads : Reads steps blocks chain)
    (needs : command.turn? = some phase) :
    (command.run chain).1.outOfTurn? =
      if chain.phase = phase then none else some (phase, chain.phase) := by
  by_cases inTurn : chain.phase = phase
  · rw [if_pos inTurn]
    cases command with
    | prepare height =>
        cases needs
        exact (reads.prepare inTurn height).2
    | process tx =>
        cases needs
        exact (reads.process inTurn tx).2
    | finalize =>
        cases needs
        exact (reads.finalize inTurn).2
    | _ => cases needs
  · rw [if_neg inTurn]
    exact (run_out_of_turn needs inTurn).1

/-- What a command that is no step leaves still reads the same. -/
theorem Reads.aside (reads : Reads steps blocks chain) {next : Chain}
    (phase : next.phase = chain.phase)
    (opened : next.processor.openBlock = chain.processor.openBlock)
    (filled : next.processor.transactions = chain.processor.transactions) :
    Reads steps blocks next := by
  cases reads with
  | resting idle read => exact .resting (phase.trans idle) read
  | building calls accepting present included same read =>
      exact .building calls (phase.trans accepting) (opened.trans present)
        (filled.trans included) same read
  | stuck preparing same read => exact .stuck (phase.trans preparing) same read

theorem Reads.run (reads : Reads steps blocks chain) (command : ChainCommand) :
    Reads (steps ++ (command.taken? (command.run chain).1).toList)
      (blocks ++ command.closes chain) (command.run chain).2 := by
  -- A step out of turn and a command that is no step are passed over.
  have untaken (left : Reads steps blocks (command.run chain).2)
      (none : command.taken? (command.run chain).1 = none) (unclosed : command.closes chain = []) :
      Reads (steps ++ (command.taken? (command.run chain).1).toList)
        (blocks ++ command.closes chain) (command.run chain).2 := by
    rw [none, unclosed, Option.toList_none, List.append_nil, List.append_nil]
    exact left
  cases needs : command.turn? with
  | some phase =>
      by_cases inTurn : chain.phase = phase
      · cases command with
        | prepare height =>
            cases needs
            have unclosed : (ChainCommand.prepare height).closes chain = [] := rfl
            rw [unclosed, List.append_nil]
            exact (reads.prepare inTurn height).1
        | process tx =>
            cases needs
            have unclosed : (ChainCommand.process tx).closes chain = [] := rfl
            rw [unclosed, List.append_nil]
            exact (reads.process inTurn tx).1
        | finalize =>
            cases needs
            exact (reads.finalize inTurn).1
        | _ => cases needs
      · obtain ⟨refused, same⟩ := run_out_of_turn needs inTurn
        apply untaken
        · rw [same]
          exact reads
        · unfold ChainCommand.taken?
          rw [refused]
          rfl
        · cases command with
          | finalize =>
              cases needs
              rw [ChainCommand.closes, closing?, if_neg inTurn]
              rfl
          | _ => rfl
  | none =>
      cases command with
      | prepare height => cases needs
      | process tx => cases needs
      | finalize => cases needs
      | _ => exact untaken (reads.aside rfl rfl rfl) rfl rfl

theorem closes_reverse (command : ChainCommand) (chain : Chain) :
    (command.closes chain).reverse = command.closes chain := by
  cases command with
  | finalize =>
      rw [ChainCommand.closes]
      cases chain.closing? <;> rfl
  | _ => rfl

/-- Whatever is asked of a chain, the steps in their turn read as the blocks that it closed and the
one that is open. -/
theorem Reads.runAll (reads : Reads steps blocks chain) (commands : List ChainCommand) :
    Reads (steps ++ taken commands chain) (blocks ++ (closed commands chain).reverse)
      (Chain.runAll commands chain).2 := by
  induction commands generalizing steps blocks chain with
  | nil =>
      rw [taken, closed, List.reverse_nil, List.append_nil, List.append_nil]
      exact reads
  | cons command rest inductionHypothesis =>
      -- Closed blocks are listed from the newest on, and read from the oldest on.
      have later := inductionHypothesis (reads.run command)
      rw [List.append_assoc, List.append_assoc] at later
      rw [taken, closed, List.reverse_append, closes_reverse]
      exact later

theorem Reads.preparing_of_stuck (reads : Reads steps blocks chain) {height : UInt64}
    (stuck : .stuck height ∈ steps) : chain.phase = .preparing := by
  cases reads with
  | resting _ read => exact absurd stuck (read.unstuck height)
  | building calls _ _ _ same read =>
      rw [same] at stuck
      simp [read.unstuck height, Processed.steps] at stuck
  | stuck preparing => exact preparing

variable {host : Host} {interpreter : Interpreter} {config : RuntimeConfig}
  {commands : List ChainCommand}

/-- The steps of a chain that are taken in their turn read as the blocks that it closed and the one
that is open. A step fails as out of turn exactly where the chain is not in the phase that it needs,
and changes nothing then. Behind a preparation in which the host gave up every step fails so. -/
theorem steps_in_order (created : create host interpreter config = .ok start)
    (reached : (runAll commands start).2 = chain) :
    Reads (taken commands start) (closed commands start).reverse chain ∧
      (∀ command phase, ChainCommand.turn? command = some phase →
        (command.run chain).1.outOfTurn? =
            (if chain.phase = phase then none else some (phase, chain.phase)) ∧
          (chain.phase ≠ phase → (command.run chain).2 = chain)) ∧
      ((∃ height, .stuck height ∈ taken commands start) →
        ∀ command phase, ChainCommand.turn? command = some phase →
          (command.run chain).1.outOfTurn? = some (phase, .preparing) ∧
            (command.run chain).2 = chain) := by
  have idle : start.phase = .idle := by
    obtain ⟨_, _, rfl⟩ := create_eq_ok created
    rfl
  have atStart : Reads [] [] start := .resting idle .nothing
  have reads : Reads (taken commands start) (closed commands start).reverse chain := by
    rw [← reached]
    exact atStart.runAll commands
  refine ⟨reads, ?_, ?_⟩
  · intro command phase needs
    exact ⟨reads.outOfTurn_iff needs, fun other => (run_out_of_turn needs other).2⟩
  · rintro ⟨height, stuck⟩ command phase needs
    have preparing := reads.preparing_of_stuck stuck
    have other : chain.phase ≠ phase := by
      rw [preparing]
      rintro rfl
      cases command <;> cases needs
    rw [← preparing]
    exact run_out_of_turn needs other

def transferOfOne : Transaction where
  sender := 1
  recipient := some 2
  gasLimit := 21000
  hash := 5

/-- A run with steps out of turn, a preparation whose precompiles clash, an unsealed transaction, a
block that is filed in part and a preparation without a parent. -/
def bumpyRun : List ChainCommand :=
  [.finalize, .prepare 1, .process transferOfOne, .declare fun _ => builtinPrecompiles, .prepare 1,
    .prepare 1, .process {}, .process transferOfOne, .closeArchive (· == .inclusions), .finalize,
    .process transferOfOne, .prepare 5, .prepare 2]

theorem bumpyRun_in_order : ∃ start,
    create forkingHost TransferMachine.interpreter {} = .ok start ∧
      taken bumpyRun start = [.unopened 1, .opened 1, .processed {} false,
        .processed transferOfOne true, .closed false, .stuck 5] ∧
      (closed bumpyRun start).map summary = [(1, [transferOfOne])] ∧
      (ChainCommand.finalize.run (runAll bumpyRun start).2).1.outOfTurn? =
        some (.accepting, .preparing) := by
  have ran : ((create forkingHost TransferMachine.interpreter {}).toOption.any fun start =>
      decide (taken bumpyRun start = [.unopened 1, .opened 1, .processed {} false,
          .processed transferOfOne true, .closed false, .stuck 5] ∧
        (closed bumpyRun start).map summary = [(1, [transferOfOne])])) = true := by
    decide +kernel
  obtain ⟨start, created, passed⟩ := exists_created ran
  obtain ⟨steps, blocks⟩ := of_decide_eq_true passed
  obtain ⟨_, _, stuck⟩ := @steps_in_order _ start _ _ _ bumpyRun created rfl
  have refused := stuck ⟨5, by simp [steps]⟩ .finalize .accepting rfl
  exact ⟨start, created, steps, blocks, refused.1⟩

end Chain

end HostedEvm
