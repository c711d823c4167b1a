import HostedEvm.Execution.TransferMachine
import HostedEvm.Proofs.Chain.Frame
import HostedEvm.Proofs.Chain.Records

set_option autoImplicit false

/-!
What a new block takes from the blocks before it.

The parent hash of a block is that of the header that the host keeps for the height below. The base
fee follows from the block that was closed last, whatever its height. The two belong together where
the last block stands at the height below. A height that is prepared again is priced by another
block than its parent, and one behind a header that the host had from the start by none.
-/

namespace HostedEvm

open FinalizedBlock

theorem Reader.ask_finalized (reader : Reader) (archive : Option Archive) (query : Query) :
    (reader.ask archive query).2.finalized = reader.finalized := by
  cases query <;> rfl

namespace Chain

variable {chain next start : Chain} {blocks closes : List FinalizedBlock}
  {finalized : FinalizedBlock} {height : UInt64} {header : Header}

/-- Filing a block changes headers and archive at most. -/
theorem file_snd (host : Host) (finalized : FinalizedBlock) :
    ∃ headers archive, (file host finalized).2 = { host with headers, archive } := by
  unfold file
  split
  · exact ⟨_, _, rfl⟩
  · simp only
    split
    · exact ⟨_, _, rfl⟩
    · exact ⟨_, _, rfl⟩

theorem headers_file {host : Host} (taking : host.headersClosed = false)
    (finalized : FinalizedBlock) :
    (file host finalized).2.headers = (host.withHeader finalized.block.header).headers := by
  unfold file
  rw [if_neg (by simp [taking])]
  simp only
  split <;> rfl

/-- What a chain knows of the blocks closed since its start is the last one. -/
structure Headed (start : Chain) (blocks : List FinalizedBlock) (chain : Chain) : Prop where
  finalized : chain.reader.finalized = blocks.head?.map FinalizedBlock.block
  baseFee : chain.host.baseFee = start.host.baseFee
  config : chain.config = start.config

theorem Headed.moves (headed : Headed start blocks chain) (moved : chain.Moves closes next) :
    Headed start (closes ++ blocks) next := by
  cases moved with
  | asked query =>
      exact { headed with finalized := (chain.reader.ask_finalized _ _).trans headed.finalized }
  | @closed finalized processor closing =>
      obtain ⟨headers, archive, filed⟩ := file_snd chain.host finalized
      rw [filed]
      exact ⟨rfl, headed.baseFee, headed.config⟩
  | _ => exact { headed with }

/-- A host that takes headers keeps for every height the header of the latest block there, in front
of those that it had at the start. -/
structure Kept (start : Chain) (blocks : List FinalizedBlock) (chain : Chain) : Prop where
  taking : chain.host.headersClosed = false
  headers : ∀ number, chain.host.header? number =
    ((latestAt blocks number).map fun finalized => finalized.block.header).or
      (start.host.header? number)

theorem Kept.moves (kept : Kept start blocks chain) (moved : chain.Moves closes next)
    (taking : next.host.headersClosed = false) : Kept start (closes ++ blocks) next := by
  cases moved with
  | @closed finalized processor closing =>
      refine ⟨taking, ?_⟩
      intro number
      -- the host keeps the header even where its archive does not take the block
      have front : (file chain.host finalized).2.header? number =
          if finalized.block.number = number then some finalized.block.header
          else chain.host.header? number := by
        rw [Host.header?, headers_file kept.taking]
        exact Map.get_insert ..
      refine front.trans ?_
      rw [List.singleton_append, latestAt_cons]
      split
      · rfl
      · exact kept.headers number
  | _ => exact ⟨taking, kept.headers⟩

/-- Behind any run, the host and the reader know the blocks that the run closed. -/
theorem headed_of_run {host : Host} {interpreter : Interpreter} {config : RuntimeConfig}
    (created : create host interpreter config = .ok start) (commands : List ChainCommand) :
    Headed start (closed commands start) (runAll commands start).2 := by
  have unread : start.reader.finalized = none := by
    obtain ⟨_, _, rfl⟩ := create_eq_ok created
    rfl
  have step : ∀ (past : List FinalizedBlock) (chain : Chain) (command : ChainCommand),
      Headed start past chain → True →
      Headed start (command.closes chain ++ past) (command.run chain).2 :=
    fun _ chain command headed _ => headed.moves (command.moves_run chain)
  have atStart : Headed start [] start := ⟨unread, rfl, rfl⟩
  have headed := runAll_keeps step atStart fun _ (_ : _ ∈ (runAll commands start).1) => trivial
  rw [List.append_nil] at headed
  exact headed

/-- A host takes headers until it is told not to. -/
theorem headersClosed_run {command : ChainCommand} (still : command ≠ .closeHeaders true)
    (taking : chain.host.headersClosed = false) :
    (command.run chain).2.host.headersClosed = false := by
  cases command with
  | prepare height =>
      obtain ⟨phase, processor, left⟩ := chain.prepare_snd height
      exact (congrArg (fun next : Chain => next.host.headersClosed) left).trans taking
  | process tx =>
      obtain ⟨phase, processor, left⟩ := chain.process_snd tx
      exact (congrArg (fun next : Chain => next.host.headersClosed) left).trans taking
  | finalize =>
      have ran : (ChainCommand.finalize.run chain).2 = chain.finalize.2 := rfl
      rw [ran]
      cases closing : chain.closing? with
      | none =>
          obtain ⟨fault, phase, processor, left⟩ := finalize_of_not_closing closing
          rw [left]
          exact taking
      | some finalized =>
          obtain ⟨headers, archive, filed⟩ := file_snd chain.host finalized
          rw [finalize_of_closing closing, filed]
          exact taking
  | closeHeaders closed =>
      cases closed with
      | true => exact absurd rfl still
      | false => rfl
  | _ => exact taking

theorem kept_of_run {host : Host} {interpreter : Interpreter} {config : RuntimeConfig}
    (created : create host interpreter config = .ok start) (taking : host.headersClosed = false)
    {commands : List ChainCommand} (still : .closeHeaders true ∉ commands) :
    Kept start (closed commands start) (runAll commands start).2 := by
  have atStart : Kept start [] start := by
    obtain ⟨_, _, rfl⟩ := create_eq_ok created
    exact ⟨taking, fun _ => rfl⟩
  have step : ∀ (past : List FinalizedBlock) (chain : Chain) (command : ChainCommand),
      Kept start past chain → command ≠ .closeHeaders true →
      Kept start (command.closes chain ++ past) (command.run chain).2 :=
    fun _ chain command kept still =>
      kept.moves (command.moves_run chain) (headersClosed_run still kept.taking)
  have kept := runAll_permitted step atStart fun command listed same => still (same ▸ listed)
  rw [List.append_nil] at kept
  exact kept

theorem Headed.nextBaseFee (headed : Headed start blocks chain)
    (free : start.host.baseFee = none) :
    chain.nextBaseFee =
      match blocks.head? with
      | some last => start.config.nextBaseFee last.block.header
      | none => start.config.initialBaseFee := by
  unfold Chain.nextBaseFee
  rw [headed.baseFee, free, headed.finalized, headed.config]
  cases blocks with
  | nil => rfl
  | cons last older => rfl

theorem prepared_of_isOk (possible : (chain.prepare height).1.isOk = true) :
    ∃ next, chain.prepare height = (.ok (), next) := by
  rcases prepared : chain.prepare height with ⟨outcome, next⟩
  rw [prepared] at possible
  cases outcome with
  | error fault => cases possible
  | ok _ => exact ⟨next, rfl⟩

theorem prepare_eq_ok (prepared : chain.prepare height = (.ok (), next)) :
    ∃ header context, chain.begun.header? height = .ok header ∧
      next.processor.openBlock = some ⟨header, context⟩ := by
  by_cases idle : chain.phase = .idle
  · rw [prepare_of_idle idle] at prepared
    split at prepared
    · cases prepared
    · rename_i header made
      unfold openWith at prepared
      simp only at prepared
      split at prepared
      · rename_i processor opened
        cases prepared
        obtain ⟨loaded, _, rfl⟩ := Processor.prepare_eq_ok opened
        exact ⟨header, _, made, rfl⟩
      · cases prepared
  · unfold prepare at prepared
    rw [if_pos idle] at prepared
    cases prepared

theorem header?_eq_ok (made : chain.header? height = .ok header) :
    ∃ timestamp parentHash, chain.parentHash height = .ok parentHash ∧
      header = chain.headerAt height timestamp parentHash := by
  unfold header? at made
  cases timed : (chain.host.timeOf height).mapError ChainFault.breakdown with
  | error fault =>
      rw [timed] at made
      cases made
  | ok timestamp =>
      cases found : chain.parentHash height with
      | error fault =>
          rw [timed, found] at made
          cases made
      | ok parentHash =>
          rw [timed, found] at made
          cases made
          exact ⟨timestamp, parentHash, rfl, rfl⟩

theorem parentHash_eq_ok {hash : Word} (behind : 1 < height)
    (found : chain.parentHash height = .ok hash) :
    ∃ parent, chain.host.header? (height - 1) = some parent ∧ hash = parent.hash := by
  unfold parentHash at found
  rw [if_neg (UInt64.not_le.mpr behind)] at found
  split at found
  · rename_i parent present
    cases found
    exact ⟨parent, present, rfl⟩
  · cases found

variable {host : Host} {interpreter : Interpreter} {config : RuntimeConfig}
  {commands : List ChainCommand}

/-- A block behind the first height names the header that the host keeps for the height below as its
parent. Its base fee follows from the block that was closed last, or is the first one where none was
closed. If the last block stands at the height below, and the host took its header, that is the
parent. -/
theorem parent_and_fee (free : host.baseFee = none)
    (created : create host interpreter config = .ok start) (behind : 1 < height)
    (prepared : (runAll commands start).2.prepare height = (.ok (), next)) :
    ∃ parent header context,
      (runAll commands start).2.host.header? (height - 1) = some parent ∧
      next.processor.openBlock = some ⟨header, context⟩ ∧ header.number = height ∧
      header.parentHash = parent.hash ∧
      (closed commands start = [] → header.baseFee = start.config.initialBaseFee) ∧
      ∀ last, (closed commands start).head? = some last →
        header.baseFee = start.config.nextBaseFee last.block.header ∧
          (host.headersClosed = false → .closeHeaders true ∉ commands →
            last.block.number = height - 1 → last.block.header = parent) := by
  have headed := headed_of_run created commands
  obtain ⟨header, context, made, opened⟩ := prepare_eq_ok prepared
  obtain ⟨timestamp, parentHash, found, rfl⟩ := header?_eq_ok made
  obtain ⟨parent, present, named⟩ := parentHash_eq_ok behind found
  have unfixed : start.host.baseFee = none := by
    obtain ⟨_, _, rfl⟩ := create_eq_ok created
    exact free
  have fee := headed.nextBaseFee unfixed
  refine ⟨parent, _, context, present, opened, rfl, named, ?_, ?_⟩
  · intro unclosed
    rw [unclosed] at fee
    exact fee
  · intro last latest
    rw [latest] at fee
    refine ⟨fee, ?_⟩
    intro taking still below
    have kept := (kept_of_run created taking still).headers (height - 1)
    rw [latestAt_of_head? latest below] at kept
    exact Option.some.inj (kept.symm.trans present)

def inOrder : List ChainCommand := [.prepare 1, .finalize, .prepare 2, .finalize]

/-- The third height is right behind them, and its base fee follows from its parent. -/
theorem inOrder_priced : ∃ start parent header context next,
    create {} TransferMachine.interpreter {} = .ok start ∧
      (runAll inOrder start).2.prepare 3 = (.ok (), next) ∧
      next.processor.openBlock = some ⟨header, context⟩ ∧ header.parentHash = parent.hash ∧
      header.baseFee = start.config.nextBaseFee parent := by
  have ran : ((create {} TransferMachine.interpreter {}).toOption.any fun start =>
      decide (((runAll inOrder start).2.prepare 3).1.isOk = true ∧
        ((closed inOrder start).head?.map fun last => last.block.number) = some (3 - 1))) =
      true := by
    decide +kernel
  obtain ⟨start, created, passed⟩ := exists_created ran
  obtain ⟨possible, height⟩ := of_decide_eq_true passed
  obtain ⟨last, latest, below⟩ := Option.map_eq_some_iff.mp height
  obtain ⟨next, prepared⟩ := prepared_of_isOk possible
  obtain ⟨parent, header, context, _, opened, _, named, _, fee⟩ :=
    parent_and_fee rfl created (by decide) prepared
  obtain ⟨follows, own⟩ := fee last latest
  rw [own rfl (by simp [inOrder]) below] at follows
  exact ⟨start, parent, header, context, next, created, prepared, opened, named, follows⟩

/-- When the second height is prepared again, the base fee follows from the block that was closed
there, and not from the parent. -/
theorem inOrder_repeated : ∃ start parent opened next,
    create {} TransferMachine.interpreter {} = .ok start ∧
      (runAll inOrder start).2.prepare 2 = (.ok (), next) ∧
      (runAll inOrder start).2.host.header? 1 = some parent ∧
      next.processor.openBlock = some opened ∧
      opened.header.baseFee = 765625000 ∧ start.config.nextBaseFee parent = 875000000 := by
  have ran : ((create {} TransferMachine.interpreter {}).toOption.any fun start =>
      decide (((runAll inOrder start).2.prepare 2).1.isOk = true ∧
        ((runAll inOrder start).2.host.header? 1).map start.config.nextBaseFee =
          some 875000000 ∧
        (((runAll inOrder start).2.prepare 2).2.processor.openBlock.map fun opened =>
          opened.header.baseFee) = some 765625000)) = true := by
    decide +kernel
  obtain ⟨start, created, passed⟩ := exists_created ran
  obtain ⟨possible, parents, opens⟩ := of_decide_eq_true passed
  obtain ⟨parent, present, expected⟩ := Option.map_eq_some_iff.mp parents
  obtain ⟨opened, openBlock, fee⟩ := Option.map_eq_some_iff.mp opens
  obtain ⟨next, prepared⟩ := prepared_of_isOk possible
  rw [prepared] at openBlock
  exact ⟨start, parent, opened, next, created, prepared, present, openBlock, fee, expected⟩

/-- The base fee of a block need not follow from the parent that the block names. -/
theorem base_fee_strays :
    ¬ ∀ (host : Host) (interpreter : Interpreter) (config : RuntimeConfig) (start next : Chain)
        (commands : List ChainCommand) (height : UInt64), host.baseFee = none →
      create host interpreter config = .ok start → 1 < height →
      (runAll commands start).2.prepare height = (.ok (), next) →
      ∃ parent header context, (runAll commands start).2.host.header? (height - 1) = some parent ∧
        next.processor.openBlock = some ⟨header, context⟩ ∧ header.parentHash = parent.hash ∧
        header.baseFee = start.config.nextBaseFee parent := by
  intro claimed
  obtain ⟨start, parent, opened, next, created, prepared, present, openBlock, fee, expected⟩ :=
    inOrder_repeated
  obtain ⟨other, _, _, found, openedToo, _, follows⟩ :=
    claimed _ _ _ start next inOrder 2 rfl created (by decide) prepared
  cases present.symm.trans found
  cases openBlock.symm.trans openedToo
  rw [fee, expected] at follows
  exact absurd follows (by decide)

end Chain

end HostedEvm
