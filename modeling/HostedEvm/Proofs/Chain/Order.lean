import HostedEvm.Proofs.Chain.Parent

set_option autoImplicit false

/-!
Runs that prepare one height after the other.

When the blocks of a run stand at the heights from one on, each of them names the one closed before
it as its parent. What the archive took does not matter, as the parent comes from the headers that
the host keeps. A height that was asked for need not be prepared, and so the heights asked for are
counted apart from those of the blocks.
-/

namespace HostedEvm

namespace FinalizedBlock

/-- What a block names as its parent behind some blocks, newest first. -/
def parentOf (blocks : List FinalizedBlock) : Word :=
  (blocks.head?.map fun last => last.block.hash).getD 0

/-- Blocks, newest first, that stand at the heights from one on, each naming the one before it as
its parent. -/
inductive Linked : List FinalizedBlock → Prop
  | nil : Linked []
  | cons {newest : FinalizedBlock} {older : List FinalizedBlock} :
      newest.block.number.toNat = older.length + 1 →
      newest.block.header.parentHash = parentOf older →
      Linked older → Linked (newest :: older)

end FinalizedBlock

open FinalizedBlock

variable {chain next start : Chain} {heights started wanted wants : List UInt64}
  {blocks closes : List FinalizedBlock} {command : ChainCommand} {commands : List ChainCommand}

/-- What a command can do to the phase and the processor of a chain, with the height that it asks
for in its turn, the height at which it starts a block and the block that it closes. -/
inductive ChainCommand.Advances (command : ChainCommand) (chain next : Chain) :
    List UInt64 → List UInt64 → List FinalizedBlock → Prop
  | aside : next.phase = chain.phase → next.processor = chain.processor →
      Advances command chain next [] [] []
  | changed {inner : StateCommand} :
      command = .change inner → next.phase = chain.phase →
      next.processor = { chain.processor with state := (inner.run chain.processor.state).2 } →
      Advances command chain next [] [] []
  | declared {precompiles : ForkRules → List Precompile} :
      command = .declare precompiles → next.phase = chain.phase →
      next.processor = { chain.processor with precompiles } →
      Advances command chain next [] [] []
  | processed {tx : Transaction} :
      command = .process tx → chain.phase = .accepting → next.phase = .accepting →
      next.processor = (chain.processor.process tx).2 →
      Advances command chain next [] [] []
  | abandoned {height : UInt64} {fault : ChainFault} :
      chain.phase = .idle → next.phase = .preparing →
      chain.begun.header? height = .error fault → next.processor = chain.begun.processor →
      Advances command chain next [height] [] []
  | unopened {height : UInt64} {header : Header} {context : BlockContext} {fault : ChainFault} :
      chain.phase = .idle → next.phase = .idle →
      chain.begun.processor.prepare header context = (.error fault, next.processor) →
      Advances command chain next [height] [] []
  | opened {height : UInt64} {header : Header} {context : BlockContext} :
      chain.phase = .idle → next.phase = .accepting →
      chain.begun.header? height = .ok header →
      chain.begun.processor.prepare header context = (.ok (), next.processor) →
      Advances command chain next [height] [height] []
  | unclosed :
      chain.phase = .accepting → chain.processor.openBlock = none → next.phase = .idle →
      next.processor = chain.processor → Advances command chain next [] [] []
  | closed {block : OpenBlock} :
      chain.phase = .accepting → chain.processor.openBlock = some block → next.phase = .idle →
      next.processor = chain.processor.finalize.2 →
      Advances command chain next [] [] [chain.processor.assemble block.header]

namespace Chain

/-- Heights, newest first, from one on without a gap. -/
def CountedUp (heights : List UInt64) : Prop :=
  heights.map UInt64.toNat = (List.range' 1 heights.length).reverse

instance (heights : List UInt64) : Decidable (CountedUp heights) :=
  inferInstanceAs (Decidable (_ = _))

theorem countedUp_cons {height : UInt64} :
    CountedUp (height :: heights) ↔ height.toNat = heights.length + 1 ∧ CountedUp heights := by
  simp [CountedUp, List.range'_concat, Nat.add_comm]

theorem CountedUp.of_append (counted : CountedUp (started ++ heights)) : CountedUp heights := by
  induction started with
  | nil => exact counted
  | cons newest older inductionHypothesis =>
      exact inductionHypothesis (countedUp_cons.mp counted).2

end Chain

namespace ChainCommand

/-- The height that a command asks for while the chain is idle, as a list. -/
def asks : ChainCommand → Chain → List UInt64
  | .prepare height, chain => if chain.phase = .idle then [height] else []
  | _, _ => []

def starts : ChainCommand → Chain → List UInt64
  | .prepare height, chain => if (chain.prepare height).1.isOk then [height] else []
  | _, _ => []

def settles (command : ChainCommand) (chain : Chain) : List (FinalizedBlock × Accounts) :=
  (command.closes chain).map fun finalized =>
    (finalized, (command.run chain).2.processor.state.store.accounts)

@[simp] theorem map_settles (command : ChainCommand) (chain : Chain) :
    (command.settles chain).map Prod.fst = command.closes chain := by
  simp [settles, Function.comp_def]

theorem advances_prepare (chain : Chain) (height : UInt64) :
    (prepare height).Advances chain (chain.prepare height).2 ((prepare height).asks chain)
      ((prepare height).starts chain) [] := by
  rw [asks, starts]
  by_cases idle : chain.phase = .idle
  · rw [Chain.prepare_of_idle idle, if_pos idle]
    cases made : chain.begun.header? height with
    | error fault => exact .abandoned idle rfl made rfl
    | ok header =>
        rcases opens : chain.begun.openWith header with ⟨reply, next⟩
        simp only [opens]
        simp only [Chain.openWith] at opens
        split at opens
        · rename_i processor prepared
          cases opens
          exact .opened idle rfl made prepared
        · rename_i fault processor prepared
          cases opens
          exact .unopened idle rfl prepared
  · unfold Chain.prepare
    rw [if_pos idle, if_neg idle]
    exact .aside rfl rfl

theorem advances_process (chain : Chain) (tx : Transaction) :
    (process tx).Advances chain (chain.process tx).2 [] [] [] := by
  unfold Chain.process
  split
  · exact .aside rfl rfl
  · rename_i accepting
    rw [ne_eq, not_not] at accepting
    exact .processed rfl accepting accepting rfl

theorem advances_finalize (chain : Chain) :
    finalize.Advances chain chain.finalize.2 [] [] chain.closing?.toList := by
  unfold Chain.closing?
  by_cases accepting : chain.phase = .accepting
  · rw [if_pos accepting]
    unfold Chain.finalize
    rw [if_neg (not_not_intro accepting)]
    cases opened : chain.processor.openBlock with
    | none =>
        have ran : chain.processor.finalize =
            (.error (.wrongPhase .finalizing .idle), chain.processor) := by
          simp only [Processor.finalize, opened]
        rw [ran]
        exact .unclosed accepting opened rfl rfl
    | some block =>
        have ran : chain.processor.finalize =
            (.ok (chain.processor.assemble block.header), chain.processor.finalize.2) := by
          simp only [Processor.finalize, opened]
        rw [ran]
        exact .closed accepting opened rfl rfl
  · rw [if_neg accepting]
    unfold Chain.finalize
    rw [if_pos accepting]
    exact .aside rfl rfl

theorem advances_run (command : ChainCommand) (chain : Chain) :
    command.Advances chain (command.run chain).2 (command.asks chain) (command.starts chain)
      (command.closes chain) := by
  cases command with
  | prepare height => exact advances_prepare chain height
  | process tx => exact advances_process chain tx
  | finalize => exact advances_finalize chain
  | ask query => exact .aside rfl rfl
  | change command => exact .changed rfl rfl rfl
  | declare precompiles => exact .declared rfl rfl rfl
  | closeArchive closed => exact .aside rfl rfl
  | closeHeaders closed => exact .aside rfl rfl

end ChainCommand

namespace Chain

def asked : List ChainCommand → Chain → List UInt64
  | [], _ => []
  | command :: rest, chain => asked rest (command.run chain).2 ++ command.asks chain

def prepared : List ChainCommand → Chain → List UInt64
  | [], _ => []
  | command :: rest, chain => prepared rest (command.run chain).2 ++ command.starts chain

/-- The blocks that commands finalize, newest first, with the accounts right behind each. -/
def settled : List ChainCommand → Chain → List (FinalizedBlock × Accounts)
  | [], _ => []
  | command :: rest, chain => settled rest (command.run chain).2 ++ command.settles chain

theorem map_settled (commands : List ChainCommand) (chain : Chain) :
    (settled commands chain).map Prod.fst = closed commands chain := by
  induction commands generalizing chain with
  | nil => rfl
  | cons command rest inductionHypothesis =>
      simp [settled, closed, inductionHypothesis]

/-- What holds of the heights asked for and prepared, the blocks so far and the chain, and is kept
by every allowed command as long as the heights are in order, holds behind a run in order. -/
theorem runAll_ordered {past : List (FinalizedBlock × Accounts)}
    {invariant : List UInt64 → List UInt64 → List (FinalizedBlock × Accounts) → Chain → Prop}
    {allowed : ChainCommand → Prop} {ordered : List UInt64 → List UInt64 → Prop}
    (earlier : ∀ {wants wanted started heights},
      ordered (wants ++ wanted) (started ++ heights) → ordered wanted heights)
    (step : ∀ (wanted heights : List UInt64) (past : List (FinalizedBlock × Accounts))
      (chain : Chain) (command : ChainCommand), invariant wanted heights past chain →
      allowed command → ordered (command.asks chain ++ wanted) (command.starts chain ++ heights) →
      invariant (command.asks chain ++ wanted) (command.starts chain ++ heights)
        (command.settles chain ++ past) (command.run chain).2)
    (atStart : invariant wanted heights past chain)
    (permitted : ∀ command ∈ commands, allowed command)
    (inOrder : ordered (asked commands chain ++ wanted) (prepared commands chain ++ heights)) :
    invariant (asked commands chain ++ wanted) (prepared commands chain ++ heights)
      (settled commands chain ++ past) (runAll commands chain).2 := by
  induction commands generalizing wanted heights past chain with
  | nil => exact atStart
  | cons command rest inductionHypothesis =>
      rw [asked, prepared, List.append_assoc, List.append_assoc] at inOrder
      have first := step wanted heights past chain command atStart
        (permitted command List.mem_cons_self) (earlier inOrder)
      have later := inductionHypothesis first
        (fun other listed => permitted other (List.mem_cons_of_mem _ listed)) inOrder
      rw [asked, prepared, settled, List.append_assoc, List.append_assoc, List.append_assoc]
      exact later

end Chain

theorem Processor.process_snd (processor : Processor) (tx : Transaction) :
    ∃ state meter transactions receipts logCount,
      (processor.process tx).2 =
        { processor with state, meter, transactions, receipts, logCount } := by
  have ran := processor.processes tx
  generalize processor.process tx = result at ran ⊢
  cases ran with
  | rejected _ _ _ refused =>
      obtain ⟨_, rejected⟩ := Processor.reject_eq _ _ _
      cases refused.symm.trans rejected
      exact ⟨_, _, _, _, _, rfl⟩
  | _ => exact ⟨_, _, _, _, _, rfl⟩

namespace Chain

/-- The block under construction stands behind the closed ones. -/
structure InOrder (heights : List UInt64) (blocks : List FinalizedBlock) (chain : Chain) :
    Prop where
  building : chain.phase = .accepting →
    ∃ block, chain.processor.openBlock = some block ∧ heights.head? = some block.header.number ∧
      heights.length = blocks.length + 1 ∧ block.header.number.toNat = blocks.length + 1
  resting : chain.phase ≠ .accepting → heights.length = blocks.length

structure Named (blocks : List FinalizedBlock) (chain : Chain) : Prop where
  parent : chain.phase = .accepting → ∀ block, chain.processor.openBlock = some block →
    block.header.parentHash = parentOf blocks
  linked : Linked blocks

theorem parentHash_of_linked {height : UInt64} {hash : Word} (linked : Linked blocks)
    (kept : Kept start blocks chain) (behind : height.toNat = blocks.length + 1)
    (found : chain.parentHash height = .ok hash) : hash = parentOf blocks := by
  cases blocks with
  | nil =>
      have first : height ≤ 1 := by
        rw [UInt64.le_iff_toNat_le, behind]
        exact Nat.le_refl 1
      rw [parentHash, if_pos first] at found
      cases found
      rfl
  | cons last older =>
      have above : 1 < height := by
        rw [UInt64.lt_iff_toNat_lt, behind]
        simp
      obtain ⟨parent, present, rfl⟩ := parentHash_eq_ok above found
      have number : last.block.number.toNat = older.length + 1 := by
        cases linked
        assumption
      have below : last.block.number = height - 1 := by
        rw [← UInt64.toNat_inj, number, UInt64.toNat_sub_of_le _ _ (UInt64.le_of_lt above),
          behind]
        rfl
      rw [kept.headers, latestAt_of_head? rfl below] at present
      cases present
      rfl

theorem InOrder.carry (inOrder : InOrder heights blocks chain) (phase : next.phase = chain.phase)
    (opened : next.processor.openBlock = chain.processor.openBlock) :
    InOrder heights blocks next := by
  constructor
  · rw [phase, opened]
    exact inOrder.building
  · rw [phase]
    exact inOrder.resting

theorem InOrder.rest (inOrder : InOrder heights blocks chain) (idle : chain.phase = .idle)
    (closed : next.phase ≠ .accepting) : InOrder heights blocks next :=
  ⟨fun accepting => absurd accepting closed, fun _ => inOrder.resting (by simp [idle])⟩

theorem InOrder.advances (inOrder : InOrder heights blocks chain)
    (advanced : command.Advances chain next wants started closes)
    (counted : CountedUp (started ++ heights)) :
    InOrder (started ++ heights) (closes ++ blocks) next := by
  cases advanced with
  | aside phase processor => exact inOrder.carry phase (by rw [processor])
  | changed _ phase processor => exact inOrder.carry phase (by rw [processor])
  | declared _ phase processor => exact inOrder.carry phase (by rw [processor])
  | @processed tx _ accepting still processor =>
      obtain ⟨_, _, _, _, _, left⟩ := chain.processor.process_snd tx
      exact inOrder.carry (still.trans accepting.symm) (by rw [processor, left])
  | abandoned idle preparing _ _ => exact inOrder.rest idle (by simp [preparing])
  | unopened idle again _ => exact inOrder.rest idle (by simp [again])
  | unclosed accepting missing _ _ =>
      obtain ⟨block, opened, _⟩ := inOrder.building accepting
      cases missing.symm.trans opened
  | @opened height header context idle accepting made prepared =>
      have before := inOrder.resting (by simp [idle])
      have behind : height.toNat = blocks.length + 1 := before ▸ (countedUp_cons.mp counted).1
      obtain ⟨timestamp, parentHash, found, rfl⟩ := header?_eq_ok made
      obtain ⟨registry, rules, loaded⟩ := Processor.prepare_eq_ok prepared
      refine ⟨fun _ => ?_, fun other => absurd accepting other⟩
      exact ⟨_, congrArg Processor.openBlock loaded, rfl, congrArg Nat.succ before, behind⟩
  | @closed block accepting opened idle processor =>
      obtain ⟨building, same, first, count, height⟩ := inOrder.building accepting
      refine ⟨fun other => ?_, fun _ => count⟩
      rw [idle] at other
      cases other

theorem Named.carry (named : Named blocks chain) (phase : next.phase = chain.phase)
    (opened : next.processor.openBlock = chain.processor.openBlock) : Named blocks next := by
  refine ⟨?_, named.linked⟩
  rw [phase, opened]
  exact named.parent

theorem Named.rest (named : Named blocks chain) (closed : next.phase ≠ .accepting) :
    Named blocks next :=
  ⟨fun accepting => absurd accepting closed, named.linked⟩

/-- As long as the host keeps the headers, a block names the one closed before it. -/
theorem Named.advances (named : Named blocks chain) (inOrder : InOrder heights blocks chain)
    (kept : Kept start blocks chain) (advanced : command.Advances chain next wants started closes)
    (counted : CountedUp (started ++ heights)) : Named (closes ++ blocks) next := by
  cases advanced with
  | aside phase processor => exact named.carry phase (by rw [processor])
  | changed _ phase processor => exact named.carry phase (by rw [processor])
  | declared _ phase processor => exact named.carry phase (by rw [processor])
  | @processed tx _ accepting still processor =>
      obtain ⟨_, _, _, _, _, left⟩ := chain.processor.process_snd tx
      exact named.carry (still.trans accepting.symm) (by rw [processor, left])
  | abandoned _ preparing _ _ => exact named.rest (by simp [preparing])
  | unopened _ again _ => exact named.rest (by simp [again])
  | unclosed _ _ idle _ => exact named.rest (by simp [idle])
  | @opened height header context idle accepting made prepared =>
      have before := inOrder.resting (by simp [idle])
      have behind : height.toNat = blocks.length + 1 := before ▸ (countedUp_cons.mp counted).1
      obtain ⟨timestamp, parentHash, found, rfl⟩ := header?_eq_ok made
      obtain ⟨registry, rules, loaded⟩ := Processor.prepare_eq_ok prepared
      refine ⟨?_, named.linked⟩
      intro _ block opened
      cases (congrArg Processor.openBlock loaded).symm.trans opened
      exact parentHash_of_linked named.linked kept behind found
  | @closed block accepting opened idle processor =>
      obtain ⟨building, same, _, _, height⟩ := inOrder.building accepting
      cases opened.symm.trans same
      refine ⟨?_, .cons height (named.parent accepting block opened) named.linked⟩
      rw [idle]
      exact nofun

variable {host : Host} {interpreter : Interpreter} {config : RuntimeConfig}

theorem inOrder_of_create (created : create host interpreter config = .ok start) :
    InOrder [] [] start := by
  obtain ⟨_, _, rfl⟩ := create_eq_ok created
  exact ⟨nofun, fun _ => rfl⟩

/-- The blocks of a run through the heights in order are linked, if the host keeps their headers. -/
theorem linked_of_run (created : create host interpreter config = .ok start)
    (taking : host.headersClosed = false) (still : .closeHeaders true ∉ commands)
    (counted : CountedUp (prepared commands start)) : Linked (closed commands start) := by
  let invariant (_ heights : List UInt64) (past : List (FinalizedBlock × Accounts))
      (chain : Chain) : Prop :=
    InOrder heights (past.map Prod.fst) chain ∧ Named (past.map Prod.fst) chain ∧
      Kept start (past.map Prod.fst) chain
  have step : ∀ (wanted heights : List UInt64) (past : List (FinalizedBlock × Accounts))
      (chain : Chain) (command : ChainCommand), invariant wanted heights past chain →
      command ≠ .closeHeaders true → CountedUp (command.starts chain ++ heights) →
      invariant (command.asks chain ++ wanted) (command.starts chain ++ heights)
        (command.settles chain ++ past) (command.run chain).2 := by
    rintro wanted heights past chain command ⟨inOrder, named, kept⟩ still counted
    simp only [invariant, List.map_append, ChainCommand.map_settles]
    have advanced := command.advances_run chain
    exact ⟨inOrder.advances advanced counted, named.advances inOrder kept advanced counted,
      kept.moves (command.moves_run chain) (headersClosed_run still kept.taking)⟩
  have atStart : invariant [] [] [] start := by
    refine ⟨inOrder_of_create created, ?_, kept_of_run created taking List.not_mem_nil⟩
    obtain ⟨_, _, rfl⟩ := create_eq_ok created
    exact ⟨nofun, .nil⟩
  have permitted : ∀ command ∈ commands, command ≠ .closeHeaders true :=
    fun command listed same => still (same ▸ listed)
  let ordered (_ heights : List UInt64) : Prop := CountedUp heights
  have earlier : ∀ {wants wanted started heights : List UInt64},
      ordered (wants ++ wanted) (started ++ heights) → ordered wanted heights :=
    CountedUp.of_append
  have inOrder : ordered (asked commands start ++ []) (prepared commands start ++ []) := by
    simpa [ordered] using counted
  have behind : invariant (asked commands start ++ []) (prepared commands start ++ [])
      (settled commands start ++ []) (runAll commands start).2 :=
    runAll_ordered earlier step atStart permitted inOrder
  simpa [map_settled] using behind.2.1.linked

end Chain

end HostedEvm
