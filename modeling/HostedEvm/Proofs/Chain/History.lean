import HostedEvm.Proofs.Chain.Frame
import HostedEvm.Proofs.Chain.Order
import HostedEvm.Proofs.Execution.Invariance

set_option autoImplicit false

/-!
Past states of a chain.

The accounts at the end of a block are filed when the next block begins, under a count of blocks
that the store keeps on its own. As long as heights are prepared in order and no transaction starts
a block, the count agrees with the heights, and the view of a height shows the accounts behind the
block there. A precompile that starts a block makes the two differ.
-/

namespace HostedEvm

open FinalizedBlock

/-- With a registry, the interpreter leaves the past of the state alone. -/
def Interpreter.StaysInBlock (interpreter : Interpreter) (registry : Registry) : Prop :=
  ∀ (tx : Transaction) (context : BlockContext) (workspace : Workspace),
    (interpreter tx ⟨registry, context⟩ workspace).2.state.store.SamePast workspace.state.store

abbrev Method.StaysInBlock (method : Method) : Prop :=
  method.Only fun command => command.beginsBlock = false

theorem JournaledState.samePast_lasting (store : Store) :
    Lasting fun state => state.store.SamePast store where
  withStore _ _ same holds := same.trans holds
  addLog _ _ holds := holds
  rewound state snapshot holds := (state.samePast_rewound snapshot).trans holds

theorem TransferMachine.staysInBlock {registry : Registry}
    (stays : registry.Every Method.StaysInBlock) :
    TransferMachine.interpreter.StaysInBlock registry := by
  intro tx context workspace
  have commands : ∀ command : StateCommand, command.beginsBlock = false →
      ∀ state : JournaledState, state.store.SamePast workspace.state.store →
        (command.run state).2.store.SamePast workspace.state.store :=
    fun _ free state holds => (StateCommand.samePast_run free state).trans holds
  exact @TransferMachine.interpreter_keeps _ _ (JournaledState.samePast_lasting _) commands tx
    ⟨registry, context⟩ workspace stays (.refl _)

theorem Host.genesis_eq (host : Host) :
    ∃ accounts, host.genesis = { accounts, committed := accounts } := by
  let funded (store : Store) : Prop := ∃ accounts, store = { accounts, committed := accounts }
  refine List.foldlRecOn (motive := funded) host.accounts _ ⟨∅, rfl⟩ ?_
  rintro store ⟨accounts, rfl⟩ entry _
  exact ⟨_, rfl⟩

namespace Processor

variable {processor : Processor} {registry : Registry}

theorem samePast_workspace (processor : Processor) (context : BlockContext) (tx : Transaction) :
    (processor.workspace context tx).state.store.SamePast processor.state.store := by
  obtain ⟨accessList, same⟩ := processor.workspace_cleared context tx
  rw [same]
  exact ⟨rfl, rfl⟩

theorem samePast_process (stays : processor.interpreter.StaysInBlock processor.registry)
    (tx : Transaction) :
    (processor.process tx).2.state.store.SamePast processor.state.store := by
  have within {block : OpenBlock} {outcome : Except Fault Execution} {left : Workspace}
      (answered : processor.answer block tx = (outcome, left)) :
      left.state.store.SamePast processor.state.store := by
    have ran := (stays tx block.context _).trans (processor.samePast_workspace block.context tx)
    rwa [← answer, answered] at ran
  have ran := processor.processes tx
  generalize processor.process tx = result at ran ⊢
  cases ran with
  | unsealed => exact .refl _
  | unopened => exact .refl _
  | abandoned _ answered => exact within answered
  | rejected _ answered _ refused =>
      obtain ⟨_, rejected⟩ := reject_eq _ _ _
      cases refused.symm.trans rejected
      exact (JournaledState.samePast_rewound _ _).trans (within answered)
  | executed _ _ answered => exact (JournaledState.samePast_finalize _).trans (within answered)

theorem finalize_snd {block : OpenBlock} (opened : processor.openBlock = some block) :
    processor.finalize.2 =
      { processor with
        state := processor.state.finalize
        openBlock := none, transactions := [], receipts := [], logCount := 0 } := by
  unfold finalize
  rw [opened]

end Processor

/-- Whatever can be registered of some precompiles, under any forks, has a property. -/
def Registry.Supplied (property : Registry → Prop) (prices : StoragePrices)
    (precompiles : ForkRules → List Precompile) : Prop :=
  ∀ rules registry, Registry.ofPrecompiles (precompiles rules) prices = .ok registry →
    property registry

namespace Processor

variable {processor : Processor} {property : Registry → Prop} {prices : StoragePrices}
  {interpreter : Interpreter}

structure Equipped (property : Registry → Prop) (prices : StoragePrices)
    (interpreter : Interpreter) (processor : Processor) : Prop where
  loaded : property processor.registry
  loadable : Registry.Supplied property processor.precompilePrices processor.precompiles
  prices : processor.precompilePrices = prices
  interpreter : processor.interpreter = interpreter

theorem Equipped.prepare (equipped : processor.Equipped property prices interpreter)
    (header : Header) (context : BlockContext) :
    (processor.prepare header context).2.Equipped property prices interpreter := by
  have loaded := prepare_registry (equipped.loadable context.rules) equipped.loaded header
  obtain ⟨registry, rules, opened, left⟩ := processor.prepare_snd header context
  rw [left] at loaded ⊢
  exact ⟨loaded, equipped.loadable, equipped.prices, equipped.interpreter⟩

theorem Equipped.process (equipped : processor.Equipped property prices interpreter)
    (tx : Transaction) : (processor.process tx).2.Equipped property prices interpreter := by
  obtain ⟨_, _, _, _, _, left⟩ := processor.process_snd tx
  rw [left]
  exact { equipped with }

theorem Equipped.finalize (equipped : processor.Equipped property prices interpreter) :
    processor.finalize.2.Equipped property prices interpreter := by
  unfold Processor.finalize
  split
  · exact equipped
  · exact { equipped with }

theorem Equipped.declare (equipped : processor.Equipped property prices interpreter)
    {precompiles : ForkRules → List Precompile}
    (supplied : Registry.Supplied property prices precompiles) :
    { processor with precompiles }.Equipped property prices interpreter where
  loaded := equipped.loaded
  loadable := equipped.prices ▸ supplied
  prices := equipped.prices
  interpreter := equipped.interpreter

end Processor

/-- The accounts behind the block at a height, of blocks that were closed with the accounts right
behind them. Height zero is the genesis. -/
def accountsAt (genesis : Accounts) (past : List (FinalizedBlock × Accounts)) (number : UInt64) :
    Option Accounts :=
  if number = 0 then some genesis
  else (past.find? fun entry => entry.1.block.number = number).map Prod.snd

theorem accountsAt_cons (genesis : Accounts) (finalized : FinalizedBlock) (accounts : Accounts)
    (past : List (FinalizedBlock × Accounts)) {number : UInt64} (behind : number ≠ 0) :
    accountsAt genesis ((finalized, accounts) :: past) number =
      if finalized.block.number = number then some accounts
      else accountsAt genesis past number := by
  by_cases same : finalized.block.number = number <;> simp [accountsAt, behind, same]

namespace Chain

variable {chain next start : Chain} {command : ChainCommand} {commands : List ChainCommand}
  {wanted heights wants started : List UInt64}
  {past : List (FinalizedBlock × Accounts)} {closes : List FinalizedBlock}
  {genesis : Accounts} {property : Registry → Prop} {prices : StoragePrices}
  {interpreter : Interpreter}

/-- Every command keeps the equipment of a chain, if what it declares may be loaded. -/
theorem equipped_advances (equipped : chain.processor.Equipped property prices interpreter)
    (supplied : ∀ precompiles, command = .declare precompiles →
      Registry.Supplied property prices precompiles)
    (advanced : command.Advances chain next wants started closes) :
    next.processor.Equipped property prices interpreter := by
  have begun : chain.begun.processor.Equipped property prices interpreter := { equipped with }
  cases advanced with
  | aside _ processor => exact processor ▸ equipped
  | changed _ _ processor =>
      rw [processor]
      exact { equipped with }
  | declared own _ processor => exact processor ▸ equipped.declare (supplied _ own)
  | processed _ _ _ processor => exact processor ▸ equipped.process _
  | abandoned _ _ _ processor => exact processor ▸ begun
  | @unopened height header context fault _ _ refused =>
      have left := begun.prepare header context
      rwa [refused] at left
  | @opened height header context _ _ _ prepared =>
      have left := begun.prepare header context
      rwa [prepared] at left
  | unclosed _ _ _ processor => exact processor ▸ equipped
  | closed _ _ _ processor => exact processor ▸ equipped.finalize

def Remembers (genesis : Accounts) (past : List (FinalizedBlock × Accounts)) (height : Nat)
    (store : Store) : Prop :=
  ∀ number : UInt64, number.toNat < height →
    ∃ accounts, accountsAt genesis past number = some accounts ∧
      store.history[number]? = some accounts

section Remembers

variable {store other : Store} {height : Nat}

theorem history_beginBlock (store : Store) (number : UInt64) :
    store.beginBlock.history[number]? =
      if store.blocks = number then some store.committed else store.history[number]? :=
  Map.get_insert ..

theorem Remembers.begin (remembers : Remembers genesis past height store)
    (behind : height ≤ store.blocks.toNat) : Remembers genesis past height store.beginBlock := by
  intro number below
  have other : store.blocks ≠ number := by
    rintro rfl
    omega
  rw [history_beginBlock, if_neg other]
  exact remembers number below

/-- The start of a block files the accounts that were committed last. -/
theorem Remembers.begin_next (remembers : Remembers genesis past store.blocks.toNat store)
    (committed : accountsAt genesis past store.blocks = some store.committed) :
    Remembers genesis past (store.blocks.toNat + 1) store.beginBlock := by
  intro number below
  rw [history_beginBlock]
  split
  · rename_i last
    rw [← last]
    exact ⟨_, committed, rfl⟩
  · rename_i other
    have apart : store.blocks.toNat ≠ number.toNat := fun same => other (UInt64.toNat_inj.mp same)
    exact remembers number (by omega)

theorem Remembers.samePast (remembers : Remembers genesis past height store)
    (same : other.SamePast store) : Remembers genesis past height other := by
  unfold Remembers
  rw [same.history]
  exact remembers

theorem Remembers.close (remembers : Remembers genesis past height store)
    {finalized : FinalizedBlock} (above : height ≤ finalized.block.number.toNat)
    (accounts : Accounts) :
    Remembers genesis ((finalized, accounts) :: past) height store := by
  intro number below
  obtain ⟨earlier, known, filed⟩ := remembers number below
  refine ⟨earlier, ?_, filed⟩
  by_cases origin : number = 0
  · simpa [accountsAt, origin] using known
  · have apart : finalized.block.number ≠ number := by
      rintro rfl
      omega
    rw [accountsAt_cons _ _ _ _ origin, if_neg apart, known]

end Remembers

/-- The store of a chain counts the heights asked for, and has filed the accounts behind every block
before the last one that was prepared. As long as every height was prepared when it was asked for,
what an idle chain has committed is what its next block files. -/
structure Recalls (genesis : Accounts) (wanted heights : List UInt64)
    (past : List (FinalizedBlock × Accounts)) (chain : Chain) : Prop where
  inOrder : InOrder heights (past.map Prod.fst) chain
  counted : chain.processor.state.store.blocks.toNat = wanted.length
  ahead : heights.length ≤ wanted.length
  filed : Remembers genesis past heights.length chain.processor.state.store
  committed : chain.phase = .idle → wanted.length = heights.length →
    accountsAt genesis past chain.processor.state.store.blocks =
      some chain.processor.state.store.committed

theorem Recalls.carry (recalls : Recalls genesis wanted heights past chain)
    (inOrder : InOrder heights (past.map Prod.fst) next)
    (same : next.processor.state.store.SamePast chain.processor.state.store)
    (still : next.phase = .idle → chain.phase = .idle ∧
      next.processor.state.store.committed = chain.processor.state.store.committed) :
    Recalls genesis wanted heights past next where
  inOrder := inOrder
  counted := same.blocks ▸ recalls.counted
  ahead := recalls.ahead
  filed := recalls.filed.samePast same
  committed idle level := by
    obtain ⟨before, committed⟩ := still idle
    rw [same.blocks, committed]
    exact recalls.committed before level

theorem blocks_begun (recalls : Recalls genesis wanted heights past chain) {height : UInt64}
    (counted : CountedUp (height :: wanted)) :
    chain.begun.processor.state.store.blocks.toNat = wanted.length + 1 := by
  have next : chain.begun.processor.state.store.blocks =
      chain.processor.state.store.blocks + 1 := rfl
  have room := height.toNat_lt
  rw [(countedUp_cons.mp counted).1] at room
  rw [next, UInt64.toNat_add, recalls.counted]
  exact Nat.mod_eq_of_lt room

/-- A height that is asked for and not prepared takes a place in the count. -/
theorem Recalls.ask (recalls : Recalls genesis wanted heights past chain) {height : UInt64}
    (counted : CountedUp (height :: wanted)) (inOrder : InOrder heights (past.map Prod.fst) next)
    (same : next.processor = chain.begun.processor) :
    Recalls genesis (height :: wanted) heights past next := by
  have ahead := recalls.ahead
  refine ⟨inOrder, ?_, Nat.le_succ_of_le ahead, ?_, fun _ level => ?_⟩
  · rw [same]
    exact blocks_begun recalls counted
  · rw [same]
    exact recalls.filed.begin (recalls.counted ▸ ahead)
  · rw [List.length_cons] at level
    omega

theorem Recalls.open (recalls : Recalls genesis wanted heights past chain)
    (idle : chain.phase = .idle) {height : UInt64} (asked : CountedUp (height :: wanted))
    (counted : CountedUp (height :: heights))
    (inOrder : InOrder (height :: heights) (past.map Prod.fst) next)
    (accepting : next.phase = .accepting)
    (same : next.processor.state = chain.begun.processor.state) :
    Recalls genesis (height :: wanted) (height :: heights) past next := by
  have level : wanted.length = heights.length := by
    have first := (countedUp_cons.mp asked).1
    have second := (countedUp_cons.mp counted).1
    omega
  have blocks := recalls.counted.trans level
  have filed := recalls.filed
  rw [← blocks] at filed
  refine ⟨inOrder, ?_, Nat.succ_le_succ recalls.ahead, ?_, by simp [accepting]⟩
  · rw [same]
    exact blocks_begun recalls asked
  · rw [same, List.length_cons, ← blocks]
    exact filed.begin_next (recalls.committed idle level)

theorem Recalls.close {block : OpenBlock} (recalls : Recalls genesis wanted heights past chain)
    (accepting : chain.phase = .accepting) (opened : chain.processor.openBlock = some block)
    (inOrder : InOrder heights (chain.processor.assemble block.header :: past.map Prod.fst) next)
    (closed : next.processor = chain.processor.finalize.2) :
    Recalls genesis wanted heights
      ((chain.processor.assemble block.header, next.processor.state.store.accounts) :: past)
      next := by
  obtain ⟨building, same, _, count, height⟩ := recalls.inOrder.building accepting
  cases opened.symm.trans same
  rw [Processor.finalize_snd opened] at closed
  have past := chain.processor.state.samePast_finalize
  have number : (chain.processor.assemble block.header).block.number.toNat = heights.length :=
    height.trans count.symm
  refine ⟨inOrder, ?_, recalls.ahead, ?_, fun _ level => ?_⟩
  · rw [closed]
    exact past.blocks ▸ recalls.counted
  · rw [closed]
    exact (recalls.filed.samePast past).close (Nat.le_of_eq number.symm) _
  · have own : next.processor.state.store.blocks =
        (chain.processor.assemble block.header).block.number := by
      rw [← UInt64.toNat_inj, number, ← level, ← recalls.counted, closed]
      exact congrArg UInt64.toNat past.blocks
    have behind : next.processor.state.store.blocks ≠ 0 := by
      intro none
      rw [own, ← UInt64.toNat_inj, number, count] at none
      cases none
    rw [accountsAt_cons _ _ _ _ behind, if_pos own.symm, closed]
    rfl

theorem Recalls.advances (recalls : Recalls genesis wanted heights past chain)
    (equipped : chain.processor.Equipped interpreter.StaysInBlock prices interpreter)
    (unchanged : ∀ inner, command ≠ .change inner)
    (advanced : command.Advances chain next wants started closes)
    (asked : CountedUp (wants ++ wanted)) (counted : CountedUp (started ++ heights)) :
    Recalls genesis (wants ++ wanted) (started ++ heights)
      (closes.map (fun finalized => (finalized, next.processor.state.store.accounts)) ++ past)
      next := by
  have inOrder := recalls.inOrder.advances advanced counted
  cases advanced with
  | aside phase processor =>
      apply recalls.carry inOrder
      · rw [processor]
        exact .refl _
      · rw [phase, processor]
        exact fun idle => ⟨idle, rfl⟩
  | changed own => exact absurd own (unchanged _)
  | declared _ phase processor =>
      apply recalls.carry inOrder
      · rw [processor]
        exact .refl _
      · rw [phase, processor]
        exact fun idle => ⟨idle, rfl⟩
  | @processed tx _ accepting still processor =>
      apply recalls.carry inOrder
      · rw [processor]
        apply Processor.samePast_process
        rw [equipped.interpreter]
        exact equipped.loaded
      · simp [still]
  | abandoned _ _ _ processor => exact recalls.ask asked inOrder processor
  | unopened _ _ refused =>
      -- the block is not opened, but it was begun
      exact recalls.ask asked inOrder (Processor.prepare_eq_error refused).1
  | opened idle accepting made prepared =>
      obtain ⟨registry, rules, processor⟩ := Processor.prepare_eq_ok prepared
      exact recalls.open idle asked counted inOrder accepting (by rw [processor])
  | unclosed accepting missing _ _ =>
      obtain ⟨block, opened, _⟩ := recalls.inOrder.building accepting
      cases missing.symm.trans opened
  | closed accepting opened _ processor => exact recalls.close accepting opened inOrder processor

variable {host : Host} {config : RuntimeConfig}

/-- A chain starts with a registry of the precompiles of its host. -/
theorem start_of_create (created : create host interpreter config = .ok start) :
    ∃ registry rules,
      Registry.ofPrecompiles (host.precompiles rules) host.precompilePrices = .ok registry ∧
        start =
          { host, configured := config.chain, reader := .ofConfig config
            processor :=
              { processorOf host interpreter with registry, registryRules := some rules } } := by
  obtain ⟨processor, loaded, rfl⟩ := create_eq_ok created
  unfold Processor.loadPrecompiles at loaded
  rw [if_neg nofun] at loaded
  split at loaded
  · rename_i registry built
    cases loaded
    exact ⟨registry, _, built, rfl⟩
  · cases loaded

theorem equipped_of_create (created : create host interpreter config = .ok start)
    (supplied : Registry.Supplied property host.precompilePrices host.precompiles) :
    start.processor.Equipped property host.precompilePrices interpreter := by
  obtain ⟨registry, rules, built, rfl⟩ := start_of_create created
  exact ⟨supplied rules registry built, supplied, rfl, rfl⟩

theorem recalls_of_create (created : create host interpreter config = .ok start) :
    Recalls host.genesis.accounts [] [] [] start := by
  have inOrder := inOrder_of_create created
  obtain ⟨accounts, genesis⟩ := host.genesis_eq
  obtain ⟨registry, rules, _, rfl⟩ := start_of_create created
  have store : (processorOf host interpreter).state.store = { accounts, committed := accounts } :=
    genesis
  refine ⟨inOrder, ?_, Nat.le_refl 0, fun _ below => absurd below (Nat.not_lt_zero _), ?_⟩
  · simp only [store]
    rfl
  · simp only [store, genesis]
    exact fun _ _ => rfl

theorem recalls_of_run (created : create host interpreter config = .ok start)
    (stays : ∀ precompiles, precompiles = host.precompiles ∨ .declare precompiles ∈ commands →
      Registry.Supplied interpreter.StaysInBlock host.precompilePrices precompiles)
    (unchanged : ∀ inner, .change inner ∉ commands)
    (once : CountedUp (asked commands start)) (counted : CountedUp (prepared commands start)) :
    Recalls host.genesis.accounts (asked commands start) (prepared commands start)
      (settled commands start) (runAll commands start).2 := by
  let invariant (wanted heights : List UInt64) (past : List (FinalizedBlock × Accounts))
      (chain : Chain) : Prop :=
    Recalls host.genesis.accounts wanted heights past chain ∧
      chain.processor.Equipped interpreter.StaysInBlock host.precompilePrices interpreter
  let ordered (wanted heights : List UInt64) : Prop := CountedUp wanted ∧ CountedUp heights
  have earlier : ∀ {wants wanted started heights : List UInt64},
      ordered (wants ++ wanted) (started ++ heights) → ordered wanted heights :=
    fun inOrder => ⟨inOrder.1.of_append, inOrder.2.of_append⟩
  have step : ∀ (wanted heights : List UInt64) (past : List (FinalizedBlock × Accounts))
      (chain : Chain) (command : ChainCommand), invariant wanted heights past chain →
      command ∈ commands →
      ordered (command.asks chain ++ wanted) (command.starts chain ++ heights) →
      invariant (command.asks chain ++ wanted) (command.starts chain ++ heights)
        (command.settles chain ++ past) (command.run chain).2 := by
    rintro wanted heights past chain command ⟨recalls, equipped⟩ listed ⟨once, counted⟩
    have advanced := command.advances_run chain
    refine ⟨recalls.advances equipped ?_ advanced once counted,
      equipped_advances equipped ?_ advanced⟩
    · rintro inner rfl
      exact unchanged inner listed
    · rintro precompiles rfl
      exact stays precompiles (.inr listed)
  have atStart : invariant [] [] [] start :=
    ⟨recalls_of_create created, equipped_of_create created (stays _ (.inl rfl))⟩
  have inOrder : ordered (asked commands start ++ []) (prepared commands start ++ []) := by
    simpa [ordered] using And.intro once counted
  have behind : invariant (asked commands start ++ []) (prepared commands start ++ [])
      (settled commands start ++ []) (runAll commands start).2 :=
    runAll_ordered earlier step atStart (fun _ listed => listed) inOrder
  simpa using behind.1

/-- At every moment of a run that prepares one height after the other, each when it is first asked
for, the view of a height below the last one shows the accounts as they were right behind the block
there, or those of the genesis, if the interpreter with the precompiles of the host starts no block
itself. -/
theorem past_observed (created : create host interpreter config = .ok start)
    (stays : ∀ precompiles, precompiles = host.precompiles ∨ .declare precompiles ∈ commands →
      Registry.Supplied interpreter.StaysInBlock host.precompilePrices precompiles)
    (unchanged : ∀ inner, .change inner ∉ commands)
    (once : CountedUp (asked commands start)) (counted : CountedUp (prepared commands start))
    {last number : UInt64} (latest : (prepared commands start).head? = some last)
    (earlier : number < last) :
    ∃ accounts,
      accountsAt host.genesis.accounts (settled commands start) number = some accounts ∧
      (runAll commands start).2.stateAt number =
        .ok { store := (runAll commands start).2.processor.state.store.onto accounts } := by
  have recalls := recalls_of_run created stays unchanged once counted
  obtain ⟨older, heights⟩ := List.head?_eq_some_iff.mp latest
  rw [heights] at counted
  have below : number.toNat < (prepared commands start).length := by
    rw [UInt64.lt_iff_toNat_lt, (countedUp_cons.mp counted).1] at earlier
    rw [heights]
    exact earlier
  have begun : ¬ (runAll commands start).2.processor.state.store.blocks ≤ number := by
    rw [UInt64.not_le, UInt64.lt_iff_toNat_lt, recalls.counted]
    exact Nat.lt_of_lt_of_le below recalls.ahead
  obtain ⟨accounts, known, filed⟩ := recalls.filed number below
  refine ⟨accounts, known, ?_⟩
  simp [stateAt, Processor.stateAt, JournaledState.view?, Store.view?, begun, filed, Except.map,
    Except.mapError]

def hostOf (handler : Handler) : Host where
  accounts := [(1, 1000000)]
  precompiles := fun _ => builtinPrecompiles ++
    [.stateful
      { address := 9
        interface := { functions := [{ name := "f", inputs := [] }] }
        methods := [{ signature := "f()", handler }] }]

def crediting : Handler := fun _ _ =>
  .perform (.store (.addBalance 7 5)) fun _ => .finish (.ok [])

def blockStarting : Handler := fun _ _ => .perform .beginBlock fun _ => .finish (.ok [])

def callingRun : List ChainCommand :=
  [.prepare 1,
    .process { sender := 1, recipient := some 9, input := [0x26, 0x12, 0x1f, 0xf0]
               gasLimit := 30000, hash := 1 },
    .finalize, .prepare 2]

theorem crediting_stays : Registry.Supplied TransferMachine.interpreter.StaysInBlock
    (hostOf crediting).precompilePrices (hostOf crediting).precompiles := by
  intro rules registry built
  refine TransferMachine.staysInBlock (Registry.every_withCodec ?_ built)
  intro precompile declared
  rcases List.mem_cons.mp declared with rfl | own
  · trivial
  · rw [List.mem_singleton.mp own]
    intro method listed invocation arguments
    rw [List.mem_singleton.mp listed]
    exact .perform rfl fun _ => .finish

theorem callingRun_observed : ∃ start accounts,
    create (hostOf crediting) TransferMachine.interpreter {} = .ok start ∧
      prepared callingRun start = [2, 1] ∧
      accountsAt (hostOf crediting).genesis.accounts (settled callingRun start) 1 = some accounts ∧
      (accounts.account 7).balance = 5 ∧
      (runAll callingRun start).2.stateAt 1 =
        .ok { store := (runAll callingRun start).2.processor.state.store.onto accounts } := by
  have ran : ((create (hostOf crediting) TransferMachine.interpreter {}).toOption.any fun start =>
      decide (asked callingRun start = [2, 1] ∧ prepared callingRun start = [2, 1] ∧
        (accountsAt (hostOf crediting).genesis.accounts (settled callingRun start) 1).all
          (fun accounts => (accounts.account 7).balance = 5))) = true := by
    decide +kernel
  obtain ⟨start, created, passed⟩ := exists_created ran
  obtain ⟨wanted, heights, credited⟩ := of_decide_eq_true passed
  have once : CountedUp (asked callingRun start) := by
    rw [wanted]
    decide
  have counted : CountedUp (prepared callingRun start) := by
    rw [heights]
    decide
  have stays : ∀ precompiles,
      precompiles = (hostOf crediting).precompiles ∨ .declare precompiles ∈ callingRun →
      Registry.Supplied TransferMachine.interpreter.StaysInBlock
        (hostOf crediting).precompilePrices precompiles := by
    rintro precompiles (rfl | listed)
    · exact crediting_stays
    · simp [callingRun] at listed
  have latest : (prepared callingRun start).head? = some 2 := by rw [heights]; rfl
  have earlier : (1 : UInt64) < 2 := by decide
  obtain ⟨accounts, known, viewed⟩ :=
    past_observed created stays (by simp [callingRun]) once counted
    latest earlier
  rw [known, Option.all_some, decide_eq_true_eq] at credited
  exact ⟨start, accounts, created, heights, known, credited, viewed⟩

/-- Where a precompile starts a block, the view of a height need not show the accounts behind the
block there. -/
theorem past_displaced :
    ¬ ∀ (host : Host) (interpreter : Interpreter) (config : RuntimeConfig) (start : Chain)
        (commands : List ChainCommand) (last number : UInt64),
      create host interpreter config = .ok start → (∀ inner, .change inner ∉ commands) →
      CountedUp (asked commands start) → CountedUp (prepared commands start) →
      (prepared commands start).head? = some last → number < last →
      ∃ accounts, accountsAt host.genesis.accounts (settled commands start) number = some accounts ∧
        (runAll commands start).2.stateAt number =
          .ok { store := (runAll commands start).2.processor.state.store.onto accounts } := by
  intro claimed
  have ran : ((create (hostOf blockStarting) TransferMachine.interpreter {}).toOption.any
      fun start => decide (asked callingRun start = [2, 1] ∧ prepared callingRun start = [2, 1] ∧
        ((accountsAt (hostOf blockStarting).genesis.accounts (settled callingRun start) 1).map
          fun accounts => (accounts.account 1).nonce) = some 1 ∧
        (((runAll callingRun start).2.stateAt 1).toOption.map
          fun view => (view.store.accounts.account 1).nonce) = some 0)) = true := by
    decide +kernel
  obtain ⟨start, created, passed⟩ := exists_created ran
  obtain ⟨wanted, heights, settledNonce, shownNonce⟩ := of_decide_eq_true passed
  have once : CountedUp (asked callingRun start) := by
    rw [wanted]
    decide
  have counted : CountedUp (prepared callingRun start) := by
    rw [heights]
    decide
  have latest : (prepared callingRun start).head? = some 2 := by rw [heights]; rfl
  have earlier : (1 : UInt64) < 2 := by decide
  obtain ⟨accounts, known, viewed⟩ := claimed _ _ _ start callingRun 2 1 created
    (by simp [callingRun]) once counted latest earlier
  rw [known] at settledNonce
  rw [viewed] at shownNonce
  have same := (Option.some.inj settledNonce).symm.trans (Option.some.inj shownNonce)
  exact absurd same (by decide)

/-- A host whose precompiles clash from a fork on. -/
def forkingHost : Host where
  chainConfig := { shanghaiTime := some 1 }
  accounts := [(1, 1000000)]
  precompiles rules :=
    if rules.shanghai then builtinPrecompiles ++ builtinPrecompiles else builtinPrecompiles
  archive := some {}

def retryingRun : List ChainCommand :=
  [.prepare 1, .declare fun _ => builtinPrecompiles, .prepare 1,
    .process { sender := 1, recipient := some 2, gasLimit := 21000, hash := 5 }, .finalize,
    .prepare 2]

-- The attempt that failed took a place in the count, so that the view of a height lags one block
-- behind from then on.
example : ((create forkingHost TransferMachine.interpreter {}).toOption.any fun start =>
    decide (asked retryingRun start = [2, 1, 1] ∧ prepared retryingRun start = [2, 1] ∧
      ((accountsAt forkingHost.genesis.accounts (settled retryingRun start) 1).map
        fun accounts => (accounts.account 1).nonce) = some 1 ∧
      (((runAll retryingRun start).2.stateAt 1).toOption.map
        fun view => (view.store.accounts.account 1).nonce) = some 0)) = true := by
  decide +kernel

end Chain

end HostedEvm
