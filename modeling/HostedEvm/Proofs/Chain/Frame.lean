import HostedEvm.Proofs.Chain.Processing
import HostedEvm.Proofs.Execution.Fee

set_option autoImplicit false

/-!
The call or creation of a transaction within its block.
-/

namespace HostedEvm.Processor

open TransferMachine

variable {processor : Processor} {tx : Transaction}

/-- Preparing a block loads a registry and opens the block. -/
theorem prepare_eq_ok {ready : Processor} {header : Header} {context : BlockContext}
    (prepared : processor.prepare header context = (.ok (), ready)) :
    ∃ registry rules,
      ready =
        { processor with
          registry, registryRules := rules, openBlock := some ⟨header, context⟩ } := by
  unfold prepare loadPrecompiles at prepared
  split at prepared
  · rename_i loaded result
    cases prepared
    split at result
    · cases result
      exact ⟨_, _, rfl⟩
    · split at result
      · cases result
        exact ⟨_, _, rfl⟩
      · cases result
  · cases prepared

/-- Preparing a block fails where the precompiles in force cannot be registered, and changes nothing
then. -/
theorem prepare_eq_error {after : Processor} {header : Header} {context : BlockContext}
    {fault : ChainFault} (refused : processor.prepare header context = (.error fault, after)) :
    after = processor ∧ ∃ cause, fault = .vm cause ∧
      Registry.ofPrecompiles (processor.precompiles context.rules) processor.precompilePrices =
        .error cause := by
  unfold prepare loadPrecompiles at refused
  split at refused
  · cases refused
  · rename_i failed
    split at failed
    · cases failed
    · split at failed
      · cases failed
      · rename_i cause unregistered
        cases failed
        cases refused
        exact ⟨rfl, cause, rfl, unregistered⟩

theorem prepare_snd (processor : Processor) (header : Header) (context : BlockContext) :
    ∃ registry registryRules openBlock,
      (processor.prepare header context).2 =
        { processor with registry, registryRules, openBlock } := by
  rcases prepared : processor.prepare header context with ⟨outcome, after⟩
  cases outcome with
  | ok _ =>
      obtain ⟨registry, rules, rfl⟩ := prepare_eq_ok prepared
      exact ⟨_, _, _, rfl⟩
  | error fault =>
      obtain ⟨rfl, _⟩ := prepare_eq_error prepared
      exact ⟨_, _, _, rfl⟩

/-- What holds of a registry and of those that can be made of the precompiles in force holds of the
one that a block is prepared with. -/
theorem prepare_registry {property : Registry → Prop} {context : BlockContext}
    (loadable : ∀ registry,
      Registry.ofPrecompiles (processor.precompiles context.rules) processor.precompilePrices =
        .ok registry → property registry)
    (present : property processor.registry) (header : Header) :
    property (processor.prepare header context).2.registry := by
  unfold prepare loadPrecompiles
  split
  · rename_i loaded result
    split at result
    · cases result
      exact present
    · split at result
      · rename_i registry built
        cases result
        exact loadable registry built
      · cases result
  · rename_i fault loaded result
    split at result
    · cases result
    · split at result
      · cases result
      · cases result
        exact present

/-- What holds of every declared method holds of every method that a block is prepared with. -/
theorem prepare_every {property : Method → Prop}
    (declared : ∀ rules, ∀ precompile ∈ processor.precompiles rules, precompile.Every property)
    (present : processor.registry.Every property) (header : Header) (context : BlockContext) :
    (processor.prepare header context).2.registry.Every property :=
  prepare_registry (fun _ built => Registry.every_withCodec (declared context.rules) built)
    present header

def frame (processor : Processor) (context : BlockContext) (tx : Transaction) :
    CallResult × Option Address × JournaledState :=
  TransferMachine.frame tx processor.registry (processor.workspace context tx)

/-- The call or creation starts with the accounts of the block except for the payment of the
sender, without logs and without destroyed accounts. -/
theorem started_workspace {context : BlockContext}
    (checked : (check tx (processor.workspace context tx).state).1 = .ok ())
    (charged : (charge tx (check tx (processor.workspace context tx).state).2).1 = .ok ()) :
    let state := (started tx (processor.workspace context tx)).state
    state.store.accounts = processor.state.store.accounts.change tx.sender (advanced tx) ∧
      state.logs.entries = [] ∧ state.destroyed.order = [] := by
  obtain ⟨amount, started⟩ := started_state checked charged
  obtain ⟨accessList, same⟩ := processor.workspace_cleared context tx
  rw [same] at started
  simp only [started]
  exact ⟨rfl, rfl, rfl⟩

theorem started_workspace_meter {context : BlockContext}
    (paid : ((processor.workspace context tx).meter.consume baseGas).1 = .ok ()) :
    (started tx (processor.workspace context tx)).meter =
      { processor.meter.beginTransaction tx.gasLimit with txConsumed := baseGas } := by
  rw [started_meter]
  rcases payment : (processor.workspace context tx).meter.consume baseGas with ⟨outcome, meter⟩
  rw [payment] at paid
  cases paid
  obtain ⟨consumed, admitted, same⟩ := Meter.consume_eq_ok payment
  have total := (Meter.admitted_eq_ok_iff.mp admitted).1
  have unused : (processor.meter.beginTransaction tx.gasLimit).txConsumed.toNat = 0 := rfl
  rw [workspace_meter, unused, Nat.zero_add] at total
  rw [same, workspace_meter, UInt64.toNat_inj.mp total]

end HostedEvm.Processor
