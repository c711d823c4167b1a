import HostedEvm.Proofs.Gas.Meter
import HostedEvm.Proofs.Precompile.Atomicity
import HostedEvm.Proofs.State.Charges

set_option autoImplicit false

/-!
What a call of a precompile is charged.

A handler is charged what it consumes, and what its own work on the state costs under the storage
prices in force. The calls within it start with free storage, but a precompile that is reached there
runs under prices of its own again and counts on the same counter. The account of a run therefore
has three parts, and the counter tells the last two of them together.
-/

namespace HostedEvm

structure Spending where
  /-- The gas that it consumed itself. -/
  consumed : Nat := 0
  /-- What its own work on the state was charged. -/
  storage : Int := 0
  /-- What the work within its calls was charged. -/
  nested : Int := 0
  deriving DecidableEq

namespace Spending

/-- What the storage counter of the state shows of it. -/
def counted (spending : Spending) : Int := spending.storage + spending.nested

/-- The gas that a call reports as consumed, where the fixed price and the count in front of it are
given. The counter starts again at zero where a word ends, and a count below the one in front of the
call is no consumption. -/
def reported (spending : Spending) (required charged : Gas) : Nat :=
  min
    (required.toNat + spending.consumed +
      ((charged + UInt64.ofInt spending.counted).toNat - charged.toNat))
    Gas.unlimited.toNat

end Spending

/-- What the work within calls is charged, where it starts with free storage. -/
abbrev Work := Message → Machine → Int

def Answer.Charges (answer : Answer) (work : Work) : Prop :=
  ∀ (message : Message) (machine : Machine), machine.state.prices = .free →
    Returned (answer message machine).1 →
      (answer message machine).2.state.store.charged =
        machine.state.store.charged + UInt64.ofInt (work message machine)

/-- What the work within a call of a handler is charged. A call that is refused does none. -/
def Scene.work (scene : Scene) (work : Work) (recipient : Address) (input : Bytes) (gas : Gas)
    (value : Word) (machine : Machine) : Int :=
  if scene.invocation.readonly ∧ value ≠ 0 then 0
  else work ⟨scene.invocation.address, recipient, input, gas, value⟩ (machine.withPrices .free)

/-- What a program spends under the given storage prices, in a run in which the host never gives
up. -/
def Program.spending {Result : Type} (scene : Scene) (work : Work) :
    StoragePrices → Program Result → Meter → Machine → Spending
  | _, .finish _, _, _ => {}
  | inForce, .perform command next, meter, machine =>
    let (reply, state) := command.run machine.state
    let rest := spending scene work (command.pricesBehind inForce) (next reply) meter
      { machine with state }
    { rest with storage := command.cost inForce machine.state + rest.storage }
  | inForce, .consume amount next, meter, machine =>
    let (outcome, paid) := meter.consume amount
    let rest := spending scene work inForce (next outcome) paid machine
    { rest with consumed := (if outcome.isOk then amount.toNat else 0) + rest.consumed }
  | inForce, .consumed next, meter, machine =>
    spending scene work inForce (next meter.txConsumed) meter machine
  | inForce, .emit event next, meter, machine =>
    let (outcome, left) := scene.emit event machine
    spending scene work inForce (next outcome) meter left
  | inForce, .call recipient input gas value next, meter, machine =>
    let (output, left) := scene.call recipient input gas value machine
    let rest := spending scene work inForce (next output) meter left
    { rest with nested := scene.work work recipient input gas value machine + rest.nested }

def Container.spending (container : Container) (scene : Scene) (work : Work)
    (inForce : StoragePrices) (input : Bytes) (meter : Meter) (machine : Machine) : Spending :=
  match container with
  | .pure _ => {}
  | .dispatching table =>
    match table.select input with
    | .error _ => {}
    | .ok bound =>
      match table.codec.decodeInput bound.function (input.drop 4) with
      | .error _ => {}
      | .ok arguments =>
        (bound.method.handler scene.invocation arguments).spending scene work inForce meter machine

def Registry.spending (registry : Registry) (nested : Answer) (work : Work)
    (invocation : Invocation) (input : Bytes) (machine : Machine) : Spending :=
  match registry.get? invocation.address with
  | none => {}
  | some container =>
    container.spending ⟨invocation, container.book?, nested⟩ work registry.prices input
      (Meter.unlimited.consume (container.requiredGas input)).2
      { machine with state := machine.state.snapshot.2.withPrices registry.prices }

section

variable {scene : Scene}

theorem Scene.emit_store (scene : Scene) (event : NativeEvent) (machine : Machine) :
    (scene.emit event machine).2.state.store = machine.state.store := by
  unfold emit
  split
  · rfl
  · split <;> rfl

namespace Program

variable {Result : Type} {meter : Meter} {machine : Machine}

/-- A run that comes back goes on behind an event. -/
theorem run_emit {event : NativeEvent} {next : Except Fault Bool → Program Result}
    (returned : Returned ((emit event next).run scene meter machine).1) :
    (emit event next).run scene meter machine =
      (next (scene.emit event machine).1).run scene meter (scene.emit event machine).2 := by
  simp only [run] at returned ⊢
  split at returned
  · exact absurd rfl (returned _)
  · rename_i emitted
    rw [emitted]

/-- A run that comes back goes on behind a call that came back. -/
theorem run_call {recipient : Address} {input : Bytes} {gas : Gas} {value : Word}
    {next : Except Fault Bytes → Program Result}
    (returned : Returned ((call recipient input gas value next).run scene meter machine).1) :
    Returned (scene.call recipient input gas value machine).1 ∧
      (call recipient input gas value next).run scene meter machine =
        (next (scene.call recipient input gas value machine).1).run scene meter
          (scene.call recipient input gas value machine).2 := by
  simp only [run] at returned ⊢
  split at returned
  · exact absurd rfl (returned _)
  · rename_i ordinary called
    rw [called]
    exact ⟨fun cause same => ordinary cause same, rfl⟩

end Program

variable {work : Work} (charges : scene.nested.Charges work)

include charges

theorem Scene.call_charged (recipient : Address) (input : Bytes) (gas : Gas) (value : Word)
    (machine : Machine)
    (returned : Returned (scene.call recipient input gas value machine).1) :
    (scene.call recipient input gas value machine).2.state.store.charged =
      machine.state.store.charged +
        UInt64.ofInt (scene.work work recipient input gas value machine) := by
  unfold call at returned ⊢
  unfold Scene.work
  split at returned
  · rename_i refused
    rw [if_pos refused, if_pos refused]
    exact (UInt64.add_zero _).symm
  · rename_i allowed
    rw [if_neg allowed, if_neg allowed]
    exact charges _ (machine.withPrices .free) rfl returned

/-- A run consumes and counts what it spends. -/
theorem Program.run_spent {Result : Type} (program : Program Result) {inForce : StoragePrices}
    (meter : Meter) {machine : Machine} (prices : machine.state.prices = inForce)
    (returned : Returned (program.run scene meter machine).1) :
    let spent := program.spending scene work inForce meter machine
    (program.run scene meter machine).2.1.txConsumed.toNat =
        meter.txConsumed.toNat + spent.consumed ∧
      (program.run scene meter machine).2.2.state.store.charged =
        machine.state.store.charged + UInt64.ofInt spent.counted := by
  -- a command may change the prices, so those in force are carried along with the counters
  induction program generalizing inForce meter machine with
  | finish => exact ⟨rfl, (UInt64.add_zero _).symm⟩
  | perform command next inductionHypothesis =>
      have spent := command.spent_run machine.state
      rw [JournaledState.prices] at prices
      rw [prices] at spent
      rcases ran : command.run machine.state with ⟨reply, state⟩
      simp only [run, spending, ran] at returned spent ⊢
      obtain ⟨consumed, charged⟩ :=
        @inductionHypothesis reply _ meter { machine with state } spent.prices returned
      refine ⟨consumed, charged.trans ?_⟩
      rw [spent.charged, UInt64.add_assoc, ← UInt64.ofInt_add]
      simp only [Spending.counted, Int.add_assoc]
  | consume amount next inductionHypothesis =>
      have paid := meter.consume_consumed amount
      rcases ran : meter.consume amount with ⟨outcome, after⟩
      simp only [run, spending, ran] at returned paid ⊢
      obtain ⟨consumed, charged⟩ := inductionHypothesis outcome after prices returned
      refine ⟨?_, charged⟩
      rw [consumed, paid, Nat.add_assoc]
  | consumed next inductionHypothesis => exact inductionHypothesis _ meter prices returned
  | emit event next inductionHypothesis =>
      have same := scene.emit_store event machine
      have following := run_emit returned
      rw [following] at returned ⊢
      have kept : (scene.emit event machine).2.state.prices = inForce :=
        (congrArg Store.prices same).trans prices
      obtain ⟨consumed, charged⟩ := inductionHypothesis _ meter kept returned
      rw [same] at charged
      exact ⟨consumed, charged⟩
  | call recipient input gas value next inductionHypothesis =>
      obtain ⟨back, following⟩ := run_call returned
      have counted := Scene.call_charged charges recipient input gas value machine back
      have kept := scene.call_prices recipient input gas value machine
      rw [following] at returned ⊢
      obtain ⟨consumed, charged⟩ := inductionHypothesis _ meter (kept.trans prices) returned
      refine ⟨consumed, charged.trans ?_⟩
      rw [counted, UInt64.add_assoc, ← UInt64.ofInt_add]
      simp only [spending, Spending.counted, Int.add_left_comm]

theorem Container.run_spent (container : Container) {inForce : StoragePrices} (input : Bytes)
    (meter : Meter) {machine : Machine} (prices : machine.state.prices = inForce)
    (returned : Returned (container.run scene input meter machine).1) :
    let spent := container.spending scene work inForce input meter machine
    (container.run scene input meter machine).2.1.txConsumed.toNat =
        meter.txConsumed.toNat + spent.consumed ∧
      (container.run scene input meter machine).2.2.state.store.charged =
        machine.state.store.charged + UInt64.ofInt spent.counted := by
  have unspent : meter.txConsumed.toNat = meter.txConsumed.toNat + ({} : Spending).consumed ∧
      machine.state.store.charged =
        machine.state.store.charged + UInt64.ofInt ({} : Spending).counted :=
    ⟨rfl, (UInt64.add_zero _).symm⟩
  cases container with
  | pure contract => exact unspent
  | dispatching table =>
      cases selected : table.select input with
      | error fault =>
          simp only [run, spending, selected]
          exact unspent
      | ok bound =>
          cases decoded : table.codec.decodeInput bound.function (input.drop 4) with
          | error fault =>
              simp only [run, spending, selected, decoded]
              exact unspent
          | ok arguments =>
              simp only [run, spending, selected, decoded] at returned ⊢
              exact Program.run_spent charges _ meter prices (BoundMethod.returned_of_run returned)

end

/-- What was charged stays charged when the state is taken back. -/
theorem Machine.rewound_charged (machine : Machine) (snapshot : Snapshot) :
    (machine.rewound snapshot).2.state.store.charged = machine.state.store.charged :=
  (machine.state.spent_rewound snapshot).charged.trans (UInt64.add_zero _)

namespace Registry

variable {registry : Registry} {container : Container} {invocation : Invocation} {nested : Answer}
  {work : Work} {input : Bytes} {supplied : Gas} {machine : Machine}

/-- The fixed price of a call is always paid. -/
theorem unlimited_consume (price : Gas) :
    Meter.unlimited.consume price = (.ok (), { Meter.unlimited with txConsumed := price }) := by
  have admitted : Meter.unlimited.admitted price = .ok price := by
    refine Meter.admitted_eq_ok_iff.mpr ⟨Nat.zero_add _, ?_, ?_⟩
    · exact UInt64.le_iff_toNat_le.mpr (Gas.toNat_le_unlimited price)
    · exact UInt64.le_iff_toNat_le.mpr (Gas.toNat_le_unlimited _)
  unfold Meter.consume
  rw [admitted]

theorem rewindOnFailure_charged (snapshot : Snapshot) (result : PrecompileResult)
    (machine : Machine) :
    (rewindOnFailure snapshot result machine).2.state.store.charged =
      machine.state.store.charged := by
  have kept := machine.rewound_charged snapshot
  unfold rewindOnFailure
  split
  · rfl
  · split
    · rename_i left taken
      rw [taken] at kept
      exact kept
    · rename_i foreign left refused
      rw [refused] at kept
      exact kept

theorem execute_spent (registered : registry.get? invocation.address = some container)
    (charges : nested.Charges work)
    (returned : Returned (execute container ⟨invocation, container.book?, nested⟩ input
      { machine with state := machine.state.snapshot.2.withPrices registry.prices }).1) :
    let spent := registry.spending nested work invocation input machine
    let executed := execute container ⟨invocation, container.book?, nested⟩ input
      { machine with state := machine.state.snapshot.2.withPrices registry.prices }
    executed.2.1.txConsumed.toNat = (container.requiredGas input).toNat + spent.consumed ∧
      executed.2.2.state.store.charged =
        machine.state.store.charged + UInt64.ofInt spent.counted := by
  unfold execute at returned ⊢
  unfold spending
  simp only [registered, unlimited_consume] at returned ⊢
  exact @Container.run_spent ⟨invocation, container.book?, nested⟩ work charges container _ input _
    { machine with state := machine.state.snapshot.2.withPrices registry.prices } rfl returned

theorem toNat_reported {spent : Spending} {required consumed before after : Gas}
    (total : consumed.toNat = required.toNat + spent.consumed)
    (counted : after = before + UInt64.ofInt spent.counted) :
    (consumed.plus (after.minus before)).toNat = spent.reported required before := by
  rw [Gas.toNat_plus, Gas.toNat_minus, total, counted]
  rfl

theorem settle_reported {consumed : Gas} {reported : Nat} (same : consumed.toNat = reported)
    (output : Except Fault Bytes) (supplied : Gas) :
    (reported ≤ supplied.toNat →
        (settle output consumed supplied).gasRemaining.toNat = supplied.toNat - reported) ∧
      (supplied.toNat < reported →
        settle output consumed supplied =
          ⟨.error (.outOfGas (UInt64.ofNat reported) supplied), 0⟩) := by
  subst same
  unfold settle
  constructor
  · intro enough
    rw [if_neg (UInt64.not_lt.mpr (UInt64.le_iff_toNat_le.mpr enough))]
    exact Gas.toNat_minus ..
  · intro short
    rw [if_pos (UInt64.lt_iff_toNat_lt.mpr short), UInt64.ofNat_toNat]

/-- A call of a precompile reports what it spends: as missing from the supplied gas where that is
enough, and as a fault otherwise. -/
theorem run_reported (registered : registry.get? invocation.address = some container)
    (charges : nested.Charges work)
    (returned : Returned (registry.run nested invocation input supplied machine).1.output) :
    let spent := registry.spending nested work invocation input machine
    let reported := spent.reported (container.requiredGas input) machine.state.store.charged
    let ran := registry.run nested invocation input supplied machine
    ran.2.state.store.charged = machine.state.store.charged + UInt64.ofInt spent.counted ∧
      (reported ≤ supplied.toNat → ran.1.gasRemaining.toNat = supplied.toNat - reported) ∧
      (supplied.toNat < reported →
        ran.1 = ⟨.error (.outOfGas (UInt64.ofNat reported) supplied), 0⟩) := by
  have spends := @execute_spent registry container invocation nested work input machine registered
    charges
  rcases executed : execute container ⟨invocation, container.book?, nested⟩ input
      { machine with state := machine.state.snapshot.2.withPrices registry.prices }
    with ⟨output, meter, left⟩
  rw [executed] at spends
  unfold run at returned ⊢
  simp only [registered, executed] at returned ⊢
  split at returned
  · exact absurd rfl (returned _)
  · rename_i ordinary
    obtain ⟨consumed, counted⟩ := spends fun cause same => ordinary cause same
    rw [rewindOnFailure_fst, rewindOnFailure_charged]
    exact ⟨counted, settle_reported (toNat_reported consumed counted) output supplied⟩

end Registry

end HostedEvm
