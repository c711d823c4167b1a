import HostedEvm.Proofs.Execution.ReadOnly
import HostedEvm.Proofs.Execution.Returns
import HostedEvm.Proofs.Precompile.Spending

set_option autoImplicit false

/-!
What nested calls are charged.

A nested call starts with free storage, so moving value and leaving logs are charged nothing. A
precompile that it reaches runs under the prices of the registry, and whatever it is charged, for
its own work and for the calls within it, is charged to every run around it as well.
-/

namespace HostedEvm.TransferMachine

/-- What a call is charged where its value can be moved: what the precompile at the recipient
spends, if there is one. -/
def callWork (registry : Registry) (nested : Answer) (work : Work) : Work := fun message machine =>
  match transfer message.caller message.recipient message.value machine.state with
  | (.ok (), state) =>
    (registry.spending nested work
      { address := message.recipient, caller := message.caller, value := message.value }
      message.input { machine with state }).counted
  | (.error _, _) => 0

/-- What nested calls are charged, of which `remaining` may stand within each other. -/
def work (registry : Registry) : (remaining : Nat) → Work
  | 0, _, _ => 0
  | remaining + 1, message, machine =>
    callWork registry (answer registry remaining) (work registry remaining) message
      { machine.record message with state := machine.state.snapshot.2 }

variable {registry : Registry} {nested : Answer} {message : Message} {machine : Machine}

theorem spending_unregistered {invocation : Invocation} {work : Work} {input : Bytes}
    (absent : registry.get? invocation.address = none) :
    registry.spending nested work invocation input machine = {} := by
  unfold Registry.spending
  rw [absent]

theorem transfer_charged {state : JournaledState} (free : state.prices = .free)
    (sender recipient : Address) (value : Word) :
    (transfer sender recipient value state).2.store.charged = state.store.charged := by
  have read : state.store.prices.read 32 = 0 := by
    rw [← JournaledState.prices, free]
    rfl
  have write : state.store.prices.write 32 = 0 := by
    rw [← JournaledState.prices, free]
    rfl
  unfold transfer
  split
  · rfl
  · simp only
    split
    · change state.store.charged + state.store.prices.read 32 = state.store.charged
      rw [read, UInt64.add_zero]
    · change state.store.charged + state.store.prices.read 32 + state.store.prices.write 32 +
        state.store.prices.write 32 = state.store.charged
      rw [read, write, UInt64.add_zero, UInt64.add_zero, UInt64.add_zero]

theorem call_charged (registry : Registry) (nested : Answer) (message : Message)
    (machine : Machine) :
    (call registry nested message machine).2.state.store.charged =
      (transferAndExecute registry nested message
        { machine with state := machine.state.snapshot.2 }).2.state.store.charged := by
  unfold call
  simp only
  generalize transferAndExecute registry nested message
    { machine with state := machine.state.snapshot.2 } = worked
  split
  · rfl
  · split
    · rfl
    · have kept := worked.2.rewound_charged machine.state.snapshot.1
      split
      · rename_i left taken
        rw [taken] at kept
        exact kept
      · rename_i foreign left refused
        rw [refused] at kept
        exact kept

theorem execute_charged {work : Work} (charges : nested.Charges work)
    (returned : Returned (execute registry nested message machine).1.output) :
    (execute registry nested message machine).2.state.store.charged =
      machine.state.store.charged + UInt64.ofInt
        (registry.spending nested work
          { address := message.recipient, caller := message.caller, value := message.value }
          message.input machine).counted := by
  have absent (unknown : registry.contains message.recipient = false) :
      registry.get? message.recipient = none := by
    rw [Registry.contains, Std.ExtTreeMap.contains_eq_isSome_getElem?] at unknown
    exact Option.isNone_iff_eq_none.mp (Option.isSome_eq_false_iff.mp unknown)
  have ran := executes registry nested message machine
  generalize execute registry nested message machine = result at ran returned ⊢
  cases ran with
  | registered known =>
      rw [Registry.contains, Std.ExtTreeMap.contains_eq_isSome_getElem?] at known
      obtain ⟨container, registered⟩ := Option.isSome_iff_exists.mp known
      exact (@Registry.run_reported registry container
        { address := message.recipient, caller := message.caller, value := message.value } nested
        work message.input message.gas machine registered charges returned).1
  | still unknown =>
      rw [spending_unregistered (absent unknown)]
      exact (UInt64.add_zero _).symm
  | logged unknown =>
      rw [spending_unregistered (absent unknown)]
      exact (UInt64.add_zero _).symm

theorem transferAndExecute_charged {work : Work} (charges : nested.Charges work)
    (free : machine.state.prices = .free)
    (returned : Returned (transferAndExecute registry nested message machine).1.output) :
    (transferAndExecute registry nested message machine).2.state.store.charged =
      machine.state.store.charged +
        UInt64.ofInt (callWork registry nested work message machine) := by
  have moved := transfer_charged free message.caller message.recipient message.value
  rcases transferred : transfer message.caller message.recipient message.value machine.state
    with ⟨outcome, state⟩
  rw [transferred] at moved
  simp only [transferAndExecute, callWork, transferred] at returned ⊢
  cases outcome with
  | ok _ =>
      have executed := @execute_charged registry nested message { machine with state } work charges
        returned
      rw [moved] at executed
      exact executed
  | error fault => exact moved.trans (UInt64.add_zero _).symm

/-- Nested calls are charged for the work of the precompiles that they reach. -/
theorem answer_charges (registry : Registry) (remaining : Nat) :
    (answer registry remaining).Charges (work registry remaining) := by
  -- the precompile that a call reaches makes its own calls one level deeper
  induction remaining with
  | zero =>
      intro message machine _ _
      exact (UInt64.add_zero _).symm
  | succ remaining inductionHypothesis =>
      intro message machine free returned
      have made := call_charged registry (answer registry remaining) message
        (machine.record message)
      have outcome := call_fst registry (answer registry remaining) message (machine.record message)
      have back : Returned (call registry (answer registry remaining) message
        (machine.record message)).1.output := returned
      rw [outcome] at back
      exact made.trans (transferAndExecute_charged inductionHypothesis free back)

/-- A call of a precompile reports the fixed price, what the handler consumed and what its own work
on the state was charged, and with it the work of every precompile that its calls reached, at any
depth. It takes the sum from the supplied gas, or fails where that is not enough. -/
theorem run_consumed {container : Container} {invocation : Invocation}
    (registered : registry.get? invocation.address = some container) (remaining : Nat)
    (input : Bytes) (supplied : Gas) (machine : Machine)
    (returned : Returned
      (registry.run (answer registry remaining) invocation input supplied machine).1.output) :
    let spent := registry.spending (answer registry remaining) (work registry remaining) invocation
      input machine
    let reported := spent.reported (container.requiredGas input) machine.state.store.charged
    let result := (registry.run (answer registry remaining) invocation input supplied machine).1
    (reported ≤ supplied.toNat → result.gasRemaining.toNat = supplied.toNat - reported) ∧
      (supplied.toNat < reported →
        result = ⟨.error (.outOfGas (UInt64.ofNat reported) supplied), 0⟩) :=
  (Registry.run_reported registered (answer_charges registry remaining) returned).2

def billing : Handler := fun _ _ =>
  .consume 7 fun _ => .perform (.store (.setSlot 9 7 1)) fun _ =>
    .call 5 [1] 100000 0 fun _ => .call 10 [0, 0, 0, 1] 100000 0 fun _ => .finish (.ok [])

def billingRegistry : Registry where
  containers := ((∅ : Map Address Container).insert 10 (single 10 storing)).insert 9
    (single 9 billing)

theorem billingRegistry_get : billingRegistry.get? 9 = some (single 9 billing) := by
  unfold Registry.get? billingRegistry
  rw [Map.get_insert, if_pos rfl]

def billedRun : PrecompileResult × Machine :=
  billingRegistry.run (answer billingRegistry 3) ⟨9, 4, 0, false⟩ [0, 0, 0, 1] 100000 {}

def billedSpending : Spending :=
  billingRegistry.spending (answer billingRegistry 3) (work billingRegistry 3) ⟨9, 4, 0, false⟩
    [0, 0, 0, 1] {}

theorem billedRun_returned : Returned billedRun.1.output := by decide +kernel

/-- The word that the other precompile stores costs as much as the word of the handler itself. -/
theorem billedSpending_eq :
    billedSpending = { consumed := 7, storage := 2960, nested := 2960 } := by
  decide +kernel

theorem billedRun_consumed :
    billingRegistry.get? 9 = some (single 9 billing) ∧ Returned billedRun.1.output ∧
      billedSpending = { consumed := 7, storage := 2960, nested := 2960 } ∧
      billedRun.1.gasRemaining.toNat = 94073 := by
  have consumed := @run_consumed billingRegistry _ ⟨9, 4, 0, false⟩ billingRegistry_get 3
    [0, 0, 0, 1] 100000 {}
  rw [← billedRun, ← billedSpending, billedSpending_eq] at consumed
  replace consumed := consumed billedRun_returned
  dsimp only at consumed
  have reported : ({ consumed := 7, storage := 2960, nested := 2960 } : Spending).reported
      ((single 9 billing).requiredGas [0, 0, 0, 1]) ({} : Machine).state.store.charged = 5927 := by
    decide +kernel
  rw [reported] at consumed
  have left := consumed.1 (by decide +kernel)
  exact ⟨billingRegistry_get, billedRun_returned, billedSpending_eq,
    left.trans (by decide +kernel)⟩

/-- What the calls of a handler do to the state is charged to the call around it as well. -/
theorem nested_work_charged :
    ¬ ∀ (registry : Registry) (container : Container) (invocation : Invocation) (remaining : Nat)
        (input : Bytes) (supplied : Gas) (machine : Machine),
      registry.get? invocation.address = some container →
      Returned
        (registry.run (answer registry remaining) invocation input supplied machine).1.output →
      let spent := registry.spending (answer registry remaining) (work registry remaining)
        invocation input machine
      let own := (container.requiredGas input).toNat + spent.consumed + spent.storage
      own ≤ supplied.toNat →
        (registry.run (answer registry remaining) invocation input supplied
          machine).1.gasRemaining.toNat = supplied.toNat - own := by
  intro claimed
  have charged := claimed billingRegistry _ ⟨9, 4, 0, false⟩ 3 [0, 0, 0, 1] 100000 {}
    billingRegistry_get
  rw [← billedRun, ← billedSpending, billedSpending_eq] at charged
  replace charged := charged billedRun_returned
  dsimp only at charged
  exact absurd (charged (by decide +kernel)) (by decide +kernel)

end HostedEvm.TransferMachine
