import HostedEvm.Proofs.Precompile.Registration
import HostedEvm.Proofs.State.Past

set_option autoImplicit false

/-!
Properties of the state that calls of precompiles keep.

Around the commands of a handler a call only works on the store, adds logs and goes back to
snapshots. A property that none of these breaks holds behind the whole call if every command that
the handlers perform keeps it, whether the call succeeds, fails or is given up.
-/

namespace HostedEvm

/-- A property that store work within a block, logs and ways back keep. -/
structure Lasting (property : JournaledState → Prop) : Prop where
  withStore : ∀ (state : JournaledState) (store : Store), store.SamePast state.store →
    property state → property { state with store }
  addLog : ∀ (state : JournaledState) (log : Log), property state → property (state.addLog log)
  rewound : ∀ (state : JournaledState) (snapshot : Snapshot), property state →
    property (state.rewound snapshot).2

structure Undisturbed (property : JournaledState → Prop) : Prop where
  addLog : ∀ (state : JournaledState) (log : Log), property state → property (state.addLog log)
  withPrices : ∀ (state : JournaledState) (prices : StoragePrices), property state →
    property (state.withPrices prices)

theorem Lasting.undisturbed {property : JournaledState → Prop} (lasting : Lasting property) :
    Undisturbed property where
  addLog := lasting.addLog
  withPrices state prices := lasting.withStore state (state.store.withPrices prices) ⟨rfl, rfl⟩

def Answer.Keeps (property : JournaledState → Prop) (answer : Answer) : Prop :=
  ∀ (message : Message) (machine : Machine), property machine.state →
    property (answer message machine).2.state

namespace Program

variable {Result : Type}

/-- A handler that performs allowed commands only, whatever it is answered. -/
inductive Only (allowed : StateCommand → Prop) : Program Result → Prop where
  | finish {outcome} : Only allowed (.finish outcome)
  | perform {command next} : allowed command → (∀ reply, Only allowed (next reply)) →
      Only allowed (.perform command next)
  | consume {amount next} : (∀ outcome, Only allowed (next outcome)) →
      Only allowed (.consume amount next)
  | consumed {next} : (∀ amount, Only allowed (next amount)) → Only allowed (.consumed next)
  | emit {event next} : (∀ outcome, Only allowed (next outcome)) →
      Only allowed (.emit event next)
  | call {recipient input gas value next} : (∀ output, Only allowed (next output)) →
      Only allowed (.call recipient input gas value next)

end Program

def Method.Only (allowed : StateCommand → Prop) (method : Method) : Prop :=
  ∀ invocation arguments, (method.handler invocation arguments).Only allowed

namespace Scene

variable {property : JournaledState → Prop} (undisturbed : Undisturbed property) {scene : Scene}

include undisturbed

theorem emit_keeps (event : NativeEvent) {machine : Machine} (holds : property machine.state) :
    property (scene.emit event machine).2.state := by
  unfold emit
  split
  · exact holds
  · split
    · exact holds
    · exact holds
    · exact undisturbed.addLog machine.state _ holds

theorem call_keeps (answered : scene.nested.Keeps property) (recipient : Address) (input : Bytes)
    (gas : Gas) (value : Word) {machine : Machine} (holds : property machine.state) :
    property (scene.call recipient input gas value machine).2.state := by
  unfold call
  split
  · exact holds
  · have free := undisturbed.withPrices machine.state .free holds
    have ran := answered ⟨scene.invocation.address, recipient, input, gas, value⟩
      (machine.withPrices .free) free
    exact undisturbed.withPrices _ _ ran

end Scene

section

variable {property : JournaledState → Prop} {allowed : StateCommand → Prop}
  (lasting : Lasting property)
  (commands : ∀ command, allowed command → ∀ state, property state →
    property (command.run state).2)

include lasting

theorem Machine.rewound_keeps {machine : Machine} (holds : property machine.state)
    (snapshot : Snapshot) : property (machine.rewound snapshot).2.state :=
  lasting.rewound machine.state snapshot holds

include commands

theorem Program.Only.run_keeps {Result : Type} {scene : Scene}
    (answered : scene.nested.Keeps property) {program : Program Result}
    (only : program.Only allowed) (meter : Meter) {machine : Machine}
    (holds : property machine.state) : property (program.run scene meter machine).2.2.state := by
  induction only generalizing meter machine with
  | finish => exact holds
  | @perform command next permitted _ inductionHypothesis =>
      have performed := commands command permitted machine.state holds
      exact inductionHypothesis _ meter performed
  | @consume amount next _ inductionHypothesis => exact inductionHypothesis _ _ holds
  | @consumed next _ inductionHypothesis => exact inductionHypothesis _ meter holds
  | @emit event next _ inductionHypothesis =>
      have emitted := scene.emit_keeps lasting.undisturbed event holds
      simp only [run]
      split
      · rename_i cause left result
        rw [result] at emitted
        exact emitted
      · rename_i outcome left _ result
        rw [result] at emitted
        exact inductionHypothesis outcome meter emitted
  | @call recipient input gas value next _ inductionHypothesis =>
      have called := Scene.call_keeps lasting.undisturbed answered recipient input gas value holds
      simp only [run]
      split
      · rename_i cause left result
        rw [result] at called
        exact called
      · rename_i output left _ result
        rw [result] at called
        exact inductionHypothesis output meter called

theorem Container.run_keeps {scene : Scene} (answered : scene.nested.Keeps property)
    {container : Container} (only : container.Every (Method.Only allowed)) (input : Bytes)
    (meter : Meter) {machine : Machine} (holds : property machine.state) :
    property (container.run scene input meter machine).2.2.state := by
  cases container with
  | pure contract => exact holds
  | dispatching table =>
      simp only [run]
      split
      · exact holds
      · rename_i bound selected
        split
        · exact holds
        · rename_i arguments _
          obtain ⟨selector, found⟩ := MethodTable.select_mem selected
          have handler := only selector bound found scene.invocation arguments
          exact handler.run_keeps lasting commands answered meter holds

namespace Registry

theorem execute_keeps {scene : Scene} (answered : scene.nested.Keeps property)
    {container : Container} (only : container.Every (Method.Only allowed)) (input : Bytes)
    {machine : Machine} (holds : property machine.state) :
    property (execute container scene input machine).2.2.state := by
  unfold execute
  split
  · exact container.run_keeps lasting commands answered only input _ holds
  · exact holds

omit commands in
theorem rewindOnFailure_keeps (snapshot : Snapshot) (result : PrecompileResult) {machine : Machine}
    (holds : property machine.state) :
    property (rewindOnFailure snapshot result machine).2.state := by
  have back := Machine.rewound_keeps lasting holds snapshot
  unfold rewindOnFailure
  split
  · exact holds
  · split
    · rename_i restored taken
      rw [taken] at back
      exact back
    · rename_i foreign restored taken
      rw [taken] at back
      exact back

theorem run_keeps {registry : Registry} (only : registry.Every (Method.Only allowed))
    {nested : Answer} (answered : nested.Keeps property) (invocation : Invocation) (input : Bytes)
    (supplied : Gas) {machine : Machine} (holds : property machine.state) :
    property (registry.run nested invocation input supplied machine).2.state := by
  unfold run
  split
  · exact holds
  · rename_i container registered
    have paid := lasting.withStore machine.state
      (machine.state.snapshot.2.withPrices registry.prices).store ⟨rfl, rfl⟩ holds
    have executed := @execute_keeps property allowed lasting commands
      ⟨invocation, container.book?, nested⟩ answered container (only _ container registered) input
      { machine with state := machine.state.snapshot.2.withPrices registry.prices } paid
    simp only
    split
    · exact executed
    · apply rewindOnFailure_keeps lasting
      exact lasting.withStore _ _ ⟨rfl, rfl⟩ executed

end Registry

end

end HostedEvm
