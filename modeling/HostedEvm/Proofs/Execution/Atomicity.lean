import HostedEvm.Execution.TransferMachine
import HostedEvm.Proofs.Precompile.Atomicity

set_option autoImplicit false

/-!
Calls that call precompiles that make calls.

A call of the interpreter is atomic when what answers the calls within it is contained, and so it
is contained itself. Induction on how deep calls may still be nested closes the circle between the
interpreter and the precompiles.
-/

namespace HostedEvm.TransferMachine

theorem transfer_continues (sender recipient : Address) (value : Word) (state : JournaledState) :
    Continues state (transfer sender recipient value state).2 := by
  unfold transfer
  split
  · exact .refl state
  · simp only
    split
    · exact ⟨JournaledState.extends_withStore state (Store.extends_of_same rfl rfl), rfl⟩
    · exact ⟨JournaledState.extends_withStore state (Store.extends_of_same rfl rfl), rfl⟩

def answered (message : Message) (ran : PrecompileResult × Machine) : CallResult × Machine :=
  (⟨ran.1.output, message.gas.minus ran.1.gasRemaining⟩, ran.2)

/-- What can come of a call once its value has been moved: the precompile of the recipient runs, or
the input is left as a log, or nothing is. -/
inductive Executes (registry : Registry) (nested : Answer) (message : Message)
    (machine : Machine) : CallResult × Machine → Prop
  | registered : registry.contains message.recipient = true →
      Executes registry nested message machine
        (answered message
          (registry.run nested
            { address := message.recipient, caller := message.caller, value := message.value }
            message.input message.gas machine))
  | still {result : CallResult} : registry.contains message.recipient = false →
      Returned result.output → result.gasUsed ≤ message.gas →
      Executes registry nested message machine (result, machine)
  | logged {result : CallResult} {log : Log} : registry.contains message.recipient = false →
      Returned result.output → result.gasUsed ≤ message.gas →
      Executes registry nested message machine
        (result, { machine with state := machine.state.addLog log })

theorem executes (registry : Registry) (nested : Answer) (message : Message) (machine : Machine) :
    Executes registry nested message machine (execute registry nested message machine) := by
  unfold execute
  split
  · rename_i known
    exact .registered known
  · rename_i unknown
    replace unknown := Bool.eq_false_iff.mpr unknown
    split
    · exact .still unknown (returned_error_iff.mpr rfl) (UInt64.le_refl _)
    · split
      · exact .still unknown (returned_ok _) UInt64.zero_le
      · unfold leaveLog
        simp only
        split
        · exact .still unknown (returned_error_iff.mpr rfl) (UInt64.le_refl _)
        · rename_i affordable
          exact .logged unknown (returned_ok _) (UInt64.not_lt.mp affordable)

variable {registry : Registry} {nested : Answer}

theorem execute_continues (returning : registry.Returning) (contained : Answer.Contained nested)
    (message : Message) (machine : Machine)
    (returned : Returned (execute registry nested message machine).1.output) :
    Continues machine.state (execute registry nested message machine).2.state := by
  have ran := executes registry nested message machine
  generalize execute registry nested message machine = result at ran returned ⊢
  cases ran with
  | registered =>
      exact (returning.run_atomic contained _ _ _ machine returned).continues
  | still => exact .refl _
  | logged => exact ⟨JournaledState.extends_addLog machine.state _, rfl⟩

theorem execute_callsFree (contained : Answer.Contained nested) (message : Message)
    (machine : Machine) : machine.CallsFree (execute registry nested message machine).2 := by
  have ran := executes registry nested message machine
  generalize execute registry nested message machine = result at ran ⊢
  cases ran with
  | registered => exact Registry.run_callsFree contained _ _ _ machine
  | still => exact .refl machine
  | logged => exact Machine.callsFree_of_same rfl

theorem transferAndExecute_continues (returning : registry.Returning)
    (contained : Answer.Contained nested) (message : Message) (machine : Machine)
    (returned : Returned (transferAndExecute registry nested message machine).1.output) :
    Continues machine.state (transferAndExecute registry nested message machine).2.state := by
  have moved := transfer_continues message.caller message.recipient message.value machine.state
  revert returned
  unfold transferAndExecute
  split
  · rename_i state transferred
    rw [transferred] at moved
    intro returned
    have executed := execute_continues returning contained message { machine with state } returned
    exact moved.trans executed
  · rename_i fault state transferred
    rw [transferred] at moved
    exact fun _ => moved

theorem transferAndExecute_callsFree (contained : Answer.Contained nested) (message : Message)
    (machine : Machine) :
    machine.CallsFree (transferAndExecute registry nested message machine).2 := by
  unfold transferAndExecute
  split
  · rename_i state _
    exact (Machine.callsFree_of_same rfl).trans
      (execute_callsFree contained message { machine with state })
  · exact Machine.callsFree_of_same rfl

/-- A call stands as it was made if it succeeds or the host gives up in it, and is taken back as a
whole otherwise. -/
theorem call_kept_or_undone (returning : registry.Returning)
    (contained : Answer.Contained nested) (message : Message) (machine : Machine) :
    let worked := transferAndExecute registry nested message
      { machine with state := machine.state.snapshot.2 }
    (call registry nested message machine = worked ∧
        ∀ fault, worked.1.output = .error fault → fault.isFatal = true) ∨
      (machine.state.snapshot.2.Extends worked.2.state ∧
        call registry nested message machine =
          (worked.1, { worked.2 with state := worked.2.state.restoredTo machine.state }) ∧
        Returned worked.1.output) := by
  have continues := transferAndExecute_continues returning contained message
    { machine with state := machine.state.snapshot.2 }
  unfold call
  simp only
  split
  · rename_i bytes succeeded
    refine .inl ⟨rfl, ?_⟩
    intro fault failed
    rw [succeeded] at failed
    cases failed
  · rename_i fault failed
    split
    · rename_i fatal
      refine .inl ⟨rfl, ?_⟩
      intro other same
      rw [failed] at same
      cases same
      exact fatal
    · rename_i ordinary
      have back : Returned (Except.error fault : Except Fault Bytes) :=
        returned_error_iff.mpr (Bool.eq_false_iff.mpr ordinary)
      rw [← failed] at back
      rw [Machine.rewound_of_extends (continues back).grown]
      exact .inr ⟨(continues back).grown, rfl, back⟩

theorem call_atomic (returning : registry.Returning) (contained : Answer.Contained nested)
    (message : Message) (machine : Machine)
    (returned : Returned (call registry nested message machine).1.output) :
    Atomic (call registry nested message machine).1.output machine.state
      (call registry nested message machine).2.state := by
  have continues := transferAndExecute_continues returning contained message
    { machine with state := machine.state.snapshot.2 }
  rcases call_kept_or_undone returning contained message machine with
    ⟨made, kept⟩ | ⟨_, undone, back⟩
  · rw [made] at returned ⊢
    refine ⟨(continues_snapshot machine.state).trans (continues returned), ?_⟩
    intro fault failed
    have fatal := kept fault failed
    rw [failed, returned_error_iff, fatal] at returned
    cases returned
  · rw [undone]
    exact .of_restored _ (continues back)

theorem call_callsFree (contained : Answer.Contained nested) (message : Message)
    (machine : Machine) : machine.CallsFree (call registry nested message machine).2 := by
  have worked := @transferAndExecute_callsFree registry nested contained message
    { machine with state := machine.state.snapshot.2 }
  unfold call
  simp only
  split
  · exact worked
  · split
    · exact worked
    · split
      · rename_i restored taken
        exact worked.of_rewound taken
      · rename_i foreign restored taken
        exact worked.of_rewound taken

theorem answer_contained_of_returning (returning : registry.Returning) (remaining : Nat) :
    Answer.Contained (answer registry remaining) := by
  induction remaining with
  | zero =>
      constructor
      · intro message machine _
        exact .refl machine.state
      · intro message machine free
        exact Machine.callsFree_record free message
  | succ remaining inductionHypothesis =>
      constructor
      · intro message machine returned
        have atomic := call_atomic returning inductionHypothesis message (machine.record message)
          returned
        exact atomic.continues.grown
      · intro message machine free
        exact (Machine.callsFree_record free message).trans
          (call_callsFree inductionHypothesis message (machine.record message))

theorem answer_contained (wellNested : registry.WellNested) (remaining : Nat) :
    Answer.Contained (answer registry remaining) :=
  answer_contained_of_returning wellNested.returning remaining

/-- A call of a precompile that fails leaves no trace in accounts and journals, and every call puts
back the storage prices in front of it, unless the host gave up. The calls made within it, however
deep, start with free storage, and behind each of them its caller has its own prices again. -/
theorem run_precompile_atomic (wellNested : registry.WellNested) (remaining : Nat)
    (invocation : Invocation) (input : Bytes) (supplied : Gas) (machine : Machine) :
    let ran := registry.run (answer registry remaining) invocation input supplied machine
    (Returned ran.1.output →
      (∀ fault, ran.1.output = .error fault → ran.2.state.SameView machine.state) ∧
        ran.2.state.prices = machine.state.prices) ∧
      machine.CallsFree ran.2 ∧
      ∀ (scene : Scene) (recipient : Address) (passed : Bytes) (gas : Gas) (value : Word)
        (within : Machine),
        (scene.call recipient passed gas value within).2.state.prices = within.state.prices := by
  have contained := answer_contained wellNested remaining
  refine ⟨?_, ?_, ?_⟩
  · intro returned
    have atomic :=
      Registry.run_atomic wellNested contained invocation input supplied machine returned
    exact ⟨atomic.undone, atomic.continues.prices⟩
  · exact Registry.run_callsFree contained invocation input supplied machine
  · intro scene recipient passed gas value within
    exact scene.call_prices recipient passed gas value within

/-- A handler that changes an account, takes back a destruction, calls another account under prices
of its own, and fails. -/
def failingHandler : Handler := fun _ _ =>
  .perform (.store (.addBalance 1 5)) fun _ =>
    .perform .snapshot fun
      | .snapshot taken =>
        .perform (.selfDestruct 1) fun _ =>
          .perform (.rewind taken) fun _ =>
            .perform (.store (.setPrices .standard)) fun _ =>
              .call 2 [] 5000 0 fun _ => .fail (.reverted "given up")
      | _ => .fail (.reverted "no snapshot")

def failingRegistry : Registry where
  containers := (∅ : Map Address Container).insert 9
    (.dispatching
      { address := 9
        methods := (∅ : Map Selector BoundMethod).insert 1
          ⟨{ name := "f", inputs := [] }, { signature := "f()", handler := failingHandler }⟩
        codec := .standard
        book := none })

theorem failingRegistry_wellNested : failingRegistry.WellNested := by
  refine Map.every_empty.insert 9 (Map.every_empty.insert 1 ?_)
  intro invocation arguments
  refine .perform rfl fun _ => .snapshot fun taken => .perform rfl fun _ => ?_
  refine @Program.WellNested.rewind _ [] taken [] _ fun _ => .perform rfl fun _ => ?_
  exact .call fun _ => .finish

def failingRun : PrecompileResult × Machine :=
  failingRegistry.run (answer failingRegistry 3) ⟨9, 4, 0, false⟩ [0, 0, 0, 1] 100000 {}

theorem failingRun_undone :
    failingRegistry.WellNested ∧ Returned failingRun.1.output ∧ failingRun.1.output.isOk = false ∧
      failingRun.2.state.SameView {} ∧ failingRun.2.calls.length = 1 ∧
      Machine.CallsFree {} failingRun.2 := by
  have returned : Returned failingRun.1.output := by decide +kernel
  have failed : failingRun.1.output.isOk = false := by decide +kernel
  have whole :=
    run_precompile_atomic failingRegistry_wellNested 3 ⟨9, 4, 0, false⟩ [0, 0, 0, 1] 100000 {}
  rw [← failingRun] at whole
  dsimp only at whole
  obtain ⟨atomic, free, _⟩ := whole
  refine ⟨failingRegistry_wellNested, returned, failed, ?_, by decide +kernel, free⟩
  cases output : failingRun.1.output with
  | ok bytes =>
      rw [output] at failed
      cases failed
  | error fault => exact (atomic returned).1 fault output

end HostedEvm.TransferMachine
