import HostedEvm.Proofs.Execution.ReadOnly

set_option autoImplicit false

/-!
Calls that stand within each other.

An interpreter that calls back into itself keeps a count of the open calls: it refuses a call at the
limit, counts up in front of every other one and down behind it. Such an interpreter is a recursion
without an end in sight. Unrolled far enough it does the same whatever stands in the place of the
rest: the count is back at its level behind every call that comes back, so that it meets the limit
on every path, and what it does is what the machine does that is given the number of the calls that
may still be opened.
-/

namespace HostedEvm

namespace Machine

/-- Behind a call that came back one level deeper, the count is back at its level. -/
theorem exited_atDepth {level final : Nat} {output : Except Fault Bytes} (machine : Machine)
    (back : Returned output → final = level + 1) :
    ∃ left, (machine.atDepth final).exited output = machine.atDepth left ∧
      (Returned output → left = level) := by
  unfold exited
  split
  · rename_i cause
    exact ⟨final, rfl, fun returned => absurd rfl (returned cause)⟩
  · exact ⟨final - 1, rfl, fun returned => by rw [back returned]; rfl⟩

end Machine

/-- An outcome that is reached with a count of the open calls is the one without, and the count is
back at its level if the host did not give up. -/
def EndsAt {Outcome Result : Type} (level : Nat) (output : Outcome → Except Fault Result)
    (counted plain : Outcome × Machine) : Prop :=
  ∃ final, counted = (plain.1, plain.2.atDepth final) ∧
    (Returned (output plain.1) → final = level)

def RunsAt {Result : Type} (level : Nat) (counted plain : Except Fault Result × Meter × Machine) :
    Prop :=
  ∃ final, counted = (plain.1, plain.2.1, plain.2.2.atDepth final) ∧
    (Returned plain.1 → final = level)

def Answer.Counts (level : Nat) (counting plain : Answer) : Prop :=
  ∀ message machine, EndsAt level id (counting message (machine.atDepth level))
    (plain message machine)

variable {level : Nat} {counting : Answer}

theorem EndsAt.still {Outcome Result : Type} {output : Outcome → Except Fault Result}
    {outcome : Outcome} {machine : Machine} :
    EndsAt level output (outcome, machine.atDepth level) (outcome, machine) :=
  ⟨level, rfl, fun _ => rfl⟩

theorem RunsAt.still {Result : Type} {outcome : Except Fault Result} {meter : Meter}
    {machine : Machine} :
    RunsAt level (outcome, meter, machine.atDepth level) (outcome, meter, machine) :=
  ⟨level, rfl, fun _ => rfl⟩

namespace Scene

variable {scene : Scene}

def answeredBy (scene : Scene) (nested : Answer) : Scene := { scene with nested }

theorem emit_atDepth (scene : Scene) (counting : Answer) (event : NativeEvent) (machine : Machine)
    (level : Nat) :
    (scene.answeredBy counting).emit event (machine.atDepth level) =
      ((scene.emit event machine).1, (scene.emit event machine).2.atDepth level) := by
  rcases scene with ⟨invocation, book, nested⟩
  cases book with
  | none => rfl
  | some book =>
      simp only [emit, answeredBy]
      rcases book.logOf event with fault | (_ | log) <;> rfl

theorem call_counted (counts : counting.Counts level scene.nested) (recipient : Address)
    (input : Bytes) (gas : Gas) (value : Word) (machine : Machine) :
    EndsAt level id
      ((scene.answeredBy counting).call recipient input gas value (machine.atDepth level))
      (scene.call recipient input gas value machine) := by
  unfold call
  by_cases refused : scene.invocation.readonly ∧ value ≠ 0
  · have alike : (scene.answeredBy counting).invocation.readonly ∧ value ≠ 0 := refused
    rw [if_pos refused, if_pos alike]
    exact .still
  · have alike : ¬((scene.answeredBy counting).invocation.readonly ∧ value ≠ 0) := refused
    rw [if_neg refused, if_neg alike]
    obtain ⟨final, answered, back⟩ :=
      counts ⟨scene.invocation.address, recipient, input, gas, value⟩ (machine.withPrices .free)
    refine ⟨final, ?_, back⟩
    have free : (machine.atDepth level).withPrices .free =
        (machine.withPrices .free).atDepth level := rfl
    unfold Answer.suspended
    simp only [answeredBy, free, answered]
    rfl

end Scene

theorem Program.run_counted {Result : Type} {scene : Scene}
    (counts : counting.Counts level scene.nested) (program : Program Result) (meter : Meter)
    (machine : Machine) :
    RunsAt level (program.run (scene.answeredBy counting) meter (machine.atDepth level))
      (program.run scene meter machine) := by
  -- The level is the same at every request: a nested call is back at it or ends the program.
  induction program generalizing meter machine with
  | finish outcome => exact .still
  | perform command next inductionHypothesis =>
      exact inductionHypothesis _ meter { machine with state := (command.run machine.state).2 }
  | consume amount next inductionHypothesis => exact inductionHypothesis _ _ machine
  | consumed next inductionHypothesis => exact inductionHypothesis _ meter machine
  | emit event next inductionHypothesis =>
      simp only [run, Scene.emit_atDepth]
      rcases scene.emit event machine with ⟨fault | emitted, after⟩
      · cases fault with
        | breakdown cause => exact .still
        | _ => exact inductionHypothesis _ meter after
      · exact inductionHypothesis _ meter after
  | call recipient input gas value next inductionHypothesis =>
      obtain ⟨final, counted, back⟩ :=
        Scene.call_counted counts recipient input gas value machine
      simp only [run, counted]
      generalize scene.call recipient input gas value machine = called at back ⊢
      rcases called with ⟨fault | output, after⟩
      · cases fault with
        | breakdown cause => exact ⟨final, rfl, fun returned => absurd rfl (returned cause)⟩
        | _ =>
          cases back (returned_error_iff.mpr rfl)
          exact inductionHypothesis _ meter after
      · cases back (returned_ok output)
        exact inductionHypothesis _ meter after

theorem Container.run_counted {scene : Scene} (counts : counting.Counts level scene.nested)
    (container : Container) (input : Bytes) (meter : Meter) (machine : Machine) :
    RunsAt level (container.run (scene.answeredBy counting) input meter (machine.atDepth level))
      (container.run scene input meter machine) := by
  cases container with
  | pure contract => exact .still
  | dispatching table =>
      simp only [run]
      cases table.select input with
      | error fault => exact .still
      | ok bound =>
          simp only
          cases table.codec.decodeInput bound.function (input.drop 4) with
          | error fault => exact .still
          | ok arguments =>
              obtain ⟨final, ran, back⟩ := Program.run_counted counts
                (bound.method.handler scene.invocation arguments) meter machine
              refine ⟨final, ?_, fun returned => back (BoundMethod.returned_of_run returned)⟩
              have handler : bound.method.handler (scene.answeredBy counting).invocation arguments =
                  bound.method.handler scene.invocation arguments := rfl
              simp only [BoundMethod.run]
              rw [handler, ran]

namespace Registry

variable {registry : Registry} {plain : Answer}

theorem execute_counted {scene : Scene} (counts : counting.Counts level scene.nested)
    (container : Container) (input : Bytes) (machine : Machine) :
    RunsAt level (execute container (scene.answeredBy counting) input (machine.atDepth level))
      (execute container scene input machine) := by
  unfold execute
  rcases Meter.unlimited.consume (container.requiredGas input) with ⟨fault | _, meter⟩
  · exact .still
  · exact container.run_counted counts input meter machine

theorem rewindOnFailure_atDepth (snapshot : Snapshot) (result : PrecompileResult)
    (machine : Machine) (level : Nat) :
    rewindOnFailure snapshot result (machine.atDepth level) =
      ((rewindOnFailure snapshot result machine).1,
        (rewindOnFailure snapshot result machine).2.atDepth level) := by
  unfold rewindOnFailure Machine.rewound
  cases result.output with
  | ok output => rfl
  | error fault =>
      simp only [Machine.atDepth]
      rcases machine.state.rewound snapshot with ⟨fault | _, state⟩ <;> rfl

theorem run_counted (counts : counting.Counts level plain) (registry : Registry)
    (invocation : Invocation) (input : Bytes) (supplied : Gas) (machine : Machine) :
    EndsAt level PrecompileResult.output
      (registry.run counting invocation input supplied (machine.atDepth level))
      (registry.run plain invocation input supplied machine) := by
  unfold run
  cases registry.get? invocation.address with
  | none => exact .still
  | some container =>
      obtain ⟨final, ran, back⟩ := @execute_counted level counting
        ⟨invocation, container.book?, plain⟩ counts container input
        { machine with state := machine.state.snapshot.2.withPrices registry.prices }
      simp only [Machine.atDepth, Scene.answeredBy] at ran ⊢
      simp only [ran]
      generalize execute container _ input _ = executed at back ⊢
      split
      · rename_i cause gaveUp
        exact ⟨final, rfl, fun returned => absurd rfl (returned cause)⟩
      · rename_i ordinary
        cases back fun cause same => ordinary cause same
        refine ⟨level, ?_, fun _ => rfl⟩
        exact rewindOnFailure_atDepth _ _ (executed.2.2.withPrices _) level

end Registry

namespace TransferMachine

variable {registry : Registry} {plain : Answer}

theorem execute_counted (counts : counting.Counts level plain) (message : Message)
    (machine : Machine) :
    EndsAt level CallResult.output (execute registry counting message (machine.atDepth level))
      (execute registry plain message machine) := by
  unfold execute
  split
  · obtain ⟨final, ran, back⟩ := Registry.run_counted counts registry
      ⟨message.recipient, message.caller, message.value, false⟩ message.input message.gas machine
    refine ⟨final, ?_, back⟩
    rw [ran]
  · split
    · exact .still
    · split
      · exact .still
      · exact ⟨level, rfl, fun _ => rfl⟩

theorem transferAndExecute_counted (counts : counting.Counts level plain) (message : Message)
    (machine : Machine) :
    EndsAt level CallResult.output
      (transferAndExecute registry counting message (machine.atDepth level))
      (transferAndExecute registry plain message machine) := by
  unfold transferAndExecute
  simp only [Machine.atDepth]
  split
  · rename_i state moved
    exact execute_counted counts message { machine with state }
  · exact ⟨level, rfl, fun _ => rfl⟩

theorem call_counted (counts : counting.Counts level plain) (message : Message)
    (machine : Machine) :
    EndsAt level CallResult.output (call registry counting message (machine.atDepth level))
      (call registry plain message machine) := by
  obtain ⟨final, ran, back⟩ := @transferAndExecute_counted level counting registry plain counts
    message { machine with state := machine.state.snapshot.2 }
  unfold call
  simp only [Machine.atDepth] at ran ⊢
  rw [ran]
  generalize transferAndExecute registry plain message _ = executed at back ⊢
  rcases executed with ⟨⟨fault | output, gasUsed⟩, after⟩
  · simp only
    by_cases fatal : fault.isFatal = true
    · rw [if_pos fatal, if_pos fatal]
      exact ⟨final, rfl, back⟩
    · rw [if_neg fatal, if_neg fatal]
      cases back (returned_error_iff.mpr (Bool.not_eq_true _ ▸ fatal))
      unfold Machine.rewound
      simp only
      rcases after.state.rewound machine.state.snapshot.1 with ⟨foreign | _, state⟩ <;>
        exact ⟨level, rfl, fun _ => rfl⟩
  · cases back (returned_ok output)
    exact .still

/-- A way of making calls, given what answers the calls within them. -/
abbrev CallMaking := Answer → Message → Machine → CallResult × Machine

/-- A way of making calls that is the machine's own while no more calls are open than may be.
Beyond that it is anything. -/
def OwnWithinLimit (making : Registry → CallMaking) : Prop :=
  ∀ registry nested message machine, machine.depth ≤ depthLimit →
    making registry nested message machine = call registry nested message machine

def countedFrame (making : CallMaking) (nested : Answer) : Answer :=
  fun message machine =>
    let machine := machine.record message
    if depthLimit ≤ machine.depth then (.error (.callDepthExceeded machine.depth), machine)
    else
      let (result, machine) := making nested message machine.entered
      (result.output, machine.exited result.output)

/-- Frames within each other, some levels deep, and any answer at the bottom. An interpreter that
calls back into itself is one without a bottom. -/
def unrolled (making : CallMaking) (bottom : Answer) : (levels : Nat) → Answer
  | 0 => bottom
  | levels + 1 => countedFrame making (unrolled making bottom levels)

def unrolledCalling (making : Registry → CallMaking) (bottom : Answer) (levels : Nat) : Calling :=
  fun registry message state =>
    let (result, machine) :=
      making registry (unrolled (making registry) bottom levels) message { state }
    (result, machine.state)

variable {making : Registry → CallMaking}

theorem countedFrame_at_limit (nested : Answer) (message : Message) (machine : Machine)
    (full : machine.depth = depthLimit) :
    countedFrame (making registry) nested message machine =
      (.error (.callDepthExceeded depthLimit), machine.record message) := by
  unfold countedFrame
  simp only [show (machine.record message).depth = depthLimit from full]
  rw [if_pos (Nat.le_refl _)]

theorem countedFrame_counts {remaining : Nat} (own : OwnWithinLimit making)
    (below : level < depthLimit)
    (counts : counting.Counts (level + 1) (answer registry remaining)) :
    (countedFrame (making registry) counting).Counts level (answer registry (remaining + 1)) := by
  intro message machine
  obtain ⟨final, called, back⟩ := call_counted counts message (machine.record message)
  have made : making registry counting message ((machine.record message).atDepth (level + 1)) = _ :=
    (own registry counting message _ (Nat.succ_le_of_lt below)).trans called
  have room : ¬depthLimit ≤ ((machine.atDepth level).record message).depth :=
    Nat.not_le_of_lt below
  have entered : ((machine.atDepth level).record message).entered =
      (machine.record message).atDepth (level + 1) := rfl
  unfold countedFrame
  simp only [if_neg room, entered, made, answer]
  generalize call registry (answer registry remaining) message _ = result at back ⊢
  obtain ⟨left, exited, restored⟩ := result.2.exited_atDepth back
  exact ⟨left, by rw [exited], restored⟩

theorem unrolled_counts (own : OwnWithinLimit making) (registry : Registry) (bottom : Answer)
    {levels remaining : Nat} (within : level + remaining = depthLimit)
    (deep : remaining < levels) :
    (unrolled (making registry) bottom levels).Counts level (answer registry remaining) := by
  -- One level down, one call less is left, so that the limit is met in front of the bottom.
  induction levels generalizing level remaining with
  | zero => exact absurd deep (Nat.not_lt_zero remaining)
  | succ levels inductionHypothesis =>
      cases remaining with
      | zero =>
          intro message machine
          rw [unrolled, countedFrame_at_limit _ message (machine.atDepth level) within]
          exact ⟨level, rfl, fun _ => rfl⟩
      | succ remaining =>
          exact countedFrame_counts own (by omega) (inductionHypothesis (by omega) (by omega))

theorem unrolledCalling_eq (own : OwnWithinLimit making) (bottom : Answer) {levels : Nat}
    (deep : depthLimit < levels) :
    unrolledCalling making bottom levels = callFromTransaction := by
  funext registry message state
  have counts := unrolled_counts own registry bottom (Nat.zero_add depthLimit) deep
  obtain ⟨final, called, _⟩ := call_counted counts message { state }
  have made := (own registry (unrolled (making registry) bottom levels) message
    ({ state } : Machine) (Nat.zero_le _)).trans called
  unfold unrolledCalling
  rw [made]
  rfl

/-- Calls from within calls come to an end. Unrolled beyond the limit, an interpreter that counts
its open calls does to every transaction what the machine does, whatever it would do above the limit
and whatever stands below. Each of its nested calls at most at the limit ends as the machine's does,
with the count back at its level if the host did not give up, and one at the limit is refused. -/
theorem reentrancy_bounded (own : OwnWithinLimit making) (bottom : Answer) (levels : Nat) :
    (depthLimit < levels →
      interpreterBy (unrolledCalling making bottom levels) = interpreter) ∧
      ∀ registry message machine, machine.depth ≤ depthLimit →
        depthLimit - machine.depth < levels →
        let nested := unrolled (making registry) bottom levels message machine
        let plain := answer registry (depthLimit - machine.depth) message machine
        nested.1 = plain.1 ∧ nested.2.state = plain.2.state ∧ nested.2.calls = plain.2.calls ∧
          (Returned nested.1 → nested.2.depth = machine.depth) ∧
          (machine.depth = depthLimit →
            nested = (.error (.callDepthExceeded depthLimit), machine.record message)) := by
  refine ⟨fun deep => congrArg interpreterBy (unrolledCalling_eq own bottom deep),
    fun registry message machine within deep => ?_⟩
  have counts := unrolled_counts own registry bottom (Nat.add_sub_cancel' within) deep
  obtain ⟨final, ended, back⟩ := counts message machine
  dsimp only
  have start : machine.atDepth machine.depth = machine := rfl
  rw [start] at ended
  refine ⟨by rw [ended], by rw [ended]; rfl, by rw [ended]; rfl, ?_, ?_⟩
  · rw [ended]
    exact back
  · intro full
    obtain ⟨fewer, rfl⟩ := Nat.exists_eq_add_one_of_ne_zero (Nat.ne_zero_of_lt deep)
    exact countedFrame_at_limit _ message machine full

def recursing : Handler := fun _ _ =>
  .call 9 [0, 0, 0, 1] 100000 0 fun _ => .call 9 [0, 0, 0, 1] 100000 0 fun
    | .ok _ => .finish (.ok [])
    | .error fault => .fail fault

def recursingRegistry : Registry where
  containers := (∅ : Map Address Container).insert 9 (single 9 recursing)

def cautious (registry : Registry) (nested : Answer) (message : Message) (machine : Machine) :
    CallResult × Machine :=
  if machine.depth ≤ depthLimit then call registry nested message machine
  else (⟨.error (.breakdown .sum), 0⟩, machine)

theorem cautious_own : OwnWithinLimit cautious := fun _ _ _ _ within => if_pos within

def givingUp : Answer := fun _ machine => (.error (.breakdown .sum), machine)

def deepMachine : Machine := { depth := 1023 }

def deepMessage : Message := ⟨4, 9, [0, 0, 0, 1], 100000, 0⟩

def deepCall : Except Fault Bytes × Machine :=
  unrolled (cautious recursingRegistry) givingUp 1025 deepMessage deepMachine

theorem deepCall_bounded :
    OwnWithinLimit cautious ∧ depthLimit < 1025 ∧ deepMachine.depth ≤ depthLimit ∧
      depthLimit - deepMachine.depth < 1025 ∧
      interpreterBy (unrolledCalling cautious givingUp 1025) = interpreter ∧
      deepCall.1.isOk = false ∧ deepCall.2.calls.length = 3 ∧ deepCall.2.depth = 1023 := by
  obtain ⟨transactions, calls⟩ := reentrancy_bounded cautious_own givingUp 1025
  have nested := calls recursingRegistry deepMessage deepMachine (by decide) (by decide)
  rw [← deepCall] at nested
  dsimp only at nested
  obtain ⟨output, _, recorded, back, _⟩ := nested
  rw [output] at back
  refine ⟨cautious_own, by decide, by decide, by decide, transactions (by decide), ?_, ?_, ?_⟩
  · rw [output]
    decide +kernel
  · rw [recorded]
    decide +kernel
  · exact back (by decide +kernel)

end TransferMachine

end HostedEvm
