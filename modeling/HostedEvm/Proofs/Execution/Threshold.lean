import HostedEvm.Proofs.Execution.Spending

set_option autoImplicit false

/-!
The gas that a call of a precompile is supplied with.

A call runs to its end whatever it is supplied with, and only then is the gas it consumed held
against the supply. So there is an amount from which on every supply leads to the same output and
the same state, with the rest returned, and below which every supply is refused. What a refused call
leaves is what was there before, as long as no handler commits anything.
-/

namespace HostedEvm

/-- What a call comes to with each supply of gas. -/
structure Threshold (ran : Gas → PrecompileResult × Machine) (consumed : Gas)
    (output : Except Fault Bytes) (left undone : Machine) : Prop where
  returned : Returned output
  enough : ∀ supplied, consumed ≤ supplied →
    ran supplied = (⟨output, supplied.minus consumed⟩, left)
  short : ∀ supplied, supplied < consumed →
    ran supplied = (⟨.error (.outOfGas consumed supplied), 0⟩, undone)

def GivesUp (ran : Gas → PrecompileResult × Machine) : Prop :=
  ∃ cause left, ∀ supplied, ran supplied = (⟨.error (.breakdown cause), 0⟩, left)

namespace Registry

theorem rewindOnFailure_error (origin : JournaledState) (fault : Fault) (remaining : Gas)
    (machine : Machine) :
    rewindOnFailure origin.snapshot.1 ⟨.error fault, remaining⟩ machine =
      (⟨.error fault, remaining⟩, (machine.rewound origin.snapshot.1).2) := by
  have taken := machine.rewound_fst origin
  unfold rewindOnFailure
  rcases rewound : machine.rewound origin.snapshot.1 with ⟨outcome, restored⟩
  rw [rewound] at taken
  cases taken
  rfl

/-- Whether a call is taken back does not depend on the gas that is left of it. -/
theorem rewindOnFailure_eq (origin : JournaledState) (output : Except Fault Bytes)
    (machine : Machine) :
    ∃ left, ∀ remaining, rewindOnFailure origin.snapshot.1 ⟨output, remaining⟩ machine =
      (⟨output, remaining⟩, left) := by
  cases output with
  | ok bytes => exact ⟨machine, fun _ => rfl⟩
  | error fault => exact ⟨_, fun remaining => rewindOnFailure_error origin fault remaining machine⟩

theorem threshold_settle (origin : JournaledState) {output : Except Fault Bytes}
    (returned : Returned output) (consumed : Gas) (machine : Machine) :
    ∃ left undone, Threshold
      (fun supplied => rewindOnFailure origin.snapshot.1 (settle output consumed supplied) machine)
      consumed output left undone := by
  obtain ⟨left, taken⟩ := rewindOnFailure_eq origin output machine
  refine ⟨left, (machine.rewound origin.snapshot.1).2, returned, ?_, ?_⟩
  · intro supplied enough
    simp only [settle, if_neg (UInt64.not_lt.mpr enough), taken]
  · intro supplied short
    simp only [settle, if_pos (show consumed > supplied from short), rewindOnFailure_error]

variable (registry : Registry) (nested : Answer) (invocation : Invocation) (input : Bytes)
  (machine : Machine)

/-- The supply of gas has no part in a call until its consumption is settled. -/
theorem run_threshold :
    GivesUp (fun supplied => registry.run nested invocation input supplied machine) ∨
      ∃ consumed output left undone,
        Threshold (fun supplied => registry.run nested invocation input supplied machine) consumed
          output left undone := by
  unfold run GivesUp
  cases registered : registry.get? invocation.address with
  | none =>
      refine .inr ⟨0, .error (.precompileNotFound invocation.address), machine, machine, ?_, ?_, ?_⟩
      · exact returned_error_iff.mpr rfl
      · intro supplied _
        have kept : supplied.minus 0 = supplied := UInt64.toNat_inj.mp (Gas.toNat_minus supplied 0)
        rw [kept]
      · intro supplied short
        exact absurd short UInt64.not_lt_zero
  | some container =>
      simp only
      rcases execute container ⟨invocation, container.book?, nested⟩ input
          { machine with state := machine.state.snapshot.2.withPrices registry.prices }
        with ⟨output, meter, worked⟩
      simp only
      split
      · rename_i cause
        exact .inl ⟨cause, worked, fun _ => rfl⟩
      · rename_i ordinary
        have returned : Returned output := fun cause same => ordinary cause same
        exact .inr ⟨_, output, threshold_settle machine.state returned _ _⟩

end Registry

namespace TransferMachine

/-- With every supply of gas a call comes to the same output and state or is refused, and a refused
call leaves what was there before if no handler commits anything. -/
theorem supply_thresholds (registry : Registry) (remaining : Nat) (invocation : Invocation)
    (input : Bytes) (machine : Machine) :
    let ran := fun supplied =>
      registry.run (answer registry remaining) invocation input supplied machine
    (∀ supplied, (ran supplied).1.gasRemaining ≤ supplied) ∧
      (GivesUp ran ∨
        ∃ consumed output left undone, Threshold ran consumed output left undone ∧
          (registry.Returning → ∀ supplied, supplied < consumed →
            undone.state.SameView machine.state ∧
              undone.state.prices = machine.state.prices)) := by
  intro ran
  have threshold : GivesUp ran ∨
      ∃ consumed output left undone, Threshold ran consumed output left undone :=
    registry.run_threshold (answer registry remaining) invocation input machine
  constructor
  · intro supplied
    rcases threshold with ⟨cause, left, same⟩ | ⟨consumed, output, left, undone, threshold⟩
    · rw [same]
      exact UInt64.zero_le
    · by_cases enough : consumed ≤ supplied
      · rw [threshold.enough supplied enough]
        exact Gas.minus_le supplied consumed
      · rw [threshold.short supplied (UInt64.not_le.mp enough)]
        exact UInt64.zero_le
  · refine threshold.imp_right ?_
    rintro ⟨consumed, output, left, undone, threshold⟩
    refine ⟨consumed, output, left, undone, threshold, ?_⟩
    intro returning supplied short
    have refused := threshold.short supplied short
    have back : Returned (ran supplied).1.output := by
      rw [refused]
      exact returned_error_iff.mpr rfl
    have atomic := returning.run_atomic (answer_contained_of_returning returning remaining)
      invocation input supplied machine back
    change Atomic (ran supplied).1.output machine.state (ran supplied).2.state at atomic
    rw [refused] at atomic
    exact ⟨atomic.undone _ rfl, atomic.continues.prices⟩

def restless : Handler := fun _ _ =>
  .perform (.store .mark) fun
    | .count id =>
      .perform (.store (.setSlot 9 7 1)) fun _ => .perform (.store (.rewind id)) fun _ =>
        .perform (.store (.rewind id)) fun _ => .consume 5000 fun _ => .finish (.ok [])
    | _ => .fail (.reverted "no mark")

def restlessRegistry : Registry where
  containers := (∅ : Map Address Container).insert 9 (single 9 restless)

theorem restlessRegistry_returning : restlessRegistry.Returning := by
  refine Map.every_empty.insert 9 (single_every 9 ?_)
  intro invocation arguments
  refine .mark fun id => .perform rfl fun _ => ?_
  have known : id ∈ [id] := List.mem_cons_self
  exact .rewindStore known fun _ => .rewindStore known fun _ => .consume fun _ => .finish

def restlessRun (supplied : Gas) : PrecompileResult × Machine :=
  restlessRegistry.run (answer restlessRegistry 3) ⟨9, 4, 0, false⟩ [0, 0, 0, 1] supplied {}

theorem restlessRun_thresholds :
    restlessRegistry.Returning ∧
      (∀ supplied, 7960 ≤ supplied → (restlessRun supplied).1 = ⟨.ok [], supplied.minus 7960⟩) ∧
      ∀ supplied, supplied < 7960 →
        (restlessRun supplied).1 = ⟨.error (.outOfGas 7960 supplied), 0⟩ ∧
          (restlessRun supplied).2.state.SameView {} := by
  have settled : GivesUp restlessRun ∨
      ∃ consumed output left undone, Threshold restlessRun consumed output left undone ∧
        (restlessRegistry.Returning → ∀ supplied, supplied < consumed →
          undone.state.SameView {} ∧ undone.state.prices = {}) :=
    (supply_thresholds restlessRegistry 3 ⟨9, 4, 0, false⟩ [0, 0, 0, 1] {}).2
  have paid : (restlessRun 10000).1.output.toOption = some [] := by decide +kernel
  have rest : (restlessRun 10000).1.gasRemaining = 2040 := by decide +kernel
  obtain ⟨consumed, output, left, undone, threshold, whole⟩ := settled.resolve_left <| by
    rintro ⟨cause, left, same⟩
    rw [same] at paid
    cases paid
  have enough : consumed ≤ 10000 := UInt64.not_lt.mp fun short => by
    rw [threshold.short 10000 short] at paid
    cases paid
  rw [threshold.enough 10000 enough] at paid rest
  have exact : consumed = 7960 := by
    have counted := congrArg UInt64.toNat rest
    rw [Gas.toNat_minus] at counted
    rw [UInt64.le_iff_toNat_le] at enough
    apply UInt64.toNat_inj.mp
    simp only [UInt64.reduceToNat] at counted enough ⊢
    omega
  subst exact
  cases output with
  | error fault => cases paid
  | ok bytes =>
      cases paid
      refine ⟨restlessRegistry_returning, ?_, ?_⟩
      · intro supplied enough
        rw [threshold.enough supplied enough]
      · intro supplied short
        rw [threshold.short supplied short]
        exact ⟨rfl, (whole restlessRegistry_returning supplied short).1⟩

def committing : Handler := fun _ _ =>
  .perform (.store (.setSlot 9 7 1)) fun _ => .perform .finalize fun _ =>
    .consume 5000 fun _ => .finish (.ok [])

def committingRegistry : Registry where
  containers := (∅ : Map Address Container).insert 9 (single 9 committing)

def committingRun (supplied : Gas) : PrecompileResult × Machine :=
  committingRegistry.run (answer committingRegistry 3) ⟨9, 4, 0, false⟩ [0, 0, 0, 1] supplied {}

/-- A refused call does not take back what its handler has committed. -/
theorem committed_outlasts_refusal :
    ¬ ∀ (registry : Registry) (remaining : Nat) (invocation : Invocation) (input : Bytes)
        (machine : Machine), ∃ consumed output left, ∀ supplied,
      let ran := registry.run (answer registry remaining) invocation input supplied machine
      (consumed ≤ supplied → ran = (⟨output, supplied.minus consumed⟩, left)) ∧
        (supplied < consumed → ran.1 = ⟨.error (.outOfGas consumed supplied), 0⟩ ∧
          ran.2.state.SameView machine.state) := by
  intro claimed
  obtain ⟨consumed, output, left, settled⟩ :=
    claimed committingRegistry 3 ⟨9, 4, 0, false⟩ [0, 0, 0, 1] {}
  have paid : (committingRun 10000).1.output.toOption = some [] := by decide +kernel
  have refused : (committingRun 1000).1.output.toOption = none := by decide +kernel
  have kept : ((committingRun 1000).2.state.store.accounts.account 9).slot 7 = 1 := by
    decide +kernel
  have short : 1000 < consumed := UInt64.not_le.mp fun enough => by
    have plenty : consumed ≤ 10000 := UInt64.le_trans enough (by decide)
    rw [committingRun, (settled 1000).1 enough] at refused
    rw [committingRun, (settled 10000).1 plenty, refused] at paid
    cases paid
  have back := ((settled 1000).2 short).2.accounts
  rw [committingRun, back] at kept
  exact absurd kept (by decide +kernel)

end TransferMachine

end HostedEvm
