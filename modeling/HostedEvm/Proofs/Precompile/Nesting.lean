import HostedEvm.Precompile.Registry
import HostedEvm.Proofs.State.Reuse

set_option autoImplicit false

/-!
What native handlers leave behind.

A handler is well nested when it commits nothing and goes back to live snapshots of its own only.
Such a handler extends the state it starts from, whatever it does besides and however deep its
calls go, so that a precompile can be taken back as a whole. It does not even matter whether the
snapshots are live. Two facts about the answers of nested calls carry the argument through every
depth: an answer extends the state, and the calls within it start with free storage.
-/

namespace HostedEvm

/-- The host did not give up in the operation. -/
def Returned {Result : Type} (outcome : Except Fault Result) : Prop :=
  ∀ cause, outcome ≠ .error (.breakdown cause)

theorem returned_ok {Result : Type} (result : Result) :
    Returned (.ok result : Except Fault Result) := by
  intro cause same
  cases same

theorem returned_error_iff {Result : Type} {fault : Fault} :
    Returned (.error fault : Except Fault Result) ↔ fault.isFatal = false := by
  constructor
  · intro returned
    cases fault with
    | breakdown cause => exact absurd rfl (returned cause)
    | _ => rfl
  · intro ordinary cause same
    cases same
    cases ordinary

instance {Result : Type} : (outcome : Except Fault Result) → Decidable (Returned outcome)
  | .ok result => .isTrue (returned_ok result)
  | .error _ => decidable_of_iff _ returned_error_iff.symm

namespace Machine

/-- The calls recorded since, all of which started with free storage. -/
def CallsFree (before after : Machine) : Prop :=
  ∃ made, after.calls = made ++ before.calls ∧ ∀ call ∈ made, call.prices = .free

theorem callsFree_of_same {before after : Machine} (same : after.calls = before.calls) :
    CallsFree before after :=
  ⟨[], same, by simp⟩

theorem CallsFree.refl (machine : Machine) : CallsFree machine machine := callsFree_of_same rfl

theorem CallsFree.trans {first second third : Machine} (start : CallsFree first second)
    (rest : CallsFree second third) : CallsFree first third := by
  obtain ⟨made, calls, free⟩ := start
  obtain ⟨madeLater, callsLater, freeLater⟩ := rest
  refine ⟨madeLater ++ made, ?_, ?_⟩
  · rw [callsLater, calls, List.append_assoc]
  · intro call member
    rcases List.mem_append.mp member with later | earlier
    · exact freeLater call later
    · exact free call earlier

theorem callsFree_record {machine : Machine} (free : machine.state.prices = .free)
    (message : Message) : CallsFree machine (machine.record message) := by
  refine ⟨[⟨message, machine.state.prices⟩], rfl, ?_⟩
  intro call member
  rw [List.mem_singleton.mp member]
  exact free

end Machine

/-- What nested calls may do: extend the state unless the host gives up, and make no call within
that starts under other prices than none. -/
structure Answer.Contained (answer : Answer) : Prop where
  extends_of_returned : ∀ (message : Message) (machine : Machine),
    Returned (answer message machine).1 →
      machine.state.Extends (answer message machine).2.state
  callsFree : ∀ (message : Message) (machine : Machine), machine.state.prices = .free →
    machine.CallsFree (answer message machine).2

namespace Program

variable {Result : Type}

/-- A handler that commits nothing and takes back only snapshots of its own that are still live,
whatever it is answered. -/
inductive WellNested : (live : List Snapshot) → Program Result → Prop where
  | finish {live outcome} : WellNested live (.finish outcome)
  | perform {live command next} : command.isReversible = true →
      (∀ reply, WellNested live (next reply)) → WellNested live (.perform command next)
  | snapshot {live next} : (∀ taken, WellNested (taken :: live) (next (.snapshot taken))) →
      WellNested live (.perform .snapshot next)
  | rewind {newer taken older next} : (∀ reply, WellNested older (next reply)) →
      WellNested (newer ++ taken :: older) (.perform (.rewind taken) next)
  | consume {live amount next} : (∀ outcome, WellNested live (next outcome)) →
      WellNested live (.consume amount next)
  | consumed {live next} : (∀ amount, WellNested live (next amount)) →
      WellNested live (.consumed next)
  | emit {live event next} : (∀ outcome, WellNested live (next outcome)) →
      WellNested live (.emit event next)
  | call {live recipient input gas value next} : (∀ output, WellNested live (next output)) →
      WellNested live (.call recipient input gas value next)

/-- A handler that commits nothing and goes back to known snapshots and marks of the store only,
whatever it is answered. Every one taken on the way is known from there on, also when it, or an
older one, has been taken back. -/
inductive Returning : (known : List Snapshot) → (marks : List Nat) → Program Result → Prop where
  | finish {known marks outcome} : Returning known marks (.finish outcome)
  | perform {known marks command next} : command.isReversible = true →
      (∀ reply, Returning known marks (next reply)) →
      Returning known marks (.perform command next)
  | snapshot {known marks next} :
      (∀ taken, Returning (taken :: known) marks (next (.snapshot taken))) →
      Returning known marks (.perform .snapshot next)
  | rewind {known marks taken next} : taken ∈ known →
      (∀ reply, Returning known marks (next reply)) →
      Returning known marks (.perform (.rewind taken) next)
  | mark {known marks next} : (∀ id, Returning known (id :: marks) (next (.count id))) →
      Returning known marks (.perform (.store .mark) next)
  | rewindStore {known marks id next} : id ∈ marks →
      (∀ reply, Returning known marks (next reply)) →
      Returning known marks (.perform (.store (.rewind id)) next)
  | consume {known marks amount next} : (∀ outcome, Returning known marks (next outcome)) →
      Returning known marks (.consume amount next)
  | consumed {known marks next} : (∀ amount, Returning known marks (next amount)) →
      Returning known marks (.consumed next)
  | emit {known marks event next} : (∀ outcome, Returning known marks (next outcome)) →
      Returning known marks (.emit event next)
  | call {known marks recipient input gas value next} :
      (∀ output, Returning known marks (next output)) →
      Returning known marks (.call recipient input gas value next)

theorem WellNested.returning {live known : List Snapshot} {marks : List Nat}
    {program : Program Result} (nested : WellNested live program) (subset : live ⊆ known) :
    Returning known marks program := by
  induction nested generalizing known with
  | finish => exact .finish
  | perform reversible _ inductionHypothesis =>
    exact .perform reversible fun reply => inductionHypothesis reply subset
  | snapshot _ inductionHypothesis =>
    exact .snapshot fun taken => inductionHypothesis taken (List.cons_subset_cons taken subset)
  | rewind _ inductionHypothesis =>
    refine .rewind (subset (List.mem_append_right _ List.mem_cons_self)) fun reply => ?_
    apply inductionHypothesis reply
    exact fun _ older => subset (List.mem_append_right _ (List.mem_cons_of_mem _ older))
  | consume _ inductionHypothesis =>
    exact .consume fun outcome => inductionHypothesis outcome subset
  | consumed _ inductionHypothesis =>
    exact .consumed fun amount => inductionHypothesis amount subset
  | emit _ inductionHypothesis => exact .emit fun outcome => inductionHypothesis outcome subset
  | call _ inductionHypothesis => exact .call fun output => inductionHypothesis output subset

end Program

namespace Scene

theorem emit_extends (scene : Scene) (event : NativeEvent) (machine : Machine) :
    machine.state.Extends (scene.emit event machine).2.state := by
  unfold emit
  cases scene.book with
  | none => exact .refl _
  | some book =>
    simp only
    split
    · exact .refl _
    · exact .refl _
    · exact JournaledState.extends_addLog _ _

theorem emit_calls (scene : Scene) (event : NativeEvent) (machine : Machine) :
    (scene.emit event machine).2.calls = machine.calls := by
  unfold emit
  cases scene.book with
  | none => rfl
  | some book =>
    simp only
    split <;> rfl

/-- Behind a nested call the storage prices are those in front of it. -/
theorem call_prices (scene : Scene) (recipient : Address) (input : Bytes) (gas : Gas) (value : Word)
    (machine : Machine) :
    (scene.call recipient input gas value machine).2.state.prices = machine.state.prices := by
  unfold call
  split
  · rfl
  · rfl

theorem call_extends {scene : Scene} (contained : Answer.Contained scene.nested)
    (recipient : Address) (input : Bytes) (gas : Gas) (value : Word) (machine : Machine)
    (returned : Returned (scene.call recipient input gas value machine).1) :
    machine.state.Extends (scene.call recipient input gas value machine).2.state := by
  unfold call at returned ⊢
  split at returned
  · rename_i refused
    rw [if_pos refused]
    exact .refl _
  · rename_i allowed
    rw [if_neg allowed]
    have suspended := JournaledState.extends_withPrices machine.state .free
    have answered := contained.extends_of_returned _ (machine.withPrices .free) returned
    exact (suspended.trans answered).trans (JournaledState.extends_withPrices _ _)

theorem call_callsFree {scene : Scene} (contained : Answer.Contained scene.nested)
    (recipient : Address) (input : Bytes) (gas : Gas) (value : Word) (machine : Machine) :
    machine.CallsFree (scene.call recipient input gas value machine).2 := by
  unfold call
  split
  · exact .refl machine
  · exact contained.callsFree _ (machine.withPrices .free) rfl

end Scene

namespace Program

variable {Result : Type} {scene : Scene}

/-- A handler that goes back to known snapshots only extends every state behind which they were
taken, be they still live or not. -/
theorem Returning.run_extends (contained : Answer.Contained scene.nested) {known : List Snapshot}
    {marks : List Nat} {program : Program Result} (returning : Returning known marks program)
    {base : JournaledState} (taken : StateCommand.TakenOf base.Extends known)
    (marked : ∀ id ∈ marks, base.store.saved.length ≤ id) (meter : Meter) (machine : Machine)
    (grown : base.Extends machine.state)
    (returned : Returned (program.run scene meter machine).1) :
    base.Extends (program.run scene meter machine).2.2.state := by
  induction returning generalizing meter machine with
  | finish => exact grown
  | @perform known marks command next reversible _ inductionHypothesis =>
    exact inductionHypothesis _ taken marked meter
      { machine with state := (command.run machine.state).2 }
      (grown.trans (StateCommand.extends_run reversible machine.state)) returned
  | @snapshot known marks next _ inductionHypothesis =>
    exact inductionHypothesis _ (taken.cons grown) marked meter
      { machine with state := machine.state.snapshot.2 }
      (grown.trans (JournaledState.extends_snapshot machine.state)) returned
  | @rewind known marks target next member _ inductionHypothesis =>
    have back : base.Extends (machine.state.rewound target).2 := by
      obtain ⟨middle, behind, rfl⟩ := taken target member
      rw [JournaledState.rewound_snapshot]
      exact grown.backTo behind
    exact inductionHypothesis _ taken marked meter
      { machine with state := (machine.state.rewound target).2 } back returned
  | @mark known marks next _ inductionHypothesis =>
    have markedNow : ∀ id ∈ machine.state.store.saved.length :: marks,
        base.store.saved.length ≤ id :=
      List.forall_mem_cons.mpr ⟨grown.store.1.length_le, marked⟩
    exact inductionHypothesis _ taken markedNow meter
      { machine with state := { machine.state with store := machine.state.store.mark.2 } }
      (grown.trans (JournaledState.extends_withStore _ (Store.extends_mark _))) returned
  | @rewindStore known marks id next member _ inductionHypothesis =>
    have store := Store.extends_rewind grown.store (marked id member)
    exact inductionHypothesis _ taken marked meter
      { machine with state := { machine.state with store := machine.state.store.rewind id } }
      { grown with store } returned
  | @consume known marks amount next _ inductionHypothesis =>
    exact inductionHypothesis _ taken marked (meter.consume amount).2 machine grown returned
  | @consumed known marks next _ inductionHypothesis =>
    exact inductionHypothesis _ taken marked meter machine grown returned
  | @emit known marks event next _ inductionHypothesis =>
    have emitted := grown.trans (scene.emit_extends event machine)
    revert emitted returned
    simp only [run]
    split
    · intro returned
      exact absurd rfl (returned _)
    · rename_i outcome logged _ result
      intro returned emitted
      rw [result] at emitted
      exact inductionHypothesis outcome taken marked meter logged emitted returned
  | @call known marks recipient input gas value next _ inductionHypothesis =>
    have extended := Scene.call_extends contained recipient input gas value machine
    revert extended returned
    simp only [run]
    split
    · intro returned
      exact absurd rfl (returned _)
    · rename_i output answered ordinary result
      intro returned extended
      rw [result] at extended
      have back : Returned output := fun cause same => ordinary cause same
      exact inductionHypothesis output taken marked meter answered
        (grown.trans (extended back)) returned

theorem run_callsFree (contained : Answer.Contained scene.nested) (program : Program Result)
    (meter : Meter) (machine : Machine) :
    machine.CallsFree (program.run scene meter machine).2.2 := by
  induction program generalizing meter machine with
  | finish => exact .refl machine
  | perform command next inductionHypothesis =>
    exact (Machine.callsFree_of_same rfl).trans (inductionHypothesis _ meter _)
  | consume amount next inductionHypothesis => exact inductionHypothesis _ _ machine
  | consumed next inductionHypothesis => exact inductionHypothesis _ meter machine
  | emit event next inductionHypothesis =>
    have same := Machine.callsFree_of_same (scene.emit_calls event machine)
    simp only [run]
    split
    · rename_i emitted result
      rw [result] at same
      exact same
    · rename_i outcome emitted _ result
      rw [result] at same
      exact same.trans (inductionHypothesis outcome meter emitted)
  | call recipient input gas value next inductionHypothesis =>
    have free := Scene.call_callsFree contained recipient input gas value machine
    simp only [run]
    split
    · rename_i answered result
      rw [result] at free
      exact free
    · rename_i output answered _ result
      rw [result] at free
      exact free.trans (inductionHypothesis output meter answered)

end Program

end HostedEvm
