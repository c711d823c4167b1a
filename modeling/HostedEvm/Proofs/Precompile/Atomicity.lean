import HostedEvm.Proofs.Precompile.Nesting
import HostedEvm.Proofs.Precompile.Registration

set_option autoImplicit false

/-!
Calls of precompiles as a whole.

Every way out of a call but one ends in the same two steps: the storage prices in front of the call
are put back, and a failed call is taken back to the snapshot it began with. Since handlers that
commit nothing only extend the state behind that snapshot, it can always be taken back.
-/

namespace HostedEvm

structure Continues (before after : JournaledState) : Prop where
  grown : before.Extends after
  prices : after.prices = before.prices

theorem Continues.refl (state : JournaledState) : Continues state state := ⟨.refl state, rfl⟩

theorem Continues.trans {first second third : JournaledState} (start : Continues first second)
    (rest : Continues second third) : Continues first third :=
  ⟨start.grown.trans rest.grown, rest.prices.trans start.prices⟩

/-- What a call leaves: a state that goes on from the earlier one, and that looks as before if the
call failed. -/
structure Atomic (output : Except Fault Bytes) (before after : JournaledState) : Prop where
  continues : Continues before after
  undone : ∀ fault, output = .error fault → after.SameView before

theorem Atomic.refl (output : Except Fault Bytes) (state : JournaledState) :
    Atomic output state state :=
  ⟨.refl state, fun _ _ => .refl state⟩

/-- Behind a success nothing has to be undone. -/
theorem Atomic.of_ok {bytes : Bytes} {before after : JournaledState}
    (continues : Continues before after) : Atomic (.ok bytes) before after := by
  refine ⟨continues, ?_⟩
  intro fault failed
  cases failed

theorem continues_snapshot (state : JournaledState) : Continues state state.snapshot.2 :=
  ⟨JournaledState.extends_snapshot state, rfl⟩

/-- A state that was taken back to a snapshot is good for any output. -/
theorem Atomic.of_restored (output : Except Fault Bytes) {before state : JournaledState}
    (continues : Continues before.snapshot.2 state) :
    Atomic output before (state.restoredTo before) where
  continues := ⟨JournaledState.extends_restoredTo continues.grown, continues.prices⟩
  undone _ _ := JournaledState.restoredTo_sameView continues.grown

theorem Machine.rewound_fst (machine : Machine) (origin : JournaledState) :
    (machine.rewound origin.snapshot.1).1 = .ok () :=
  machine.state.rewound_fst origin

/-- A machine whose state extends what a snapshot left can be taken back to the snapshot. -/
theorem Machine.rewound_of_extends {origin : JournaledState} {machine : Machine}
    (grown : origin.snapshot.2.Extends machine.state) :
    machine.rewound origin.snapshot.1 =
      (.ok (), { machine with state := machine.state.restoredTo origin }) := by
  unfold Machine.rewound
  rw [JournaledState.rewound_of_extends grown]

def Method.WellNested (method : Method) : Prop :=
  ∀ invocation arguments, (method.handler invocation arguments).WellNested []

def Method.Returning (method : Method) : Prop :=
  ∀ invocation arguments, (method.handler invocation arguments).Returning [] []

theorem Method.WellNested.returning {method : Method} (nested : method.WellNested) :
    method.Returning :=
  fun invocation arguments => (nested invocation arguments).returning (List.Subset.refl _)

/-- Taking the state back keeps the record of calls. -/
theorem Machine.CallsFree.of_rewound {before machine restored : Machine} {snapshot : Snapshot}
    {outcome : Except Fault Unit} (free : before.CallsFree machine)
    (taken : machine.rewound snapshot = (outcome, restored)) : before.CallsFree restored := by
  cases taken
  exact free

namespace BoundMethod

variable {codec : AbiCodec} {scene : Scene} {bound : BoundMethod}

/-- A method gives up only where its handler does. -/
theorem returned_of_revert {Result : Type} {outcome : Except Fault Result}
    (returned : Returned (bound.revert outcome)) : Returned outcome := by
  intro cause same
  rw [same] at returned
  exact returned cause rfl

theorem returned_of_run {arguments : List Abi.Value} {meter : Meter} {machine : Machine}
    (returned : Returned (bound.run codec scene arguments meter machine).1) :
    Returned ((bound.method.handler scene.invocation arguments).run scene meter machine).1 := by
  have handled := returned_of_revert returned
  intro cause same
  rw [same] at handled
  exact handled cause rfl

end BoundMethod

namespace Container

variable {scene : Scene}

theorem run_extends (contained : Answer.Contained scene.nested) {container : Container}
    (returning : container.Every Method.Returning) (input : Bytes) (meter : Meter)
    (machine : Machine)
    (returned : Returned (container.run scene input meter machine).1) :
    machine.state.Extends (container.run scene input meter machine).2.2.state := by
  cases container with
  | pure contract => exact .refl _
  | dispatching table =>
      revert returned
      simp only [run]
      split
      · exact fun _ => .refl _
      · rename_i bound selected
        split
        · exact fun _ => .refl _
        · rename_i arguments _
          intro returned
          obtain ⟨selector, found⟩ := MethodTable.select_mem selected
          have handler := returning selector bound found scene.invocation arguments
          exact handler.run_extends contained nofun nofun meter machine (.refl _)
            (BoundMethod.returned_of_run returned)

theorem run_callsFree (contained : Answer.Contained scene.nested) (container : Container)
    (input : Bytes) (meter : Meter) (machine : Machine) :
    machine.CallsFree (container.run scene input meter machine).2.2 := by
  cases container with
  | pure contract => exact .refl machine
  | dispatching table =>
      simp only [run]
      split
      · exact .refl machine
      · split
        · exact .refl machine
        · exact Program.run_callsFree contained _ meter machine

end Container

namespace Registry

abbrev WellNested (registry : Registry) : Prop := registry.Every Method.WellNested

abbrev Returning (registry : Registry) : Prop := registry.Every Method.Returning

theorem WellNested.returning {registry : Registry} (nested : registry.WellNested) :
    registry.Returning := nested.imp fun _ => Method.WellNested.returning

variable {scene : Scene} {registry : Registry}

theorem execute_extends (contained : Answer.Contained scene.nested) {container : Container}
    (returning : container.Every Method.Returning) (input : Bytes) (machine : Machine)
    (returned : Returned (execute container scene input machine).1) :
    machine.state.Extends (execute container scene input machine).2.2.state := by
  revert returned
  unfold execute
  split
  · exact fun returned => container.run_extends contained returning input _ machine returned
  · exact fun _ => .refl _

theorem execute_callsFree (contained : Answer.Contained scene.nested) (container : Container)
    (input : Bytes) (machine : Machine) :
    machine.CallsFree (execute container scene input machine).2.2 := by
  unfold execute
  split
  · exact container.run_callsFree contained input _ machine
  · exact .refl machine

theorem rewindOnFailure_fst (origin : JournaledState) (result : PrecompileResult)
    (machine : Machine) : (rewindOnFailure origin.snapshot.1 result machine).1 = result := by
  have taken := machine.rewound_fst origin
  unfold rewindOnFailure
  split
  · rfl
  · split
    · rfl
    · rename_i foreign restored refused
      rw [refused] at taken
      cases taken

theorem rewindOnFailure_atomic {origin : JournaledState} (result : PrecompileResult)
    {machine : Machine} (continues : Continues origin.snapshot.2 machine.state) :
    Atomic (rewindOnFailure origin.snapshot.1 result machine).1.output origin
      (rewindOnFailure origin.snapshot.1 result machine).2.state := by
  unfold rewindOnFailure
  cases settled : result.output with
  | ok bytes =>
      simp only [settled]
      exact .of_ok ((continues_snapshot origin).trans continues)
  | error fault =>
      simp only [Machine.rewound_of_extends continues.grown]
      exact .of_restored _ continues

theorem rewindOnFailure_callsFree {before machine : Machine} (free : before.CallsFree machine)
    (snapshot : Snapshot) (result : PrecompileResult) :
    before.CallsFree (rewindOnFailure snapshot result machine).2 := by
  unfold rewindOnFailure
  split
  · exact free
  · split
    · rename_i restored taken
      exact free.of_rewound taken
    · rename_i foreign restored taken
      exact free.of_rewound taken

variable {nested : Answer}

theorem Returning.run_atomic (returning : registry.Returning) (contained : Answer.Contained nested)
    (invocation : Invocation) (input : Bytes) (supplied : Gas) (machine : Machine)
    (returned : Returned (registry.run nested invocation input supplied machine).1.output) :
    Atomic (registry.run nested invocation input supplied machine).1.output machine.state
      (registry.run nested invocation input supplied machine).2.state := by
  revert returned
  unfold run
  split
  · exact fun _ => .refl _ _
  · rename_i container registered
    have paid := JournaledState.extends_withPrices machine.state.snapshot.2 registry.prices
    have extended := @execute_extends ⟨invocation, container.book?, nested⟩ contained container
      (returning _ container registered) input
      { machine with state := machine.state.snapshot.2.withPrices registry.prices }
    simp only
    split
    · exact fun returned => absurd rfl (returned _)
    · rename_i ordinary
      intro _
      have executed := paid.trans (extended fun cause same => ordinary cause same)
      refine rewindOnFailure_atomic _ ⟨?_, rfl⟩
      exact executed.trans (JournaledState.extends_withPrices _ _)

theorem run_atomic (wellNested : registry.WellNested) (contained : Answer.Contained nested)
    (invocation : Invocation) (input : Bytes) (supplied : Gas) (machine : Machine)
    (returned : Returned (registry.run nested invocation input supplied machine).1.output) :
    Atomic (registry.run nested invocation input supplied machine).1.output machine.state
      (registry.run nested invocation input supplied machine).2.state :=
  wellNested.returning.run_atomic contained invocation input supplied machine returned

theorem run_callsFree (contained : Answer.Contained nested) (invocation : Invocation)
    (input : Bytes) (supplied : Gas) (machine : Machine) :
    machine.CallsFree (registry.run nested invocation input supplied machine).2 := by
  unfold run
  split
  · exact .refl machine
  · rename_i container _
    have executed := @execute_callsFree ⟨invocation, container.book?, nested⟩ contained container
      input
      { machine with state := machine.state.snapshot.2.withPrices registry.prices }
    simp only
    split
    · exact executed
    · refine rewindOnFailure_callsFree ?_ _ _
      exact executed

end Registry

end HostedEvm
