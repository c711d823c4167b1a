import HostedEvm.Proofs.State.Growth

set_option autoImplicit false

/-!
Snapshots within snapshots.

A snapshot is live until it, or one taken before it, is taken back. A run is well nested when it
only goes back to live snapshots of its own. The invariant of such a run is that every live snapshot
belongs to an earlier state which the states behind it extend; so the run as a whole extends the
state at its start, and whatever stands around the run can still be taken back.
-/

namespace HostedEvm

namespace JournaledState

/-- The live snapshots, newest first, with a chain of states from `base` up to the present in which
each one extends what was left by the snapshot before it. -/
inductive Anchored (base : JournaledState) : List Snapshot → JournaledState → Prop where
  | base {state} : Extends base state → Anchored base [] state
  | snapshot {live origin state} : Anchored base live origin → Extends origin.snapshot.2 state →
      Anchored base (origin.snapshot.1 :: live) state

theorem Anchored.mono {base state later : JournaledState} {live : List Snapshot}
    (anchored : Anchored base live state) (grown : Extends state later) :
    Anchored base live later := by
  cases anchored with
  | base start => exact .base (start.trans grown)
  | snapshot older start => exact .snapshot older (start.trans grown)

theorem Anchored.extends {base state : JournaledState} {live : List Snapshot}
    (anchored : Anchored base live state) : Extends base state := by
  induction anchored with
  | base start => exact start
  | @snapshot live origin state older start inductionHypothesis =>
    exact inductionHypothesis.trans ((extends_snapshot origin).trans start)

theorem Anchored.push {base state : JournaledState} {live : List Snapshot}
    (anchored : Anchored base live state) :
    Anchored base (state.snapshot.1 :: live) state.snapshot.2 :=
  .snapshot anchored (Extends.refl _)

/-- The newer snapshots can be given up, since the present extends what the older one left. -/
theorem Anchored.drop {base state : JournaledState} {newer older : List Snapshot}
    {taken : Snapshot} (anchored : Anchored base (newer ++ taken :: older) state) :
    Anchored base (taken :: older) state := by
  induction newer generalizing state with
  | nil => exact anchored
  | cons newest rest inductionHypothesis =>
    cases anchored with
    | @snapshot _ origin _ below start =>
      exact (inductionHypothesis below).mono ((extends_snapshot origin).trans start)

/-- Going back to a live snapshot succeeds, and the older ones stay live. -/
theorem Anchored.rewind {base state : JournaledState} {newer older : List Snapshot}
    {taken : Snapshot} (anchored : Anchored base (newer ++ taken :: older) state) :
    ∃ restored, state.rewind taken = .ok restored ∧ Anchored base older restored := by
  cases anchored.drop with
  | @snapshot _ origin _ below start =>
    exact ⟨state.restoredTo origin, rewind_of_extends start,
      below.mono (extends_restoredTo start)⟩

theorem Anchored.rewound {base state : JournaledState} {newer older : List Snapshot}
    {taken : Snapshot} (anchored : Anchored base (newer ++ taken :: older) state) :
    Anchored base older (state.rewound taken).2 := by
  obtain ⟨restored, reached, below⟩ := anchored.rewind
  unfold JournaledState.rewound
  rw [reached]
  exact below

end JournaledState

namespace StateCommand

/-- Commands that are carried out in order while the snapshots of `live` can be taken back. A
rewind uses up its snapshot and every newer one. -/
inductive WellNested : (live : List Snapshot) → List StateCommand → JournaledState → Prop where
  | done {live state} : WellNested live [] state
  | change {live command rest state} : command.isReversible = true →
      WellNested live rest (command.run state).2 → WellNested live (command :: rest) state
  | snapshot {live rest state} : WellNested (state.snapshot.1 :: live) rest state.snapshot.2 →
      WellNested live (.snapshot :: rest) state
  | rewind {newer taken older rest state} : WellNested older rest (state.rewound taken).2 →
      WellNested (newer ++ taken :: older) (.rewind taken :: rest) state

theorem WellNested.extends {base state : JournaledState} {live : List Snapshot}
    {commands : List StateCommand} (nested : WellNested live commands state)
    (anchored : JournaledState.Anchored base live state) :
    base.Extends (runAll commands state).2 := by
  induction nested with
  | done => exact anchored.extends
  | @change live command rest state reversible _ inductionHypothesis =>
    exact inductionHypothesis (anchored.mono (extends_run reversible state))
  | snapshot _ inductionHypothesis => exact inductionHypothesis anchored.push
  | @rewind newer taken older rest state _ inductionHypothesis =>
    have same : (run (.rewind taken) state).2 = (state.rewound taken).2 := rfl
    have remaining := inductionHypothesis anchored.rewound
    rw [← same] at remaining
    exact remaining

end StateCommand

namespace JournaledState

/-- Whatever a well nested run did behind a snapshot, the snapshot can be taken back, and accounts
and journals are then as they were. -/
theorem rewind_restores_snapshot (state : JournaledState) (commands : List StateCommand)
    (nested : StateCommand.WellNested [] commands state.snapshot.2) :
    ∃ restored, (StateCommand.runAll commands state.snapshot.2).2.rewind state.snapshot.1 =
        .ok restored ∧
      SameView restored state := by
  have grown := nested.extends (.base (Extends.refl _))
  exact ⟨_, rewind_of_extends grown, restoredTo_sameView grown⟩

def nestedChanges : List StateCommand :=
  [.store (.addBalance 1 5), .addRefund 2, .subRefund 3, .snapshot, .selfDestruct 1,
    .setTransient 1 7 8, .warmSlot 2 9,
    .rewind
      [("access_list", 0), ("destroyed_accounts", 0), ("logs", 0), ("refund", 1), ("state", 1),
        ("transient_storage", 0)],
    .store (.setSlot 1 3 4), .addLog { address := 1, topics := [], data := [] }]

theorem nestedChanges_taken_back :
    StateCommand.WellNested [] nestedChanges ({} : JournaledState).snapshot.2 ∧
      ∃ restored, (StateCommand.runAll nestedChanges ({} : JournaledState).snapshot.2).2.rewind
          ({} : JournaledState).snapshot.1 = .ok restored ∧ SameView restored {} := by
  have nested : StateCommand.WellNested [] nestedChanges ({} : JournaledState).snapshot.2 := by
    refine .change rfl (.change rfl (.change rfl (.snapshot ?_)))
    refine .change rfl (.change rfl (.change rfl ?_))
    exact @StateCommand.WellNested.rewind [] _ [] _ _ (.change rfl (.change rfl .done))
  exact ⟨nested, rewind_restores_snapshot {} nestedChanges nested⟩

end JournaledState

end HostedEvm
