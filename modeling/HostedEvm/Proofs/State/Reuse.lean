import HostedEvm.Proofs.State.Nesting

set_option autoImplicit false

/-!
Snapshots that are taken back more than once.

A mark of a journal is a length, and stays good for as long as the journal is not cut below it. A
mark of the store is a place on a stack: taking the store back removes the copy at that place, and
the next mark puts another copy there. In a run that never goes back before a snapshot, the
snapshot therefore restores the journals every time, but the accounts only the first time. Later
on it finds whatever copy stands at its place, or none, and then the accounts stay as they are.
-/

namespace HostedEvm

namespace Store

/-- The saved copy at a place on the stack, counted from the oldest one. -/
def savedAt? (store : Store) (id : Nat) : Option Accounts := store.saved.reverse[id]?

theorem savedAt?_of_lt {store : Store} {id : Nat} (onStack : id < store.saved.length) :
    store.saved.drop (store.saved.length - (id + 1)) =
      store.saved[store.saved.length - 1 - id] ::
        store.saved.drop (store.saved.length - id) ∧
      store.savedAt? id = some store.saved[store.saved.length - 1 - id] := by
  constructor
  · have place : store.saved.length - (id + 1) = store.saved.length - 1 - id := by omega
    have next : store.saved.length - id = store.saved.length - 1 - id + 1 := by omega
    rw [place, next]
    exact List.drop_eq_getElem_cons _
  · unfold savedAt?
    rw [List.getElem?_reverse onStack]
    exact List.getElem?_eq_getElem _

theorem savedAt?_of_le {store : Store} {id : Nat} (gone : store.saved.length ≤ id) :
    store.savedAt? id = none := by
  unfold savedAt?
  rw [List.getElem?_eq_none_iff, List.length_reverse]
  exact gone

/-- A rewind takes the copy at its place and everything above it off the stack. -/
theorem rewind_eq (store : Store) (id : Nat) :
    store.rewind id =
      { store with
        accounts := (store.savedAt? id).getD store.accounts
        saved := store.saved.drop (store.saved.length - id) } := by
  unfold rewind
  by_cases onStack : id < store.saved.length
  · obtain ⟨dropped, found⟩ := savedAt?_of_lt onStack
    rw [if_pos onStack, dropped, found]
    rfl
  · have gone : store.saved.length - id = 0 := by omega
    rw [if_neg onStack, savedAt?_of_le (Nat.le_of_not_lt onStack), gone]
    rfl

theorem length_saved_rewind (store : Store) (id : Nat) :
    (store.rewind id).saved.length = min store.saved.length id := by
  rw [rewind_eq]
  simp only [List.length_drop]
  omega

theorem extends_rewind {earlier later : Store} (grown : Extends earlier later) {id : Nat}
    (behind : earlier.saved.length ≤ id) : Extends earlier (later.rewind id) := by
  rw [rewind_eq]
  refine ⟨?_, grown.2⟩
  apply List.suffix_of_suffix_length_le grown.1 (List.drop_suffix _ _)
  have longer := grown.1.length_le
  rw [List.length_drop]
  omega

theorem saved_delete (store : Store) (addresses : List Address) :
    (store.delete addresses).saved = store.saved := by
  unfold delete
  induction addresses generalizing store with
  | nil => rfl
  | cons address rest inductionHypothesis => exact inductionHypothesis (store.deleteOne address)

end Store

theorem StoreCommand.saved_run {command : StoreCommand} (reversible : command.isReversible = true)
    (store : Store) : (command.run store).2.saved = store.saved := by
  cases command with
  | mark | rewind | commit | beginBlock => simp [isReversible] at reversible
  | delete addresses => exact Store.saved_delete store addresses
  | isEmpty address =>
      simp only [run, read, Store.isEmpty]
      split
      · rfl
      · split
        · rfl
        · rfl
  | view number steps =>
      simp only [run]
      split
      · rfl
      · rfl
  | _ => rfl

namespace JournaledState

structure Recorded (earlier later : JournaledState) : Prop where
  logs : earlier.logs.Extends later.logs
  refund : earlier.refund.Extends later.refund
  accessList : earlier.accessList.Extends later.accessList
  transient : earlier.transient.Extends later.transient
  destroyed : earlier.destroyed.Extends later.destroyed

theorem Extends.recorded {earlier later : JournaledState} (grown : Extends earlier later) :
    Recorded earlier later :=
  ⟨grown.logs, grown.refund, grown.accessList, grown.transient, grown.destroyed⟩

theorem Recorded.trans {first second third : JournaledState} (start : Recorded first second)
    (rest : Recorded second third) : Recorded first third where
  logs := start.logs.trans rest.logs
  refund := start.refund.trans rest.refund
  accessList := start.accessList.trans rest.accessList
  transient := start.transient.trans rest.transient
  destroyed := start.destroyed.trans rest.destroyed

/-- The state with every part taken back to the marks of a snapshot of `middle`. -/
def backTo (state middle : JournaledState) : JournaledState where
  store := state.store.rewind middle.store.saved.length
  logs := state.logs.rewind middle.logs.entries.length
  refund := state.refund.rewind middle.refund.history.length
  accessList := state.accessList.rewind middle.accessList.changes.length
  transient := state.transient.rewind middle.transient.replaced.length
  destroyed := state.destroyed.rewind middle.destroyed.order.length

theorem rewind_snapshot (state middle : JournaledState) :
    state.rewind middle.snapshot.1 = .ok (state.backTo middle) := by
  rw [snapshot_marks, rewind_marks]
  rfl

theorem rewound_snapshot (state middle : JournaledState) :
    state.rewound middle.snapshot.1 = (.ok (), state.backTo middle) := by
  unfold rewound
  rw [rewind_snapshot]

variable {origin middle state : JournaledState}

/-- Going back to a snapshot that was taken behind `origin` does not cut the journals of `origin`,
whatever became of the snapshot in between. -/
theorem Recorded.backTo (grown : Recorded origin state) (taken : Recorded origin middle) :
    Recorded origin (state.backTo middle) where
  logs := LogBuffer.extends_rewind grown.logs taken.logs.1.length_le
  refund := Refund.extends_rewind grown.refund taken.refund.length_le
  accessList := by
    apply AccessList.extends_rewind grown.accessList
    obtain ⟨since, changes, _⟩ := taken.accessList
    rw [changes, List.length_append]
    exact Nat.le_add_left _ _
  transient := by
    apply TransientStorage.extends_rewind grown.transient
    obtain ⟨since, replaced, _⟩ := taken.transient
    rw [replaced, List.length_append]
    exact Nat.le_add_left _ _
  destroyed := DestroyedAccounts.extends_rewind grown.destroyed taken.destroyed.length_le

theorem Extends.backTo (grown : Extends origin state) (taken : Extends origin middle) :
    Extends origin (state.backTo middle) := by
  obtain ⟨logs, refund, accessList, transient, destroyed⟩ := grown.recorded.backTo taken.recorded
  have store := Store.extends_rewind grown.store taken.store.1.length_le
  exact ⟨store, logs, refund, accessList, transient, destroyed⟩

/-- The journals that a state shares with its origin are the origin's again behind the rewind. -/
theorem Recorded.restores (grown : Recorded origin state) :
    (state.backTo origin).logs = origin.logs ∧ (state.backTo origin).refund = origin.refund ∧
      (state.backTo origin).accessList = origin.accessList ∧
      (∀ slot, (state.backTo origin).transient.get slot = origin.transient.get slot) ∧
      (state.backTo origin).destroyed = origin.destroyed := by
  refine ⟨?_, ?_, ?_, ?_, ?_⟩
  · exact LogBuffer.rewind_of_extends origin.logs grown.logs
  · exact Refund.rewind_of_extends origin.refund grown.refund
  · exact AccessList.rewind_of_extends origin.accessList grown.accessList
  · exact (TransientStorage.rewind_of_extends origin.transient grown.transient).2
  · exact DestroyedAccounts.rewind_of_extends origin.destroyed grown.destroyed

theorem saved_prepareAccessList (state : JournaledState) (rules : ForkRules)
    (sender coinbase : Address) (recipient : Option Address) (precompiles : List Address)
    (items : List AccessListItem) :
    (state.prepareAccessList rules sender coinbase recipient precompiles items).store.saved =
      state.store.saved := by
  apply @prepareAccessList_related
    (fun before after => after.store.saved = before.store.saved) (fun _ => rfl)
  · intro first second third start rest
    exact rest.trans start
  · intro state address
    rfl
  · intro state address slot
    rfl

theorem saved_selfDestruct (state : JournaledState) (address : Address) :
    (state.selfDestruct address).store.saved = state.store.saved := by
  unfold selfDestruct
  simp only
  split
  · rfl
  · rfl

theorem saved_sightSlots (address : Address) (state : JournaledState) (keys : List Word) :
    (sightSlots address state keys).2.store.saved = state.store.saved := by
  induction keys generalizing state with
  | nil => rfl
  | cons key rest inductionHypothesis => exact inductionHypothesis _

theorem saved_sightAccounts (keys : List Word) (state : JournaledState)
    (addresses : List Address) :
    (sightAccounts keys state addresses).2.store.saved = state.store.saved := by
  induction addresses generalizing state with
  | nil => rfl
  | cons address rest inductionHypothesis =>
      have seen : (sightAccount keys state address).2.store.saved = state.store.saved :=
        saved_sightSlots address _ keys
      exact (inductionHypothesis _).trans seen

end JournaledState

namespace StateCommand

open JournaledState

theorem saved_run {command : StateCommand} (reversible : command.isReversible = true)
    (state : JournaledState) : (command.run state).2.store.saved = state.store.saved := by
  cases command with
  | store inner => exact StoreCommand.saved_run reversible state.store
  | snapshot | rewind | beginBlock | beginTransaction | finalize =>
      simp [isReversible] at reversible
  | prepareAccessList rules sender coinbase recipient precompiles items =>
      exact saved_prepareAccessList state rules sender coinbase recipient precompiles items
  | subRefund amount =>
      simp only [run]
      split
      · rfl
      · rfl
  | selfDestruct address => exact saved_selfDestruct state address
  | observe addresses keys => exact saved_sightAccounts keys state addresses
  | _ => rfl

theorem saved_runAll {changes : List StateCommand}
    (reversible : ∀ command ∈ changes, command.isReversible = true) (state : JournaledState) :
    (runAll changes state).2.store.saved = state.store.saved := by
  induction changes generalizing state with
  | nil => rfl
  | cons command rest inductionHypothesis =>
      have changed := saved_run (reversible command (List.mem_cons_self ..)) state
      have remaining := fun other member =>
        reversible other (List.mem_cons_of_mem command member)
      exact (inductionHypothesis remaining (command.run state).2).trans changed

theorem runAll_append (first second : List StateCommand) (state : JournaledState) :
    (runAll (first ++ second) state).2 = (runAll second (runAll first state).2).2 := by
  induction first generalizing state with
  | nil => rfl
  | cons command rest inductionHypothesis => exact inductionHypothesis (command.run state).2

/-- Commands that are carried out in order and go back to known snapshots only. Every snapshot taken
on the way is known from there on, also when it, or an older one, has been taken back. -/
inductive Returning : (known : List Snapshot) → List StateCommand → JournaledState → Prop where
  | done {known state} : Returning known [] state
  | change {known command rest state} : command.isReversible = true →
      Returning known rest (command.run state).2 → Returning known (command :: rest) state
  | snapshot {known rest state} : Returning (state.snapshot.1 :: known) rest state.snapshot.2 →
      Returning known (.snapshot :: rest) state
  | rewind {known taken rest state} : taken ∈ known →
      Returning known rest (state.rewound taken).2 → Returning known (.rewind taken :: rest) state

def TakenOf (property : JournaledState → Prop) (known : List Snapshot) : Prop :=
  ∀ taken ∈ known, ∃ middle, property middle ∧ taken = middle.snapshot.1

theorem TakenOf.cons {property : JournaledState → Prop} {known : List Snapshot}
    {state : JournaledState} (earlier : TakenOf property known) (holds : property state) :
    TakenOf property (state.snapshot.1 :: known) := by
  intro taken member
  rcases List.mem_cons.mp member with now | before
  · exact ⟨state, holds, now⟩
  · exact earlier taken before

/-- What every change, every snapshot and every way back among states with a property keep holds
behind a whole run. -/
theorem Returning.keeps (property : JournaledState → Prop)
    (change : ∀ (command : StateCommand) (state : JournaledState),
      command.isReversible = true → property state → property (command.run state).2)
    (snapshot : ∀ state, property state → property state.snapshot.2)
    (back : ∀ state middle, property state → property middle → property (state.backTo middle))
    {known : List Snapshot} {commands : List StateCommand} {state : JournaledState}
    (returning : Returning known commands state) (taken : TakenOf property known)
    (holds : property state) : property (runAll commands state).2 := by
  induction returning with
  | done => exact holds
  | @change known command rest state reversible _ inductionHypothesis =>
      exact inductionHypothesis taken (change command state reversible holds)
  | @snapshot known rest state _ inductionHypothesis =>
      exact inductionHypothesis (taken.cons holds) (snapshot state holds)
  | @rewind known target rest state member _ inductionHypothesis =>
      obtain ⟨middle, behind, rfl⟩ := taken target member
      have reached := inductionHypothesis taken
      rw [rewound_snapshot] at reached
      have same : (run (.rewind middle.snapshot.1) state).2 = state.backTo middle := by
        simp only [run, rewound_snapshot]
      rw [← same] at reached
      apply reached
      rw [same]
      exact back state middle holds behind

/-- A snapshot that is never taken back need not be known. -/
theorem Returning.forget {unused : Snapshot} {known others : List Snapshot}
    {commands : List StateCommand} {state : JournaledState}
    (returning : Returning known commands state) (subset : known ⊆ unused :: others)
    (spared : .rewind unused ∉ commands) : Returning others commands state := by
  induction returning generalizing others with
  | done => exact .done
  | change reversible _ inductionHypothesis =>
      exact .change reversible
        (inductionHypothesis subset fun later => spared (List.mem_cons_of_mem _ later))
  | @snapshot known rest state _ inductionHypothesis =>
      refine .snapshot (inductionHypothesis ?_ fun later => spared (List.mem_cons_of_mem _ later))
      intro taken member
      rcases List.mem_cons.mp member with rfl | before
      · exact List.mem_cons_of_mem _ (List.mem_cons_self ..)
      · rcases List.mem_cons.mp (subset before) with rfl | other
        · exact List.mem_cons_self ..
        · exact List.mem_cons_of_mem _ (List.mem_cons_of_mem _ other)
  | @rewind known taken rest state member _ inductionHypothesis =>
      have other : taken ∈ others := by
        rcases List.mem_cons.mp (subset member) with rfl | other
        · exact absurd (List.mem_cons_self ..) spared
        · exact other
      exact .rewind other
        (inductionHypothesis subset fun later => spared (List.mem_cons_of_mem _ later))

theorem Returning.front {known : List Snapshot} {first second : List StateCommand}
    {state : JournaledState} (returning : Returning known (first ++ second) state) :
    Returning known first state := by
  induction first generalizing known state with
  | nil => exact .done
  | cons command rest inductionHypothesis =>
      cases returning with
      | change reversible later => exact .change reversible (inductionHypothesis later)
      | snapshot later => exact .snapshot (inductionHypothesis later)
      | rewind member later => exact .rewind member (inductionHypothesis later)

end StateCommand

namespace JournaledState

/-- What is left of an origin in every run that never goes back before it. -/
structure Outlasted (origin state : JournaledState) : Prop where
  recorded : Recorded origin state
  committed : state.store.committed = origin.store.committed
  height : origin.store.saved.length ≤ state.store.saved.length

theorem Outlasted.of_extends {origin middle state : JournaledState}
    (outlasted : Outlasted origin middle) (grown : Extends middle state) :
    Outlasted origin state where
  recorded := outlasted.recorded.trans grown.recorded
  committed := grown.store.2.trans outlasted.committed
  height := Nat.le_trans outlasted.height grown.store.1.length_le

theorem Outlasted.backTo {origin middle state : JournaledState}
    (outlasted : Outlasted origin state) (taken : Outlasted origin middle) :
    Outlasted origin (state.backTo middle) where
  recorded := outlasted.recorded.backTo taken.recorded
  committed := by
    simp only [JournaledState.backTo, Store.rewind_eq]
    exact outlasted.committed
  height := by
    simp only [JournaledState.backTo, Store.length_saved_rewind]
    exact Nat.le_min.mpr ⟨outlasted.height, taken.height⟩

variable {origin : JournaledState} {commands : List StateCommand}

theorem outlasted_run
    (returning : StateCommand.Returning [origin.snapshot.1] commands origin.snapshot.2) :
    Outlasted origin (StateCommand.runAll commands origin.snapshot.2).2 := by
  have start : Outlasted origin origin := ⟨(Extends.refl origin).recorded, rfl, Nat.le_refl _⟩
  apply returning.keeps (Outlasted origin)
  · intro command state reversible outlasted
    exact outlasted.of_extends (StateCommand.extends_run reversible state)
  · intro state outlasted
    exact outlasted.of_extends (extends_snapshot state)
  · intro state middle outlasted taken
    exact outlasted.backTo taken
  · intro taken member
    exact ⟨origin, start, List.mem_singleton.mp member⟩
  · exact start.of_extends (extends_snapshot origin)

theorem extends_run_unused
    (returning : StateCommand.Returning [origin.snapshot.1] commands origin.snapshot.2)
    (unused : .rewind origin.snapshot.1 ∉ commands) :
    Extends origin.snapshot.2 (StateCommand.runAll commands origin.snapshot.2).2 := by
  have others := returning.forget (List.Subset.refl _) unused
  apply others.keeps (Extends origin.snapshot.2)
  · intro command state reversible grown
    exact grown.trans (StateCommand.extends_run reversible state)
  · intro state grown
    exact grown.trans (extends_snapshot state)
  · intro state middle grown taken
    exact grown.backTo taken
  · intro taken member
    cases member
  · exact Extends.refl _

/-- Where only changes came since a snapshot was taken back, its place on the stack is empty. -/
theorem savedAt?_run_used {before changes : List StateCommand}
    (returning : StateCommand.Returning [origin.snapshot.1]
      (before ++ .rewind origin.snapshot.1 :: changes) origin.snapshot.2)
    (reversible : ∀ command ∈ changes, command.isReversible = true) :
    (StateCommand.runAll (before ++ .rewind origin.snapshot.1 :: changes)
      origin.snapshot.2).2.store.savedAt? origin.store.saved.length = none := by
  apply Store.savedAt?_of_le
  have outlasted := outlasted_run returning.front
  rw [StateCommand.runAll_append]
  generalize (StateCommand.runAll before origin.snapshot.2).2 = state at outlasted
  have back : (StateCommand.runAll (.rewind origin.snapshot.1 :: changes) state).2 =
      (StateCommand.runAll changes (state.backTo origin)).2 := by
    simp only [StateCommand.runAll, StateCommand.run, rewound_snapshot]
  rw [back, StateCommand.saved_runAll reversible]
  simp only [JournaledState.backTo, Store.length_saved_rewind]
  exact Nat.min_le_right _ _

/-- What a snapshot restores after any run that never goes back before it, however often the
snapshot itself was taken back on the way. The journals are always those of the moment at which it
was taken. So is all the rest if the run has not taken it back before. The accounts are otherwise
those saved by a later snapshot at the same place of the stack, and if nothing but changes came
since the snapshot was last taken back, they stay as they are. -/
theorem rewind_reused (origin : JournaledState) (commands : List StateCommand)
    (returning : StateCommand.Returning [origin.snapshot.1] commands origin.snapshot.2) :
    let state := (StateCommand.runAll commands origin.snapshot.2).2
    ∃ restored, state.rewind origin.snapshot.1 = .ok restored ∧
      (restored.logs = origin.logs ∧ restored.refund = origin.refund ∧
        restored.accessList = origin.accessList ∧
        (∀ slot, restored.transient.get slot = origin.transient.get slot) ∧
        restored.destroyed = origin.destroyed) ∧
      restored.store.accounts =
        (state.store.savedAt? origin.store.mark.1).getD state.store.accounts ∧
      (.rewind origin.snapshot.1 ∉ commands → SameView restored origin) ∧
      ∀ before changes, commands = before ++ .rewind origin.snapshot.1 :: changes →
        (∀ command ∈ changes, command.isReversible = true) →
        restored.store.accounts = state.store.accounts := by
  intro state
  have accounts : (state.backTo origin).store.accounts =
      (state.store.savedAt? origin.store.mark.1).getD state.store.accounts := by
    simp only [JournaledState.backTo, Store.rewind_eq]
    rfl
  refine ⟨state.backTo origin, rewind_snapshot state origin,
    (outlasted_run returning).recorded.restores, accounts, ?_, ?_⟩
  · intro unused
    have grown := extends_run_unused returning unused
    have restored := rewind_of_extends grown
    rw [rewind_snapshot, Except.ok.injEq] at restored
    rw [restored]
    exact restoredTo_sameView grown
  · rintro before changes rfl reversible
    have empty : state.store.savedAt? origin.store.mark.1 = none :=
      savedAt?_run_used returning reversible
    rw [accounts, empty]
    rfl

def giftBehindRewind : List StateCommand :=
  [.rewind ({} : JournaledState).snapshot.1, .store (.addBalance 1 5), .addRefund 2]

/-- Taken back once more, the snapshot finds its refund, but the gift stays. -/
theorem gift_outlasts_rewind :
    StateCommand.Returning [({} : JournaledState).snapshot.1] giftBehindRewind
        ({} : JournaledState).snapshot.2 ∧
      ∃ restored, (StateCommand.runAll giftBehindRewind ({} : JournaledState).snapshot.2).2.rewind
          ({} : JournaledState).snapshot.1 = .ok restored ∧
        restored.refund = {} ∧ (restored.store.accounts.account 1).balance = 5 := by
  have returning : StateCommand.Returning [({} : JournaledState).snapshot.1] giftBehindRewind
      ({} : JournaledState).snapshot.2 :=
    .rewind (List.mem_singleton.mpr rfl) (.change rfl (.change rfl .done))
  obtain ⟨restored, reached, journals, _, _, stays⟩ := rewind_reused {} giftBehindRewind returning
  refine ⟨returning, restored, reached, journals.2.1, ?_⟩
  rw [stays [] _ rfl (by decide)]
  decide +kernel

end JournaledState

end HostedEvm
