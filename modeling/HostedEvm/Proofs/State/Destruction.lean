import HostedEvm.Proofs.Journal.Destroyed
import HostedEvm.Proofs.State.Accounts
import HostedEvm.Proofs.State.Boundary
import HostedEvm.Proofs.State.Charges
import HostedEvm.Proofs.State.Nesting
import HostedEvm.Proofs.State.Reuse

set_option autoImplicit false

/-!
Destroyed accounts.

An account that is destroyed loses its funds at once, but it stays until the transaction ends. What
is destroyed behind a snapshot that is taken back is as it was when the snapshot was taken, and it
stays for good. At the end of the transaction exactly the accounts go whose destruction is left in
force, and nothing is left in the journals. That relies on the list and the set of marked accounts,
which stay in step whatever is done to a state.
-/

namespace HostedEvm

namespace StateCommand

def destroys : StateCommand → Bool
  | .selfDestruct _ => true
  | _ => false

/-- The accounts whose destruction a run leaves in force. What is done behind a snapshot that is
taken back later on leaves nothing. -/
inductive Leaves : List StateCommand → JournaledState → List Address → Prop where
  | done {state} : Leaves [] state []
  | selfDestruct {address rest state left} : Leaves rest (state.selfDestruct address) left →
      Leaves (.selfDestruct address :: rest) state (address :: left)
  | other {command rest state left} : command.isReversible = true → command.destroys = false →
      Leaves rest (command.run state).2 left → Leaves (command :: rest) state left
  | kept {rest state left} : Leaves rest state.snapshot.2 left →
      Leaves (.snapshot :: rest) state left
  | takenBack {inner rest state lost left} : Leaves inner state.snapshot.2 lost →
      Leaves rest ((runAll inner state.snapshot.2).2.rewound state.snapshot.1).2 left →
      Leaves (.snapshot :: (inner ++ .rewind state.snapshot.1 :: rest)) state left

/-- Commands from which the snapshots that were there before can still be taken back: they take
none of them back, or they take one back after a run of their own. -/
inductive Parsed (live : List Snapshot) : List StateCommand → JournaledState → Prop where
  | whole {commands state left} : Leaves commands state left → Parsed live commands state
  | back {inner newer taken older rest state lost} : live = newer ++ taken :: older →
      Leaves inner state lost →
      WellNested older rest ((runAll inner state).2.rewound taken).2 →
      Parsed live (inner ++ .rewind taken :: rest) state

section Parsing

variable {commands inner rest : List StateCommand} {command : StateCommand}
  {state : JournaledState} {live : List Snapshot} {lost : List Address}

theorem runAll_takenBack (inner rest : List StateCommand) (state : JournaledState) :
    (runAll (.snapshot :: (inner ++ .rewind state.snapshot.1 :: rest)) state).2 =
      (runAll rest ((runAll inner state.snapshot.2).2.rewound state.snapshot.1).2).2 := by
  have taken : (runAll (.snapshot :: (inner ++ .rewind state.snapshot.1 :: rest)) state).2 =
      (runAll (inner ++ .rewind state.snapshot.1 :: rest) state.snapshot.2).2 := rfl
  rw [taken, runAll_append]
  rfl

theorem exists_destroyed (destroying : command.destroys = true) :
    ∃ address, command = .selfDestruct address := by
  cases command with
  | selfDestruct address => exact ⟨address, rfl⟩
  | _ => cases destroying

theorem Leaves.change (reversible : command.isReversible = true)
    (leaves : Leaves rest (command.run state).2 lost) :
    ∃ left, Leaves (command :: rest) state left := by
  by_cases destroying : command.destroys = true
  · obtain ⟨address, rfl⟩ := exists_destroyed destroying
    exact ⟨address :: lost, .selfDestruct leaves⟩
  · exact ⟨lost, .other reversible (Bool.eq_false_iff.mpr destroying) leaves⟩

theorem Parsed.change (reversible : command.isReversible = true)
    (parsed : Parsed live rest (command.run state).2) : Parsed live (command :: rest) state := by
  cases parsed with
  | whole leaves =>
      obtain ⟨left, leaves⟩ := leaves.change reversible
      exact .whole leaves
  | back split leaves outer =>
      obtain ⟨left, leaves⟩ := leaves.change reversible
      exact .back split leaves outer

theorem Parsed.takenBack (run : Leaves inner state.snapshot.2 lost)
    (parsed : Parsed live rest ((runAll inner state.snapshot.2).2.rewound state.snapshot.1).2) :
    Parsed live (.snapshot :: (inner ++ .rewind state.snapshot.1 :: rest)) state := by
  cases parsed with
  | whole leaves => exact .whole (.takenBack run leaves)
  | @back more newer taken older rest _ _ split leaves outer =>
      rw [← runAll_takenBack] at outer
      have parsed := Parsed.back split (.takenBack run leaves) outer
      simpa using parsed

/-- What a well nested run takes back can be told from what it leaves. -/
theorem WellNested.parsed (nested : WellNested live commands state) :
    Parsed live commands state := by
  -- behind a snapshot that is taken back the rest of the run has to be told apart as well, and so
  -- the induction is on its length
  induction size : commands.length using Nat.strongRecOn generalizing live commands state with
  | ind size inductionHypothesis =>
      cases nested with
      | done => exact .whole .done
      | change reversible nested =>
          apply Parsed.change reversible
          exact inductionHypothesis _ (by simp [← size]) nested rfl
      | rewind outer => exact @Parsed.back _ [] _ _ _ _ _ _ rfl .done outer
      | snapshot nested =>
          cases inductionHypothesis _ (by simp [← size]) nested rfl with
          | whole leaves => exact .whole (.kept leaves)
          | @back inner newer _ _ _ _ _ split leaves outer =>
              rcases newer with _ | ⟨newest, newer⟩
              · obtain ⟨rfl, rfl⟩ := List.cons.inj split
                apply Parsed.takenBack leaves
                exact inductionHypothesis _ (by simp [← size]; omega) outer rfl
              · exact @Parsed.back _ (.snapshot :: inner) newer _ _ _ _ _ (List.cons.inj split).2
                  (.kept leaves) outer

theorem WellNested.exists_leaves (nested : WellNested [] commands state) :
    ∃ left, Leaves commands state left := by
  cases nested.parsed with
  | whole leaves => exact ⟨_, leaves⟩
  | back split => simp at split

end Parsing

/-- Nothing but a destruction marks an account destroyed. -/
theorem destroyed_run {command : StateCommand} (reversible : command.isReversible = true)
    (sparing : command.destroys = false) (state : JournaledState) :
    (command.run state).2.destroyed = state.destroyed := by
  cases command with
  | selfDestruct => cases sparing
  | snapshot | rewind | beginBlock | beginTransaction | finalize => cases reversible
  | prepareAccessList rules sender coinbase recipient precompiles items =>
      obtain ⟨accessList, same⟩ := JournaledState.warmed_prepareAccessList state rules sender
        coinbase recipient precompiles items
      simp only [run, same]
  | subRefund amount =>
      simp only [run]
      split <;> rfl
  | observe addresses keys =>
      simp only [run, JournaledState.sightAccounts_snd]
      exact (state.sameView_charge _).destroyed
  | _ => rfl

/-- Whatever is done to a state, the list and the set of marked accounts stay in step. -/
theorem inStep_run (command : StateCommand) {state : JournaledState}
    (inStep : state.destroyed.InStep) : (command.run state).2.destroyed.InStep := by
  by_cases reversible : command.isReversible = true
  · by_cases destroying : command.destroys = true
    · obtain ⟨address, rfl⟩ := exists_destroyed destroying
      exact inStep.mark address
    · rw [destroyed_run reversible (Bool.eq_false_iff.mpr destroying)]
      exact inStep
  · cases command with
    | rewind taken =>
        let property (state : JournaledState) : Prop := state.destroyed.InStep
        refine @JournaledState.rewound_keeps property state ?_ taken inStep
        intro part member id current holds
        simp only [JournaledState.everything, List.mem_cons, List.not_mem_nil, or_false] at member
        rcases member with rfl | rfl | rfl | rfl | rfl | rfl
        · exact holds
        · exact holds.rewind id
        · exact holds
        · exact holds
        · exact holds
        · exact holds
    | store inner => exact inStep
    | snapshot => exact inStep
    | beginBlock => exact inStep
    | beginTransaction => exact DestroyedAccounts.inStep_empty
    | finalize => exact DestroyedAccounts.inStep_empty
    | _ => simp [isReversible] at reversible

theorem inStep_runAll (commands : List StateCommand) {state : JournaledState}
    (inStep : state.destroyed.InStep) : (runAll commands state).2.destroyed.InStep := by
  induction commands generalizing state with
  | nil => exact inStep
  | cons command rest inductionHypothesis => exact inductionHypothesis (command.inStep_run inStep)

section Left

variable {commands : List StateCommand} {state : JournaledState} {left : List Address}

theorem Leaves.extends (leaves : Leaves commands state left) :
    state.Extends (runAll commands state).2 := by
  induction leaves with
  | done => exact .refl _
  | selfDestruct _ inductionHypothesis =>
      exact (JournaledState.extends_selfDestruct _ _).trans inductionHypothesis
  | other reversible _ _ inductionHypothesis =>
      exact (extends_run reversible _).trans inductionHypothesis
  | kept _ inductionHypothesis =>
      exact (JournaledState.extends_snapshot _).trans inductionHypothesis
  | takenBack _ _ inner rest =>
      rw [runAll_takenBack]
      rw [JournaledState.rewound_of_extends inner] at rest ⊢
      exact (JournaledState.extends_restoredTo inner).trans rest

/-- Behind a run the accounts are marked that were marked before and those that the run leaves. -/
theorem Leaves.mem_destroyed (leaves : Leaves commands state left)
    (inStep : state.destroyed.InStep) (address : Address) :
    address ∈ (runAll commands state).2.destroyed.order ↔
      address ∈ state.destroyed.order ∨ address ∈ left := by
  induction leaves with
  | done => simp [runAll]
  | @selfDestruct marked rest state left _ inductionHypothesis =>
      have behind : address ∈ (runAll rest (state.selfDestruct marked)).2.destroyed.order ↔
          (address = marked ∨ address ∈ state.destroyed.order) ∨ address ∈ left :=
        (inductionHypothesis (inStep.mark marked)).trans (or_congr_left inStep.mem_mark)
      rw [List.mem_cons, or_left_comm, ← or_assoc]
      exact behind
  | @other command rest state left reversible sparing _ inductionHypothesis =>
      have behind := inductionHypothesis (command.inStep_run inStep)
      rw [destroyed_run reversible sparing] at behind
      exact behind
  | kept _ inductionHypothesis => exact inductionHypothesis inStep
  | takenBack inner _ _ rest =>
      rw [runAll_takenBack]
      rw [JournaledState.rewound_of_extends inner.extends] at rest ⊢
      exact rest inStep

end Left

end StateCommand

def Account.withoutFunds (account : Account) : Account := { account with balance := 0 }

namespace JournaledState

/-- An account that is destroyed stays, if it exists, and loses nothing but its funds. -/
theorem get_selfDestruct (state : JournaledState) (address other : Address) :
    (state.selfDestruct address).store.accounts[other]? =
      if address = other then state.store.accounts[other]?.map Account.withoutFunds
      else state.store.accounts[other]? := by
  have unchanged : (state.store.balance address).2.accounts = state.store.accounts := rfl
  have read : (state.store.balance address).1 =
      (state.store.accounts.account address).balance := rfl
  simp only [selfDestruct, read]
  cases found : state.store.accounts[address]? with
  | none =>
      have poor : (state.store.accounts.account address).balance = 0 := by
        simp [Accounts.account, found]
      rw [if_pos poor, unchanged]
      split
      · rename_i same
        simp [← same, found]
      · rfl
  | some account =>
      have own : state.store.accounts.account address = account := by
        simp [Accounts.account, found]
      rw [own]
      split
      · rename_i poor
        rw [unchanged]
        split
        · rename_i same
          simp [← same, found, Account.withoutFunds, ← poor]
        · rfl
      · have burnt : ((state.store.balance address).2.subBalance address account.balance).accounts =
            state.store.accounts.change address fun account' =>
              { account' with balance := account'.balance.minus account.balance } := rfl
        rw [burnt, Accounts.get_change, own, Word.minus_self]
        split
        · rename_i same
          simp [← same, found, Account.withoutFunds]
        · rfl

/-- The end of a transaction deletes the given accounts and leaves the others as they are. What is
left is committed, and the journals are empty. -/
structure Rids (state : JournaledState) (gone : List Address) : Prop where
  accounts : ∀ address, state.finalize.store.accounts[address]? =
    if address ∈ gone then none else state.store.accounts[address]?
  committed : state.finalize.store.committed = state.finalize.store.accounts
  destroyed : state.finalize.destroyed.order = [] ∧
    ∀ address, state.finalize.destroyed.contains address = false
  logs : state.finalize.logs.entries = []
  refund : state.finalize.refund.value = 0
  transient : ∀ slot, state.finalize.transient.get slot = 0

theorem rids_of_marked {state : JournaledState} {gone : List Address}
    (marked : ∀ address, address ∈ state.destroyed.order ↔ address ∈ gone) : Rids state gone where
  accounts address := by
    have deleted : state.finalize.store.accounts =
        (state.store.delete state.destroyed.order).accounts := rfl
    rw [deleted, Store.delete_accounts, Accounts.get_without]
    simp only [marked]
  committed := rfl
  destroyed := ⟨rfl, fun _ => Std.ExtTreeMap.contains_empty⟩
  logs := rfl
  refund := rfl
  transient slot := by
    have empty : state.finalize.transient.values[slot]? = none := by
      simp [finalize_eq]
    simp [TransientStorage.get, empty]

open StateCommand

/-- Between the end of one transaction and that of the next, destroying an account takes nothing but
its funds, and taking the destruction back brings the account back as it was. All the time the list
and the set of marked accounts agree. The end of the transaction deletes exactly the accounts whose
destruction the run leaves in force. -/
theorem destruction_awaits_end (state : JournaledState) (commands : List StateCommand)
    (unmarked : state.destroyed = {}) (nested : WellNested [] commands state) :
    (∃ left, Leaves commands state left) ∧
      (∀ left, Leaves commands state left → Rids (runAll commands state).2 left ∧
        ∀ address, (runAll commands state).2.destroyed.contains address = true ↔ address ∈ left) ∧
      (∀ before behind, commands = before ++ behind →
        (runAll before state).2.destroyed.InStep) ∧
      (∀ before address behind, commands = before ++ .selfDestruct address :: behind →
        ∀ other,
          (runAll (before ++ [.selfDestruct address]) state).2.store.accounts[other]? =
            if address = other then
              (runAll before state).2.store.accounts[other]?.map Account.withoutFunds
            else (runAll before state).2.store.accounts[other]?) ∧
      ∀ before inner behind,
        let moment := (runAll before state).2
        commands = before ++ .snapshot :: (inner ++ .rewind moment.snapshot.1 :: behind) →
        WellNested [] inner moment.snapshot.2 →
        let back := (runAll (before ++ .snapshot :: (inner ++ [.rewind moment.snapshot.1])) state).2
        back.store.accounts = moment.store.accounts ∧ back.destroyed = moment.destroyed := by
  have inStep : state.destroyed.InStep := by
    rw [unmarked]
    exact DestroyedAccounts.inStep_empty
  refine ⟨nested.exists_leaves, ?_, ?_, ?_, ?_⟩
  · intro left leaves
    have marked (address : Address) :
        address ∈ (runAll commands state).2.destroyed.order ↔ address ∈ left := by
      simp [leaves.mem_destroyed inStep, unmarked]
    refine ⟨rids_of_marked marked, fun address => ?_⟩
    exact ((inStep_runAll commands inStep).contains_iff address).trans (marked address)
  · intro before behind _
    exact inStep_runAll before inStep
  · intro before address behind _ other
    rw [runAll_append]
    exact get_selfDestruct _ address other
  · intro before inner behind moment _ nested back
    have grown := nested.extends (.base (Extends.refl _))
    simp only [back, runAll_append, runAll_takenBack, moment, rewound_of_extends grown]
    exact ⟨rfl, rfl⟩

def twoFunded : JournaledState where
  store := (({} : Store).withAccount 1 (.funded 5)).withAccount 2 (.funded 7)

def twoDestructions : List StateCommand :=
  [.selfDestruct 1, .snapshot, .addRefund 3, .selfDestruct 2,
    .rewind
      [("access_list", 0), ("destroyed_accounts", 1), ("logs", 0), ("refund", 0), ("state", 0),
        ("transient_storage", 0)],
    .setTransient 1 7 8]

theorem twoDestructions_await_end :
    twoFunded.destroyed = {} ∧ WellNested [] twoDestructions twoFunded ∧
      Leaves twoDestructions twoFunded [1] ∧ Rids (runAll twoDestructions twoFunded).2 [1] ∧
      (runAll twoDestructions twoFunded).2.destroyed.contains 1 = true ∧
      ((runAll twoDestructions twoFunded).2.finalize.store.accounts.account 2).balance = 7 := by
  have nested : WellNested [] twoDestructions twoFunded := by
    refine .change rfl (.snapshot (.change rfl (.change rfl ?_)))
    exact @WellNested.rewind [] _ [] _ _ (.change rfl .done)
  have leaves : Leaves twoDestructions twoFunded [1] := by
    apply Leaves.selfDestruct
    apply @Leaves.takenBack [.addRefund 3, .selfDestruct 2] _ (twoFunded.selfDestruct 1) [2]
    · exact .other rfl rfl (.selfDestruct .done)
    · exact .other rfl rfl .done
  obtain ⟨rids, marked⟩ :=
    (destruction_awaits_end twoFunded twoDestructions rfl nested).2.1 [1] leaves
  refine ⟨rfl, nested, leaves, rids, by simp [marked], ?_⟩
  decide +kernel

end JournaledState

end HostedEvm
