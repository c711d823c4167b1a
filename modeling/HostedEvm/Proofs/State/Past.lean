import HostedEvm.Proofs.State.Boundary

set_option autoImplicit false

/-!
The past of a state.

Only the start of a block adds to what a store knows of earlier blocks, be it on the store itself or
on a view of it. Everything else that can be done to a state leaves the filed accounts and the count
of blocks alone.
-/

namespace HostedEvm

namespace Controller

variable {State : Type} {property : State → Prop} {controller : Controller State}

theorem foldl_rewindOne_keeps
    (parts : ∀ part ∈ controller.parts, ∀ id state, property state →
      property (part.rewind id state))
    (snapshot : Snapshot) {state : State} (holds : property state) :
    property (snapshot.foldl controller.rewindOne state) := by
  induction snapshot generalizing state with
  | nil => exact holds
  | cons entry rest inductionHypothesis =>
      apply inductionHypothesis
      unfold rewindOne
      split
      · rename_i part found
        exact parts part (List.mem_of_find?_eq_some found) entry.2 state holds
      · exact holds

/-- What every component keeps when it goes back, all of them keep together. -/
theorem rewind_keeps
    (parts : ∀ part ∈ controller.parts, ∀ id state, property state →
      property (part.rewind id state))
    {snapshot : Snapshot} {state earlier : State} (holds : property state)
    (taken : controller.rewind snapshot state = .ok earlier) : property earlier := by
  unfold rewind at taken
  split at taken
  · cases taken
  · cases taken
    exact foldl_rewindOne_keeps parts snapshot holds

end Controller

/-- The stores have filed the same accounts of the same number of blocks. -/
structure Store.SamePast (store other : Store) : Prop where
  history : store.history = other.history
  blocks : store.blocks = other.blocks

namespace Store

variable {first second third : Store}

theorem SamePast.refl (store : Store) : store.SamePast store := ⟨rfl, rfl⟩

theorem SamePast.trans (start : first.SamePast second) (rest : second.SamePast third) :
    first.SamePast third :=
  ⟨start.history.trans rest.history, start.blocks.trans rest.blocks⟩

theorem samePast_rewind (id : Nat) (store : Store) : (store.rewind id).SamePast store := by
  unfold rewind
  split
  · split <;> exact ⟨rfl, rfl⟩
  · exact .refl store

theorem samePast_isEmpty (store : Store) (address : Address) :
    (store.isEmpty address).2.SamePast store := by
  unfold isEmpty
  simp only
  split
  · exact ⟨rfl, rfl⟩
  · split <;> exact ⟨rfl, rfl⟩

theorem samePast_delete (store : Store) (addresses : List Address) :
    (store.delete addresses).SamePast store := by
  unfold delete
  induction addresses generalizing store with
  | nil => exact .refl store
  | cons address rest inductionHypothesis =>
      exact (inductionHypothesis (store.deleteOne address)).trans ⟨rfl, rfl⟩

theorem history_of_view? {store view : Store} {number : UInt64}
    (viewed : store.view? number = .ok view) : view.history = store.history := by
  unfold view? at viewed
  split at viewed
  · cases viewed
    rfl
  · split at viewed <;> cases viewed
    rfl

end Store

namespace StoreCommand

mutual

def beginsBlock : StoreCommand → Bool
  | .beginBlock => true
  | .view _ steps => anyBeginsBlock steps
  | _ => false

def anyBeginsBlock : List StoreCommand → Bool
  | [] => false
  | command :: rest => beginsBlock command || anyBeginsBlock rest

end

mutual

theorem samePast_run (command : StoreCommand) (free : command.beginsBlock = false)
    (store : Store) : (command.run store).2.SamePast store := by
  cases command with
  | beginBlock => simp [beginsBlock] at free
  | view number steps =>
      simp only [run]
      split
      · rename_i past viewed
        have kept := samePast_runAll steps (by simpa [beginsBlock] using free) past
        exact ⟨kept.history.trans (Store.history_of_view? viewed), rfl⟩
      · exact .refl store
  | rewind id => exact store.samePast_rewind id
  | isEmpty address => exact store.samePast_isEmpty address
  | delete addresses => exact store.samePast_delete addresses
  | _ => exact ⟨rfl, rfl⟩

theorem samePast_runAll (commands : List StoreCommand) (free : anyBeginsBlock commands = false)
    (store : Store) : (runAll commands store).2.SamePast store := by
  cases commands with
  | nil => exact .refl store
  | cons command rest =>
      simp only [anyBeginsBlock, Bool.or_eq_false_iff] at free
      have first := samePast_run command free.1 store
      exact (samePast_runAll rest free.2 _).trans first

end

end StoreCommand

namespace JournaledState

variable {property : JournaledState → Prop} {state : JournaledState}

theorem rewound_keeps
    (parts : ∀ part ∈ everything.parts, ∀ id state, property state →
      property (part.rewind id state))
    (snapshot : Snapshot) (holds : property state) : property (state.rewound snapshot).2 := by
  unfold rewound
  split
  · rename_i earlier taken
    exact everything.rewind_keeps parts holds taken
  · exact holds

theorem samePast_rewound (state : JournaledState) (snapshot : Snapshot) :
    (state.rewound snapshot).2.store.SamePast state.store := by
  let property (current : JournaledState) : Prop := current.store.SamePast state.store
  refine @rewound_keeps property state ?_ snapshot (.refl _)
  intro part member id current holds
  simp only [everything, List.mem_cons, List.not_mem_nil, or_false] at member
  rcases member with rfl | rfl | rfl | rfl | rfl | rfl
  · exact holds
  · exact holds
  · exact holds
  · exact holds
  · exact (Store.samePast_rewind id _).trans holds
  · exact holds

theorem samePast_sightSlots (address : Address) (keys : List Word) (state : JournaledState) :
    (sightSlots address state keys).2.store.SamePast state.store := by
  induction keys generalizing state with
  | nil => exact .refl _
  | cons key rest inductionHypothesis => exact (inductionHypothesis _).trans ⟨rfl, rfl⟩

theorem samePast_sightAccounts (keys : List Word) (addresses : List Address)
    (state : JournaledState) :
    (sightAccounts keys state addresses).2.store.SamePast state.store := by
  induction addresses generalizing state with
  | nil => exact .refl _
  | cons address rest inductionHypothesis =>
      refine (inductionHypothesis _).trans ?_
      exact (samePast_sightSlots address keys _).trans ⟨rfl, rfl⟩

theorem samePast_selfDestruct (state : JournaledState) (address : Address) :
    (state.selfDestruct address).store.SamePast state.store := by
  simp only [selfDestruct]
  split <;> exact ⟨rfl, rfl⟩

theorem samePast_finalize (state : JournaledState) :
    state.finalize.store.SamePast state.store := by
  have committed : state.finalize.store.SamePast (state.store.delete state.destroyed.order) :=
    ⟨rfl, rfl⟩
  exact committed.trans (state.store.samePast_delete _)

end JournaledState

namespace StateCommand

def beginsBlock : StateCommand → Bool
  | .store command => command.beginsBlock
  | .beginBlock => true
  | _ => false

theorem samePast_run {command : StateCommand} (free : command.beginsBlock = false)
    (state : JournaledState) : (command.run state).2.store.SamePast state.store := by
  cases command with
  | store inner => exact inner.samePast_run free state.store
  | beginBlock => simp [beginsBlock] at free
  | rewind taken => exact state.samePast_rewound taken
  | finalize => exact state.samePast_finalize
  | prepareAccessList rules sender coinbase recipient precompiles items =>
      obtain ⟨accessList, same⟩ :=
        state.warmed_prepareAccessList rules sender coinbase recipient precompiles items
      simp only [run, same]
      exact .refl _
  | subRefund amount =>
      simp only [run]
      split <;> exact .refl _
  | selfDestruct address => exact state.samePast_selfDestruct address
  | observe addresses keys => exact JournaledState.samePast_sightAccounts keys addresses state
  | _ => exact ⟨rfl, rfl⟩

end StateCommand

end HostedEvm
