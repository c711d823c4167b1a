import HostedEvm.Proofs.Precompile.Invariance
import HostedEvm.Proofs.State.Boundary

set_option autoImplicit false

/-!
The transaction that logs are stamped with.

Only the start of a transaction changes the stamp. Everything else that can be done to a state
leaves all its logs stamped with the same place in the block.
-/

namespace HostedEvm

structure LogBuffer.Stamped (index : UInt64) (buffer : LogBuffer) : Prop where
  next : buffer.txIndex = index
  entries : ∀ log ∈ buffer.entries, log.txIndex = index

namespace LogBuffer

variable {index : UInt64} {buffer : LogBuffer}

theorem Stamped.add (stamped : buffer.Stamped index) (log : Log) :
    (buffer.add log).Stamped index := by
  refine ⟨stamped.next, ?_⟩
  intro other listed
  rcases List.mem_append.mp listed with earlier | new
  · exact stamped.entries other earlier
  · rw [List.mem_singleton.mp new]
    exact stamped.next

theorem Stamped.rewind (stamped : buffer.Stamped index) (count : Nat) :
    (buffer.rewind count).Stamped index := by
  refine ⟨stamped.next, ?_⟩
  intro log listed
  exact stamped.entries log (List.mem_of_mem_take listed)

theorem Stamped.clear (stamped : buffer.Stamped index) :
    { buffer with entries := [] : LogBuffer }.Stamped index :=
  ⟨stamped.next, nofun⟩

end LogBuffer

namespace JournaledState

def Stamped (index : UInt64) (state : JournaledState) : Prop := state.logs.Stamped index

variable {index : UInt64} {state : JournaledState}

theorem Stamped.rewound (stamped : state.Stamped index) (snapshot : Snapshot) :
    (state.rewound snapshot).2.Stamped index := by
  refine rewound_keeps ?_ snapshot stamped
  intro part member id current holds
  simp only [everything, List.mem_cons, List.not_mem_nil, or_false] at member
  rcases member with rfl | rfl | rfl | rfl | rfl | rfl
  · exact holds
  · exact holds
  · exact LogBuffer.Stamped.rewind holds id
  · exact holds
  · exact holds
  · exact holds

theorem stamped_lasting (index : UInt64) : Lasting (Stamped index) where
  withStore _ _ _ stamped := stamped
  addLog _ log stamped := LogBuffer.Stamped.add stamped log
  rewound _ snapshot stamped := stamped.rewound snapshot

theorem Stamped.sightSlots (address : Address) (keys : List Word) (stamped : state.Stamped index) :
    (JournaledState.sightSlots address state keys).2.Stamped index := by
  induction keys generalizing state with
  | nil => exact stamped
  | cons key rest inductionHypothesis => exact inductionHypothesis stamped

theorem Stamped.sightAccounts (keys : List Word) (addresses : List Address)
    (stamped : state.Stamped index) :
    (JournaledState.sightAccounts keys state addresses).2.Stamped index := by
  induction addresses generalizing state with
  | nil => exact stamped
  | cons address rest inductionHypothesis =>
      apply inductionHypothesis
      exact Stamped.sightSlots address keys stamped

end JournaledState

namespace StateCommand

def startsTransaction : StateCommand → Bool
  | .beginTransaction .. => true
  | _ => false

open JournaledState

theorem stamped_run {index : UInt64} {command : StateCommand}
    (within : command.startsTransaction = false) {state : JournaledState}
    (stamped : state.Stamped index) : (command.run state).2.Stamped index := by
  cases command with
  | beginTransaction txHash txIndex => cases within
  | rewind taken => exact stamped.rewound taken
  | finalize => exact LogBuffer.Stamped.clear stamped
  | addLog log => exact LogBuffer.Stamped.add stamped log
  | prepareAccessList rules sender coinbase recipient precompiles items =>
      obtain ⟨accessList, same⟩ :=
        warmed_prepareAccessList state rules sender coinbase recipient precompiles items
      simp only [run, same]
      exact stamped
  | subRefund amount =>
      simp only [run]
      split
      · exact stamped
      · exact stamped
  | observe addresses keys => exact stamped.sightAccounts keys addresses
  | _ => exact stamped

end StateCommand

end HostedEvm
