import HostedEvm.Proofs.Journal.Growth
import HostedEvm.Proofs.Journal.Warmth
import HostedEvm.State.Reply

set_option autoImplicit false

/-!
Warming, cooling and taking back.

The changes that an access list records are not independent of each other: a deleted address takes
its slots along, and a slot can be put back only at an address that is there again. They are undone
against the very lists that they led to, though, and so a list behaves as a pair of sets of which a
copy is kept at every mark. Going back to a mark brings its copy back, whatever was warmed and
cooled since, and however marks lie within each other.
-/

namespace HostedEvm

structure WarmSets where
  addresses : Set Address
  slots : Set (Address × Word)

namespace AccessList

def warmSets (list : AccessList) : WarmSets := ⟨list.addresses, list.slots⟩

inductive Action
  | addAddress (address : Address)
  | addSlot (address : Address) (slot : Word)
  | deleteAddress (address : Address)
  | deleteSlot (address : Address) (slot : Word)
  | mark
  | rewind (id : Nat)

namespace Action

def isChange : Action → Bool
  | .mark | .rewind _ => false
  | _ => true

def run : Action → AccessList → Reply × AccessList
  | .addAddress address, list =>
    let (added, list) := list.addAddress address
    (.flag added, list)
  | .addSlot address slot, list =>
    let (added, list) := list.addSlot address slot
    (.flags added.1 added.2, list)
  | .deleteAddress address, list => (.nothing, list.deleteAddress address)
  | .deleteSlot address slot, list => (.nothing, list.deleteSlot address slot)
  | .mark, list =>
    let (id, list) := Checkpointed.mark list
    (.count id, list)
  | .rewind id, list => (.nothing, Checkpointed.rewind id list)

def runAll : List Action → AccessList → List Reply × AccessList
  | [], list => ([], list)
  | action :: rest, list =>
    let (reply, list) := run action list
    let (replies, list) := runAll rest list
    (reply :: replies, list)

/-- Actions that go back to live marks only. A mark is live until an older one is gone back to, and
it can be gone back to again and again. -/
inductive Nested : (live : List Nat) → List Action → AccessList → Prop where
  | done {live list} : Nested live [] list
  | change {live action rest list} : action.isChange = true →
      Nested live rest (action.run list).2 → Nested live (action :: rest) list
  | mark {live rest list} :
      Nested ((Checkpointed.mark list).1 :: live) rest (Checkpointed.mark list).2 →
      Nested live (.mark :: rest) list
  | rewind {newer id older rest list} : id ∉ newer →
      Nested (id :: older) rest (Checkpointed.rewind id list) →
      Nested (newer ++ id :: older) (.rewind id :: rest) list

end Action

end AccessList

namespace WarmSets

open AccessList (Action)

/-- The sets behind a change. An address that is cooled takes its slots along. -/
def changed (sets : WarmSets) : Action → WarmSets
  | .addAddress address => { sets with addresses := insert address sets.addresses }
  | .addSlot address slot =>
    ⟨insert address sets.addresses, insert (address, slot) sets.slots⟩
  | .deleteAddress address =>
    ⟨sets.addresses \ {address}, {slot ∈ sets.slots | slot.1 ≠ address}⟩
  | .deleteSlot address slot => { sets with slots := sets.slots \ {(address, slot)} }
  | .mark | .rewind _ => sets

/-- What changes answer. Warming tells which of the parts to be warmed were cold. -/
inductive Answers (sets : WarmSets) : Action → Reply → Prop where
  | addAddress {address added} : (added = true ↔ address ∉ sets.addresses) →
      Answers sets (.addAddress address) (.flag added)
  | addSlot {address slot addressAdded slotAdded} :
      (addressAdded = true ↔ address ∉ sets.addresses) →
      (slotAdded = true ↔ (address, slot) ∉ sets.slots) →
      Answers sets (.addSlot address slot) (.flags addressAdded slotAdded)
  | deleteAddress {address} : Answers sets (.deleteAddress address) .nothing
  | deleteSlot {address slot} : Answers sets (.deleteSlot address slot) .nothing

/-- Sets that go through actions with the given answers. Every mark keeps a copy under its number,
and going back to the newest mark with a number brings its copy back and drops the newer ones. -/
inductive Runs : (copies : List (Nat × WarmSets)) → WarmSets → List Action → List Reply →
    WarmSets → Prop where
  | done {copies now} : Runs copies now [] [] now
  | change {copies now action reply rest replies final} : now.Answers action reply →
      Runs copies (now.changed action) rest replies final →
      Runs copies now (action :: rest) (reply :: replies) final
  | mark {copies now id rest replies final} : Runs ((id, now) :: copies) now rest replies final →
      Runs copies now (.mark :: rest) (.count id :: replies) final
  | rewind {newer older id copy now rest replies final} : id ∉ newer.map Prod.fst →
      Runs ((id, copy) :: older) copy rest replies final →
      Runs (newer ++ (id, copy) :: older) now (.rewind id :: rest) (.nothing :: replies) final

end WarmSets

namespace AccessList

/-- The copies kept at the live marks, newest first, are those of lists of which each one extends
the one before it, and the present list extends the newest. -/
inductive Anchored : List (Nat × WarmSets) → AccessList → Prop where
  | start {list} : Anchored [] list
  | mark {copies origin list} : Anchored copies origin → Extends origin list →
      Anchored ((origin.changes.length, origin.warmSets) :: copies) list

variable {copies newer older : List (Nat × WarmSets)} {copy : WarmSets} {id : Nat}
  {list later : AccessList}

theorem Anchored.mono (anchored : Anchored copies list) (grown : Extends list later) :
    Anchored copies later := by
  cases anchored with
  | start => exact .start
  | mark older start => exact .mark older (start.trans grown)

theorem Anchored.drop (anchored : Anchored (newer ++ older) list) : Anchored older list := by
  induction newer generalizing list with
  | nil => exact anchored
  | cons newest rest inductionHypothesis =>
      cases anchored with
      | mark below start => exact (inductionHypothesis below).mono start

/-- Going back to a live mark finds what its copy tells, and the mark stays live. -/
theorem Anchored.rewind (anchored : Anchored (newer ++ (id, copy) :: older) list) :
    (list.rewind id).warmSets = copy ∧ Anchored ((id, copy) :: older) (list.rewind id) := by
  cases anchored.drop with
  | @mark _ origin _ below start =>
      rw [rewind_of_extends origin start]
      exact ⟨rfl, .mark below (Extends.refl origin)⟩

namespace Action

variable {action : Action}

theorem extends_run (change : action.isChange = true) (list : AccessList) :
    Extends list (action.run list).2 := by
  cases action with
  | addAddress address => exact extends_addAddress list address
  | addSlot address slot => exact extends_addSlot list address slot
  | deleteAddress address => exact extends_deleteAddress list address
  | deleteSlot address slot => exact extends_deleteSlot list address slot
  | mark | rewind => simp [isChange] at change

theorem warmSets_run (change : action.isChange = true) (list : AccessList) :
    (action.run list).2.warmSets = list.warmSets.changed action := by
  cases action with
  | mark | rewind => simp [isChange] at change
  | _ => simp [run, warmSets, WarmSets.changed]

theorem answers_run (change : action.isChange = true) (list : AccessList) :
    list.warmSets.Answers action (action.run list).1 := by
  cases action with
  | addAddress address =>
      apply WarmSets.Answers.addAddress
      exact list.addAddress_fst address
  | addSlot address slot =>
      obtain ⟨addressAdded, slotAdded⟩ := list.addSlot_fst address slot
      exact .addSlot addressAdded slotAdded
  | deleteAddress address => exact .deleteAddress
  | deleteSlot address slot => exact .deleteSlot
  | mark | rewind => simp [isChange] at change

/-- Warming what is warm and cooling what is cold record nothing. -/
theorem run_of_unchanged (change : action.isChange = true) {list : AccessList}
    (same : list.warmSets.changed action = list.warmSets) : (action.run list).2 = list := by
  have addresses := congrArg WarmSets.addresses same
  have slots := congrArg WarmSets.slots same
  cases action with
  | addAddress address =>
      have warm : address ∈ list.addresses := Set.insert_eq_self.mp addresses
      simp [run, addAddress_of_mem warm]
  | addSlot address slot =>
      have warm : address ∈ list.addresses := Set.insert_eq_self.mp addresses
      have slotWarm : (address, slot) ∈ list.slots := Set.insert_eq_self.mp slots
      simp [run, addSlot_of_mem warm slotWarm]
  | deleteAddress address =>
      have cold : address ∉ list.addresses := by
        simpa [warmSets] using sdiff_eq_left.mp addresses
      exact deleteAddress_of_notMem cold
  | deleteSlot address slot =>
      have cold : (address, slot) ∉ list.slots := by
        simpa [warmSets] using sdiff_eq_left.mp slots
      exact deleteSlot_of_notMem cold
  | mark | rewind => simp [isChange] at change

/-- A nested run is a run of the sets with the copies kept at its live marks. -/
theorem Nested.runs {live : List Nat} {actions : List Action} (nested : Nested live actions list)
    (anchored : Anchored copies list) (marks : copies.map Prod.fst = live) :
    WarmSets.Runs copies list.warmSets actions (runAll actions list).1
      (runAll actions list).2.warmSets := by
  induction nested generalizing copies with
  | done => exact .done
  | @change live action rest list change _ inductionHypothesis =>
      have remaining := inductionHypothesis (anchored.mono (extends_run change list)) marks
      rw [warmSets_run change] at remaining
      exact .change (answers_run change list) remaining
  | @mark live rest list _ inductionHypothesis =>
      apply WarmSets.Runs.mark
      apply inductionHypothesis (.mark anchored (Extends.refl list))
      exact congrArg (List.cons list.changes.length) marks
  | @rewind newer id older rest list fresh _ inductionHypothesis =>
      obtain ⟨newerCopies, others, rfl, rfl, split⟩ := List.map_eq_append_iff.mp marks
      obtain ⟨⟨id, copy⟩, olderCopies, rfl, rfl, rfl⟩ := List.map_eq_cons_iff.mp split
      obtain ⟨restored, still⟩ := anchored.rewind
      apply WarmSets.Runs.rewind fresh
      have remaining := inductionHypothesis still rfl
      exact restored ▸ remaining

/-- An access list behaves as a pair of sets of which every mark keeps a copy, in every run that
goes back to live marks only. What is warmed answers which of its parts were cold, going back to a
mark finds the warm addresses and slots of its moment, and a change that changes nothing is not
recorded either. -/
theorem warm_sets_restored (list : AccessList) (actions : List Action)
    (nested : Nested [] actions list) :
    WarmSets.Runs [] list.warmSets actions (runAll actions list).1
        (runAll actions list).2.warmSets ∧
      ∀ before action behind, actions = before ++ action :: behind → action.isChange = true →
        let now := (runAll before list).2
        now.warmSets.changed action = now.warmSets → (action.run now).2 = now := by
  constructor
  · exact nested.runs .start rfl
  · intro before action behind _ change now same
    exact run_of_unchanged change same

def comingAndGoing : List Action :=
  [.addSlot 1 1, .addSlot 1 2, .mark, .deleteAddress 1, .addSlot 1 3, .mark, .deleteAddress 1,
    .deleteSlot 1 3, .rewind 6, .deleteSlot 1 3, .rewind 3, .addAddress 1, .rewind 3]

theorem comingAndGoing_restored :
    Nested [] comingAndGoing {} ∧
      WarmSets.Runs [] ⟨∅, ∅⟩ comingAndGoing (runAll comingAndGoing {}).1
        ⟨{1}, {(1, 1), (1, 2)}⟩ := by
  have nested : Nested [] comingAndGoing {} := by
    refine .change rfl (.change rfl (.mark (.change rfl (.change rfl (.mark ?_)))))
    refine .change rfl (.change rfl (@Nested.rewind [] 6 [3] _ _ (by decide) ?_))
    refine .change rfl (@Nested.rewind [6] 3 [] _ _ (by decide) ?_)
    exact .change rfl (@Nested.rewind [] 3 [] _ _ (by decide) .done)
  have final : (runAll comingAndGoing {}).2 =
      ((({} : AccessList).addSlot 1 1).2.addSlot 1 2).2 := rfl
  have runs := (warm_sets_restored {} comingAndGoing nested).1
  rw [final] at runs
  simpa [warmSets, Set.pair_comm] using And.intro nested runs

end Action

end AccessList

end HostedEvm
