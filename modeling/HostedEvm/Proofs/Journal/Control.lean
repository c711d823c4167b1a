import HostedEvm.Journal.Logs
import HostedEvm.Journal.Refund
import Mathlib.Data.List.Sort
import Mathlib.Data.String.Basic

set_option autoImplicit false

/-!
Several components under one controller.

Components stand side by side in a state, and a controller drives those that it took. Where two
components have one key, the first of them is taken and the other one is refused. Nothing else
depends on the order of registration: a controller keeps its components in the order of their keys,
and what becomes of a component depends on the component alone.
-/

namespace HostedEvm

namespace Controller

variable {State : Type} {controller : Controller State} {part : Part State} {key : String}

/-- Take the state back to a snapshot, and leave it as it is if the snapshot cannot be taken
back. -/
def rewound (controller : Controller State) (snapshot : Snapshot) (state : State) :
    Except Fault Unit × State :=
  match controller.rewind snapshot state with
  | .ok earlier => (.ok (), earlier)
  | .error fault => (.error fault, state)

theorem contains_iff : controller.contains key = true ↔ key ∈ controller.parts.map Part.key := by
  simp [contains, part?]

theorem register_of_mem (present : part.key ∈ controller.parts.map Part.key) :
    controller.register part = .error (.duplicateComponent part.key) := by
  rw [register, if_pos (contains_iff.mpr present)]

theorem register_of_notMem (absent : part.key ∉ controller.parts.map Part.key) :
    controller.register part = .ok ⟨place part controller.parts⟩ := by
  rw [register, if_neg (absent ∘ contains_iff.mp)]

theorem markEach_cons (part : Part State) (rest : List (Part State)) (state : State) :
    markEach (part :: rest) state =
      ((part.key, (part.mark state).1) :: (markEach rest (part.mark state).2).1,
        (markEach rest (part.mark state).2).2) :=
  rfl

theorem rewound_of_known {snapshot : Snapshot}
    (known : ∀ key ∈ snapshot.map Prod.fst, controller.contains key = true) (state : State) :
    controller.rewound snapshot state = (.ok (), snapshot.foldl controller.rewindOne state) := by
  have none : snapshot.find? (fun entry => !controller.contains entry.1) = none := by
    rw [List.find?_eq_none]
    intro entry member
    simp [known entry.1 (List.mem_map_of_mem member)]
  rw [rewound, rewind, none]

theorem rewound_of_unknown {snapshot : Snapshot}
    (unknown : ∃ key ∈ snapshot.map Prod.fst, ¬ controller.contains key = true) (state : State) :
    ∃ key ∈ snapshot.map Prod.fst, ¬ controller.contains key = true ∧
      controller.rewound snapshot state = (.error (.unknownComponent key), state) := by
  cases found : snapshot.find? fun entry => !controller.contains entry.1 with
  | none =>
      obtain ⟨_, listed, foreign⟩ := unknown
      obtain ⟨entry, member, rfl⟩ := List.mem_map.mp listed
      exact absurd (by simpa using List.find?_eq_none.mp found entry member) foreign
  | some entry =>
      refine ⟨entry.1, List.mem_map_of_mem (List.mem_of_find?_eq_some found), ?_, ?_⟩
      · simpa using List.find?_some found
      · rw [rewound, rewind, found]

end Controller

/-- Components side by side in a state. Each of them is read and replaced on its own. -/
structure Components (State : Type) {Name : Type} (Own : Name → Type) where
  get (name : Name) : State → Own name
  put (name : Name) : Own name → State → State
  get_put : ∀ (name : Name) (own : Own name) (state : State), get name (put name own state) = own
  get_put_other : ∀ {name other : Name}, other ≠ name → ∀ (own : Own name) (state : State),
    get other (put name own state) = get other state

namespace Components

/-- Any components, with the state that holds nothing but them. -/
def ofFamily {Name : Type} [DecidableEq Name] (Own : Name → Type) :
    Components (∀ name, Own name) Own where
  get name state := state name
  put name own state := Function.update state name own
  get_put name own state := Function.update_self name own state
  get_put_other different own state := Function.update_of_ne different own state

variable {State Name : Type} {Own : Name → Type} [∀ name, Checkpointed (Own name)]
  (components : Components State Own)

def part (name : Name) : Part State := .focus (components.get name) (components.put name)

def key (name : Name) : String := (components.part name).key

/-- Register components in turn and go on behind a refusal. The components that were taken come
with the controller. -/
def enlist : List Name → Controller State → List Name × Controller State
  | [], controller => ([], controller)
  | name :: rest, controller =>
    match controller.register (components.part name) with
    | .error _ => enlist rest controller
    | .ok larger =>
      let (taken, final) := enlist rest larger
      (name :: taken, final)

/-- The components of a list that have no earlier one with their key in it. -/
structure Firsts (order taken : List Name) : Prop where
  sublist : taken.Sublist order
  distinct : (taken.map components.key).Nodup
  first : ∀ name, name ∈ taken ↔
    order.find? (fun other => components.key other = components.key name) = some name

/-- What a controller does that took the given components and no others. -/
structure Controls (controller : Controller State) (taken : List Name) : Prop where
  contains : ∀ key, controller.contains key = true ↔ key ∈ taken.map components.key
  refuses : ∀ name, components.key name ∈ taken.map components.key →
    controller.register (components.part name) =
      .error (.duplicateComponent (components.key name))
  /-- A snapshot holds one mark for every component, in the order of the keys. -/
  marks : ∀ state, (controller.snapshot state).1.Perm
    (taken.map fun name => (components.key name, (Checkpointed.mark (components.get name state)).1))
  ascending : ∀ state, ((controller.snapshot state).1.map Prod.fst).Pairwise (· < ·)
  marked : ∀ state, ∀ name ∈ taken, components.get name (controller.snapshot state).2 =
    (Checkpointed.mark (components.get name state)).2
  unmarked : ∀ state, ∀ name ∉ taken,
    components.get name (controller.snapshot state).2 = components.get name state
  committed : ∀ state, ∀ name ∈ taken, components.get name (controller.commit state) =
    Checkpointed.commit (components.get name state)
  uncommitted : ∀ state, ∀ name ∉ taken,
    components.get name (controller.commit state) = components.get name state
  /-- A snapshot whose keys are all known is taken back, by whatever controller it was taken. -/
  rewinds : ∀ snapshot : Snapshot, (snapshot.map Prod.fst).Nodup →
    (∀ key ∈ snapshot.map Prod.fst, key ∈ taken.map components.key) → ∀ state,
      ∃ earlier, controller.rewound snapshot state = (.ok (), earlier) ∧
        (∀ name ∈ taken, ∀ id, (components.key name, id) ∈ snapshot →
          components.get name earlier = Checkpointed.rewind id (components.get name state)) ∧
        ∀ name, name ∉ taken ∨ components.key name ∉ snapshot.map Prod.fst →
          components.get name earlier = components.get name state
  /-- A snapshot with an unknown key is refused. -/
  refusesUnknown : ∀ snapshot : Snapshot,
    (∃ key ∈ snapshot.map Prod.fst, key ∉ taken.map components.key) → ∀ state,
      ∃ key ∈ snapshot.map Prod.fst, key ∉ taken.map components.key ∧
        controller.rewound snapshot state = (.error (.unknownComponent key), state)

structure Has (controller : Controller State) (ordered : List Name) : Prop where
  parts : controller.parts = ordered.map components.part
  ascending : ordered.Pairwise fun first second => components.key first < components.key second

variable {components} {controller larger : Controller State}
  {ordered placed order taken : List Name} {name : Name}

/-- Of the components with one key, some one is the first. -/
theorem Firsts.mem_keys (firsts : components.Firsts order taken) {key : String} :
    key ∈ taken.map components.key ↔ key ∈ order.map components.key := by
  constructor
  · intro listed
    exact (firsts.sublist.map components.key).subset listed
  · intro listed
    obtain ⟨name, member, rfl⟩ := List.mem_map.mp listed
    cases found : order.find? fun other => components.key other = components.key name with
    | none => exact absurd (decide_eq_true rfl) (List.find?_eq_none.mp found name member)
    | some first =>
        have same : components.key first = components.key name := by
          simpa using List.find?_some found
        rw [← same] at found ⊢
        exact List.mem_map_of_mem ((firsts.first first).mpr found)

theorem place_map (name : Name) (ordered : List Name) :
    Controller.place (components.part name) (ordered.map components.part) =
      (ordered.orderedInsert (fun first second => components.key first < components.key second)
        name).map components.part := by
  induction ordered with
  | nil => rfl
  | cons first rest inductionHypothesis =>
      rw [List.map_cons, Controller.place, inductionHypothesis, List.orderedInsert,
        apply_ite (List.map components.part)]
      rfl

variable (components) in
theorem has_empty : components.Has {} [] := ⟨rfl, .nil⟩

namespace Has

theorem keys (has : components.Has controller ordered) :
    controller.parts.map Part.key = ordered.map components.key := by
  rw [has.parts, List.map_map]
  rfl

theorem distinct (has : components.Has controller ordered) :
    (ordered.map components.key).Nodup := by
  rw [List.Nodup, List.pairwise_map]
  exact has.ascending.imp ne_of_lt

theorem eq_of_key (has : components.Has controller ordered) {first second : Name}
    (member : first ∈ ordered) (other : second ∈ ordered)
    (same : components.key first = components.key second) : first = second :=
  List.inj_on_of_nodup_map has.distinct member other same

/-- A controller is told by its components. -/
theorem unique {other : Controller State} (has : components.Has controller ordered)
    (hasToo : components.Has other placed) (same : ordered.Perm placed) : controller = other := by
  have equal : ordered = placed := by
    refine same.eq_of_pairwise ?_ has.ascending hasToo.ascending
    intro first second _ _ before behind
    exact absurd behind (lt_asymm before)
  have parts : controller.parts = other.parts := by rw [has.parts, hasToo.parts, equal]
  cases controller
  cases other
  exact congrArg Controller.mk parts

theorem register_of_mem (has : components.Has controller ordered)
    (present : components.key name ∈ ordered.map components.key) :
    controller.register (components.part name) =
      .error (.duplicateComponent (components.key name)) :=
  Controller.register_of_mem (has.keys ▸ present)

/-- A component with a free key goes to the place of its key. -/
theorem ascending_orderedInsert (has : components.Has controller ordered)
    (absent : components.key name ∉ ordered.map components.key) :
    (ordered.orderedInsert (fun first second => components.key first < components.key second)
      name).Pairwise fun first second => components.key first < components.key second := by
  have ascending := has.ascending
  clear has
  induction ordered with
  | nil => exact List.pairwise_singleton ..
  | cons first rest inductionHypothesis =>
      obtain ⟨aheadOf, ascendingRest⟩ := List.pairwise_cons.mp ascending
      rw [List.map_cons, List.mem_cons, not_or] at absent
      rw [List.orderedInsert]
      split
      · rename_i before
        refine List.pairwise_cons.mpr ⟨?_, ascending⟩
        intro other member
        rcases List.mem_cons.mp member with rfl | behind
        · exact before
        · exact before.trans (aheadOf other behind)
      · rename_i notBefore
        have behind := lt_of_le_of_ne (not_lt.mp notBefore) (Ne.symm absent.1)
        refine List.pairwise_cons.mpr ⟨?_, inductionHypothesis absent.2 ascendingRest⟩
        intro other member
        rcases (List.mem_orderedInsert _).mp member with rfl | inRest
        · exact behind
        · exact aheadOf other inRest

theorem register_of_notMem (has : components.Has controller ordered)
    (absent : components.key name ∉ ordered.map components.key) :
    ∃ larger placed, controller.register (components.part name) = .ok larger ∧
      components.Has larger placed ∧ placed.Perm (name :: ordered) := by
  have inserted : Controller.place (components.part name) controller.parts =
      (ordered.orderedInsert (fun first second => components.key first < components.key second)
        name).map components.part := by
    rw [has.parts, place_map]
  refine ⟨_, _, Controller.register_of_notMem (has.keys ▸ absent), ⟨inserted, ?_⟩,
    List.perm_orderedInsert _ _ _⟩
  exact has.ascending_orderedInsert absent

end Has

section Registration

theorem enlist_of_mem {rest : List Name} (has : components.Has controller ordered)
    (present : components.key name ∈ ordered.map components.key) :
    components.enlist (name :: rest) controller = components.enlist rest controller := by
  rw [enlist, has.register_of_mem present]

theorem enlist_of_ok {rest : List Name}
    (registered : controller.register (components.part name) = .ok larger) :
    components.enlist (name :: rest) controller =
      (name :: (components.enlist rest larger).1, (components.enlist rest larger).2) := by
  rw [enlist, registered]

/-- What the controller has behind a list of registrations is what it had and what was taken. -/
theorem Has.enlist (has : components.Has controller ordered) (order : List Name) :
    ∃ placed, components.Has (components.enlist order controller).2 placed ∧
      placed.Perm ((components.enlist order controller).1 ++ ordered) := by
  induction order generalizing controller ordered with
  | nil => exact ⟨ordered, has, .rfl⟩
  | cons name rest inductionHypothesis =>
      by_cases present : components.key name ∈ ordered.map components.key
      · rw [enlist_of_mem has present]
        exact inductionHypothesis has
      · obtain ⟨larger, placed, registered, hasMore, grown⟩ := has.register_of_notMem present
        obtain ⟨final, hasAll, grownMore⟩ := inductionHypothesis hasMore
        rw [enlist_of_ok registered]
        exact ⟨final, hasAll, grownMore.trans ((grown.append_left _).trans List.perm_middle)⟩

theorem enlist_sublist (order : List Name) (controller : Controller State) :
    (components.enlist order controller).1.Sublist order := by
  induction order generalizing controller with
  | nil => exact .slnil
  | cons name rest inductionHypothesis =>
      rw [Components.enlist]
      split
      · exact (inductionHypothesis controller).cons name
      · rename_i larger _
        exact (inductionHypothesis larger).cons_cons name

theorem Has.mem_enlist (has : components.Has controller ordered) (order : List Name) (name : Name) :
    name ∈ (components.enlist order controller).1 ↔
      components.key name ∉ ordered.map components.key ∧
        order.find? (fun other => components.key other = components.key name) = some name := by
  induction order generalizing controller ordered with
  | nil => simp [Components.enlist]
  | cons first rest inductionHypothesis =>
      by_cases same : components.key first = components.key name
      · by_cases present : components.key first ∈ ordered.map components.key
        · rw [enlist_of_mem has present, inductionHypothesis has]
          simp [same ▸ present]
        · obtain ⟨larger, placed, registered, hasMore, grown⟩ := has.register_of_notMem present
          have known : components.key name ∈ placed.map components.key := by
            rw [(grown.map components.key).mem_iff, List.map_cons, same]
            exact List.mem_cons_self
          rw [enlist_of_ok registered, List.mem_cons, inductionHypothesis hasMore,
            List.find?_cons_of_pos (by simpa using same), Option.some.injEq]
          constructor
          · rintro (rfl | ⟨unknown, -⟩)
            · exact ⟨present, rfl⟩
            · exact absurd known unknown
          · rintro ⟨-, rfl⟩
            exact .inl rfl
      · rw [List.find?_cons_of_neg (by simpa using same)]
        by_cases present : components.key first ∈ ordered.map components.key
        · rw [enlist_of_mem has present, inductionHypothesis has]
        · obtain ⟨larger, placed, registered, hasMore, grown⟩ := has.register_of_notMem present
          have known : components.key name ∈ placed.map components.key ↔
              components.key name ∈ ordered.map components.key := by
            rw [(grown.map components.key).mem_iff, List.map_cons, List.mem_cons]
            exact or_iff_right (Ne.symm same)
          have other : name ≠ first := fun equal => same (congrArg components.key equal.symm)
          rw [enlist_of_ok registered, List.mem_cons, inductionHypothesis hasMore, known]
          exact or_iff_right other

/-- Components with keys of their own are all taken. -/
theorem Has.registerAll (has : components.Has controller ordered)
    (distinct : ((order ++ ordered).map components.key).Nodup) :
    (components.enlist order controller).1 = order ∧
      (order.map components.part).foldlM Controller.register controller =
        .ok (components.enlist order controller).2 := by
  induction order generalizing controller ordered with
  | nil => exact ⟨rfl, rfl⟩
  | cons name rest inductionHypothesis =>
      obtain ⟨fresh, distinctRest⟩ := List.nodup_cons.mp distinct
      have absent : components.key name ∉ ordered.map components.key := by
        intro present
        exact fresh (List.map_append ▸ List.mem_append_right _ present)
      obtain ⟨larger, placed, registered, hasMore, grown⟩ := has.register_of_notMem absent
      have still : ((rest ++ placed).map components.key).Nodup := by
        have moved : (rest ++ placed).Perm (name :: rest ++ ordered) :=
          (grown.append_left rest).trans List.perm_middle
        exact (moved.map components.key).nodup_iff.mpr distinct
      obtain ⟨taken, walked⟩ := inductionHypothesis hasMore still
      rw [enlist_of_ok registered, taken, List.map_cons, List.foldlM_cons, registered]
      exact ⟨rfl, walked⟩

end Registration

section Effects

variable {act : ∀ name, Own name → Own name} {names : List Name} {state : State}

variable (components act) in
/-- Let components act in turn, each on its own part of the state. -/
def sweep (names : List Name) (state : State) : State :=
  names.foldl (fun state name => components.put name (act name (components.get name state)) state)
    state

omit [∀ name, Checkpointed (Own name)] in
theorem get_sweep_of_notMem (absent : name ∉ names) :
    components.get name (components.sweep act names state) = components.get name state := by
  induction names generalizing state with
  | nil => rfl
  | cons first rest inductionHypothesis =>
      obtain ⟨different, absentRest⟩ := not_or.mp (absent ∘ List.mem_cons.mpr)
      exact (inductionHypothesis absentRest).trans (components.get_put_other different _ _)

omit [∀ name, Checkpointed (Own name)] in
theorem get_sweep_of_mem (distinct : names.Nodup) (member : name ∈ names) :
    components.get name (components.sweep act names state) =
      act name (components.get name state) := by
  induction names generalizing state with
  | nil => cases member
  | cons first rest inductionHypothesis =>
      obtain ⟨fresh, distinctRest⟩ := List.nodup_cons.mp distinct
      rcases List.mem_cons.mp member with rfl | inRest
      · exact (get_sweep_of_notMem fresh).trans (components.get_put _ _ _)
      · have different : name ≠ first := ne_of_mem_of_not_mem inRest fresh
        refine (inductionHypothesis distinctRest inRest).trans ?_
        rw [components.get_put_other different]

namespace Has

theorem nodup (has : components.Has controller ordered) : ordered.Nodup :=
  has.distinct.of_map

theorem commit_eq (has : components.Has controller ordered) (state : State) :
    controller.commit state =
      components.sweep (fun _ own => Checkpointed.commit own) ordered state := by
  rw [Controller.commit, has.parts, List.foldl_map]
  rfl

theorem markEach_eq (distinct : ordered.Nodup) (state : State) :
    Controller.markEach (ordered.map components.part) state =
      (ordered.map fun name =>
          (components.key name, (Checkpointed.mark (components.get name state)).1),
        components.sweep (fun _ own => (Checkpointed.mark own).2) ordered state) := by
  induction ordered generalizing state with
  | nil => rfl
  | cons first rest inductionHypothesis =>
      obtain ⟨fresh, distinctRest⟩ := List.nodup_cons.mp distinct
      let marked := components.put first (Checkpointed.mark (components.get first state)).2 state
      have others : ∀ name ∈ rest, components.get name marked = components.get name state :=
        fun name member => components.get_put_other (ne_of_mem_of_not_mem member fresh) _ _
      have marks : ((components.part first).mark state).2 = marked := rfl
      have same : (rest.map fun name =>
            (components.key name, (Checkpointed.mark (components.get name marked)).1)) =
          rest.map fun name =>
            (components.key name, (Checkpointed.mark (components.get name state)).1) :=
        List.map_congr_left fun name member => by rw [others name member]
      rw [List.map_cons, Controller.markEach_cons, marks, inductionHypothesis distinctRest marked,
        same]
      rfl

theorem snapshot_fst (has : components.Has controller ordered) (state : State) :
    (controller.snapshot state).1 = ordered.map fun name =>
      (components.key name, (Checkpointed.mark (components.get name state)).1) := by
  rw [Controller.snapshot, has.parts, markEach_eq has.nodup]

theorem snapshot_snd (has : components.Has controller ordered) (state : State) :
    (controller.snapshot state).2 =
      components.sweep (fun _ own => (Checkpointed.mark own).2) ordered state := by
  rw [Controller.snapshot, has.parts, markEach_eq has.nodup]

theorem part?_eq_some (has : components.Has controller ordered) (member : name ∈ ordered) :
    controller.part? (components.key name) = some (components.part name) := by
  have present : controller.contains (components.key name) = true :=
    Controller.contains_iff.mpr (has.keys ▸ List.mem_map_of_mem member)
  obtain ⟨found, isFound⟩ := Option.isSome_iff_exists.mp present
  have listed := List.mem_of_find?_eq_some isFound
  rw [has.parts] at listed
  obtain ⟨other, otherMember, rfl⟩ := List.mem_map.mp listed
  have sameKey : (components.part other).key = components.key name := by
    simpa using List.find?_some isFound
  rw [isFound, has.eq_of_key otherMember member sameKey]

theorem rewindOne_of_mem (has : components.Has controller ordered) (member : name ∈ ordered)
    (id : Nat) (state : State) :
    controller.rewindOne state (components.key name, id) =
      components.put name (Checkpointed.rewind id (components.get name state)) state := by
  rw [Controller.rewindOne, has.part?_eq_some member]
  rfl

variable {snapshot : Snapshot}

theorem get_rewindAll_of_absent (has : components.Has controller ordered)
    (known : ∀ key ∈ snapshot.map Prod.fst, key ∈ ordered.map components.key)
    (absent : name ∉ ordered ∨ components.key name ∉ snapshot.map Prod.fst) :
    components.get name (snapshot.foldl controller.rewindOne state) =
      components.get name state := by
  induction snapshot generalizing state with
  | nil => rfl
  | cons entry rest inductionHypothesis =>
      obtain ⟨key, id⟩ := entry
      obtain ⟨knownHere, knownBehind⟩ := List.forall_mem_cons.mp known
      obtain ⟨other, member, rfl⟩ := List.mem_map.mp knownHere
      have different : name ≠ other := by
        rintro rfl
        rcases absent with missing | unnamed
        · exact missing member
        · exact unnamed List.mem_cons_self
      have absentBehind : name ∉ ordered ∨ components.key name ∉ rest.map Prod.fst :=
        absent.imp_right fun unnamed inRest => unnamed (List.mem_cons_of_mem _ inRest)
      rw [List.foldl_cons, inductionHypothesis knownBehind absentBehind,
        has.rewindOne_of_mem member, components.get_put_other different]

theorem get_rewindAll_of_mem (has : components.Has controller ordered)
    (distinct : (snapshot.map Prod.fst).Nodup)
    (known : ∀ key ∈ snapshot.map Prod.fst, key ∈ ordered.map components.key)
    (member : name ∈ ordered) {id : Nat} (named : (components.key name, id) ∈ snapshot) :
    components.get name (snapshot.foldl controller.rewindOne state) =
      Checkpointed.rewind id (components.get name state) := by
  induction snapshot generalizing state with
  | nil => cases named
  | cons entry rest inductionHypothesis =>
      obtain ⟨fresh, distinctRest⟩ := List.nodup_cons.mp distinct
      obtain ⟨knownHere, knownBehind⟩ := List.forall_mem_cons.mp known
      rw [List.foldl_cons]
      rcases List.mem_cons.mp named with rfl | inRest
      · rw [has.get_rewindAll_of_absent knownBehind (.inr fresh), has.rewindOne_of_mem member,
          components.get_put]
      · obtain ⟨key, place⟩ := entry
        obtain ⟨other, otherMember, rfl⟩ := List.mem_map.mp knownHere
        have different : name ≠ other := by
          rintro rfl
          exact fresh (List.mem_map.mpr ⟨_, inRest, rfl⟩)
        rw [inductionHypothesis distinctRest knownBehind inRest, has.rewindOne_of_mem otherMember,
          components.get_put_other different]

theorem contains_iff (has : components.Has controller ordered) (key : String) :
    controller.contains key = true ↔ key ∈ ordered.map components.key := by
  rw [Controller.contains_iff, has.keys]

theorem controls (has : components.Has controller ordered) (same : ordered.Perm taken) :
    components.Controls controller taken := by
  have keys (key : String) : key ∈ taken.map components.key ↔ key ∈ ordered.map components.key :=
    (same.map components.key).mem_iff.symm
  constructor
  case contains =>
    intro key
    rw [has.contains_iff, keys]
  case refuses =>
    intro name present
    exact has.register_of_mem ((keys _).mp present)
  case marks =>
    intro state
    rw [has.snapshot_fst]
    exact same.map _
  case ascending =>
    intro state
    rw [has.snapshot_fst, List.map_map, List.pairwise_map]
    exact has.ascending
  case marked =>
    intro state name member
    rw [has.snapshot_snd]
    exact get_sweep_of_mem has.nodup (same.mem_iff.mpr member)
  case unmarked =>
    intro state name absent
    rw [has.snapshot_snd]
    exact get_sweep_of_notMem (absent ∘ same.mem_iff.mp)
  case committed =>
    intro state name member
    rw [has.commit_eq]
    exact get_sweep_of_mem has.nodup (same.mem_iff.mpr member)
  case uncommitted =>
    intro state name absent
    rw [has.commit_eq]
    exact get_sweep_of_notMem (absent ∘ same.mem_iff.mp)
  case rewinds =>
    intro snapshot distinct known state
    simp only [keys] at known
    have contained : ∀ key ∈ snapshot.map Prod.fst, controller.contains key = true :=
      fun key listed => (has.contains_iff key).mpr (known key listed)
    refine ⟨_, Controller.rewound_of_known contained state, ?_, ?_⟩
    · intro name member id named
      exact has.get_rewindAll_of_mem distinct known (same.mem_iff.mpr member) named
    · intro name absent
      rw [← same.mem_iff] at absent
      exact has.get_rewindAll_of_absent known absent
  case refusesUnknown =>
    intro snapshot unknown state
    simp only [keys, ← has.contains_iff] at unknown ⊢
    exact Controller.rewound_of_unknown unknown state

end Has

end Effects

/-- A controller is told by the components that it took, and these are the first ones with their
keys: some component for every key that occurs, and among components with keys of their own all of
them, in whatever order they are registered.
It marks and commits each of its components once and no other one. It takes back a snapshot, be it
of its own or of another controller, if it knows all the keys in it: each component that is named
there goes back to its own mark once and nothing else changes. Otherwise nothing changes at all. -/
theorem controlled_in_any_order (components : Components State Own) (order : List Name) :
    ∃ taken controller, components.enlist order {} = (taken, controller) ∧
      components.Firsts order taken ∧ components.Controls controller taken ∧
      (∀ key, controller.contains key = true ↔ key ∈ order.map components.key) ∧
      ((order.map components.key).Nodup → taken = order ∧
        ∀ other : List Name, other.Perm order →
          Controller.registerAll (other.map components.part) = .ok controller) ∧
      ∀ other : List Name, (components.enlist other {}).1.Perm taken →
        (components.enlist other {}).2 = controller := by
  obtain ⟨placed, has, same⟩ := (has_empty components).enlist order
  rw [List.append_nil] at same
  have agreeing : ∀ other : List Name,
      (components.enlist other {}).1.Perm (components.enlist order {}).1 →
        (components.enlist other {}).2 = (components.enlist order {}).2 := by
    intro other alike
    obtain ⟨placedToo, hasToo, sameToo⟩ := (has_empty components).enlist other
    rw [List.append_nil] at sameToo
    exact hasToo.unique has (sameToo.trans (alike.trans same.symm))
  have firsts : components.Firsts order (components.enlist order {}).1 := by
    refine ⟨enlist_sublist order {}, (same.map components.key).nodup_iff.mp has.distinct, ?_⟩
    intro name
    simpa using (has_empty components).mem_enlist order name
  refine ⟨_, _, rfl, firsts, has.controls same, ?_, ?_, agreeing⟩
  · intro key
    rw [(has.controls same).contains, firsts.mem_keys]
  · intro distinct
    have all : ∀ other : List Name, other.Perm order →
        (components.enlist other {}).1 = other ∧
          Controller.registerAll (other.map components.part) =
            .ok (components.enlist other {}).2 := by
      intro other reordered
      apply (has_empty components).registerAll
      rw [List.append_nil]
      exact (reordered.map components.key).nodup_iff.mpr distinct
    refine ⟨(all order .rfl).1, ?_⟩
    intro other reordered
    obtain ⟨taken, registered⟩ := all other reordered
    rw [registered, agreeing other]
    rw [taken, (all order .rfl).1]
    exact reordered

end Components

inductive Trio where
  | refund
  | spare
  | logs
  deriving DecidableEq

namespace Trio

abbrev Own : Trio → Type
  | .refund | .spare => Refund
  | .logs => LogBuffer

instance checkpointed : ∀ name, Checkpointed (Own name)
  | .refund | .spare => inferInstanceAs (Checkpointed Refund)
  | .logs => inferInstanceAs (Checkpointed LogBuffer)

def components : Components (∀ name, Own name) Own := .ofFamily Own

def busy : ∀ name, Own name
  | .refund => ⟨[1]⟩
  | .spare => ⟨[3, 2]⟩
  | .logs => { entries := [{ address := 1, topics := [], data := [] }] }

/-- The spare refund comes first in both orders and is taken, and the other one stays as it is. -/
theorem controlled_alike :
    ∃ controller,
      components.enlist [.spare, .refund, .logs] {} = ([.spare, .logs], controller) ∧
      components.enlist [.logs, .spare, .refund] {} = ([.logs, .spare], controller) ∧
      Controller.registerAll ([.logs, .spare].map components.part) = .ok controller ∧
      ∃ earlier, controller.rewound [("refund", 1)] busy = (.ok (), earlier) ∧
        earlier .spare = ⟨[2]⟩ ∧ earlier .refund = ⟨[1]⟩ ∧ earlier .logs = busy .logs := by
  obtain ⟨taken, controller, enlisted, -, controls, -, -, agrees⟩ :=
    components.controlled_in_any_order [.spare, .refund, .logs]
  have took : (components.enlist [.spare, .refund, .logs] {}).1 = [.spare, .logs] := by decide
  obtain rfl : taken = [.spare, .logs] := by rw [← took, enlisted]
  have tookToo : (components.enlist [.logs, .spare, .refund] {}).1 = [.logs, .spare] := by decide
  have sameController := agrees [.logs, .spare, .refund] (tookToo ▸ .swap ..)
  -- Without the second refund no key is taken twice.
  obtain ⟨_, other, enlistedOther, -, -, -, apart, -⟩ :=
    components.controlled_in_any_order [.spare, .logs]
  obtain ⟨rfl, registers⟩ := apart (by decide)
  have sameOther := agrees [.spare, .logs] (enlistedOther ▸ .rfl)
  rw [enlistedOther] at sameOther
  subst sameOther
  obtain ⟨earlier, taken, rewound, kept⟩ :=
    controls.rewinds [("refund", 1)] (by decide) (by decide) busy
  refine ⟨_, enlisted, Prod.ext tookToo sameController, registers _ (.swap ..), earlier, taken,
    rewound .spare (by decide) 1 (by decide), kept .refund (.inl (by decide)),
    kept .logs (.inr (by decide))⟩

end Trio

end HostedEvm
