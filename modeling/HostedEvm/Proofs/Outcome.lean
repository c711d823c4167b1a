import Mathlib.Data.List.Forall2

set_option autoImplicit false

/-!
Steps that can fail, one after the other.

A walk over a list succeeds if every step does, and fails with the fault of one of its steps.
-/

namespace HostedEvm

section Bind

variable {Cause First Second : Type} {outcome : Except Cause First}
  {next : First → Except Cause Second}

/-- A step that goes on after a success and succeeds had a success to go on after. -/
theorem exists_ok_of_bind {result : Second} (ended : outcome >>= next = .ok result) :
    ∃ value, outcome = .ok value ∧ next value = .ok result := by
  cases outcome with
  | error fault => cases ended
  | ok value => exact ⟨value, rfl, ended⟩

theorem error_of_bind {fault : Cause} (ended : outcome >>= next = .error fault) :
    outcome = .error fault ∨ ∃ value, outcome = .ok value ∧ next value = .error fault := by
  cases outcome with
  | error cause =>
      cases ended
      exact .inl rfl
  | ok value => exact .inr ⟨value, rfl, ended⟩

theorem mapError_eq_ok_iff {Other : Type} {reason : Cause → Other} {result : First} :
    outcome.mapError reason = .ok result ↔ outcome = .ok result := by
  cases outcome with
  | error fault => simp [Except.mapError]
  | ok value => simp [Except.mapError]

end Bind

section Fold

variable {Cause State Item : Type} {step : State → Item → Except Cause State} {items : List Item}
  {start : State}

/-- A walk fails with the fault of one of its steps. -/
theorem foldlM_fails {fault : Cause} (holds : Cause → Prop)
    (failing : ∀ state item fault, step state item = .error fault → holds fault)
    (walked : items.foldlM step start = .error fault) : holds fault := by
  induction items generalizing start with
  | nil => cases walked
  | cons item rest inductionHypothesis =>
      rw [List.foldlM_cons] at walked
      rcases error_of_bind walked with stepped | ⟨next, _, walkedOn⟩
      · exact failing start item fault stepped
      · exact inductionHypothesis walkedOn

end Fold

section Each

variable {Cause Item Result : Type} {step : Item → Except Cause Result} {items : List Item}

/-- The results of a walk are those of its steps, in order. -/
theorem mapM_eq_ok_iff {results : List Result} :
    items.mapM step = .ok results ↔
      List.Forall₂ (fun item result => step item = .ok result) items results := by
  induction items generalizing results with
  | nil =>
      rw [List.mapM_nil, List.forall₂_nil_left_iff]
      constructor
      · intro done
        cases done
        rfl
      · rintro rfl
        rfl
  | cons item rest inductionHypothesis =>
      rw [List.mapM_cons, List.forall₂_cons_left_iff]
      constructor
      · intro walked
        obtain ⟨result, stepped, walkedOn⟩ := exists_ok_of_bind walked
        obtain ⟨others, walkedRest, done⟩ := exists_ok_of_bind walkedOn
        cases done
        exact ⟨result, others, stepped, inductionHypothesis.mp walkedRest, rfl⟩
      · rintro ⟨result, others, stepped, steppedRest, rfl⟩
        rw [stepped, inductionHypothesis.mpr steppedRest]
        rfl

theorem exists_mapM_iff :
    (∃ results, items.mapM step = .ok results) ↔
      ∀ item ∈ items, ∃ result, step item = .ok result := by
  simp only [mapM_eq_ok_iff]
  induction items with
  | nil => simp
  | cons item rest inductionHypothesis =>
      rw [List.forall_mem_cons, ← inductionHypothesis]
      constructor
      · rintro ⟨_, steps⟩
        obtain ⟨result, others, stepped, steppedRest, -⟩ := List.forall₂_cons_left_iff.mp steps
        exact ⟨⟨result, stepped⟩, others, steppedRest⟩
      · rintro ⟨⟨result, stepped⟩, others, steppedRest⟩
        exact ⟨result :: others, .cons stepped steppedRest⟩

theorem exists_mem_of_forall₂ {related : Item → Result → Prop} {results : List Result} {item : Item}
    (paired : List.Forall₂ related items results) (member : item ∈ items) :
    ∃ result ∈ results, related item result := by
  induction paired with
  | nil => cases member
  | @cons _ result _ _ holds _ inductionHypothesis =>
      rcases List.mem_cons.mp member with rfl | behind
      · exact ⟨result, List.mem_cons_self, holds⟩
      · obtain ⟨other, listed, holdsToo⟩ := inductionHypothesis behind
        exact ⟨other, List.mem_cons_of_mem _ listed, holdsToo⟩

/-- Every item has its result among those of a walk. -/
theorem exists_mem_of_mapM {results : List Result} {item : Item}
    (walked : items.mapM step = .ok results) (member : item ∈ items) :
    ∃ result ∈ results, step item = .ok result :=
  exists_mem_of_forall₂ (mapM_eq_ok_iff.mp walked) member

/-- Every result of a walk is that of an item. -/
theorem exists_of_mem_mapM {results : List Result} {result : Result}
    (walked : items.mapM step = .ok results) (listed : result ∈ results) :
    ∃ item ∈ items, step item = .ok result :=
  exists_mem_of_forall₂ (mapM_eq_ok_iff.mp walked).flip listed

/-- Results that tell the same as their items tell the same in order. -/
theorem map_eq_of_mapM {Tag : Type} {told : Item → Tag} {own : Result → Tag}
    (same : ∀ item result, step item = .ok result → own result = told item)
    {results : List Result} (walked : items.mapM step = .ok results) :
    results.map own = items.map told := by
  rw [← List.forall₂_eq_eq_eq, List.forall₂_map_left_iff, List.forall₂_map_right_iff]
  exact (mapM_eq_ok_iff.mp walked).flip.imp fun result item => same item result

theorem mapM_fails {fault : Cause} (walked : items.mapM step = .error fault) :
    ∃ item ∈ items, step item = .error fault := by
  induction items with
  | nil => cases walked
  | cons item rest inductionHypothesis =>
      rw [List.mapM_cons] at walked
      rcases error_of_bind walked with stepped | ⟨result, _, walkedOn⟩
      · exact ⟨item, List.mem_cons_self, stepped⟩
      · rcases error_of_bind walkedOn with walkedRest | ⟨others, _, done⟩
        · obtain ⟨other, member, stepped⟩ := inductionHypothesis walkedRest
          exact ⟨other, List.mem_cons_of_mem item member, stepped⟩
        · cases done

theorem mapM_congr {other : Item → Except Cause Result}
    (same : ∀ item ∈ items, step item = other item) : items.mapM step = items.mapM other := by
  induction items with
  | nil => rfl
  | cons item rest inductionHypothesis =>
      obtain ⟨sameHere, sameBehind⟩ := List.forall_mem_cons.mp same
      rw [List.mapM_cons, List.mapM_cons, sameHere, inductionHypothesis sameBehind]

end Each

end HostedEvm
