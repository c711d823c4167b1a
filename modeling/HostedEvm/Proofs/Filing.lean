import HostedEvm.Proofs.Map
import HostedEvm.Proofs.Outcome
import Mathlib.Data.List.Dedup

set_option autoImplicit false

/-!
Values filed under keys of their own.

Values are put into a map one after the other, each under the key that it tells. A key is taken when
one of the values tells it, and of several values with one key the last one stays. Where a walk
only files under free keys, it succeeds for values with different keys.
-/

namespace HostedEvm.Map

variable {Key Value : Type} [DecidableEq Key]

theorem length_dedup_eq_iff {keys : List Key} : keys.dedup.length = keys.length ↔ keys.Nodup := by
  rw [← List.dedup_eq_self]
  constructor
  · exact (List.dedup_sublist keys).eq_of_length
  · intro same
    rw [same]

variable [Ord Key] [Std.TransOrd Key] [Std.LawfulEqOrd Key]

def ofValues (keyOf : Value → Key) (values : List Value) : Map Key Value :=
  values.foldl (fun m value => m.insert (keyOf value) value) ∅

variable (keyOf : Value → Key)

theorem get_ofValues (values : List Value) (key : Key) :
    (ofValues keyOf values)[key]? = values.reverse.find? fun value => keyOf value = key := by
  rw [ofValues, get_foldl_insert]
  simp

theorem mem_ofValues {values : List Value} {key : Key} :
    key ∈ ofValues keyOf values ↔ key ∈ values.map keyOf := by
  rw [mem_iff, ← Option.isSome_iff_exists, get_ofValues]
  simp

theorem mem_of_get_ofValues {values : List Value} {key : Key} {value : Value}
    (found : (ofValues keyOf values)[key]? = some value) : value ∈ values := by
  rw [get_ofValues] at found
  exact List.mem_reverse.mp (List.mem_of_find?_eq_some found)

/-- A value keeps its place as long as no later one takes its key. -/
theorem get_ofValues_last {before behind : List Value} {value : Value}
    (last : keyOf value ∉ behind.map keyOf) :
    (ofValues keyOf (before ++ value :: behind))[keyOf value]? = some value := by
  have others : behind.reverse.find? (fun other => keyOf other = keyOf value) = none := by
    rw [List.find?_eq_none]
    intro other member same
    exact last (List.mem_map.mpr ⟨other, List.mem_reverse.mp member, of_decide_eq_true same⟩)
  simp [get_ofValues, List.find?_append, others]

theorem get_ofValues_of_mem {values : List Value} {value : Value}
    (distinct : (values.map keyOf).Nodup) (member : value ∈ values) :
    (ofValues keyOf values)[keyOf value]? = some value := by
  obtain ⟨before, behind, rfl⟩ := List.append_of_mem member
  apply get_ofValues_last
  rw [List.map_append, List.map_cons, List.nodup_append, List.nodup_cons] at distinct
  exact distinct.2.1.1

theorem own_ofValues {values : List Value} (key : Key) (value : Value)
    (found : (ofValues keyOf values)[key]? = some value) : keyOf value = key := by
  rw [get_ofValues] at found
  simpa using List.find?_some found

/-- Values with different keys all stay. -/
theorem listValues_ofValues_perm {values : List Value} (distinct : (values.map keyOf).Nodup) :
    (listValues (ofValues keyOf values)).Perm values := by
  rw [List.perm_ext_iff_of_nodup (nodup_listValues (own_ofValues keyOf)) distinct.of_map]
  intro value
  rw [mem_listValues]
  constructor
  · rintro ⟨key, found⟩
    exact mem_of_get_ofValues keyOf found
  · intro member
    exact ⟨keyOf value, get_ofValues_of_mem keyOf distinct member⟩

/-- There are as many values in the map as there are different keys. -/
theorem size_ofValues (values : List Value) :
    (ofValues keyOf values).size = (values.map keyOf).dedup.length := by
  have same : (listKeys (ofValues keyOf values)).Perm (values.map keyOf).dedup := by
    rw [List.perm_ext_iff_of_nodup (nodup_listKeys _) (List.nodup_dedup _)]
    intro key
    rw [mem_listKeys, mem_ofValues, List.mem_dedup]
  rw [← same.length_eq, listKeys, List.length_map, Std.ExtTreeMap.length_toList]

theorem size_ofValues_eq_length_iff (values : List Value) :
    (ofValues keyOf values).size = values.length ↔ (values.map keyOf).Nodup := by
  have asMany : values.length = (values.map keyOf).length := List.length_map .. |>.symm
  rw [size_ofValues, asMany, length_dedup_eq_iff]

section Walk

variable {Cause Item : Type} {step : Map Key Value → Item → Except Cause (Map Key Value)}
  {make : Item → Except Cause Value} {told : Item → Key}

omit [DecidableEq Key] in
/-- A walk that files what it makes of its items, each under a free key, succeeds if the keys are
free and different and everything can be made. -/
theorem foldlM_eq_ok_iff
    (steps : ∀ m item next, step m item = .ok next ↔
      told item ∉ m ∧ ∃ value, make item = .ok value ∧ next = m.insert (told item) value)
    (own : ∀ item value, make item = .ok value → keyOf value = told item)
    (items : List Item) (start final : Map Key Value) :
    items.foldlM step start = .ok final ↔
      (items.map told).Nodup ∧ (∀ item ∈ items, told item ∉ start) ∧
        ∃ values, items.mapM make = .ok values ∧
          final = values.foldl (fun m value => m.insert (keyOf value) value) start := by
  induction items generalizing start with
  | nil =>
      rw [List.foldlM_nil, List.mapM_nil]
      constructor
      · intro walked
        cases walked
        exact ⟨List.nodup_nil, List.forall_mem_nil _, [], rfl, rfl⟩
      · rintro ⟨-, -, values, made, rfl⟩
        cases made
        rfl
  | cons item rest inductionHypothesis =>
      rw [List.foldlM_cons, List.map_cons, List.nodup_cons, List.forall_mem_cons]
      constructor
      · intro walked
        obtain ⟨next, stepped, walkedOn⟩ := exists_ok_of_bind walked
        obtain ⟨free, value, made, rfl⟩ := (steps _ _ _).mp stepped
        obtain ⟨distinct, freeRest, values, madeRest, filed⟩ := (inductionHypothesis _).mp walkedOn
        have fresh : ∀ other ∈ rest, told other ≠ told item ∧ told other ∉ start := by
          intro other member
          have absent := freeRest other member
          rw [mem_insert, not_or] at absent
          exact ⟨Ne.symm absent.1, absent.2⟩
        refine ⟨⟨?_, distinct⟩, ⟨free, fun other member => (fresh other member).2⟩,
          value :: values, mapM_eq_ok_iff.mpr (.cons made (mapM_eq_ok_iff.mp madeRest)), ?_⟩
        · intro listed
          obtain ⟨other, member, same⟩ := List.mem_map.mp listed
          exact (fresh other member).1 same
        · rw [List.foldl_cons, own item value made]
          exact filed
      · rintro ⟨⟨fresh, distinct⟩, ⟨free, freeRest⟩, values, made, rfl⟩
        obtain ⟨value, others, madeHere, madeRest, rfl⟩ :=
          List.forall₂_cons_left_iff.mp (mapM_eq_ok_iff.mp made)
        rw [(steps start item _).mpr ⟨free, value, madeHere, rfl⟩]
        refine (inductionHypothesis _).mpr ⟨distinct, ?_, others, mapM_eq_ok_iff.mpr madeRest, ?_⟩
        · intro other member
          rw [mem_insert, not_or]
          refine ⟨?_, freeRest other member⟩
          intro same
          exact fresh (List.mem_map.mpr ⟨other, member, same.symm⟩)
        · rw [List.foldl_cons, own item value madeHere]

end Walk

end HostedEvm.Map
