import HostedEvm.Chain.Reader
import Mathlib.Data.List.Basic

set_option autoImplicit false

/-!
What a cache may hold.

A cache only forgets: what it holds was put there. So whatever is known of the entries that are put
into a cache is known of every answer it gives, however many entries had to go.
-/

namespace HostedEvm.Cache

variable {Key Value : Type} [DecidableEq Key] {known later : Key → Value → Prop}
  {cache : Cache Key Value} {key : Key} {value : Value}

def Within (known : Key → Value → Prop) (cache : Cache Key Value) : Prop :=
  ∀ entry ∈ cache.entries, known entry.1 entry.2

omit [DecidableEq Key] in
theorem within_empty (known : Key → Value → Prop) (capacity : Nat) :
    Within known { capacity := capacity } := nofun

theorem Within.of_peek? (within : cache.Within known) (found : cache.peek? key = some value) :
    known key value := by
  unfold peek? at found
  obtain ⟨entry, present, rfl⟩ := Option.map_eq_some_iff.mp found
  have same := List.find?_some present
  rw [decide_eq_true_eq] at same
  rw [← same]
  exact within entry (List.mem_of_find?_eq_some present)

theorem Within.others (within : cache.Within known) :
    ∀ entry ∈ cache.others key, entry.1 ≠ key ∧ known entry.1 entry.2 := by
  intro entry listed
  obtain ⟨member, other⟩ := List.mem_filter.mp listed
  exact ⟨of_decide_eq_true other, within entry member⟩

/-- A new entry may change what is known of its own key, since the old entry under it goes. -/
theorem Within.put (within : cache.Within known)
    (kept : ∀ other value, other ≠ key → known other value → later other value)
    (new : later key value) : (cache.put key value).Within later := by
  intro entry listed
  rcases List.mem_cons.mp (List.mem_of_mem_take listed) with rfl | old
  · exact new
  · obtain ⟨other, before⟩ := within.others entry old
    exact kept entry.1 entry.2 other before

theorem Within.get? (within : cache.Within known) (key : Key) :
    (cache.get? key).2.Within known := by
  unfold Cache.get?
  split
  · rename_i value found
    intro entry listed
    rcases List.mem_cons.mp listed with rfl | old
    · exact within.of_peek? found
    · exact (within.others entry old).2
  · exact within

theorem get?_fst (cache : Cache Key Value) (key : Key) : (cache.get? key).1 = cache.peek? key := by
  unfold get?
  split
  · rename_i value found
    exact found.symm
  · rename_i missing
    exact missing.symm

/-- Values that are put under their own keys are known by the latest of them. -/
theorem Within.foldl_put (keyOf : Value → Key) {seen : List Value}
    (within : cache.Within fun key value =>
      seen.find? (fun value => keyOf value = key) = some value) (values : List Value) :
    (values.foldl (fun cache value => cache.put (keyOf value) value) cache).Within
      fun key value =>
        (values.reverse ++ seen).find? (fun value => keyOf value = key) = some value := by
  induction values generalizing cache seen with
  | nil => exact within
  | cons value rest inductionHypothesis =>
      rw [List.reverse_cons, List.append_assoc]
      apply inductionHypothesis
      refine within.put ?_ ?_
      · intro other found apart known
        rw [List.find?_append, List.find?_singleton, if_neg (by simpa using apart.symm)]
        exact known
      · exact List.find?_cons_of_pos (by simp)

open Reader

/-- A look-up answers what is known, and leaves a cache of what is known. -/
theorem Within.lookUp {archived : Option Value} (within : cache.Within known)
    (filed : ∀ value, archived = some value → known key value) :
    (∀ value, (lookUp cache archived key).1 = some value → known key value) ∧
      (lookUp cache archived key).2.Within known := by
  have used := within.get? key
  have looked := cache.get?_fst key
  unfold Reader.lookUp
  split
  · rename_i present after ran
    rw [ran] at used looked
    refine ⟨?_, used⟩
    rintro value ⟨⟩
    exact within.of_peek? looked.symm
  · rename_i after ran
    rw [ran] at used
    split
    · rename_i present
      refine ⟨?_, used.put (fun _ _ _ before => before) (filed present rfl)⟩
      rintro value ⟨⟩
      exact filed present rfl
    · exact ⟨nofun, used⟩

/-- A look-up finds something wherever the archive has something. -/
theorem lookUp_eq_none {archived : Option Value}
    (missing : (lookUp cache archived key).1 = none) : archived = none := by
  unfold lookUp at missing
  split at missing
  · cases missing
  · split at missing
    · cases missing
    · rfl

/-- A cache whose entries are those of a table answers what the table has, like the archive. -/
theorem lookUp_eq_of_table {table : Key → Option Value} {archived : Option Value}
    (within : cache.Within fun key value => table key = some value) (same : archived = table key) :
    (lookUp cache archived key).1 = table key := by
  have answered := (within.lookUp fun value present => same.symm.trans present).1
  cases found : (lookUp cache archived key).1 with
  | none => exact (lookUp_eq_none found).symm.trans same
  | some value => exact (answered value found).symm

/-- A cache without room keeps nothing. -/
def roomless : Cache Key Value := { capacity := 0 }

theorem foldl_put_roomless (keyOf : Value → Key) (values : List Value) :
    values.foldl (fun cache value => cache.put (keyOf value) value) roomless = roomless :=
  List.foldl_fixed' (fun _ => rfl) values

theorem lookUp_roomless (archived : Option Value) (key : Key) :
    lookUp roomless archived key = (archived, roomless) := by
  cases archived with
  | none => rfl
  | some value => rfl

end HostedEvm.Cache
