import HostedEvm.Word

set_option autoImplicit false

/-!
Laws of finite maps.

Maps with the same entries are equal, so an entry that is written and then put back leaves the map
that was there before.
-/

namespace HostedEvm.Map

variable {Key Value : Type} [Ord Key] [Std.TransOrd Key] [Std.LawfulEqOrd Key]

theorem get_insert [DecidableEq Key] (m : Map Key Value) (key other : Key) (value : Value) :
    (m.insert key value)[other]? = if key = other then some value else m[other]? := by
  rw [Std.ExtTreeMap.getElem?_insert]
  simp only [Std.LawfulEqOrd.compare_eq_iff_eq]

theorem get_erase [DecidableEq Key] (m : Map Key Value) (key other : Key) :
    (m.erase key)[other]? = if key = other then none else m[other]? := by
  rw [Std.ExtTreeMap.getElem?_erase]
  simp only [Std.LawfulEqOrd.compare_eq_iff_eq]

theorem get_foldl_insert [DecidableEq Key] (keyOf : Value → Key) (values : List Value)
    (m : Map Key Value) (key : Key) :
    (values.foldl (fun m value => m.insert (keyOf value) value) m)[key]? =
      (values.reverse.find? fun value => keyOf value = key).or m[key]? := by
  induction values generalizing m with
  | nil => rfl
  | cons value rest inductionHypothesis =>
      rw [List.foldl_cons, inductionHypothesis, List.reverse_cons, List.find?_append,
        get_insert, Option.or_assoc]
      by_cases same : keyOf value = key <;> simp [same]

theorem erase_insert_of_absent {m : Map Key Value} {key : Key} (absent : m[key]? = none)
    (value : Value) : (m.insert key value).erase key = m := by
  classical
  apply Std.ExtTreeMap.ext_getElem?
  intro other
  rw [get_erase, get_insert]
  by_cases same : key = other
  · subst other
    simp [absent]
  · simp [same]

theorem insert_insert (m : Map Key Value) (key : Key) (first second : Value) :
    (m.insert key first).insert key second = m.insert key second := by
  classical
  apply Std.ExtTreeMap.ext_getElem?
  intro other
  simp only [get_insert]
  by_cases same : key = other <;> simp [same]

theorem insert_of_present {m : Map Key Value} {key : Key} {value : Value}
    (present : m[key]? = some value) : m.insert key value = m := by
  classical
  apply Std.ExtTreeMap.ext_getElem?
  intro other
  rw [get_insert]
  by_cases same : key = other
  · subst other
    simp [present]
  · simp [same]

omit [Std.LawfulEqOrd Key] in
theorem mem_iff {m : Map Key Value} {key : Key} : key ∈ m ↔ ∃ value, m[key]? = some value := by
  rw [Std.ExtTreeMap.mem_iff_isSome_getElem?, Option.isSome_iff_exists]

theorem mem_insert (m : Map Key Value) (key other : Key) (value : Value) :
    other ∈ m.insert key value ↔ key = other ∨ other ∈ m := by
  rw [Std.ExtTreeMap.mem_insert, Std.LawfulEqOrd.compare_eq_iff_eq]

theorem mem_erase (m : Map Key Value) (key other : Key) :
    other ∈ m.erase key ↔ key ≠ other ∧ other ∈ m := by
  rw [Std.ExtTreeMap.mem_erase, ne_eq, Std.LawfulEqOrd.compare_eq_iff_eq]

theorem get_filter (m : Map Key Value) (keep : Key → Value → Bool) (key : Key) (value : Value) :
    (m.filter keep)[key]? = some value ↔ m[key]? = some value ∧ keep key value = true := by
  rw [Std.ExtTreeMap.getElem?_filter', Option.filter_eq_some_iff]

theorem mem_toList {m : Map Key Value} {key : Key} {value : Value} :
    (key, value) ∈ m.toList ↔ m[key]? = some value :=
  Std.ExtTreeMap.mem_toList_iff_getElem?_eq_some

theorem mem_listKeys {m : Map Key Value} {key : Key} : key ∈ listKeys m ↔ key ∈ m := by
  rw [mem_iff, listKeys, List.mem_map]
  constructor
  · rintro ⟨⟨found, value⟩, listed, rfl⟩
    exact ⟨value, mem_toList.mp listed⟩
  · rintro ⟨value, present⟩
    exact ⟨(key, value), mem_toList.mpr present, rfl⟩

theorem mem_listValues {m : Map Key Value} {value : Value} :
    value ∈ listValues m ↔ ∃ key : Key, m[key]? = some value := by
  rw [listValues, List.mem_map]
  constructor
  · rintro ⟨⟨key, found⟩, listed, rfl⟩
    exact ⟨key, mem_toList.mp listed⟩
  · rintro ⟨key, present⟩
    exact ⟨(key, value), mem_toList.mpr present, rfl⟩

omit [Std.LawfulEqOrd Key] in
theorem length_listValues (m : Map Key Value) : (listValues m).length = m.size := by
  rw [listValues, List.length_map, Std.ExtTreeMap.length_toList]

omit [Std.LawfulEqOrd Key] in
theorem size_erase_of_mem {m : Map Key Value} {key : Key} (present : key ∈ m) :
    (m.erase key).size + 1 = m.size := by
  have filled : m.size ≠ 0 := by
    rw [ne_eq, ← Std.ExtTreeMap.eq_empty_iff_size_eq_zero]
    exact Std.ExtTreeMap.ne_empty_of_mem present
  rw [Std.ExtTreeMap.size_erase, if_pos (Std.ExtTreeMap.mem_iff_contains.mp present)]
  omega

theorem distinct_keys (m : Map Key Value) :
    m.toList.Pairwise fun first second => first.1 ≠ second.1 := by
  apply List.Pairwise.imp _ Std.ExtTreeMap.distinct_keys_toList
  intro first second differ same
  exact differ (Std.LawfulEqOrd.compare_eq_iff_eq.mpr same)

/-- Values that tell their keys are listed once each. -/
theorem nodup_listValues {m : Map Key Value} {keyOf : Value → Key}
    (own : ∀ (key : Key) (value : Value), m[key]? = some value → keyOf value = key) :
    (listValues m).Nodup := by
  rw [listValues, List.Nodup, List.pairwise_map]
  apply List.Pairwise.imp_of_mem _ (distinct_keys m)
  intro first second firstListed secondListed differ same
  have firstKey := own first.1 first.2 (mem_toList.mp firstListed)
  have secondKey := own second.1 second.2 (mem_toList.mp secondListed)
  rw [same] at firstKey
  exact differ (firstKey.symm.trans secondKey)

theorem nodup_toList (m : Map Key Value) : m.toList.Nodup := by
  apply List.Pairwise.imp _ (distinct_keys m)
  rintro first second differ rfl
  exact differ rfl

/-- What the entries of a map give for one key is what its entry gives. -/
theorem flatMap_toList_own [DecidableEq Key] {Item : Type} (m : Map Key Value) (key : Key)
    (items : Value → List Item) :
    (m.toList.flatMap fun entry => if entry.1 = key then items entry.2 else []) =
      (m[key]?.map items).getD [] := by
  have others : ∀ entries : List (Key × Value), (∀ entry ∈ entries, entry.1 ≠ key) →
      (entries.flatMap fun entry => if entry.1 = key then items entry.2 else []) = [] := by
    intro entries differ
    rw [List.flatMap_eq_nil_iff]
    exact fun entry listed => if_neg (differ entry listed)
  cases present : m[key]? with
  | none =>
      apply others
      rintro ⟨other, value⟩ listed rfl
      cases (mem_toList.mp listed).symm.trans present
  | some value =>
      obtain ⟨before, behind, same⟩ := List.mem_iff_append.mp (mem_toList.mpr present)
      have distinct := distinct_keys m
      rw [same, List.pairwise_append] at distinct
      obtain ⟨_, fromKey, apart⟩ := distinct
      rw [same, List.flatMap_append, List.flatMap_cons, if_pos rfl,
        others before fun entry listed => apart entry listed _ List.mem_cons_self,
        others behind fun entry listed => ((List.pairwise_cons.mp fromKey).1 entry listed).symm]
      simp

theorem toList_insert_perm {m : Map Key Value} {key : Key} (absent : m[key]? = none)
    (value : Value) : (m.insert key value).toList.Perm ((key, value) :: m.toList) := by
  classical
  have new : (key, value) ∉ m.toList := by
    rw [mem_toList, absent]
    exact nofun
  rw [List.perm_ext_iff_of_nodup (nodup_toList _) (List.nodup_cons.mpr ⟨new, nodup_toList m⟩)]
  rintro ⟨other, found⟩
  rw [List.mem_cons, mem_toList, mem_toList, get_insert, Prod.mk.injEq]
  by_cases same : key = other
  · subst same
    simp [absent, eq_comm]
  · simp [same, Ne.symm same]

theorem insert_erase (m : Map Key Value) (key : Key) (value : Value) :
    (m.erase key).insert key value = m.insert key value := by
  classical
  apply Std.ExtTreeMap.ext_getElem?
  intro other
  rw [get_insert, get_insert, get_erase]
  by_cases same : key = other <;> simp [same]

theorem listValues_insert_perm {m : Map Key Value} {key : Key} (absent : m[key]? = none)
    (value : Value) : (listValues (m.insert key value)).Perm (value :: listValues m) :=
  (toList_insert_perm absent value).map Prod.snd

theorem listValues_erase_perm {m : Map Key Value} {key : Key} {value : Value}
    (present : m[key]? = some value) : (listValues m).Perm (value :: listValues (m.erase key)) := by
  classical
  have absent : (m.erase key)[key]? = none := by rw [get_erase, if_pos rfl]
  have filed := listValues_insert_perm absent value
  rwa [insert_erase, insert_of_present present] at filed

theorem nodup_listKeys (m : Map Key Value) : (listKeys m).Nodup := by
  rw [listKeys, List.Nodup, List.pairwise_map]
  exact distinct_keys m

omit [Std.LawfulEqOrd Key] in
theorem ascending_listKeys (m : Map Key Value) :
    (listKeys m).Pairwise fun first second => compare first second = .lt := by
  rw [listKeys, List.pairwise_map]
  exact Std.ExtTreeMap.ordered_keys_toList

/-- Values that tell their keys list the keys. -/
theorem map_listValues {m : Map Key Value} {keyOf : Value → Key}
    (own : ∀ (key : Key) (value : Value), m[key]? = some value → keyOf value = key) :
    (listValues m).map keyOf = listKeys m := by
  rw [listValues, listKeys, List.map_map]
  apply List.map_congr_left
  rintro ⟨key, value⟩ listed
  exact own key value (mem_toList.mp listed)

theorem erase_of_absent {m : Map Key Value} {key : Key} (absent : m[key]? = none) :
    m.erase key = m := by
  classical
  apply Std.ExtTreeMap.ext_getElem?
  intro other
  rw [get_erase]
  by_cases same : key = other
  · subst same
    simp [absent]
  · simp [same]

def Every (property : Value → Prop) (m : Map Key Value) : Prop :=
  ∀ (key : Key) (value : Value), m[key]? = some value → property value

variable {property : Value → Prop}

omit [Std.LawfulEqOrd Key] in
theorem every_empty : Every property (∅ : Map Key Value) := by
  intro key value present
  simp at present

omit [Std.LawfulEqOrd Key] in
theorem Every.imp {weaker : Value → Prop} {m : Map Key Value} (every : Every property m)
    (imp : ∀ value, property value → weaker value) : Every weaker m := by
  intro key value present
  exact imp value (every key value present)

theorem Every.insert {m : Map Key Value} (every : Every property m) (key : Key) {value : Value}
    (holds : property value) : Every property (m.insert key value) := by
  classical
  intro other found present
  rw [get_insert] at present
  split at present
  · cases present
    exact holds
  · exact every other found present

end HostedEvm.Map
