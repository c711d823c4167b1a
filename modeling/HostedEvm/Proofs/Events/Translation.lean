import HostedEvm.Precompile.Program
import HostedEvm.Proofs.Abi.TopicForms
import Mathlib.Data.List.Find
import Mathlib.Data.List.Nodup
import Mathlib.Logic.Relation

set_option autoImplicit false

/-!
How a declared event becomes a log.

A log of a native event stands for one value of each declared parameter, read from the attribute
with the parameter's key. Either every parameter has such a value, and the log is fixed by the
values, or there is no log at all. Nothing else about the attributes counts.
-/

namespace HostedEvm

open Abi

def Abi.Param.key (param : Param) : String := Text.snakeCase param.name

/-- Of the values of parameters, those of the indexed ones, or those of the others, in order. -/
def Abi.Param.select (indexed : Bool) : List Param → List Value → List Value
  | param :: params, value :: values =>
    if param.indexed = indexed then value :: select indexed params values
    else select indexed params values
  | _, _ => []

namespace EventBook

/-- What a text means as an attribute for a parameter. A reader that is registered for the key
decides alone, and otherwise the type of the parameter does. -/
inductive Means (book : EventBook) (param : Param) (text : String) (value : Value) : Prop
  | reader (read : AttributeReader) (own : book.readers[param.key]? = some read)
      (meaning : read text = .ok value)
  | literal (type : AbiType) (none : book.readers[param.key]? = none)
      (declared : param.type.resolve? = some type) (meaning : Literal.read type text = .ok value)

def Reads (book : EventBook) (native : NativeEvent) (param : Param) (value : Value) : Prop :=
  ∃ text, native.attribute? param.key = some text ∧ book.Means param text value

/-- A parameter takes a value that can stand in its place in a log. -/
def Provides (book : EventBook) (native : NativeEvent) (param : Param) : Prop :=
  ∃ value, book.Reads native param value ∧
    (param.indexed = true → ∃ word, value.HasTopic word)

inductive Fits (param : Param) (value : Value) : Field → Prop
  | topic {word : Word} (indexed : param.indexed = true) (form : value.HasTopic word) :
      Fits param value (.topic word)
  | data (plain : param.indexed = false) : Fits param value (.data value)

def logWith (book : EventBook) (event : Event) (values : List Value) (words : List Word) : Log where
  address := book.address
  topics := if event.anonymous then words else event.topic :: words
  data := match Param.select false event.inputs values with
    | [] => []
    | plain => Value.encodeAll plain

/-- A log that a native event becomes: its words are those of the indexed values, one by one. -/
def Translates (book : EventBook) (event : Event) (native : NativeEvent) (log : Log) : Prop :=
  ∃ values words, List.Forall₂ (book.Reads native) event.inputs values ∧
    List.Forall₂ Value.HasTopic (Param.select true event.inputs values) words ∧
    log = book.logWith event values words

end EventBook

/-- Changes of a native event's attributes that are of no account for a declared event. -/
inductive Immaterial (event : Event) : (attributes changed : List (String × String)) → Prop
  /-- An attribute that no parameter takes its value from. -/
  | undeclared {before behind : List (String × String)} {key text : String}
      (foreign : ∀ param ∈ event.inputs, param.key ≠ key) :
      Immaterial event (before ++ behind) (before ++ (key, text) :: behind)
  /-- One more text under a key that has one. -/
  | further {before behind : List (String × String)} {key text : String}
      (present : key ∈ before.map Prod.fst) :
      Immaterial event (before ++ behind) (before ++ (key, text) :: behind)
  /-- Another order of attributes with different keys. -/
  | permuted {attributes changed : List (String × String)}
      (distinct : (attributes.map Prod.fst).Nodup) (perm : attributes.Perm changed) :
      Immaterial event attributes changed
  /-- Another order of two neighbours with different keys. -/
  | swapped {before behind : List (String × String)} {first second : String × String}
      (differ : first.1 ≠ second.1) :
      Immaterial event (before ++ first :: second :: behind) (before ++ second :: first :: behind)

theorem Abi.Misread.demand_eq_ok_iff {Result : Type} {found : Option Result} {result : Result} :
    demand found = .ok result ↔ found = some result := by
  cases found <;> simp [demand]

/-- Changes of no account leave the first text under the key of every parameter. -/
theorem Immaterial.attribute_eq {event : Event} {attributes changed : List (String × String)}
    (immaterial : Immaterial event attributes changed) (kind : String) {param : Param}
    (member : param ∈ event.inputs) :
    NativeEvent.attribute? ⟨kind, changed⟩ param.key =
      NativeEvent.attribute? ⟨kind, attributes⟩ param.key := by
  unfold NativeEvent.attribute?
  congr 1
  cases immaterial with
  | undeclared foreign =>
      simp [List.find?_append, (foreign param member).symm]
  | @further before behind key text present =>
      by_cases same : key = param.key
      · obtain ⟨entry, placed, rfl⟩ := List.mem_map.mp present
        have found : (before.find? fun other => other.1 = param.key).isSome :=
          List.find?_isSome.mpr ⟨entry, placed, decide_eq_true same⟩
        rw [List.find?_append, List.find?_append, Option.or_of_isSome found,
          Option.or_of_isSome found]
      · simp [List.find?_append, same]
  | permuted distinct perm =>
      symm
      apply List.find?_eq_find?_of_perm perm
      rintro first ⟨firstPlaced, named⟩ second ⟨secondPlaced, named'⟩
      apply List.inj_on_of_nodup_map distinct firstPlaced secondPlaced
      exact (of_decide_eq_true named).trans (of_decide_eq_true named').symm
  | @swapped before behind first second differ =>
      by_cases named : first.1 = param.key
      · have other : second.1 ≠ param.key := fun same => differ (named.trans same.symm)
        simp [List.find?_append, named, other]
      · simp [List.find?_append, List.find?_cons, named]

namespace EventBook

section Fields

variable (word : Word) (value : Value) (fields : List Field)

@[simp] theorem topics_topic :
    (Field.topic word :: fields).filterMap Field.topic? =
      word :: fields.filterMap Field.topic? := rfl

@[simp] theorem topics_data :
    (Field.data value :: fields).filterMap Field.topic? = fields.filterMap Field.topic? := rfl

@[simp] theorem data_topic :
    (Field.topic word :: fields).filterMap Field.data? = fields.filterMap Field.data? := rfl

@[simp] theorem data_data :
    (Field.data value :: fields).filterMap Field.data? =
      value :: fields.filterMap Field.data? := rfl

end Fields

variable {book : EventBook} {event : Event} {native : NativeEvent} {param : Param}

theorem valueOf_eq_ok_iff {text : String} {value : Value} :
    book.valueOf event param param.key text = .ok value ↔ book.Means param text value := by
  unfold valueOf
  cases own : book.readers[param.key]? with
  | some read =>
      constructor
      · intro meaning
        exact .reader read own meaning
      · rintro (⟨read', own', meaning⟩ | ⟨_, unread, _, _⟩)
        · rw [own, Option.some.injEq] at own'
          exact own' ▸ meaning
        · rw [own] at unread
          cases unread
  | none =>
      simp only [mapError_eq_ok_iff]
      constructor
      · intro valued
        obtain ⟨type, demanded, meaning⟩ := exists_ok_of_bind valued
        exact .literal type own (Misread.demand_eq_ok_iff.mp demanded) meaning
      · rintro (⟨read, own', _⟩ | ⟨type, _, declared, meaning⟩)
        · rw [own] at own'
          cases own'
        · rw [declared]
          exact meaning

theorem fieldOf_eq_ok_iff {key : String} {value : Value} {field : Field} :
    fieldOf event param key value = .ok field ↔ Fits param value field := by
  unfold fieldOf
  constructor
  · intro placed
    split at placed
    · rename_i indexed
      split at placed
      · rename_i word form
        cases placed
        exact .topic indexed (Value.topic?_eq_some_iff.mp form)
      · cases placed
    · rename_i unindexed
      cases placed
      exact .data (Bool.eq_false_iff.mpr unindexed)
  · rintro (⟨indexed, form⟩ | plain)
    · simp only [indexed, Value.topic?_eq_some_iff.mpr form, if_true]
    · simp [plain]

theorem field_eq (book : EventBook) (event : Event) (native : NativeEvent) (param : Param) :
    book.field event native param =
      match native.attribute? param.key with
      | none => .error (.missingAttribute event.name param.key)
      | some text => book.valueOf event param param.key text >>= fieldOf event param param.key :=
  rfl

theorem field_eq_ok_iff {field : Field} :
    book.field event native param = .ok field ↔
      ∃ value, book.Reads native param value ∧ Fits param value field := by
  rw [field_eq]
  constructor
  · intro fitted
    cases present : native.attribute? param.key with
    | none =>
        rw [present] at fitted
        cases fitted
    | some text =>
        rw [present] at fitted
        obtain ⟨value, valued, placed⟩ := exists_ok_of_bind fitted
        exact ⟨value, ⟨text, present, valueOf_eq_ok_iff.mp valued⟩, fieldOf_eq_ok_iff.mp placed⟩
  · rintro ⟨value, ⟨text, present, meaning⟩, fits⟩
    have valued : book.valueOf event param param.key text = .ok value :=
      valueOf_eq_ok_iff.mpr meaning
    simp only [present, valued]
    exact fieldOf_eq_ok_iff.mpr fits

theorem exists_field_iff :
    (∃ field, book.field event native param = .ok field) ↔ book.Provides native param := by
  constructor
  · rintro ⟨field, fitted⟩
    obtain ⟨value, reads, fits⟩ := field_eq_ok_iff.mp fitted
    refine ⟨value, reads, ?_⟩
    intro indexed
    cases fits with
    | topic _ form => exact ⟨_, form⟩
    | data plain => simp [plain] at indexed
  · rintro ⟨value, reads, forms⟩
    cases indexed : param.indexed with
    | false => exact ⟨.data value, field_eq_ok_iff.mpr ⟨value, reads, .data indexed⟩⟩
    | true =>
        obtain ⟨word, form⟩ := forms indexed
        exact ⟨.topic word, field_eq_ok_iff.mpr ⟨value, reads, .topic indexed form⟩⟩

/-- The fields of a log tell a value of every parameter: the words of the indexed ones, and the
others as they are. -/
theorem values_of_fields {params : List Param} {fields : List Field}
    (fitted : List.Forall₂ (fun param field => book.field event native param = .ok field)
      params fields) :
    ∃ values, List.Forall₂ (book.Reads native) params values ∧
      List.Forall₂ Value.HasTopic (Param.select true params values)
        (fields.filterMap Field.topic?) ∧
      fields.filterMap Field.data? = Param.select false params values := by
  induction fitted with
  | nil => exact ⟨[], .nil, .nil, rfl⟩
  | @cons param field params fields fitted _ inductionHypothesis =>
      obtain ⟨values, reads, forms, plain⟩ := inductionHypothesis
      obtain ⟨value, read, fits⟩ := field_eq_ok_iff.mp fitted
      refine ⟨value :: values, .cons read reads, ?_⟩
      cases fits with
      | topic indexed form => simp [Param.select, indexed, form, forms, plain]
      | data unindexed => simp [Param.select, unindexed, forms, plain]

theorem fields_of_values {params : List Param} {values : List Value}
    (reads : List.Forall₂ (book.Reads native) params values) {words : List Word}
    (forms : List.Forall₂ Value.HasTopic (Param.select true params values) words) :
    ∃ fields, List.Forall₂ (fun param field => book.field event native param = .ok field)
        params fields ∧
      fields.filterMap Field.topic? = words ∧
      fields.filterMap Field.data? = Param.select false params values := by
  induction reads generalizing words with
  | nil =>
      cases forms
      exact ⟨[], .nil, rfl, rfl⟩
  | @cons param value params values read _ inductionHypothesis =>
      cases indexed : param.indexed with
      | true =>
          simp only [Param.select, indexed, if_true] at forms
          cases forms with
          | @cons _ word _ words form forms =>
              obtain ⟨fields, fitted, topics, plain⟩ := inductionHypothesis forms
              have fits : book.field event native param = .ok (.topic word) :=
                field_eq_ok_iff.mpr ⟨value, read, .topic indexed form⟩
              refine ⟨.topic word :: fields, .cons fits fitted, ?_⟩
              simp [Param.select, indexed, topics, plain]
      | false =>
          simp only [Param.select, indexed, Bool.false_eq_true, if_false] at forms
          obtain ⟨fields, fitted, topics, plain⟩ := inductionHypothesis forms
          have fits : book.field event native param = .ok (.data value) :=
            field_eq_ok_iff.mpr ⟨value, read, .data indexed⟩
          refine ⟨.data value :: fields, .cons fits fitted, ?_⟩
          simp [Param.select, indexed, topics, plain]

theorem layOut_eq {fields : List Field} {values : List Value}
    (plain : fields.filterMap Field.data? = Param.select false event.inputs values) :
    book.layOut event fields = book.logWith event values (fields.filterMap Field.topic?) := by
  unfold layOut logWith
  rw [plain]
  congr 1
  · cases event.anonymous <;> rfl
  · cases Param.select false event.inputs values <;> rfl

theorem logOf_of_declared (declared : book.events[native.kind]? = some event) :
    book.logOf native = do
      let fields ← event.inputs.mapM (book.field event native)
      return some (book.layOut event fields) := by
  unfold logOf
  rw [declared]

theorem logOf_eq_ok_iff (declared : book.events[native.kind]? = some event) (log : Log) :
    book.logOf native = .ok (some log) ↔ book.Translates event native log := by
  rw [logOf_of_declared declared]
  constructor
  · intro translated
    obtain ⟨fields, walked, done⟩ := exists_ok_of_bind translated
    cases done
    obtain ⟨values, reads, forms, plain⟩ := values_of_fields (mapM_eq_ok_iff.mp walked)
    exact ⟨values, _, reads, forms, layOut_eq plain⟩
  · rintro ⟨values, words, reads, forms, rfl⟩
    obtain ⟨fields, fitted, rfl, plain⟩ := fields_of_values reads forms
    rw [mapM_eq_ok_iff.mpr fitted, ← layOut_eq plain]
    rfl

theorem exists_logOf_iff (declared : book.events[native.kind]? = some event) :
    (∃ log, book.logOf native = .ok (some log)) ↔
      ∀ param ∈ event.inputs, book.Provides native param := by
  have walks : (∃ fields, event.inputs.mapM (book.field event native) = .ok fields) ↔
      ∀ param ∈ event.inputs, book.Provides native param := by
    simp only [exists_mapM_iff, exists_field_iff]
  rw [logOf_of_declared declared, ← walks]
  constructor
  · rintro ⟨log, translated⟩
    obtain ⟨fields, walked, -⟩ := exists_ok_of_bind translated
    exact ⟨fields, walked⟩
  · rintro ⟨fields, walked⟩
    rw [walked]
    exact ⟨book.layOut event fields, rfl⟩

/-- A declared event that cannot become a log is a failure, never an event to pass over. -/
theorem logOf_ne_none (declared : book.events[native.kind]? = some event) :
    book.logOf native ≠ .ok none := by
  rw [logOf_of_declared declared]
  intro passed
  obtain ⟨fields, -, done⟩ := exists_ok_of_bind passed
  cases done

/-- Only what the attributes have under the keys of the parameters counts. -/
theorem logOf_congr {other : NativeEvent} (declared : book.events[native.kind]? = some event)
    (sameKind : other.kind = native.kind)
    (same : ∀ param ∈ event.inputs, other.attribute? param.key = native.attribute? param.key) :
    book.logOf other = book.logOf native := by
  rw [logOf_of_declared declared, logOf_of_declared (sameKind ▸ declared)]
  congr 1
  apply mapM_congr
  intro param member
  rw [field_eq, field_eq, same param member]

theorem logOf_immaterial (declared : book.events[native.kind]? = some event)
    {changed : List (String × String)}
    (immaterial : Relation.ReflTransGen (Immaterial event) native.attributes changed) :
    book.logOf { native with attributes := changed } = book.logOf native := by
  induction immaterial with
  | refl => rfl
  | tail _ change inductionHypothesis =>
      rw [← inductionHypothesis]
      exact logOf_congr declared rfl fun param member => change.attribute_eq native.kind member

/-- A native event of a declared kind becomes a log if and only if every parameter takes a value
from its attributes that can stand in a log, and the log is the one of these values. Nothing but the
first text under each parameter's key has a part in it, and a failure leaves no log behind. -/
theorem translation_exact (book : EventBook) (event : Event) (native : NativeEvent)
    (declared : book.events[native.kind]? = some event) :
    (∀ log, book.logOf native = .ok (some log) ↔ book.Translates event native log) ∧
      ((∃ log, book.logOf native = .ok (some log)) ↔
        ∀ param ∈ event.inputs, book.Provides native param) ∧
      book.logOf native ≠ .ok none ∧
      (∀ other : NativeEvent, other.kind = native.kind →
        (∀ param ∈ event.inputs, other.attribute? param.key = native.attribute? param.key) →
          book.logOf other = book.logOf native) ∧
      (∀ changed, Relation.ReflTransGen (Immaterial event) native.attributes changed →
        book.logOf { native with attributes := changed } = book.logOf native) ∧
      ∀ (scene : Scene) (machine : Machine) (fault : Fault), scene.book = some book →
        book.logOf native = .error fault → scene.emit native machine = (.error fault, machine) := by
  refine ⟨logOf_eq_ok_iff declared, exists_logOf_iff declared, logOf_ne_none declared, ?_, ?_, ?_⟩
  · intro other sameKind same
    exact logOf_congr declared sameKind same
  · intro changed immaterial
    exact logOf_immaterial declared immaterial
  · intro scene machine fault equipped failed
    simp only [Scene.emit, equipped, failed]

def memoSet : Event where
  name := "MemoSet"
  inputs := [⟨"memo", .root "string", true⟩, ⟨"creationHeight", .root "uint64", false⟩]

def memos : EventBook where
  address := 0x69
  events := (∅ : Map String Event).insert "memo_set" memoSet
  readers := ∅

theorem memoSet_translated :
    memos.events["memo_set"]? = some memoSet ∧
      memos.logOf ⟨"memo_set", [("memo", "hello"), ("creation_height", "42")]⟩ =
        .ok (some {
          address := 0x69
          topics := [memoSet.topic, Keccak.digest (textBytes "hello")]
          data := lengthWord 42 }) := by
  have declared : memos.events["memo_set"]? = some memoSet := by simp [memos]
  refine ⟨declared, ?_⟩
  apply ((translation_exact memos memoSet ⟨"memo_set", _⟩ declared).1 _).mpr
  refine ⟨[.string "hello", .uint 42 64], [Keccak.digest (textBytes "hello")], ?_, ?_, ?_⟩
  · refine .cons ⟨"hello", by decide, ?_⟩ (.cons ⟨"42", by decide, ?_⟩ .nil)
    · exact .literal .string (by simp [memos]) rfl rfl
    · exact .literal (.uint 64) (by simp [memos]) rfl rfl
  · exact .cons (.string "hello") .nil
  · rfl

end EventBook

end HostedEvm
