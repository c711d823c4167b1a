import HostedEvm.Proofs.Events.Translation
import HostedEvm.Proofs.Filing
import HostedEvm.Proofs.Precompile.Dispatch

set_option autoImplicit false

/-!
From the declared events of a contract to the logs that it can write.

The book of a contract files its events by kind, and an event that shares its kind with no other is
found under it. Whether all its native events become logs is not settled when the contract is built,
since tuples and nested arrays have no topic: a native event with such a value for an indexed
parameter is refused when it is emitted.
-/

namespace HostedEvm

open Abi

def Abi.Event.kind (event : Event) : String := Text.snakeCase event.name

namespace EventBook

/-- A native event becomes a log of the book's contract, with the topic of its event in front. -/
def Logs (book : EventBook) (event : Event) (native : NativeEvent) : Prop :=
  ∃ log, book.logOf native = .ok (some log) ∧ log.address = book.address ∧
    (event.anonymous = false → log.topics.head? = some event.topic)

def HasForms (book : EventBook) (event : Event) : Prop :=
  ∀ param ∈ event.inputs, param.indexed = true → book.readers[param.key]? = none ∧
    ∃ type, param.type.resolve? = some type ∧ type.hasTopics = true

def Lacks (book : EventBook) (native : NativeEvent) (param : Param) : Prop :=
  param.indexed = true ∧
    ∃ value, book.Reads native param value ∧ ∀ word, ¬ value.HasTopic word

/-- What a book makes of native events of an event's kind that have a value for every parameter. -/
structure Emits (book : EventBook) (event : Event) : Prop where
  handled : book.handles event.kind = true
  /-- Where every indexed value has a topic there is a log. -/
  formed : ∀ native : NativeEvent, native.kind = event.kind →
    (∀ param ∈ event.inputs, book.Provides native param) → book.Logs event native
  /-- For most types every value has one. -/
  typed : book.HasForms event → ∀ native : NativeEvent, native.kind = event.kind →
    (∀ param ∈ event.inputs, ∃ value, book.Reads native param value) → book.Logs event native
  /-- Where a value has none the fault tells which one. -/
  refused : ∀ native : NativeEvent, native.kind = event.kind →
    (∀ param ∈ event.inputs, ∃ value, book.Reads native param value) →
      (¬ ∀ param ∈ event.inputs, book.Provides native param) →
        ∃ param ∈ event.inputs, book.Lacks native param ∧ book.logOf native =
          .error (.codec (.noTopic event.name param.key param.type.shown))

variable {book : EventBook} {event : Event} {native : NativeEvent} {param : Param}

theorem logs_of_provides (declared : book.events[native.kind]? = some event)
    (provided : ∀ param ∈ event.inputs, book.Provides native param) :
    book.Logs event native := by
  obtain ⟨log, translated⟩ := (exists_logOf_iff declared).mpr provided
  obtain ⟨values, words, -, -, rfl⟩ := (logOf_eq_ok_iff declared log).mp translated
  refine ⟨_, translated, rfl, ?_⟩
  intro named
  simp [logWith, named]

theorem HasForms.provides (forms : book.HasForms event) (member : param ∈ event.inputs)
    {value : Value} (reads : book.Reads native param value) : book.Provides native param := by
  refine ⟨value, reads, ?_⟩
  intro indexed
  obtain ⟨unread, type, resolved, topics⟩ := forms param member indexed
  obtain ⟨text, -, (⟨read, own, -⟩ | ⟨type', -, resolved', spelled⟩)⟩ := reads
  · rw [unread] at own
    cases own
  · rw [resolved, Option.some.injEq] at resolved'
    subst resolved'
    exact Literal.exists_topic_of_read topics spelled

/-- A parameter with a value fails only because the value has no topic. -/
theorem noTopic_of_field_error {value : Value} (reads : book.Reads native param value)
    {fault : Fault} (failed : book.field event native param = .error fault) :
    book.Lacks native param ∧
      fault = .codec (.noTopic event.name param.key param.type.shown) := by
  obtain ⟨text, present, meaning⟩ := reads
  have valued : book.valueOf event param param.key text = .ok value :=
    valueOf_eq_ok_iff.mpr meaning
  rw [field_eq] at failed
  simp only [present, valued] at failed
  change fieldOf event param param.key value = _ at failed
  unfold fieldOf at failed
  split at failed
  · rename_i indexed
    split at failed
    · cases failed
    · rename_i formless
      cases failed
      have lacking := Value.topic?_eq_none_iff.mp formless
      exact ⟨⟨indexed, value, ⟨text, present, meaning⟩, lacking⟩, rfl⟩
  · cases failed

theorem refused_of_reads (declared : book.events[native.kind]? = some event)
    (reads : ∀ param ∈ event.inputs, ∃ value, book.Reads native param value)
    (lacking : ¬ ∀ param ∈ event.inputs, book.Provides native param) :
    ∃ param ∈ event.inputs, book.Lacks native param ∧ book.logOf native =
      .error (.codec (.noTopic event.name param.key param.type.shown)) := by
  cases translated : book.logOf native with
  | ok outcome =>
      cases outcome with
      | none => exact absurd translated (logOf_ne_none declared)
      | some log => exact absurd ((exists_logOf_iff declared).mp ⟨log, translated⟩) lacking
  | error fault =>
      rw [logOf_of_declared declared] at translated
      rcases error_of_bind translated with walked | ⟨fields, -, done⟩
      · obtain ⟨param, member, failed⟩ := mapM_fails walked
        obtain ⟨value, read⟩ := reads param member
        obtain ⟨lacks, rfl⟩ := noTopic_of_field_error read failed
        exact ⟨param, member, lacks, rfl⟩
      · cases done

theorem emits_of_found (found : book.events[event.kind]? = some event) : book.Emits event := by
  constructor
  · exact Std.ExtTreeMap.mem_iff_contains.mp (Map.mem_iff.mpr ⟨event, found⟩)
  · intro native ofKind provided
    exact logs_of_provides (ofKind ▸ found) provided
  · intro forms native ofKind reads
    apply logs_of_provides (ofKind ▸ found)
    intro param member
    obtain ⟨value, read⟩ := reads param member
    exact forms.provides member read
  · intro native ofKind reads lacking
    exact refused_of_reads (ofKind ▸ found) reads lacking

theorem events_ofInterface (address : Address) (interface : Interface)
    (readers : Map String AttributeReader) :
    (ofInterface address interface readers).events = Map.ofValues Event.kind interface.events :=
  rfl

end EventBook

namespace MethodContract

def kinds (contract : MethodContract) : List String := contract.interface.events.map Event.kind

variable {codec : AbiCodec} {contract : MethodContract} {readers : Map String AttributeReader}
  {container : Container}

theorem book_of_build (built : (Precompile.dynamic contract readers).build codec = .ok container) :
    container.book? = some (.ofInterface contract.address contract.interface readers) := by
  obtain ⟨table, -, made⟩ := exists_ok_of_bind built
  cases made
  rfl

/-- A dynamic contract has a book, and every event whose kind no other event has is emitted from
it. With different kinds the book has all the events. The contract is built if and only if its
functions and methods match, whatever its events are. -/
theorem events_emitted (codec : AbiCodec) (contract : MethodContract)
    (readers : Map String AttributeReader) :
    (∀ container, (Precompile.dynamic contract readers).build codec = .ok container →
      ∃ book, container.book? = some book ∧ book.address = contract.address ∧
        (∀ before event behind, contract.interface.events = before ++ event :: behind →
          event.kind ∉ (before ++ behind).map Event.kind → book.Emits event) ∧
        (contract.kinds.Nodup → book.size = contract.interface.events.length)) ∧
      ((∃ container, (Precompile.dynamic contract readers).build codec = .ok container) ↔
        contract.Matched) := by
  constructor
  · intro container built
    refine ⟨_, book_of_build built, rfl, ?_, ?_⟩
    · intro before event behind placed alone
      apply EventBook.emits_of_found
      rw [EventBook.events_ofInterface, placed]
      apply Map.get_ofValues_last
      rw [List.map_append, List.mem_append, not_or] at alone
      exact alone.2
    · exact (Map.size_ofValues_eq_length_iff Event.kind contract.interface.events).mpr
  · exact (Precompile.Declares.dynamic readers).builds_iff

def opened : Event where
  name := "Opened"
  inputs := []

def paidOut : Event where
  name := "PaidOut"
  inputs := [⟨"to", .root "address", true⟩, ⟨"shares", .array (.root "uint256"), true⟩,
    ⟨"amount", .root "uint256", false⟩]

def cashier : MethodContract where
  address := 9
  interface := { events := [opened, paidOut] }
  methods := []

theorem paidOut_emitted :
    ∃ container book, (Precompile.dynamic cashier ∅).build .standard = .ok container ∧
      container.book? = some book ∧ book.size = 2 ∧
      book.Logs paidOut ⟨"paid_out", [("amount", "5"), ("shares", "[1, 2]"),
        ("to", "0x0000000000000000000000000000000000000007")]⟩ := by
  obtain ⟨emitted, builds⟩ := events_emitted .standard cashier ∅
  have apart : cashier.kinds.Nodup := by decide
  obtain ⟨container, built⟩ := builds.mpr (by constructor <;> decide)
  obtain ⟨book, equipped, -, emits, counts⟩ := emitted container built
  obtain rfl := Option.some.inj ((book_of_build built).symm.trans equipped)
  have unread (key : String) : (∅ : Map String AttributeReader)[key]? = none := by simp
  refine ⟨container, _, built, equipped, counts apart, ?_⟩
  apply (emits [opened] paidOut [] rfl (by decide)).typed
  · simp only [EventBook.HasForms, paidOut, List.forall_mem_cons]
    refine ⟨fun _ => ⟨unread _, .address, rfl, rfl⟩,
      fun _ => ⟨unread _, .array (.uint 256), rfl, rfl⟩, nofun, nofun⟩
  · decide
  · simp only [paidOut, List.forall_mem_cons]
    refine ⟨⟨.address 7, "0x0000000000000000000000000000000000000007", by decide, ?_⟩,
      ⟨.array [.uint 1 256, .uint 2 256], "[1, 2]", by decide, ?_⟩,
      ⟨.uint 5 256, "5", by decide, ?_⟩, nofun⟩
    · exact .literal .address (unread _) rfl rfl
    · exact .literal (.array (.uint 256)) (unread _) rfl rfl
    · exact .literal (.uint 256) (unread _) rfl rfl

def grid : Event where
  name := "Grid"
  inputs := [⟨"cells", .array (.array (.root "uint256")), true⟩]

def moved : Event where
  name := "Moved"
  inputs := [⟨"amount", .root "uint256", false⟩]

/-- Another event of the same kind. -/
def movedTo : Event where
  name := "moved"
  inputs := [⟨"to", .root "address", false⟩]

def drawing : MethodContract where
  address := 9
  interface := { events := [grid, moved, movedTo] }
  methods := []

def drawn : NativeEvent := ⟨"grid", [("cells", "[[1]]")]⟩

def movement : NativeEvent := ⟨"moved", [("amount", "1")]⟩

/-- A contract that is built although two of its events are refused with values for all of their
parameters: one since its value has no topic, and one since a later event has its kind. -/
theorem drawing_not_emitted :
    ∃ container book, (Precompile.dynamic drawing ∅).build .standard = .ok container ∧
      container.book? = some book ∧
      (drawn.kind = grid.kind ∧
        (∀ param ∈ grid.inputs, ∃ value, book.Reads drawn param value) ∧
        book.logOf drawn = .error (.codec (.noTopic "Grid" "cells" "uint256[][]"))) ∧
      (movement.kind = moved.kind ∧
        (∀ param ∈ moved.inputs, ∃ value, book.Reads movement param value) ∧
        book.logOf movement = .error (.missingAttribute "moved" "to")) ∧
      book.size ≠ drawing.interface.events.length := by
  have declares : Precompile.Declares drawing (.dynamic drawing ∅) := .dynamic ∅
  obtain ⟨container, built⟩ := declares.builds_iff.mpr (by constructor <;> decide)
  have unread (key : String) : (∅ : Map String AttributeReader)[key]? = none := by simp
  let book := EventBook.ofInterface 9 drawing.interface ∅
  have gridFound : book.events[drawn.kind]? = some grid :=
    @Map.get_ofValues_last _ _ _ _ _ _ Event.kind [] [moved, movedTo] grid (by decide)
  have movedFound : book.events[movement.kind]? = some movedTo :=
    @Map.get_ofValues_last _ _ _ _ _ _ Event.kind [grid, moved] [] movedTo (by decide)
  have cells : book.Means ⟨"cells", .array (.array (.root "uint256")), true⟩ "[[1]]"
      (.array [.array [.uint 1 256]]) :=
    .literal (.array (.array (.uint 256))) (unread _) rfl (by rfl)
  have amount : book.Means ⟨"amount", .root "uint256", false⟩ "1" (.uint 1 256) :=
    .literal (.uint 256) (unread _) rfl rfl
  refine ⟨container, book, built, book_of_build built, ⟨by decide, ?_, ?_⟩,
    ⟨by decide, ?_, ?_⟩, ?_⟩
  · simp only [grid, List.forall_mem_cons]
    exact ⟨⟨_, "[[1]]", by decide, cells⟩, nofun⟩
  · rw [EventBook.logOf_of_declared gridFound]
    rfl
  · simp only [moved, List.forall_mem_cons]
    exact ⟨⟨_, "1", by decide, amount⟩, nofun⟩
  · rw [EventBook.logOf_of_declared movedFound]
    rfl
  · change (Map.ofValues Event.kind drawing.interface.events).size ≠ _
    rw [ne_eq, Map.size_ofValues_eq_length_iff]
    decide

end MethodContract

end HostedEvm
