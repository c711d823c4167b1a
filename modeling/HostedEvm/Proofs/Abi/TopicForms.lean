import HostedEvm.Abi.Literal
import HostedEvm.Proofs.Outcome

set_option autoImplicit false

/-!
Which values have a topic.

A single word is its own topic. A text or a byte string has the digest of its bytes, and an array of
single words the digest of the words one behind the other. For most types every value that a text
can spell has a topic, and only tuples and nested arrays are left.
-/

namespace HostedEvm.Abi

namespace AbiType

def isWord : AbiType → Bool
  | .uint _ | .int _ | .bool | .address | .fixedBytes _ | .function => true
  | _ => false

def hasTopics : AbiType → Bool
  | .bytes | .string => true
  | .array element | .fixedArray element _ => element.isWord
  | type => type.isWord

end AbiType

namespace Value

inductive AsWord : Value → Word → Prop
  | uint (word : Word) (bits : Nat) : AsWord (.uint word bits) word
  | int (word : Word) (bits : Nat) : AsWord (.int word bits) word
  | fixedBytes (word : Word) (size : Nat) : AsWord (.fixedBytes word size) word
  | bool (flag : Bool) : AsWord (.bool flag) (if flag then 1 else 0)
  | address (account : Address) : AsWord (.address account) (account.setWidth 256)
  | function (target : BitVec 192) : AsWord (.function target) (target.setWidth 256 <<< 64)

/-- The word that stands for a value among the topics of a log. -/
inductive HasTopic : Value → Word → Prop
  | word {value word} : AsWord value word → HasTopic value word
  | string (text : String) : HasTopic (.string text) (Keccak.digest (textBytes text))
  | bytes (content : Bytes) : HasTopic (.bytes content) (Keccak.digest content)
  | array {values words} : List.Forall₂ AsWord values words →
      HasTopic (.array values) (Keccak.digest (words.flatMap Bytes.ofWord))
  | fixedArray {values words} : List.Forall₂ AsWord values words →
      HasTopic (.fixedArray values) (Keccak.digest (words.flatMap Bytes.ofWord))

theorem word?_eq_some_iff {value : Value} {word : Word} :
    value.word? = some word ↔ value.AsWord word := by
  constructor
  · intro single
    cases value with
    | bytes | string | array | fixedArray | tuple => cases single
    | _ =>
        simp only [word?, Option.some.injEq] at single
        rw [← single]
        constructor
  · rintro (_ | _ | _ | _ | _ | _) <;> rfl

theorem words_eq_some_iff {values : List Value} {words : List Word} :
    values.mapM word? = some words ↔ List.Forall₂ AsWord values words := by
  induction values generalizing words with
  | nil => simp [eq_comm]
  | cons value rest inductionHypothesis =>
      simp only [List.mapM_cons, Option.pure_def, Option.bind_eq_bind, Option.bind_eq_some_iff,
        Option.some.injEq, word?_eq_some_iff, inductionHypothesis, List.forall₂_cons_left_iff,
        exists_and_left, @eq_comm _ _ words]

/-- The executable topic is the one of the forms. -/
theorem topic?_eq_some_iff {value : Value} {word : Word} :
    value.topic? = some word ↔ value.HasTopic word := by
  constructor
  · intro form
    cases value with
    | string text =>
        cases form
        exact .string text
    | bytes content =>
        cases form
        exact .bytes content
    | array values =>
        obtain ⟨words, single, rfl⟩ := Option.map_eq_some_iff.mp form
        exact .array (words_eq_some_iff.mp single)
    | fixedArray values =>
        obtain ⟨words, single, rfl⟩ := Option.map_eq_some_iff.mp form
        exact .fixedArray (words_eq_some_iff.mp single)
    | _ => exact .word (word?_eq_some_iff.mp form)
  · intro form
    cases form with
    | word single => cases single <;> rfl
    | string | bytes => rfl
    | array single | fixedArray single =>
        simp only [topic?, words_eq_some_iff.mpr single, Option.map_some]

theorem topic?_eq_none_iff {value : Value} :
    value.topic? = none ↔ ∀ word, ¬ value.HasTopic word := by
  simp only [Option.eq_none_iff_forall_not_mem, Option.mem_def, topic?_eq_some_iff]

def IsWord (value : Value) : Prop := ∃ word, value.AsWord word

theorem exists_words {values : List Value} (single : ∀ value ∈ values, value.IsWord) :
    ∃ words, List.Forall₂ AsWord values words := by
  induction values with
  | nil => exact ⟨[], .nil⟩
  | cons value rest inductionHypothesis =>
      obtain ⟨⟨word, first⟩, singleRest⟩ := List.forall_mem_cons.mp single
      obtain ⟨words, others⟩ := inductionHypothesis singleRest
      exact ⟨word :: words, .cons first others⟩

end Value

namespace Literal

theorem Scanner.of_map {Source Target : Type} {f : Source → Target} {scan : Scanner Source}
    {text rest : List Char} {result : Target} (scanned : scan.map f text = .ok (result, rest)) :
    ∃ source, result = f source := by
  obtain ⟨⟨source, behind⟩, -, done⟩ := exists_ok_of_bind scanned
  cases done
  exact ⟨source, rfl⟩

section Lists

variable {Result : Type} {holds : Result → Prop} {scan : Scanner Result}

/-- What holds of every value that is scanned holds of all of them. -/
theorem forall_of_scanMore
    (each : ∀ text value rest, scan text = .ok (value, rest) → holds value) {fuel : Nat}
    {text rest : List Char} {values : List Result}
    (scanned : scanMore scan fuel text = .ok (values, rest)) : ∀ value ∈ values, holds value := by
  induction fuel generalizing text values with
  | zero =>
      cases scanned
      exact List.forall_mem_nil _
  | succ fuel inductionHypothesis =>
      unfold scanMore at scanned
      split at scanned
      · cases scanned
        exact List.forall_mem_nil _
      · split at scanned
        · rename_i first behind found
          obtain ⟨⟨others, left⟩, scannedOn, done⟩ := exists_ok_of_bind scanned
          cases done
          exact List.forall_mem_cons.mpr ⟨each _ first behind found, inductionHypothesis scannedOn⟩
        · cases scanned
          exact List.forall_mem_nil _
        · cases scanned

theorem forall_of_scanList
    (each : ∀ text value rest, scan text = .ok (value, rest) → holds value) {depth : Nat}
    {text rest : List Char} {values : List Result}
    (scanned : scanList depth scan text = .ok (values, rest)) : ∀ value ∈ values, holds value := by
  obtain ⟨inside, -, scannedOn⟩ := exists_ok_of_bind scanned
  dsimp only at scannedOn
  split at scannedOn
  · cases scannedOn
    exact List.forall_mem_nil _
  · split at scannedOn
    · cases scannedOn
    · obtain ⟨⟨first, behind⟩, found, scannedMore⟩ := exists_ok_of_bind scannedOn
      obtain ⟨⟨others, left⟩, foundMore, closing⟩ := exists_ok_of_bind scannedMore
      obtain ⟨outside, -, done⟩ := exists_ok_of_bind closing
      cases done
      exact List.forall_mem_cons.mpr ⟨each _ first behind found, forall_of_scanMore each foundMore⟩

end Lists

variable {type : AbiType} {closing : Option Char} {depth : Nat} {text rest : List Char}
  {value : Value}

theorem isWord_of_scanValue (single : type.isWord = true)
    (scanned : scanValue type closing depth text = .ok (value, rest)) : value.IsWord := by
  cases type with
  | bytes | string | array | fixedArray | tuple => cases single
  | _ =>
      unfold scanValue at scanned
      obtain ⟨source, rfl⟩ := Scanner.of_map scanned
      exact ⟨_, by constructor⟩

theorem exists_topic_of_scanValue (topics : type.hasTopics = true)
    (scanned : scanValue type closing depth text = .ok (value, rest)) :
    ∃ word, value.HasTopic word := by
  cases type with
  | bytes =>
      unfold scanValue at scanned
      obtain ⟨source, rfl⟩ := Scanner.of_map scanned
      exact ⟨_, .bytes source⟩
  | string =>
      unfold scanValue at scanned
      obtain ⟨source, rfl⟩ := Scanner.of_map scanned
      exact ⟨_, .string source⟩
  | array element =>
      unfold scanValue at scanned
      obtain ⟨⟨values, behind⟩, found, done⟩ := exists_ok_of_bind scanned
      cases done
      obtain ⟨words, single⟩ := Value.exists_words
        (forall_of_scanList (fun _ _ _ => isWord_of_scanValue topics) found)
      exact ⟨_, .array single⟩
  | fixedArray element count =>
      unfold scanValue at scanned
      obtain ⟨⟨values, behind⟩, found, counted⟩ := exists_ok_of_bind scanned
      obtain ⟨words, single⟩ := Value.exists_words
        (forall_of_scanList (fun _ _ _ => isWord_of_scanValue topics) found)
      dsimp only at counted
      split at counted
      · cases counted
        exact ⟨_, .fixedArray single⟩
      · cases counted
  | tuple => cases topics
  | _ =>
      obtain ⟨word, single⟩ := isWord_of_scanValue rfl scanned
      exact ⟨word, .word single⟩

/-- A text that spells a value of a type with topics spells one that has a topic. -/
theorem exists_topic_of_read {text : String} (topics : type.hasTopics = true)
    (spelled : read type text = .ok value) : ∃ word, value.HasTopic word := by
  obtain ⟨⟨scanned, behind⟩, found, whole⟩ := exists_ok_of_bind spelled
  cases behind with
  | nil =>
      cases whole
      exact exists_topic_of_scanValue topics found
  | cons => cases whole

end Literal

end HostedEvm.Abi
