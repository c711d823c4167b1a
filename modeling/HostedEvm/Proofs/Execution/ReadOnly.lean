import HostedEvm.Proofs.Execution.Atomicity
import HostedEvm.Proofs.Precompile.Observation
import HostedEvm.Proofs.State.Reads

set_option autoImplicit false

/-!
Calls that must not change the state.

A handler that writes only where it may write is still no bar to all changes in a call that must not
change the state. An event that it emits becomes a log, and a call that it makes is answered like
any other: only the value of the call is refused. The states that such a call can reach are those
that these two ways lead to, one after the other.
-/

namespace HostedEvm

/-- A method whose handler writes nothing itself in a call that must not change the state. -/
def Method.GuardsWrites (method : Method) : Prop :=
  ∀ invocation arguments, invocation.readonly = true →
    (method.handler invocation arguments).Only fun command => command.writes = false

namespace TransferMachine

open JournaledState

/-- What a precompile at an address can reach from a state with the requests that it makes, one
after the other. An event that is declared leaves its log. A call without value leaves its input as
a log where there is no precompile, and what the precompile does where there is one, unless it
fails. Any request may come to nothing. -/
inductive Reaches (registry : Registry) (remaining : Nat) (book : Option EventBook)
    (own : Address) (start : JournaledState) : List Request → JournaledState → Prop
  | start : Reaches registry remaining book own start [] start
  | look {made state later} : Reaches registry remaining book own start made state →
      later.SameView state → Reaches registry remaining book own start made later
  | pass {made state request} : Reaches registry remaining book own start made state →
      Reaches registry remaining book own start (made ++ [request]) state
  | emit {made state declared event log} : Reaches registry remaining book own start made state →
      book = some declared → declared.logOf event = .ok (some log) →
      Reaches registry remaining book own start (made ++ [.emit event]) (state.addLog log)
  | echo {made state recipient input gas} : Reaches registry remaining book own start made state →
      remaining ≠ 0 → registry.contains recipient = false → input ≠ [] →
      input.head? ≠ some invalidOperation → logGas.plus (perByte logByteGas input) ≤ gas →
      Reaches registry remaining book own start (made ++ [.call recipient input gas 0])
        (state.addLog { address := recipient, topics := [Keccak.digest input], data := input })
  | call {made} {machine : Machine} {deeper recipient input gas} :
      Reaches registry remaining book own start made machine.state → remaining = deeper + 1 →
      registry.contains recipient = true →
      (∀ fault, (registry.run (answer registry deeper) { address := recipient, caller := own }
        input gas machine).1.output = .error fault → fault.isFatal = true) →
      Reaches registry remaining book own start (made ++ [.call recipient input gas 0])
        (registry.run (answer registry deeper) { address := recipient, caller := own } input gas
          machine).2.state

variable {registry : Registry} {remaining : Nat} {book : Option EventBook} {own : Address}
  {start : JournaledState} {made : List Request} {nested : Answer}

theorem Reaches.passAll {state : JournaledState}
    (reached : Reaches registry remaining book own start made state) (further : List Request) :
    Reaches registry remaining book own start (made ++ further) state := by
  induction further generalizing made with
  | nil => exact (List.append_nil made).symm ▸ reached
  | cons request others inductionHypothesis =>
      rw [List.append_cons]
      exact inductionHypothesis reached.pass

theorem execute_reaches {deeper : Nat} (below : remaining = deeper + 1) (recipient : Address)
    (input : Bytes) (gas : Gas) {machine : Machine}
    (reached : Reaches registry remaining book own start made machine.state)
    (kept : ∀ fault, (execute registry (answer registry deeper) ⟨own, recipient, input, gas, 0⟩
      machine).1.output = .error fault → fault.isFatal = true) :
    Reaches registry remaining book own start (made ++ [.call recipient input gas 0])
      (execute registry (answer registry deeper) ⟨own, recipient, input, gas, 0⟩
        machine).2.state := by
  revert kept
  unfold execute
  split
  · rename_i known
    intro kept
    exact reached.call below known kept
  · rename_i unknown
    split
    · exact fun _ => reached.pass
    · rename_i valid
      split
      · exact fun _ => reached.pass
      · rename_i filled
        unfold leaveLog
        simp only
        split
        · exact fun _ => reached.pass
        · rename_i affordable
          intro _
          refine reached.echo (by simp [below]) (Bool.eq_false_iff.mpr unknown) ?_ valid
            (UInt64.not_lt.mp affordable)
          intro empty
          rw [empty] at filled
          exact filled rfl

theorem answer_reaches (wellNested : registry.WellNested) (recipient : Address) (input : Bytes)
    (gas : Gas) {machine : Machine}
    (reached : Reaches registry remaining book own start made machine.state) :
    Reaches registry remaining book own start (made ++ [.call recipient input gas 0])
      (answer registry remaining ⟨own, recipient, input, gas, 0⟩ machine).2.state := by
  cases below : remaining with
  | zero =>
      rw [below] at reached
      exact reached.pass
  | succ deeper =>
      rw [← below]
      have answered : (answer registry remaining ⟨own, recipient, input, gas, 0⟩ machine).2 =
          (call registry (answer registry deeper) ⟨own, recipient, input, gas, 0⟩
            (machine.record ⟨own, recipient, input, gas, 0⟩)).2 := by
        rw [below]
        rfl
      rw [answered]
      -- a call that fails is taken back, so only what a kept one has done can be seen
      rcases call_kept_or_undone wellNested.returning (answer_contained wellNested deeper)
        ⟨own, recipient, input, gas, 0⟩ (machine.record ⟨own, recipient, input, gas, 0⟩) with
        ⟨made, kept⟩ | ⟨grown, undone, _⟩
      · rw [made]
        exact execute_reaches below recipient input gas
          (reached.look machine.state.sameView_snapshot) kept
      · rw [undone]
        exact reached.pass.look (restoredTo_sameView grown)

theorem emit_reaches (invocation : Invocation) (nested : Answer) (event : NativeEvent)
    {machine : Machine} (reached : Reaches registry remaining book own start made machine.state) :
    Reaches registry remaining book own start (made ++ [.emit event])
      (Scene.emit ⟨invocation, book, nested⟩ event machine).2.state := by
  unfold Scene.emit
  split
  · exact reached.pass
  · rename_i declared known
    split
    · exact reached.pass
    · exact reached.pass
    · rename_i log laid
      exact reached.emit known laid

/-- The value of a nested call is refused, and nothing else about it. -/
theorem call_reaches (wellNested : registry.WellNested) {invocation : Invocation}
    (readonly : invocation.readonly = true) (recipient : Address) (input : Bytes) (gas : Gas)
    (value : Word) {machine : Machine}
    (reached : Reaches registry remaining book invocation.address start made machine.state) :
    Reaches registry remaining book invocation.address start
      (made ++ [.call recipient input gas value])
      (Scene.call ⟨invocation, book, answer registry remaining⟩ recipient input gas value
        machine).2.state := by
  unfold Scene.call
  split
  · exact reached.pass
  · rename_i allowed
    have free : value = 0 := by simpa [readonly] using allowed
    subst free
    have unpriced := reached.look (machine.state.sameView_withPrices .free)
    have answered := @answer_reaches registry remaining book invocation.address start made
      wellNested recipient input gas (machine.withPrices .free) unpriced
    exact answered.look (sameView_withPrices _ _)

/-- A call of a guarded precompile that must not change the state can end in no other states than
those that the events and the calls without value that it makes lead to, in their order. If it
fails, nothing can be seen of it, unless the host gave up. -/
theorem run_readonly (wellNested : registry.WellNested) {container : Container}
    {invocation : Invocation} (registered : registry.get? invocation.address = some container)
    (guarded : container.Every Method.GuardsWrites) (readonly : invocation.readonly = true)
    (remaining : Nat) (input : Bytes) (supplied : Gas) (machine : Machine) :
    let ran := registry.run (answer registry remaining) invocation input supplied machine
    Reaches registry remaining container.book? invocation.address machine.state
        (registry.requests (answer registry remaining) invocation input machine) ran.2.state ∧
      (Returned ran.1.output → ∀ fault, ran.1.output = .error fault →
        ran.2.state.SameView machine.state) := by
  have contained := answer_contained wellNested remaining
  have reads : ∀ command : StateCommand, command.writes = false → command.isReversible = true →
      ∀ (made : List Request) (state : JournaledState),
        Reaches registry remaining container.book? invocation.address machine.state made state →
        Reaches registry remaining container.book? invocation.address machine.state made
          (command.run state).2 :=
    fun _ reads reversible _ state reached =>
      reached.look (StateCommand.sameView_run reads reversible state)
  refine ⟨?_, ?_⟩
  · exact @Registry.run_observed _ _ ⟨invocation, container.book?, answer registry remaining⟩
      (fun _ _ _ same reached => reached.look same)
      (fun _ further _ reached => reached.passAll further)
      reads (fun event _ _ reached => emit_reaches invocation _ event reached)
      (fun recipient passed gas value _ _ reached =>
        call_reaches wellNested readonly recipient passed gas value reached)
      contained registry container registered rfl (wellNested _ container registered)
      (guarded.imp fun _ own arguments => own invocation arguments readonly) input supplied machine
      .start
  · intro returned
    exact (Registry.run_atomic wellNested contained invocation input supplied machine
      returned).undone

def single (address : Address) (handler : Handler) : Container :=
  .dispatching
    { address
      methods := (∅ : Map Selector BoundMethod).insert 1
        ⟨{ name := "f", inputs := [] }, { signature := "f()", handler }⟩
      codec := .standard
      book := none }

theorem single_every {property : Method → Prop} (address : Address) {handler : Handler}
    (holds : property { signature := "f()", handler }) : (single address handler).Every property :=
  Map.every_empty.insert 1 holds

def relaying : Handler := fun _ _ =>
  .call 5 [1] 100000 0 fun _ => .call 10 [0, 0, 0, 1] 100000 0 fun _ => .finish (.ok [])

def storing : Handler := fun invocation _ =>
  if invocation.readonly then .fail .writeProtection
  else .perform (.store (.setSlot 10 7 1)) fun _ => .finish (.ok [])

def relayRegistry : Registry where
  containers := ((∅ : Map Address Container).insert 10 (single 10 storing)).insert 9
    (single 9 relaying)

theorem relayRegistry_wellNested : relayRegistry.WellNested := by
  refine (Map.every_empty.insert 10 (single_every 10 ?_)).insert 9 (single_every 9 ?_)
  · intro invocation arguments
    simp only [storing]
    split
    · exact .finish
    · exact .perform rfl fun _ => .finish
  · intro invocation arguments
    exact .call fun _ => .call fun _ => .finish

theorem relayRegistry_get : relayRegistry.get? 9 = some (single 9 relaying) := by
  unfold Registry.get? relayRegistry
  rw [Map.get_insert, if_pos rfl]

theorem relaying_guarded : (single 9 relaying).Every Method.GuardsWrites := by
  apply single_every
  intro invocation arguments readonly
  exact .call fun _ => .call fun _ => .finish

theorem storing_guarded : (single 10 storing).Every Method.GuardsWrites := by
  apply single_every
  intro invocation arguments readonly
  simp only [storing, if_pos readonly]
  exact .finish

theorem relayRegistry_guarded :
    relayRegistry.containers.Every fun container => container.Every Method.GuardsWrites :=
  (Map.every_empty.insert 10 storing_guarded).insert 9 relaying_guarded

def relayedRun : PrecompileResult × Machine :=
  relayRegistry.run (answer relayRegistry 3) ⟨9, 4, 0, true⟩ [0, 0, 0, 1] 100000 {}

theorem relayedRun_reaches :
    relayRegistry.WellNested ∧ relayRegistry.get? 9 = some (single 9 relaying) ∧
      (single 9 relaying).Every Method.GuardsWrites ∧
      Reaches relayRegistry 3 none 9 {}
        [.call 5 [1] 100000 0, .call 10 [0, 0, 0, 1] 100000 0] relayedRun.2.state ∧
      relayedRun.2.state.logs.entries.length = 1 ∧
      (relayedRun.2.state.store.accounts.account 10).slot 7 = 1 := by
  have reached := @run_readonly relayRegistry relayRegistry_wellNested _ ⟨9, 4, 0, true⟩
    relayRegistry_get relaying_guarded rfl 3 [0, 0, 0, 1] 100000 {}
  rw [← relayedRun] at reached
  have asked : relayRegistry.requests (answer relayRegistry 3) ⟨9, 4, 0, true⟩ [0, 0, 0, 1] {} =
      [.call 5 [1] 100000 0, .call 10 [0, 0, 0, 1] 100000 0] := by decide +kernel
  rw [asked] at reached
  exact ⟨relayRegistry_wellNested, relayRegistry_get, relaying_guarded, reached.1,
    by decide +kernel, by decide +kernel⟩

/-- A call that must not change the state changes accounts and logs all the same, and every handler
asks before it writes. -/
theorem readonly_writes :
    ¬ ∀ (registry : Registry) (invocation : Invocation) (remaining : Nat) (input : Bytes)
        (supplied : Gas) (machine : Machine),
      registry.WellNested → (registry.get? invocation.address).isSome = true →
      (registry.containers.Every fun container => container.Every Method.GuardsWrites) →
      invocation.readonly = true →
      (registry.run (answer registry remaining) invocation input supplied
        machine).2.state.SameView machine.state := by
  intro claimed
  have same := claimed relayRegistry ⟨9, 4, 0, true⟩ 3 [0, 0, 0, 1] 100000 {}
    relayRegistry_wellNested (congrArg Option.isSome relayRegistry_get) relayRegistry_guarded rfl
  rw [← relayedRun] at same
  have written : (relayedRun.2.state.store.accounts.account 10).slot 7 = 1 := by decide +kernel
  rw [same.accounts] at written
  exact absurd written (by decide +kernel)

end TransferMachine

end HostedEvm
