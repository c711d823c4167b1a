import HostedEvm.Proofs.Map
import HostedEvm.Proofs.State.Past

set_option autoImplicit false

/-!
Stores that share their past.

A view has accounts of its own, but what it files when it starts a block goes into the past that it
shares with the store it was taken of. A store reads of the past what was filed before its own count
of blocks. So it notices nothing of a view that has started at least as many blocks, while a view
that has fallen behind files over what the store has filed.
-/

namespace HostedEvm

namespace Store

variable {known later : UInt64 → Prop} {first second : Store}

def withHistory (store : Store) (history : Map UInt64 Accounts) : Store := { store with history }

/-- Stores that differ in nothing but what is filed under numbers that are not known. A store knows
the blocks it has started. -/
structure Alike (known : UInt64 → Prop) (first second : Store) : Prop where
  own : first.withHistory second.history = second
  filed : ∀ number, known number → first.history[number]? = second.history[number]?
  started : ∀ number, number < second.blocks → known number

namespace Alike

theorem blocks (alike : Alike known first second) : first.blocks = second.blocks := by
  rw [← alike.own]
  rfl

theorem committed (alike : Alike known first second) : first.committed = second.committed := by
  rw [← alike.own]
  rfl

theorem refl (store : Store) : Alike (fun number => number < store.blocks) store store :=
  ⟨rfl, fun _ _ => rfl, fun _ before => before⟩

theorem narrow (alike : Alike known first second) :
    Alike (fun number => number < second.blocks) first second :=
  ⟨alike.own, fun number before => alike.filed number (alike.started number before),
    fun _ before => before⟩

theorem trans {third : Store} (start : Alike (fun number => number < second.blocks) first second)
    (rest : Alike (fun number => number < third.blocks) second third) :
    Alike (fun number => number < third.blocks) first third := by
  refine ⟨?_, ?_, fun _ before => before⟩
  · rw [← rest.own, ← start.own]
    rfl
  · intro number before
    have earlier : number < second.blocks := rest.blocks ▸ before
    exact (start.filed number earlier).trans (rest.filed number before)

theorem onto (alike : Alike known first second) (accounts : Accounts) :
    Alike known (first.onto accounts) (second.onto accounts) where
  own := by simp [withHistory, Store.onto, alike.blocks]
  filed := alike.filed
  started := alike.started

theorem view? (alike : Alike known first second) (number : UInt64) :
    (∃ fault, first.view? number = .error fault ∧ second.view? number = .error fault) ∨
      ∃ accounts, first.view? number = .ok (first.onto accounts) ∧
        second.view? number = .ok (second.onto accounts) := by
  unfold Store.view?
  rw [alike.blocks, alike.committed]
  by_cases ahead : second.blocks ≤ number
  · exact .inr ⟨second.committed, if_pos ahead, if_pos ahead⟩
  · rw [if_neg ahead, if_neg ahead, alike.filed number (alike.started _ (UInt64.not_le.mp ahead))]
    cases second.history[number]? with
    | none => exact .inl ⟨_, rfl, rfl⟩
    | some accounts => exact .inr ⟨accounts, rfl, rfl⟩

theorem after (alike : Alike known first second) {view other : Store}
    (used : Alike later view other) (wider : ∀ number, known number → later number) :
    Alike later (first.after view) (second.after other) where
  own := by
    rw [← alike.own]
    rfl
  filed := used.filed
  started number before := wider number (alike.started number before)

theorem beginBlock (alike : Alike known first second) :
    Alike (fun number => known number ∨ number = second.blocks) first.beginBlock
      second.beginBlock where
  own := by
    rw [← alike.own]
    rfl
  filed := by
    intro number listed
    have front : ∀ store : Store, store.beginBlock.history[number]? =
        if store.blocks = number then some store.committed else store.history[number]? :=
      fun _ => Map.get_insert ..
    rw [front, front, alike.blocks, alike.committed]
    split
    · rfl
    · rename_i other
      exact alike.filed number (listed.resolve_right (Ne.symm other))
  started := by
    intro number before
    have below : number.toNat < (second.blocks.toNat + 1) % UInt64.size := before
    have fits := Nat.mod_le (second.blocks.toNat + 1) UInt64.size
    by_cases last : number = second.blocks
    · exact .inr last
    · refine .inl (alike.started number ?_)
      have apart : number.toNat ≠ second.blocks.toNat := fun same => last (UInt64.toNat_inj.mp same)
      rw [UInt64.lt_iff_toNat_lt]
      omega

end Alike

theorem rewind_withHistory (id : Nat) (store : Store) (history : Map UInt64 Accounts) :
    (store.withHistory history).rewind id = (store.rewind id).withHistory history := by
  by_cases taken : id < store.saved.length
  · cases found : store.saved.drop (store.saved.length - (id + 1)) <;>
      simp [rewind, withHistory, taken, found]
  · simp [rewind, withHistory, taken]

theorem isEmpty_withHistory (store : Store) (address : Address)
    (history : Map UInt64 Accounts) :
    (store.withHistory history).isEmpty address =
      ((store.isEmpty address).1, (store.isEmpty address).2.withHistory history) := by
  have nonce : (store.withHistory history).nonce address =
      ((store.nonce address).1, (store.nonce address).2.withHistory history) := rfl
  have balance : ∀ read : Store, (read.withHistory history).balance address =
      ((read.balance address).1, (read.balance address).2.withHistory history) := fun _ => rfl
  simp only [isEmpty, nonce, balance]
  by_cases used : (store.nonce address).1 ≠ 0
  · rw [if_pos used, if_pos used]
  · rw [if_neg used, if_neg used]
    by_cases funded : ((store.nonce address).2.balance address).1 ≠ 0
    · rw [if_pos funded, if_pos funded]
    · rw [if_neg funded, if_neg funded]
      rfl

theorem delete_withHistory (store : Store) (addresses : List Address)
    (history : Map UInt64 Accounts) :
    (store.withHistory history).delete addresses =
      (store.delete addresses).withHistory history := by
  unfold delete
  induction addresses generalizing store with
  | nil => rfl
  | cons address rest inductionHypothesis => exact inductionHypothesis (store.deleteOne address)

end Store

namespace StoreCommand

open Store

/-- Whether a command neither reads what is filed nor files anything. -/
def isPlain : StoreCommand → Bool
  | .beginBlock => false
  | .view _ _ => false
  | _ => true

theorem run_withHistory {command : StoreCommand} (plain : command.isPlain) (store : Store)
    (history : Map UInt64 Accounts) :
    command.run (store.withHistory history) =
      ((command.run store).1, (command.run store).2.withHistory history) := by
  cases command with
  | beginBlock => cases plain
  | view number steps => cases plain
  | rewind id => simp only [run, rewind_withHistory]
  | isEmpty address => simp only [run, read, isEmpty_withHistory]
  | delete addresses => simp only [run, delete_withHistory]
  | _ => rfl

variable {known : UInt64 → Prop} {first second : Store}

theorem alike_of_plain {command : StoreCommand} (plain : command.isPlain)
    (alike : Alike known first second) :
    (command.run first).1 = (command.run second).1 ∧
      Alike known (command.run first).2 (command.run second).2 := by
  have same := run_withHistory plain first second.history
  rw [alike.own] at same
  have free : command.beginsBlock = false := by
    cases command with
    | beginBlock => cases plain
    | view number steps => cases plain
    | _ => rfl
  have before := samePast_run command free first
  have behind := samePast_run command free second
  refine ⟨(congrArg Prod.fst same).symm, ?_, ?_, ?_⟩
  · rw [behind.history]
    exact (congrArg Prod.snd same).symm
  · rw [before.history, behind.history]
    exact alike.filed
  · rw [behind.blocks]
    exact alike.started

/-- Stores that differ in nothing they know of answer a command alike, and still differ in nothing
they know of behind it. -/
def AnsweredAlike (command : StoreCommand) : Prop :=
  ∀ {known : UInt64 → Prop} {first second : Store}, Alike known first second →
    (command.run first).1 = (command.run second).1 ∧
      ∃ later : UInt64 → Prop, (∀ number, known number → later number) ∧
        Alike later (command.run first).2 (command.run second).2

theorem runAll_alike {commands : List StoreCommand}
    (each : ∀ command ∈ commands, command.AnsweredAlike) (alike : Alike known first second) :
    (runAll commands first).1 = (runAll commands second).1 ∧
      ∃ later : UInt64 → Prop, (∀ number, known number → later number) ∧
        Alike later (runAll commands first).2 (runAll commands second).2 := by
  induction commands generalizing known first second with
  | nil => exact ⟨rfl, known, fun _ => id, alike⟩
  | cons command rest inductionHypothesis =>
      rw [List.forall_mem_cons] at each
      obtain ⟨reply, between, wider, behind⟩ := each.1 alike
      obtain ⟨replies, later, wide, final⟩ := inductionHypothesis each.2 behind
      simp only [runAll, reply, replies, true_and]
      exact ⟨later, fun number listed => wide _ (wider _ listed), final⟩

/-- Every command is answered alike. One that works on a view is smaller than the command that
takes the view. -/
theorem run_alike (command : StoreCommand) : command.AnsweredAlike := by
  intro known first second alike
  cases plain : command.isPlain with
  | true =>
      obtain ⟨reply, behind⟩ := alike_of_plain plain alike
      exact ⟨reply, known, fun _ => id, behind⟩
  | false =>
      cases command with
      | beginBlock => exact ⟨rfl, _, fun _ => .inl, alike.beginBlock⟩
      | view number steps =>
          rcases alike.view? number with ⟨fault, failed, failedToo⟩ | ⟨accounts, shown, shownToo⟩
          · simp only [run, failed, failedToo, true_and]
            exact ⟨known, fun _ => id, alike⟩
          · obtain ⟨replies, later, wider, used⟩ :=
              runAll_alike (fun step _ => run_alike step) (alike.onto accounts)
            simp only [run, shown, shownToo]
            exact ⟨congrArg Reply.each replies, later, wider, alike.after used wider⟩
      | _ => cases plain
termination_by sizeOf command
decreasing_by
  have smaller := List.sizeOf_lt_of_mem ‹step ∈ steps›
  simp_wf
  omega

end StoreCommand

/-- A store and the views that were taken of it, with the past that all of them share. What the
stores hold of the past themselves is not read. -/
structure Handles where
  history : Map UInt64 Accounts
  stores : List Store

inductive HandleCommand
  /-- Run a command on the store at a place. -/
  | on (place : Nat) (command : StoreCommand)
  /-- Take a view of the store at a place, and put it behind the others. -/
  | take (place : Nat) (number : UInt64)

namespace Handles

def ofStore (store : Store) : Handles := ⟨store.history, [store]⟩

def get? (handles : Handles) (place : Nat) : Option Store :=
  handles.stores[place]?.map fun store => store.withHistory handles.history

def put (handles : Handles) (place : Nat) (store : Store) : Handles :=
  ⟨store.history, handles.stores.set place store⟩

end Handles

namespace HandleCommand

def run : HandleCommand → Handles → List Reply × Handles
  | .on place command, handles =>
    match handles.get? place with
    | some store =>
      let (reply, store) := command.run store
      (if place = 0 then [reply] else [], handles.put place store)
    | none => ([], handles)
  | .take place number, handles =>
    match handles.get? place with
    | some store =>
      match store.view? number with
      | .ok view => ([], { handles with stores := handles.stores ++ [view] })
      | .error _ => ([], handles)
    | none => ([], handles)

def live : HandleCommand → List StoreCommand
  | .on 0 command => [command]
  | _ => []

/-- No view starts a block unless it has started as many as the store at place zero. -/
def keepsUp : HandleCommand → Handles → Bool
  | .on 0 _, _ => true
  | .on place .beginBlock, handles =>
    ((handles.get? 0).map Store.blocks).getD 0 ≤ ((handles.get? place).map Store.blocks).getD 0
  | .on _ command, _ => !command.beginsBlock
  | .take _ _, _ => true

end HandleCommand

namespace Handles

def runAll : List HandleCommand → Handles → List Reply × Handles
  | [], handles => ([], handles)
  | command :: rest, handles =>
    let (replies, handles) := command.run handles
    let (later, handles) := runAll rest handles
    (replies ++ later, handles)

def keepUp : List HandleCommand → Handles → Bool
  | [], _ => true
  | command :: rest, handles => command.keepsUp handles && keepUp rest (command.run handles).2

variable {handles : Handles} {place other : Nat} {store view : Store} {command : StoreCommand}

theorem get?_put (present : handles.get? place = some store) (view : Store) :
    (handles.put place view).get? place = some view := by
  obtain ⟨held, found, _⟩ := Option.map_eq_some_iff.mp present
  obtain ⟨inside, _⟩ := List.getElem?_eq_some_iff.mp found
  simp [get?, put, inside]
  rfl

theorem get?_put_of_ne (apart : place ≠ other) (present : handles.get? other = some store)
    (view : Store) :
    (handles.put place view).get? other = some (store.withHistory view.history) := by
  obtain ⟨held, found, rfl⟩ := Option.map_eq_some_iff.mp present
  simp [get?, put, apart, found]
  rfl

theorem get?_take (present : handles.get? other = some store) (number : UInt64) :
    ((HandleCommand.take place number).run handles).2.get? other = some store := by
  simp only [HandleCommand.run]
  split
  · split
    · obtain ⟨held, found, rfl⟩ := Option.map_eq_some_iff.mp present
      obtain ⟨inside, _⟩ := List.getElem?_eq_some_iff.mp found
      simp [get?, List.getElem?_append_left inside, found]
    · exact present
  · exact present

theorem take_fst (handles : Handles) (place : Nat) (number : UInt64) :
    ((HandleCommand.take place number).run handles).1 = [] := by
  simp only [HandleCommand.run]
  split
  · split <;> rfl
  · rfl

theorem run_on (present : handles.get? place = some store) (command : StoreCommand) :
    (HandleCommand.on place command).run handles =
      (if place = 0 then [(command.run store).1] else [],
        handles.put place (command.run store).2) := by
  simp only [HandleCommand.run, present]

theorem on_fst_of_ne (handles : Handles) (elsewhere : place ≠ 0) (command : StoreCommand) :
    ((HandleCommand.on place command).run handles).1 = [] := by
  simp only [HandleCommand.run]
  split <;> simp [elsewhere]

theorem live_of_ne (elsewhere : place ≠ 0) (command : StoreCommand) :
    (HandleCommand.on place command).live = [] := by
  cases place with
  | zero => exact absurd rfl elsewhere
  | succ place => rfl

theorem history_of_get? (present : handles.get? place = some store) :
    store.history = handles.history := by
  obtain ⟨held, _, rfl⟩ := Option.map_eq_some_iff.mp present
  rfl

/-- What one store does with a command leaves another one as it was, as far as it can tell, unless
the command starts a block that the other store has started before. -/
theorem alike_other (apart : place ≠ other) (present : handles.get? place = some view)
    (reader : handles.get? other = some store)
    (fits : command.beginsBlock = false ∨ command = .beginBlock ∧ store.blocks ≤ view.blocks) :
    ∃ behind, ((HandleCommand.on place command).run handles).2.get? other = some behind ∧
      Store.Alike (fun number => number < store.blocks) behind store := by
  have shared := (history_of_get? present).trans (history_of_get? reader).symm
  rw [run_on present]
  refine ⟨_, get?_put_of_ne apart reader _, rfl, ?_, fun _ before => before⟩
  rcases fits with free | ⟨rfl, ahead⟩
  · have kept := command.samePast_run free view
    intro number _
    change (command.run view).2.history[number]? = store.history[number]?
    rw [kept.history, shared]
  · -- the view files under its own count, which the other store has not reached
    intro number before
    have front : (StoreCommand.beginBlock.run view).2.history[number]? =
        if view.blocks = number then some view.committed else view.history[number]? :=
      Map.get_insert ..
    refine front.trans ?_
    rw [if_neg, shared]
    intro same
    rw [← same] at before
    exact UInt64.not_le.mpr before ahead

/-- The store at place zero cannot be told from another one. -/
def Follows (handles : Handles) (live : Store) : Prop :=
  ∃ store, handles.get? 0 = some store ∧
    Store.Alike (fun number => number < live.blocks) store live

theorem Follows.elsewhere {live : Store} (follows : handles.Follows live) (apart : place ≠ 0)
    (kept : (HandleCommand.on place command).keepsUp handles) :
    ((HandleCommand.on place command).run handles).2.Follows live := by
  obtain ⟨store, reader, alike⟩ := follows
  cases present : handles.get? place with
  | none =>
      simp only [HandleCommand.run, present]
      exact ⟨store, reader, alike⟩
  | some view =>
      have fits : command.beginsBlock = false ∨
          command = .beginBlock ∧ store.blocks ≤ view.blocks := by
        cases command with
        | beginBlock =>
            right
            simpa [HandleCommand.keepsUp, reader, present] using kept
        | _ =>
            left
            simpa [HandleCommand.keepsUp] using kept
      obtain ⟨behind, found, still⟩ := alike_other apart present reader fits
      exact ⟨behind, found, still.trans alike⟩

theorem Follows.runAll {live : Store} {commands : List HandleCommand}
    (follows : handles.Follows live) (kept : keepUp commands handles) :
    (Handles.runAll commands handles).1 =
        (StoreCommand.runAll (commands.flatMap HandleCommand.live) live).1 ∧
      (Handles.runAll commands handles).2.Follows
        (StoreCommand.runAll (commands.flatMap HandleCommand.live) live).2 := by
  induction commands generalizing handles live with
  | nil => exact ⟨rfl, follows⟩
  | cons command rest inductionHypothesis =>
      simp only [keepUp, Bool.and_eq_true] at kept
      obtain ⟨first, later⟩ := kept
      cases command with
      | take place number =>
          obtain ⟨store, reader, alike⟩ := follows
          have still := @get?_take handles place 0 store reader number
          simpa [Handles.runAll, HandleCommand.live, take_fst] using
            inductionHypothesis ⟨store, still, alike⟩ later
      | on place command =>
          by_cases zero : place = 0
          · subst zero
            obtain ⟨store, reader, alike⟩ := follows
            obtain ⟨reply, known, _, behind⟩ := command.run_alike alike
            rw [run_on reader] at later
            have next : (handles.put 0 (command.run store).2).Follows (command.run live).2 :=
              ⟨_, get?_put reader _, behind.narrow⟩
            obtain ⟨replies, final⟩ := inductionHypothesis next later
            simp [Handles.runAll, HandleCommand.live, run_on reader, StoreCommand.runAll, reply,
              replies, final]
          · simpa [Handles.runAll, on_fst_of_ne handles zero, live_of_ne zero] using
              inductionHypothesis (follows.elsewhere zero first) later

theorem get?_runAll_on (steps : List StoreCommand) (apart : place ≠ other)
    (present : handles.get? place = some view) (reader : handles.get? other = some store) :
    (Handles.runAll (steps.map (.on place)) handles).2.get? other =
      some (store.withHistory (StoreCommand.runAll steps view).2.history) := by
  induction steps generalizing handles view store with
  | nil =>
      have shared := (history_of_get? present).trans (history_of_get? reader).symm
      simp only [List.map_nil, Handles.runAll, StoreCommand.runAll, shared]
      exact reader
  | cons command rest inductionHypothesis =>
      simp only [List.map_cons, Handles.runAll, StoreCommand.runAll, run_on present]
      have next := get?_put_of_ne apart reader (command.run view).2
      have final := inductionHypothesis (get?_put present _) next
      exact final

/-- A command on a view does what taking a view and using it at once does. -/
theorem get?_take_used {number : UInt64} (viewed : store.view? number = .ok view)
    (steps : List StoreCommand) :
    (Handles.runAll (.take 0 number :: steps.map (.on 1)) (ofStore store)).2.get? 0 =
      some ((StoreCommand.view number steps).run store).2 := by
  have taken : ((HandleCommand.take 0 number).run (ofStore store)).2 =
      ⟨store.history, [store, view]⟩ := by
    have live : (ofStore store).get? 0 = some store := rfl
    simp only [HandleCommand.run, live, viewed]
    rfl
  have used : Handles.get? ⟨store.history, [store, view]⟩ 1 = some view := by
    have shared := Store.history_of_view? viewed
    simp [get?, ← shared]
    rfl
  simp only [Handles.runAll, taken, StoreCommand.run, viewed]
  exact get?_runAll_on steps (by decide) used rfl

/-- The store that views are taken of answers as if they had not been used, as long as none of them
falls behind it before it starts a block. In general a command on one store never changes what
another has of its own, and changes nothing that the other reads unless it starts a block that the
other has started before. In that case it shows through: the other finds the accounts of the first
under the number of that block. -/
theorem views_apart (live : Store) (commands : List HandleCommand)
    (kept : keepUp commands (ofStore live)) :
    (Handles.runAll commands (ofStore live)).1 =
        (StoreCommand.runAll (commands.flatMap HandleCommand.live) live).1 ∧
      ∀ (handles : Handles) (place other : Nat) (view store : Store), place ≠ other →
        handles.get? place = some view → handles.get? other = some store →
        (∀ command : StoreCommand, ∃ behind,
          ((HandleCommand.on place command).run handles).2.get? other = some behind ∧
          behind.withHistory store.history = store ∧
          (command.beginsBlock = false ∨ command = .beginBlock ∧ store.blocks ≤ view.blocks →
            ∀ read : StoreCommand, (read.run behind).1 = (read.run store).1)) ∧
        (view.blocks < store.blocks → ∃ behind,
          ((HandleCommand.on place .beginBlock).run handles).2.get? other = some behind ∧
          behind.view? view.blocks = .ok (behind.onto view.committed)) := by
  have follows : (ofStore live).Follows live := ⟨live, rfl, .refl live⟩
  refine ⟨(follows.runAll kept).1, ?_⟩
  intro handles place other view store apart present reader
  have left : ∀ command : StoreCommand,
      ((HandleCommand.on place command).run handles).2.get? other =
        some (store.withHistory (command.run view).2.history) := by
    intro command
    rw [run_on present]
    exact get?_put_of_ne apart reader _
  refine ⟨fun command => ⟨_, left command, rfl, ?_⟩, fun fallen => ⟨_, left .beginBlock, ?_⟩⟩
  · intro fits read
    obtain ⟨behind, found, alike⟩ := alike_other apart present reader fits
    cases (left command).symm.trans found
    exact (read.run_alike alike).1
  · have filed : (StoreCommand.beginBlock.run view).2.history[view.blocks]? =
        some view.committed :=
      (Map.get_insert ..).trans (if_pos rfl)
    simp [Store.view?, Store.withHistory, UInt64.not_le.mpr fallen, filed]

def abreast : List HandleCommand :=
  [.on 0 .beginBlock, .take 0 0, .on 1 (.addBalance 1 7), .on 1 .beginBlock,
    .on 0 (.addBalance 1 5), .on 0 .commit, .on 0 .beginBlock, .on 0 (.view 1 [.balance 1])]

theorem abreast_apart :
    keepUp abreast (ofStore {}) ∧
      (Handles.runAll abreast (ofStore {})).1 =
        (StoreCommand.runAll (abreast.flatMap HandleCommand.live) {}).1 := by
  have kept : keepUp abreast (ofStore {}) := by decide +kernel
  exact ⟨kept, (views_apart {} abreast kept).1⟩

/-- A view starts a block that the store has started before. -/
def overtaken : List HandleCommand :=
  [.on 0 .beginBlock, .take 0 0, .on 0 (.addBalance 1 5), .on 0 .commit, .on 0 .beginBlock,
    .on 1 .beginBlock, .on 0 (.view 1 [.balance 1])]

def shownBalance : Reply → Option Word
  | .each [.amount balance] => some balance
  | _ => none

/-- The store then finds the accounts of the view in the place of its own. -/
theorem overtaken_shows :
    ¬ ∀ (live : Store) (commands : List HandleCommand),
      (Handles.runAll commands (ofStore live)).1 =
        (StoreCommand.runAll (commands.flatMap HandleCommand.live) live).1 := by
  intro claimed
  have shown : (Handles.runAll overtaken (ofStore {})).1.getLast?.bind shownBalance = some 0 := by
    decide +kernel
  have alone : (StoreCommand.runAll (overtaken.flatMap HandleCommand.live)
      {}).1.getLast?.bind shownBalance = some 5 := by
    decide +kernel
  rw [claimed, alone] at shown
  exact absurd shown (by decide)

end Handles

end HostedEvm
