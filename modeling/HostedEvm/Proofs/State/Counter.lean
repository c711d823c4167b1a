import HostedEvm.Proofs.State.Charges

set_option autoImplicit false

/-!
The counter of charges and the exact sum.

Beside a run of commands goes the exact sum of what they were charged since the last reset. The
counter shows the sum up to multiples of the size of a word, so it shows less than the sum from the
first word that is full, and a command that fills one takes it back.
-/

namespace HostedEvm

/-- The counter shows a sum, without the words that it filled. -/
def Store.Shows (store : Store) (sum : Nat) : Prop := store.charged.toNat = sum % UInt64.size

namespace StoreCommand

/-- The sum behind a command. A reset settles what was due before. -/
def dueAfter (store : Store) (sum : Nat) : StoreCommand → Nat
  | .resetCharges => 0
  | command => sum + (command.cost store.prices store).toNat

/-- The exact sum of what commands are charged from the last reset on. -/
def due : List StoreCommand → Store → Nat → Nat
  | [], _, sum => sum
  | command :: rest, store, sum => due rest (command.run store).2 (command.dueAfter store sum)

variable {command : StoreCommand} {store : Store} {sum : Nat}

theorem dueAfter_of_ne (charging : command ≠ .resetCharges) :
    command.dueAfter store sum = sum + (command.cost store.prices store).toNat := by
  cases command with
  | resetCharges => exact absurd rfl charging
  | _ => rfl

theorem cost_nonneg (charging : command ≠ .resetCharges) (inForce : StoragePrices)
    (store : Store) : 0 ≤ command.cost inForce store := by
  cases command with
  | resetCharges => exact absurd rfl charging
  | isEmpty address =>
      simp only [cost]
      split
      · omega
      · split <;> omega
  | setSlot address key value =>
      simp only [cost]
      split <;> omega
  | delete addresses =>
      simp only [cost]
      apply Int.mul_nonneg <;> omega
  | _ => simp [cost]

/-- A command that is no reset moves the counter by its cost, and back by every word that fills. -/
theorem toNat_charged_run (charging : command ≠ .resetCharges) :
    (command.run store).2.charged.toNat =
      (store.charged.toNat + (command.cost store.prices store).toNat) % UInt64.size := by
  have nonneg := cost_nonneg charging store.prices store
  have spent := (command.spent_run store).charged
  rw [spent, UInt64.toNat_add, Gas.toNat_ofInt nonneg, Nat.add_mod_mod]

theorem shows_run (shows : store.Shows sum) (command : StoreCommand) :
    (command.run store).2.Shows (command.dueAfter store sum) := by
  by_cases reset : command = .resetCharges
  · rw [reset]
    rfl
  · unfold Store.Shows at shows ⊢
    rw [toNat_charged_run reset, dueAfter_of_ne reset, shows, Nat.mod_add_mod]

theorem shows_runAll (shows : store.Shows sum) (commands : List StoreCommand) :
    (runAll commands store).2.Shows (due commands store sum) := by
  induction commands generalizing store sum with
  | nil => exact shows
  | cons command rest inductionHypothesis =>
      apply inductionHypothesis
      exact shows_run shows command

/-- The counter shows the sum, or the greatest word in its place, unless a word was filled. Then it
is right only by accident. -/
theorem shows_cut_iff (shows : store.Shows sum) :
    store.charged.toNat = min sum Gas.unlimited.toNat ↔
      sum < UInt64.size ∨ sum % UInt64.size = Gas.unlimited.toNat := by
  have greatest : Gas.unlimited.toNat + 1 = UInt64.size := rfl
  rw [shows]
  constructor
  · intro cut
    omega
  · rintro (fits | full)
    · rw [Nat.mod_eq_of_lt fits]
      omega
    · have whole := Nat.mod_le sum UInt64.size
      omega

theorem charged_run_lt_iff (charging : command ≠ .resetCharges) :
    (command.run store).2.charged < store.charged ↔
      UInt64.size ≤ store.charged.toNat +
        (command.cost store.prices store).toNat % UInt64.size := by
  have bound := store.charged.toNat_lt
  rw [UInt64.lt_iff_toNat_lt, toNat_charged_run charging, UInt64.size]
  omega

end StoreCommand

end HostedEvm
