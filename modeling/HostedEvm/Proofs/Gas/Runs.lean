import HostedEvm.Proofs.Gas.Meter

set_option autoImplicit false

/-!
Runs of a gas meter.

Beside the meter runs a tally of what it accepted, in exact numbers. The two agree throughout a run,
but the meter's counter of the block stops at the greatest amount of gas, and so does the sum that
is held against the limit of the block. A block is therefore never charged beyond its limit unless
the limit is that amount, and then it is never found full.
-/

namespace HostedEvm

inductive MeterCommand
  | beginBlock (defaultLimit : Gas)
  | prepareBlock (explicitLimit defaultLimit : Gas)
  | beginTransaction (limit : Gas)
  | discardTransaction
  | consume (amount : Gas)

inductive MeterOrigin
  | forBlock (explicitLimit defaultLimit : Gas)
  | unlimited
  | blank

def MeterOrigin.meter : MeterOrigin → Meter
  | .forBlock explicitLimit defaultLimit => .forBlock explicitLimit defaultLimit
  | .unlimited => .unlimited
  | .blank => {}

/-- What a meter accepted since the block began, without what was discarded: from the transactions
before the running one, and from the running one. -/
structure Tally where
  settled : Nat := 0
  running : Nat := 0

namespace Tally

def total (tally : Tally) : Nat := tally.settled + tally.running

def behind (tally : Tally) : MeterCommand → Except Fault Unit → Tally
  | .beginBlock _, _ => {}
  | .prepareBlock _ _, _ => {}
  | .beginTransaction _, _ => { settled := tally.total }
  | .discardTransaction, _ => { settled := tally.settled }
  | .consume amount, .ok () => { tally with running := tally.running + amount.toNat }
  | .consume _, .error _ => tally

end Tally

def MeterCommand.run : MeterCommand → Meter → Except Fault Unit × Meter
  | .beginBlock defaultLimit, meter => (.ok (), meter.beginBlock defaultLimit)
  | .prepareBlock explicitLimit defaultLimit, meter =>
    (.ok (), meter.prepareBlock explicitLimit defaultLimit)
  | .beginTransaction limit, meter => (.ok (), meter.beginTransaction limit)
  | .discardTransaction, meter => (.ok (), meter.discardTransaction)
  | .consume amount, meter => meter.consume amount

namespace Meter

def runAll : List MeterCommand → Meter → Tally → Meter × Tally
  | [], meter, tally => (meter, tally)
  | command :: rest, meter, tally =>
    let (outcome, meter) := command.run meter
    runAll rest meter (tally.behind command outcome)

def Refuses (meter : Meter) (tally : Tally) (amount : Gas) : Fault → Prop
  | .gasOverflow => UInt64.size ≤ tally.running + amount.toNat
  | .outOfGas consumed limit =>
    consumed.toNat = tally.running + amount.toNat ∧ limit = meter.txLimit ∧
      limit.toNat < tally.running + amount.toNat
  | .blockOutOfGas blockConsumed consumed limit =>
    blockConsumed = meter.blockConsumed ∧ consumed.toNat = tally.running + amount.toNat ∧
      limit = meter.blockLimit ∧ limit.toNat < tally.total + amount.toNat
  | _ => False

variable {meter : Meter} {tally : Tally} {amount : Gas} {fault : Fault}

theorem consume_fst_eq_ok_iff :
    (meter.consume amount).1 = .ok () ↔ ∃ consumed, meter.admitted amount = .ok consumed := by
  unfold consume
  cases meter.admitted amount with
  | ok consumed => simp
  | error fault => simp

theorem admitted_eq_error (refused : meter.admitted amount = .error fault) :
    (UInt64.size ≤ meter.txConsumed.toNat + amount.toNat ∧ fault = .gasOverflow) ∨
      ∃ consumed : Gas, consumed.toNat = meter.txConsumed.toNat + amount.toNat ∧
        ((meter.txLimit < consumed ∧ fault = .outOfGas consumed meter.txLimit) ∨
          (meter.blockLimit < meter.blockConsumed.plus consumed ∧
            fault = .blockOutOfGas meter.blockConsumed consumed meter.blockLimit)) := by
  unfold admitted at refused
  simp only at refused
  split at refused
  · rename_i exceeds
    cases refused
    exact .inl ⟨exceeds, rfl⟩
  · rename_i fits
    have total := UInt64.toNat_ofNat_of_lt' (Nat.lt_of_not_ge fits)
    refine .inr ⟨_, total, ?_⟩
    split at refused
    · rename_i beyond
      cases refused
      exact .inl ⟨beyond, rfl⟩
    · split at refused
      · rename_i full
        cases refused
        exact .inr ⟨full, rfl⟩
      · cases refused

/-- A meter agrees with a tally, up to the end of its counters. -/
structure Tracks (meter : Meter) (tally : Tally) : Prop where
  settled : meter.blockConsumed.toNat = min tally.settled Gas.unlimited.toNat
  running : meter.txConsumed.toNat = tally.running
  withinTx : meter.txConsumed ≤ meter.txLimit
  withinBlock : meter.blockConsumed.plus meter.txConsumed ≤ meter.blockLimit

theorem tracks_origin (origin : MeterOrigin) : origin.meter.Tracks {} := by
  cases origin <;> exact ⟨rfl, rfl, UInt64.zero_le, UInt64.zero_le⟩

namespace Tracks

theorem beginBlock (meter : Meter) (defaultLimit : Gas) :
    (meter.beginBlock defaultLimit).Tracks {} :=
  ⟨rfl, rfl, UInt64.zero_le, UInt64.zero_le⟩

theorem beginTransaction (tracks : meter.Tracks tally) (limit : Gas) :
    (meter.beginTransaction limit).Tracks { settled := tally.total } where
  settled := by
    change (meter.blockConsumed.plus meter.txConsumed).toNat = min tally.total Gas.unlimited.toNat
    rw [Gas.toNat_plus, tracks.settled, tracks.running, Tally.total]
    omega
  running := rfl
  withinTx := UInt64.zero_le
  withinBlock := by
    change (meter.blockConsumed.plus meter.txConsumed).plus 0 ≤ meter.blockLimit
    rw [Gas.plus_zero]
    exact tracks.withinBlock

theorem discardTransaction (tracks : meter.Tracks tally) :
    meter.discardTransaction.Tracks { settled := tally.settled } where
  settled := tracks.settled
  running := rfl
  withinTx := UInt64.zero_le
  withinBlock := by
    change meter.blockConsumed.plus 0 ≤ meter.blockLimit
    rw [Gas.plus_zero]
    exact UInt64.le_trans (Gas.le_plus _ _) tracks.withinBlock

theorem consume (tracks : meter.Tracks tally) (amount : Gas) :
    (meter.consume amount).2.Tracks (tally.behind (.consume amount) (meter.consume amount).1) := by
  rcases paid : meter.consume amount with ⟨outcome, after⟩
  cases outcome with
  | error fault =>
      obtain ⟨_, rfl⟩ := consume_eq_error paid
      exact tracks
  | ok _ =>
      obtain ⟨consumed, admitted, rfl⟩ := consume_eq_ok paid
      obtain ⟨total, withinTx, withinBlock⟩ := admitted_eq_ok_iff.mp admitted
      rw [tracks.running] at total
      exact ⟨tracks.settled, total.symm, withinTx, withinBlock⟩

theorem run (tracks : meter.Tracks tally) (command : MeterCommand) :
    (command.run meter).2.Tracks (tally.behind command (command.run meter).1) := by
  cases command with
  | beginBlock defaultLimit => exact beginBlock meter defaultLimit
  | prepareBlock explicitLimit defaultLimit => exact beginBlock _ defaultLimit
  | beginTransaction limit => exact tracks.beginTransaction limit
  | discardTransaction => exact tracks.discardTransaction
  | consume amount => exact tracks.consume amount

theorem runAll (tracks : meter.Tracks tally) (commands : List MeterCommand) :
    (Meter.runAll commands meter tally).1.Tracks (Meter.runAll commands meter tally).2 := by
  induction commands generalizing meter tally with
  | nil => exact tracks
  | cons command rest inductionHypothesis => exact inductionHypothesis (tracks.run command)

theorem total_le (tracks : meter.Tracks tally) (limited : meter.blockLimit ≠ Gas.unlimited) :
    tally.total ≤ meter.blockLimit.toNat := by
  have below := Gas.toNat_lt_of_ne_unlimited limited
  have withinBlock := tracks.withinBlock
  rw [UInt64.le_iff_toNat_le, Gas.toNat_plus, tracks.settled, tracks.running] at withinBlock
  rw [Tally.total]
  omega

theorem counted (tracks : meter.Tracks tally) (within : tally.total ≤ meter.blockLimit.toNat) :
    meter.blockConsumed.toNat + meter.txConsumed.toNat = tally.total := by
  have greatest := Gas.toNat_le_unlimited meter.blockLimit
  rw [Tally.total] at within ⊢
  rw [tracks.settled, tracks.running]
  omega

/-- An amount is accepted where both limits have room for it, and where the limit of the block is
the greatest amount, even if the block has no room. -/
theorem consume_eq_ok_iff (tracks : meter.Tracks tally) (amount : Gas) :
    (meter.consume amount).1 = .ok () ↔
      tally.running + amount.toNat ≤ meter.txLimit.toNat ∧
        (tally.total + amount.toNat ≤ meter.blockLimit.toNat ∨
          meter.blockLimit = Gas.unlimited) := by
  simp only [consume_fst_eq_ok_iff, admitted_eq_ok_iff, tracks.running]
  constructor
  · rintro ⟨consumed, total, withinTx, withinBlock⟩
    rw [UInt64.le_iff_toNat_le] at withinTx withinBlock
    refine ⟨total ▸ withinTx, ?_⟩
    by_cases limited : meter.blockLimit = Gas.unlimited
    · exact .inr limited
    · left
      have below := Gas.toNat_lt_of_ne_unlimited limited
      rw [Gas.toNat_plus, tracks.settled] at withinBlock
      rw [Tally.total]
      omega
  · rintro ⟨withinTx, room⟩
    have fits := Nat.lt_of_le_of_lt withinTx meter.txLimit.toNat_lt
    have total := UInt64.toNat_ofNat_of_lt' fits
    refine ⟨UInt64.ofNat (tally.running + amount.toNat), total.symm, ?_, ?_⟩
    · rw [UInt64.le_iff_toNat_le, total]
      exact withinTx
    · rw [UInt64.le_iff_toNat_le, Gas.toNat_plus, tracks.settled, total]
      rcases room with within | limitless
      · rw [Tally.total] at within
        omega
      · rw [limitless]
        exact Nat.min_le_right _ _

theorem refuses (tracks : meter.Tracks tally) (refused : meter.admitted amount = .error fault) :
    meter.Refuses tally amount fault := by
  rcases admitted_eq_error refused with ⟨exceeds, rfl⟩ | ⟨consumed, total, beyond⟩
  · rw [tracks.running] at exceeds
    exact exceeds
  · rw [tracks.running] at total
    rcases beyond with ⟨withoutRoom, rfl⟩ | ⟨full, rfl⟩
    · rw [UInt64.lt_iff_toNat_lt, total] at withoutRoom
      exact ⟨total, rfl, withoutRoom⟩
    · rw [UInt64.lt_iff_toNat_lt, Gas.toNat_plus, tracks.settled, total] at full
      refine ⟨rfl, total, rfl, ?_⟩
      rw [Tally.total]
      omega

end Tracks

/-- Whatever was done with a meter, its counters show the tally of what it accepted. The running
transaction is within its limit, and so is the block unless its limit is the greatest amount of gas:
then the block is charged beyond it, and its counter stops there. A refusal changes nothing, and
tells which sum was too large. -/
theorem counters_tallied (origin : MeterOrigin) (commands : List MeterCommand) :
    let meter := (runAll commands origin.meter {}).1
    let tally := (runAll commands origin.meter {}).2
    meter.txConsumed ≤ meter.txLimit ∧ meter.txConsumed.toNat = tally.running ∧
      meter.blockConsumed.toNat = min tally.settled Gas.unlimited.toNat ∧
      (meter.blockLimit ≠ Gas.unlimited → tally.total ≤ meter.blockLimit.toNat) ∧
      (tally.total ≤ meter.blockLimit.toNat →
        meter.blockConsumed.toNat + meter.txConsumed.toNat = tally.total) ∧
      ∀ amount,
        ((meter.consume amount).1 = .ok () ↔
          tally.running + amount.toNat ≤ meter.txLimit.toNat ∧
            (tally.total + amount.toNat ≤ meter.blockLimit.toNat ∨
              meter.blockLimit = Gas.unlimited)) ∧
        ∀ fault, (meter.consume amount).1 = .error fault →
          (meter.consume amount).2 = meter ∧ meter.Refuses tally amount fault := by
  have tracks := (tracks_origin origin).runAll commands
  refine ⟨tracks.withinTx, tracks.running, tracks.settled, tracks.total_le, tracks.counted, ?_⟩
  intro amount
  refine ⟨tracks.consume_eq_ok_iff amount, ?_⟩
  intro fault refused
  obtain ⟨admitted, same⟩ := consume_eq_error (Prod.ext refused rfl)
  exact ⟨same, tracks.refuses admitted⟩

def overcharging : List MeterCommand :=
  [.beginTransaction Gas.unlimited, .consume Gas.unlimited, .beginTransaction 5, .consume 5]

/-- Both are accepted in a block whose limit is the greatest amount of gas. -/
theorem limitless_overcharged :
    ¬ ∀ (origin : MeterOrigin) (commands : List MeterCommand),
      let meter := (runAll commands origin.meter {}).1
      let tally := (runAll commands origin.meter {}).2
      meter.txConsumed ≤ meter.txLimit ∧
        meter.blockConsumed.toNat + meter.txConsumed.toNat = tally.total ∧
        tally.total ≤ meter.blockLimit.toNat := by
  intro claimed
  have within := (claimed (.forBlock Gas.unlimited 0) overcharging).2.2
  exact absurd within (by decide)

end Meter

end HostedEvm
