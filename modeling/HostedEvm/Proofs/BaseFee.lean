import HostedEvm.BaseFee
import HostedEvm.Proofs.Word
import Mathlib.Data.Nat.Dist

set_option autoImplicit false

/-!
How far and which way the base fee moves.

The step is in proportion to the fee and to the distance of the gas used from the target. Up to a
distance of one target it is at most the fee divided by the denominator, and a greater fee cannot be
overtaken by a smaller one. Gas used below the target is never farther away; gas used above it can
be, when the limit is more than twice the target. Then a full block raises some fees beyond that.
-/

namespace HostedEvm

namespace ChainConfig

/-- The step as a number. The product of fee and distance is cut at the greatest word. -/
def stepSize (config : ChainConfig) (fee distance target : Nat) : Nat :=
  min (fee * distance) Word.greatest.toNat / (target * max config.feeDenominator.toNat 1)

/-- The fee behind gas used under a target, as a number. -/
def feeAfter (config : ChainConfig) (fee used target : Nat) : Nat :=
  if used ≤ target then fee - config.stepSize fee (target - used) target
  else if target = 0 then fee
  else min (fee + max (config.stepSize fee (used - target) target) 1) Word.greatest.toNat

section

variable (config : ChainConfig) {fee distance used target : Nat}

theorem toNat_feeStep (fee : Word) (fits : distance ≤ Word.greatest.toNat) :
    (config.feeStep fee distance target).toNat = config.stepSize fee.toNat distance target := by
  have cut : config.stepSize fee.toNat distance target ≤ Word.greatest.toNat :=
    Nat.le_trans (Nat.div_le_self _ _) (Nat.min_le_right _ _)
  rw [stepSize] at cut ⊢
  rw [feeStep, Word.toNat_clamp, Word.toNat_times, Word.toNat_clamp, Nat.min_eq_left fits,
    Nat.div_div_eq_div_mul, Nat.min_eq_left cut]

theorem stepSize_mono {greater farther : Nat} (target : Nat) (fees : fee ≤ greater)
    (distances : distance ≤ farther) :
    config.stepSize fee distance target ≤ config.stepSize greater farther target := by
  have products : fee * distance ≤ greater * farther := Nat.mul_le_mul fees distances
  apply Nat.div_le_div_right
  omega

/-- Within a distance of `factor` targets the step is at most that multiple of the fee, divided by
the denominator. -/
theorem stepSize_le {factor : Nat} (fee : Nat) (near : distance ≤ factor * target) :
    config.stepSize fee distance target ≤ factor * fee / max config.feeDenominator.toNat 1 := by
  rcases Nat.eq_zero_or_pos target with rfl | positive
  · simp [stepSize]
  · calc config.stepSize fee distance target
        ≤ target * (factor * fee) / (target * max config.feeDenominator.toNat 1) := by
          apply Nat.div_le_div_right
          apply Nat.le_trans (Nat.min_le_left _ _)
          calc fee * distance ≤ fee * (factor * target) := Nat.mul_le_mul_left _ near
            _ = target * (factor * fee) := by rw [← Nat.mul_assoc, Nat.mul_comm, Nat.mul_comm fee]
      _ = factor * fee / max config.feeDenominator.toNat 1 := Nat.mul_div_mul_left _ _ positive

/-- Within a distance of one target the step grows no faster than the fee. -/
theorem stepSize_add_le (fee : Nat) (near : distance ≤ target) (more : Nat) :
    config.stepSize (fee + more) distance target ≤ config.stepSize fee distance target + more := by
  rcases Nat.eq_zero_or_pos target with rfl | positive
  · simp [stepSize]
  · let divisor := target * max config.feeDenominator.toNat 1
    have divides : 0 < divisor := Nat.mul_pos positive (by omega)
    have slope : distance ≤ divisor := Nat.le_trans near (Nat.le_mul_of_pos_right _ (by omega))
    have product : more * distance ≤ more * divisor := Nat.mul_le_mul_left _ slope
    calc config.stepSize (fee + more) distance target
        ≤ (min (fee * distance) Word.greatest.toNat + more * divisor) / divisor := by
          apply Nat.div_le_div_right
          rw [Nat.add_mul]
          omega
      _ = config.stepSize fee distance target + more := Nat.add_mul_div_right _ _ divides

theorem feeAfter_of_le (below : used ≤ target) :
    config.feeAfter fee used target = fee - config.stepSize fee (target - used) target :=
  if_pos below

theorem feeAfter_of_lt (targeted : target ≠ 0) (above : target < used) :
    config.feeAfter fee used target =
      min (fee + max (config.stepSize fee (used - target) target) 1) Word.greatest.toNat := by
  rw [feeAfter, if_neg (Nat.not_le.mpr above), if_neg targeted]

/-- A target of zero never moves the fee. -/
theorem feeAfter_untargeted : config.feeAfter fee used 0 = fee := by
  simp [feeAfter, stepSize]

theorem feeAfter_le (below : used ≤ target) : config.feeAfter fee used target ≤ fee := by
  rw [config.feeAfter_of_le below]
  exact Nat.sub_le _ _

theorem le_feeAfter (fits : fee ≤ Word.greatest.toNat) (above : target ≤ used) :
    fee ≤ config.feeAfter fee used target := by
  rcases Nat.eq_or_lt_of_le above with rfl | higher
  · simp [feeAfter, stepSize]
  · unfold feeAfter
    split
    · omega
    · split <;> omega

/-- The fee rises where gas was used beyond a target and there is room for a greater word. -/
theorem lt_feeAfter_iff :
    fee < config.feeAfter fee used target ↔
      target ≠ 0 ∧ target < used ∧ fee < Word.greatest.toNat := by
  unfold feeAfter
  split
  · omega
  · split <;> omega

theorem feeAfter_mono_used (fits : fee ≤ Word.greatest.toNat) {more : Nat} (busier : used ≤ more) :
    config.feeAfter fee used target ≤ config.feeAfter fee more target := by
  -- the fee itself stands between a fall and a rise
  rcases Nat.lt_or_ge target more with above | belowToo
  · rcases Nat.lt_or_ge target used with aboveToo | below
    · by_cases targeted : target = 0
      · rw [targeted, feeAfter_untargeted, feeAfter_untargeted]
      · have steps := config.stepSize_mono target (Nat.le_refl fee)
          (Nat.sub_le_sub_right busier target)
        rw [config.feeAfter_of_lt targeted above, config.feeAfter_of_lt targeted aboveToo]
        omega
    · exact Nat.le_trans (config.feeAfter_le below) (config.le_feeAfter fits (Nat.le_of_lt above))
  · have below := Nat.le_trans busier belowToo
    rw [config.feeAfter_of_le below, config.feeAfter_of_le belowToo]
    apply Nat.sub_le_sub_left
    exact config.stepSize_mono target (Nat.le_refl fee) (Nat.sub_le_sub_left busier target)

theorem feeAfter_mono_fee {more : Nat} (dearer : fee ≤ more) :
    config.feeAfter fee used target ≤ config.feeAfter more used target := by
  rcases Nat.lt_or_ge target used with above | below
  · by_cases targeted : target = 0
    · rw [targeted, feeAfter_untargeted, feeAfter_untargeted]
      exact dearer
    · have steps := config.stepSize_mono target dearer (Nat.le_refl (used - target))
      rw [config.feeAfter_of_lt targeted above, config.feeAfter_of_lt targeted above]
      omega
  · -- the step grows no faster than the fee
    obtain ⟨surplus, rfl⟩ := Nat.exists_eq_add_of_le dearer
    have steps := config.stepSize_add_le fee (Nat.sub_le target used) surplus
    rw [config.feeAfter_of_le below, config.feeAfter_of_le below]
    omega

/-- Gas used within a number of targets beyond the first raises the fee by at most that multiple of
itself, divided by the denominator, or by one. -/
theorem feeAfter_le_add {factor : Nat} (near : used ≤ target + factor * target) :
    config.feeAfter fee used target ≤
      fee + max 1 (factor * fee / max config.feeDenominator.toNat 1) := by
  have step := config.stepSize_le fee (Nat.sub_le_iff_le_add'.mpr near)
  unfold feeAfter
  split
  · omega
  · split <;> omega

theorem le_feeAfter_add (fits : fee ≤ Word.greatest.toNat) :
    fee ≤ config.feeAfter fee used target + fee / max config.feeDenominator.toNat 1 := by
  rcases Nat.lt_or_ge used target with below | above
  · have near : target - used ≤ 1 * target := by omega
    have step := config.stepSize_le fee near
    rw [Nat.one_mul] at step
    rw [config.feeAfter_of_le (Nat.le_of_lt below)]
    omega
  · exact Nat.le_trans (config.le_feeAfter fits above) (Nat.le_add_right _ _)

theorem toNat_nextBaseFee (parent : Header) (london : config.isLondon parent.number = true) :
    (config.nextBaseFee parent).toNat =
      config.feeAfter parent.baseFee.toNat parent.gasUsed.toNat (config.gasTarget parent) := by
  have usedFits := Gas.toNat_le_greatest parent.gasUsed
  have targetFits : config.gasTarget parent ≤ Word.greatest.toNat :=
    Nat.le_trans (Nat.div_le_self _ _) (Gas.toNat_le_greatest parent.gasLimit)
  simp only [nextBaseFee, london, Bool.true_eq_false, if_false]
  rcases Nat.lt_trichotomy parent.gasUsed.toNat (config.gasTarget parent) with
    below | still | above
  · have moving : ¬(config.gasTarget parent = 0 ∨
        parent.gasUsed.toNat = config.gasTarget parent) := by omega
    rw [if_neg moving, if_neg (Nat.not_lt.mpr (Nat.le_of_lt below)), Word.toNat_minus,
      config.toNat_feeStep parent.baseFee (by omega), config.feeAfter_of_le (Nat.le_of_lt below)]
  · simp [feeAfter, stepSize, still]
  · by_cases targeted : config.gasTarget parent = 0
    · rw [if_pos (.inl targeted), feeAfter, if_neg (Nat.not_le.mpr above), if_pos targeted]
    · have moving : ¬(config.gasTarget parent = 0 ∨
          parent.gasUsed.toNat = config.gasTarget parent) := by omega
      rw [if_neg moving, if_pos above, Word.toNat_plus, Word.toNat_clamp,
        config.toNat_feeStep parent.baseFee (by omega), config.feeAfter_of_lt targeted above]
      omega

end

variable {config : ChainConfig} {header parent : Header}

theorem nextBaseFee_untargeted (london : config.isLondon parent.number = true)
    (untargeted : config.gasTarget parent = 0) : config.nextBaseFee parent = parent.baseFee := by
  apply BitVec.eq_of_toNat_eq
  rw [config.toNat_nextBaseFee parent london, untargeted, feeAfter_untargeted]

theorem flaw?_eq_none_iff :
    config.flaw? = none ↔ config.feeDenominator ≠ 0 ∧ config.elasticity ≠ 0 := by
  unfold flaw?
  split
  · simp_all
  · split <;> simp_all

/-- The gas limit is the target times the elasticity, and less than the elasticity more. -/
theorem gasLimit_le (elastic : config.elasticity ≠ 0) (targeted : config.gasTarget header ≠ 0) :
    header.gasLimit.toNat ≤ config.gasTarget header +
      2 * (config.elasticity.toNat - 1) * config.gasTarget header := by
  have positive : config.elasticity.toNat ≠ 0 := by
    intro zero
    exact elastic (UInt64.toNat_inj.mp zero)
  have divided := Nat.lt_mul_div_succ header.gasLimit.toNat (Nat.pos_of_ne_zero positive)
  rw [gasTarget, Nat.max_eq_left (Nat.one_le_iff_ne_zero.mpr positive)] at targeted ⊢
  generalize header.gasLimit.toNat / config.elasticity.toNat = target at *
  obtain ⟨surplus, factor⟩ := Nat.exists_eq_succ_of_ne_zero positive
  have spread : surplus ≤ surplus * target :=
    Nat.le_mul_of_pos_right _ (Nat.pos_of_ne_zero targeted)
  rw [factor] at divided ⊢
  rw [Nat.succ_sub_one, Nat.mul_assoc]
  rw [Nat.succ_mul, Nat.mul_succ] at divided
  omega

theorem denominator_eq (valid : config.flaw? = none) :
    max config.feeDenominator.toNat 1 = config.feeDenominator.toNat := by
  apply Nat.max_eq_left
  apply Nat.one_le_iff_ne_zero.mpr
  intro zero
  exact (flaw?_eq_none_iff.mp valid).1 (UInt64.toNat_inj.mp zero)

theorem nextBaseFee_fall (valid : config.flaw? = none)
    (london : config.isLondon parent.number = true) :
    parent.baseFee.toNat ≤
      (config.nextBaseFee parent).toNat + parent.baseFee.toNat / config.feeDenominator.toNat := by
  rw [toNat_nextBaseFee config parent london, ← denominator_eq valid]
  exact config.le_feeAfter_add (Word.toNat_le_greatest parent.baseFee)

theorem nextBaseFee_rise (valid : config.flaw? = none)
    (london : config.isLondon parent.number = true) {factor : Nat}
    (near : parent.gasUsed.toNat ≤
      config.gasTarget parent + factor * config.gasTarget parent) :
    (config.nextBaseFee parent).toNat ≤ parent.baseFee.toNat +
      max 1 (factor * parent.baseFee.toNat / config.feeDenominator.toNat) := by
  rw [toNat_nextBaseFee config parent london, ← denominator_eq valid]
  exact config.feeAfter_le_add near

/-- The fee moves by at most the fee of the parent divided by the denominator, or by one. -/
def StepsWithin (config : ChainConfig) (parent : Header) : Prop :=
  Nat.dist (config.nextBaseFee parent).toNat parent.baseFee.toNat ≤
    max 1 (parent.baseFee.toNat / config.feeDenominator.toNat)

instance : Decidable (config.StepsWithin parent) :=
  inferInstanceAs (Decidable (_ ≤ _))

theorem stepsWithin_of_near (valid : config.flaw? = none)
    (london : config.isLondon parent.number = true)
    (near : config.gasTarget parent = 0 ∨
      parent.gasUsed.toNat ≤ 2 * config.gasTarget parent) : config.StepsWithin parent := by
  have fall := nextBaseFee_fall valid london
  have rise : (config.nextBaseFee parent).toNat ≤ parent.baseFee.toNat +
      max 1 (parent.baseFee.toNat / config.feeDenominator.toNat) := by
    rcases near with untargeted | near
    · rw [nextBaseFee_untargeted london untargeted]
      exact Nat.le_add_right _ _
    · have within : parent.gasUsed.toNat ≤
          config.gasTarget parent + 1 * config.gasTarget parent := by omega
      have rise := nextBaseFee_rise valid london within
      rwa [Nat.one_mul] at rise
  unfold StepsWithin Nat.dist
  omega

/-- Where the limit is more than twice the target, a full block moves some fee farther. -/
theorem exists_not_stepsWithin (valid : config.flaw? = none)
    (london : config.isLondon header.number = true) (targeted : config.gasTarget header ≠ 0)
    (far : 2 * config.gasTarget header < header.gasLimit.toNat) :
    ∃ fee, ¬config.StepsWithin { header with gasUsed := header.gasLimit, baseFee := fee } := by
  have limit := header.gasLimit.toNat_lt
  have greatest : Word.greatest.toNat = 2 ^ 256 - 1 := BitVec.toNat_allOnes
  have denominator : 0 < config.feeDenominator.toNat := by
    rw [← denominator_eq valid]
    exact Nat.le_max_right _ _
  let divisor := config.gasTarget header * config.feeDenominator.toNat
  have positive : 0 < divisor := Nat.mul_pos (Nat.pos_of_ne_zero targeted) denominator
  have small : divisor ≤ 2 ^ 64 * 2 ^ 64 := by
    apply Nat.mul_le_mul
    · omega
    · exact Nat.le_of_lt config.feeDenominator.toNat_lt
  -- a fee of twice the divisor is divided without a remainder
  let fee : Word := BitVec.ofNat 256 (2 * divisor)
  have toNat_fee : fee.toNat = 2 * divisor := by
    rw [BitVec.toNat_ofNat]
    exact Nat.mod_eq_of_lt (by omega)
  have room : fee.toNat * (header.gasLimit.toNat - config.gasTarget header) ≤
      Word.greatest.toNat := by
    have bound : fee.toNat * (header.gasLimit.toNat - config.gasTarget header) ≤
        2 ^ 129 * 2 ^ 64 := by
      apply Nat.mul_le_mul
      · omega
      · omega
    omega
  have step : config.stepSize fee.toNat (header.gasLimit.toNat - config.gasTarget header)
      (config.gasTarget header) = 2 * (header.gasLimit.toNat - config.gasTarget header) := by
    rw [stepSize, Nat.min_eq_left room, denominator_eq valid, toNat_fee, Nat.mul_comm 2,
      Nat.mul_assoc]
    exact Nat.mul_div_cancel_left _ positive
  have bound : fee.toNat / config.feeDenominator.toNat = 2 * config.gasTarget header := by
    rw [toNat_fee, ← Nat.mul_assoc]
    exact Nat.mul_div_cancel _ denominator
  let full : Header := { header with gasUsed := header.gasLimit, baseFee := fee }
  have next : (config.nextBaseFee full).toNat =
      config.feeAfter fee.toNat header.gasLimit.toNat (config.gasTarget header) :=
    config.toNat_nextBaseFee full london
  rw [config.feeAfter_of_lt targeted (by omega), step] at next
  refine ⟨fee, ?_⟩
  change ¬Nat.dist (config.nextBaseFee full).toNat fee.toNat ≤
    max 1 (fee.toNat / config.feeDenominator.toNat)
  rw [next, bound, Nat.dist]
  omega

/-- A gas limit keeps every fee within its step, however much gas is used, if it is at most twice
the target. Otherwise the fee still falls no farther, and it rises no farther while no more than
twice the target was used. Within the limit the rise is at most `2 * (elasticity - 1)` times the
fee, divided by the denominator, or one. -/
theorem base_fee_steps (valid : config.flaw? = none)
    (london : config.isLondon header.number = true) :
    ((∀ used fee, used ≤ header.gasLimit →
        config.StepsWithin { header with gasUsed := used, baseFee := fee }) ↔
      config.gasTarget header = 0 ∨ header.gasLimit.toNat ≤ 2 * config.gasTarget header) ∧
    (header.gasUsed.toNat ≤ 2 * config.gasTarget header → config.StepsWithin header) ∧
    header.baseFee.toNat ≤
      (config.nextBaseFee header).toNat + header.baseFee.toNat / config.feeDenominator.toNat ∧
    (header.gasUsed ≤ header.gasLimit →
      (config.nextBaseFee header).toNat ≤ header.baseFee.toNat +
        max 1 (2 * (config.elasticity.toNat - 1) * header.baseFee.toNat /
          config.feeDenominator.toNat)) := by
  refine ⟨⟨?_, ?_⟩, fun near => stepsWithin_of_near valid london (.inr near),
    nextBaseFee_fall valid london, ?_⟩
  · intro within
    by_contra far
    obtain ⟨targeted, beyond⟩ := not_or.mp far
    obtain ⟨fee, farther⟩ :=
      exists_not_stepsWithin valid london targeted (Nat.lt_of_not_le beyond)
    exact farther (within header.gasLimit fee (UInt64.le_refl _))
  · intro near used fee limited
    let parent : Header := { header with gasUsed := used, baseFee := fee }
    have nearToo : config.gasTarget parent = 0 ∨
        parent.gasUsed.toNat ≤ 2 * config.gasTarget parent :=
      near.imp_right (Nat.le_trans (UInt64.le_iff_toNat_le.mp limited))
    exact stepsWithin_of_near valid london nearToo
  · intro limited
    by_cases targeted : config.gasTarget header = 0
    · rw [nextBaseFee_untargeted london targeted]
      exact Nat.le_add_right _ _
    · have elastic := gasLimit_le (flaw?_eq_none_iff.mp valid).2 targeted
      exact nextBaseFee_rise valid london
        (Nat.le_trans (UInt64.le_iff_toNat_le.mp limited) elastic)

def oddBlock : Header where
  number := 1
  gasLimit := 30000001
  gasUsed := 30000001
  baseFee := 1000000000

theorem oddBlock_steps :
    ({} : ChainConfig).flaw? = none ∧ ({} : ChainConfig).isLondon oddBlock.number = true ∧
      (¬∀ used fee, used ≤ oddBlock.gasLimit →
        ({} : ChainConfig).StepsWithin { oddBlock with gasUsed := used, baseFee := fee }) ∧
      (({} : ChainConfig).nextBaseFee oddBlock).toNat ≤ 1000000000 + 250000000 := by
  have valid : ({} : ChainConfig).flaw? = none := by decide
  have london : ({} : ChainConfig).isLondon oddBlock.number = true := by decide
  obtain ⟨exact, _, _, rise⟩ := base_fee_steps valid london
  refine ⟨valid, london, ?_, rise (by decide)⟩
  rw [exact]
  decide

/-- The target of an odd limit is rounded down, and the fee rises farther than one step. -/
theorem odd_limit_oversteps :
    ¬∀ (config : ChainConfig) (parent : Header), config.flaw? = none →
      config.isLondon parent.number = true → parent.gasUsed ≤ parent.gasLimit →
        config.StepsWithin parent := by
  intro claimed
  have within := claimed {} oddBlock (by decide) (by decide) (by decide)
  exact absurd within (by decide +kernel)

/-- More gas used never makes the next block cheaper, and neither does a greater fee of the parent.
The fee rises where gas was used beyond a target that is not zero, unless it is the greatest word,
and never where no more than the target was used. -/
theorem next_fee_monotone (london : config.isLondon parent.number = true) :
    (∀ more : Gas, parent.gasUsed ≤ more →
      config.nextBaseFee parent ≤ config.nextBaseFee { parent with gasUsed := more }) ∧
    (∀ more : Word, parent.baseFee ≤ more →
      config.nextBaseFee parent ≤ config.nextBaseFee { parent with baseFee := more }) ∧
    (parent.baseFee < config.nextBaseFee parent ↔
      config.gasTarget parent < parent.gasUsed.toNat ∧ config.gasTarget parent ≠ 0 ∧
        parent.baseFee < Word.greatest) ∧
    (parent.gasUsed.toNat ≤ config.gasTarget parent →
      config.nextBaseFee parent ≤ parent.baseFee) := by
  have fits := Word.toNat_le_greatest parent.baseFee
  have next := config.toNat_nextBaseFee parent london
  refine ⟨?_, ?_, ?_, ?_⟩
  · intro more busier
    have later := config.toNat_nextBaseFee { parent with gasUsed := more } london
    rw [BitVec.le_def, next, later]
    exact config.feeAfter_mono_used fits (UInt64.le_iff_toNat_le.mp busier)
  · intro more dearer
    have later := config.toNat_nextBaseFee { parent with baseFee := more } london
    rw [BitVec.le_def, next, later]
    exact config.feeAfter_mono_fee dearer
  · rw [BitVec.lt_def, BitVec.lt_def, next, lt_feeAfter_iff]
    exact and_left_comm
  · intro below
    rw [BitVec.le_def, next]
    exact config.feeAfter_le below

def dearestBlock : Header := { oddBlock with baseFee := Word.greatest }

theorem dearestBlock_monotone :
    ({} : ChainConfig).isLondon dearestBlock.number = true ∧
      ({} : ChainConfig).nextBaseFee dearestBlock ≤
        ({} : ChainConfig).nextBaseFee { dearestBlock with gasUsed := Gas.unlimited } ∧
      ¬dearestBlock.baseFee < ({} : ChainConfig).nextBaseFee dearestBlock := by
  have london : ({} : ChainConfig).isLondon dearestBlock.number = true := by decide
  obtain ⟨busier, _, rises, _⟩ := next_fee_monotone london
  refine ⟨london, busier Gas.unlimited (by decide), ?_⟩
  rw [rises]
  decide

end ChainConfig

end HostedEvm
