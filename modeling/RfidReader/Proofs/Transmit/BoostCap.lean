import RfidReader.Proofs.Calibration.DetectorReading
import RfidReader.Proofs.Transmit.PowerLoop

/-!
# RfidReader.Proofs.Transmit.BoostCap

What is capped of a boosted ramp.

The power a boosted ramp starts at is at most the lower of the board's and the
region's maximum power: the attenuation and the target of the first loop follow
from it.  The target to settle at follows from the requested power alone.  A
request above the maximum therefore starts at the maximum and then settles
above it: its first loop regulates to what the second loop of a request at the
maximum does, and its second loop to the power that was asked for
(`powerSettings_of_above`).
-/

namespace RfidReader

/-! ## Two loops -/

open Instruction (runOp exit)

/-- The power control loop runs twice, each time on settings of its own. -/
def RunsTwice (first second : LoopSetup) (is : List Instruction) : Prop :=
  ∃ before between after,
    is = before ++ runOp .powerControlLoop :: between ++ runOp .powerControlLoop :: after ∧
      (∀ part ∈ [before, between, after], runOp .powerControlLoop ∉ part) ∧
      LoopSetup.written? before = some first ∧ LoopSetup.written? between = some second

namespace Sequence

open PowerSettings

/-- A boosted ramp regulates to its boost target first, and then to the one to settle at. -/
theorem runsTwice_boostedRamp {s : PowerSettings} {boost goal : AdcTarget}
    {setUp : List Instruction} (hsetUp : runOp .powerControlLoop ∉ setUp)
    (hboost : live? s.boostTarget = some boost) (hgoal : live? s.adcTarget = some goal) :
    RunsTwice (.of s boost) (.of s goal)
      (setUp ++ (boostedRamp s).instructions ++ [runOp .rxRunSjc, exit]) := by
  let hold := [Sequence.write Register.delayUs boostHoldUs, runOp .txRampUp, runOp .usTimerStart]
  refine ⟨setUp ++ [Sequence.write Register.dcOffset s.dcOffset] ++
    ((loopSettings s boost).instructions ++ hold),
    (loopSettings s goal).instructions ++ [runOp .usTimerWait], [runOp .rxRunSjc, exit],
    ?_, ?_, ?_, ?_⟩
  · simp only [hold, instructions_boostedRamp hboost, loopSettingsFor_of_live hgoal,
      List.append_assoc, List.cons_append, List.nil_append]
  · simp [hold, hsetUp, loop_notMem_loopSettings]
  · apply LoopSetup.written?_append
    rw [LoopSetup.written?_append_of_silent (by decide), LoopSetup.written?_loopSettings]
  · rw [LoopSetup.written?_append_of_silent (by decide), LoopSetup.written?_loopSettings]

end Sequence

namespace Transmitter

open PowerSettings

/-- The ramp of a plan with two live targets regulates to one after the other. -/
theorem runsTwice_rampBuffer {t : Transmitter} {plan : RampPlan} {boost goal : AdcTarget}
    (ht : t.powerBoost = true) (hboost : live? plan.power.boostTarget = some boost)
    (hgoal : live? plan.power.adcTarget = some goal) :
    ∃ b, t.rampBuffer plan = .ok b ∧
      RunsTwice (.of plan.power boost) (.of plan.power goal) b.instructions := by
  obtain ⟨b, hb, hholds⟩ := t.exists_rampBuffer plan
  obtain ⟨setUp, hsetUp, hlist⟩ := t.exists_instructionsOf_rampBatches plan
  have hboosts : t.boosts plan.power = true := by rw [boosts, ht, hboost]; rfl
  refine ⟨b, hb, ?_⟩
  rw [hholds.instructions_eq, hlist, if_pos hboosts]
  exact Sequence.runsTwice_boostedRamp hsetUp hboost hgoal

end Transmitter

/-! ## Requests above the maximum -/

namespace Calibration

/-- A request at the maximum or above it starts at the maximum. -/
theorem boostedCdbm_of_le {cdbm maxCdbm : Int16} (h : maxCdbm ≤ cdbm) :
    boostedCdbm cdbm maxCdbm = maxCdbm := by
  rw [Int16.le_iff_toInt_le] at h
  have hlt := cdbm.toInt_lt
  have hle := cdbm.le_toInt
  have hboosted : (clampInt16 (cdbm.toInt + boostCdb)).toInt = min 32767 (cdbm.toInt + 140) := by
    rw [clampInt16, boostCdb, Int16.toInt_ofInt_of_le (by omega) (by omega)]
    omega
  rw [boostedCdbm]
  split_ifs with hcapped
  · rfl
  · rw [Int16.lt_iff_toInt_lt, hboosted] at hcapped
    have hmax := maxCdbm.toInt_lt
    apply Int16.toInt_inj.1
    omega

theorem exists_powerToAdc {c : Calibration} (hs : c.isSupported = true) (cdbm : Int16)
    (conditions : TxConditions) : ∃ target, c.powerToAdc cdbm conditions = some target := by
  simp only [powerToAdc, band?, if_pos hs, Option.map_some]
  exact ⟨_, rfl⟩

/-- At the maximum there is one target, that of the maximum. -/
theorem powerSettings_at (c : Calibration) (hs : c.isSupported = true) (maxCdbm : Int16)
    (conditions : TxConditions) :
    (c.powerSettings maxCdbm true maxCdbm conditions).adcTarget =
        c.powerToAdc maxCdbm conditions ∧
      (c.powerSettings maxCdbm true maxCdbm conditions).boostTarget = none := by
  simp [powerSettings, hs, boostedCdbm_of_le (Int16.le_refl maxCdbm)]

/-- Above the maximum all but the targets is as it is at the maximum. -/
theorem powerSettings_above (c : Calibration) (hs : c.isSupported = true) {cdbm maxCdbm : Int16}
    (h : maxCdbm < cdbm) (conditions : TxConditions) :
    c.powerSettings cdbm true maxCdbm conditions =
      { c.powerSettings maxCdbm true maxCdbm conditions with
        adcTarget := c.powerToAdc cdbm conditions
        boostTarget := c.powerToAdc maxCdbm conditions } := by
  have hne : maxCdbm ≠ cdbm := Int16.ne_of_lt h
  simp [powerSettings, hs, boostedCdbm_of_le (Int16.le_of_lt h),
    boostedCdbm_of_le (Int16.le_refl maxCdbm), hne]

/-- **Boosted requests above the maximum**: they get the attenuation of the maximum and regulate
to it first, but then settle at the power that was asked for.  Their settings differ from those of
a request at the maximum by exactly these two targets, and their ramp runs the loop for one after
the other. -/
theorem powerSettings_of_above (c : Calibration) (hs : c.isSupported = true)
    {cdbm maxCdbm : Int16} (h : maxCdbm < cdbm) (conditions : TxConditions) :
    let power := c.powerSettings cdbm true maxCdbm conditions
    let atMax := c.powerSettings maxCdbm true maxCdbm conditions
    ∃ settle capped, c.powerToAdc cdbm conditions = some settle ∧
      c.powerToAdc maxCdbm conditions = some capped ∧
      atMax.adcTarget = some capped ∧ atMax.boostTarget = none ∧
      power = { atMax with adcTarget := some settle, boostTarget := some capped } ∧
      ∀ (t : Transmitter) (plan : RampPlan), t.powerBoost = true → plan.power = power →
        settle.adc ≠ 0 → capped.adc ≠ 0 →
        ∃ b, t.rampBuffer plan = .ok b ∧
          RunsTwice (.of power capped) (.of power settle) b.instructions := by
  intro power atMax
  obtain ⟨settle, hsettle⟩ := exists_powerToAdc hs cdbm conditions
  obtain ⟨capped, hcapped⟩ := exists_powerToAdc hs maxCdbm conditions
  obtain ⟨hadc, hboost⟩ := c.powerSettings_at hs maxCdbm conditions
  have hpower : power = { atMax with adcTarget := some settle, boostTarget := some capped } := by
    rw [← hsettle, ← hcapped]
    exact c.powerSettings_above hs h conditions
  refine ⟨settle, capped, hsettle, hcapped, hadc.trans hcapped, hboost, hpower, ?_⟩
  intro t plan ht hplan hsettle' hcapped'
  rw [← hplan]
  refine Transmitter.runsTwice_rampBuffer ht ?_ ?_
  · rw [hplan, hpower]
    simpa [PowerSettings.live?] using hcapped'
  · rw [hplan, hpower]
    simpa [PowerSettings.live?] using hsettle'

set_option maxRecDepth 20000 in
/-- For 31 dBm with 30 dBm as the maximum the sample calibration settles at the reading 3600 of
block 2, for 30 dBm at 3350. -/
theorem not_capped_sample :
    ∃ c ∈ ofBytes? Sample.image, c.isSupported = true ∧
      (c.powerSettings 3100 true 3000 Sample.conditions).adcTarget =
        some { adc := 3600, detector := .lo2 } ∧
      (c.powerSettings 3000 true 3000 Sample.conditions).adcTarget =
        some { adc := 3350, detector := .lo2 } ∧
      c.powerSettings 3100 true 3000 Sample.conditions ≠
        c.powerSettings 3000 true 3000 Sample.conditions := by
  have h : (ofBytes? Sample.image).any (fun c => c.isSupported = true ∧
      (c.powerSettings 3100 true 3000 Sample.conditions).adcTarget =
        some { adc := 3600, detector := .lo2 } ∧
      (c.powerSettings 3000 true 3000 Sample.conditions).adcTarget =
        some { adc := 3350, detector := .lo2 }) = true := by
    decide +kernel
  simp only [Option.any_eq_true, decide_eq_true_eq] at h
  obtain ⟨c, hc, hs, habove, hat⟩ := h
  refine ⟨c, hc, hs, habove, hat, fun heq => ?_⟩
  rw [heq, hat] at habove
  exact absurd habove (by decide)

set_option maxRecDepth 20000 in
/-- The first loop of the sample calibration's ramp to 31 dBm regulates to 3350, which is 30 dBm,
and the second to 3600. -/
theorem powerSettings_of_above_sample :
    ∃ c ∈ ofBytes? Sample.image, c.isSupported = true ∧ (3000 : Int16) < 3100 ∧
      ∀ (t : Transmitter) (plan : RampPlan), t.powerBoost = true →
        plan.power = c.powerSettings 3100 true 3000 Sample.conditions →
        ∃ b, t.rampBuffer plan = .ok b ∧
          RunsTwice (.of plan.power ⟨3350, .lo2⟩) (.of plan.power ⟨3600, .lo2⟩) b.instructions := by
  have h : (ofBytes? Sample.image).any (fun c => c.isSupported = true ∧
      c.powerToAdc 3100 Sample.conditions = some { adc := 3600, detector := .lo2 } ∧
      c.powerToAdc 3000 Sample.conditions = some { adc := 3350, detector := .lo2 }) = true := by
    decide +kernel
  simp only [Option.any_eq_true, decide_eq_true_eq] at h
  obtain ⟨c, hc, hs, habove, hat⟩ := h
  refine ⟨c, hc, hs, by decide, fun t plan ht hplan => ?_⟩
  obtain ⟨settle, capped, hsettle, hcapped, -, -, -, hruns⟩ :=
    c.powerSettings_of_above hs (show (3000 : Int16) < 3100 by decide) Sample.conditions
  obtain rfl := Option.some.inj (habove.symm.trans hsettle)
  obtain rfl := Option.some.inj (hat.symm.trans hcapped)
  rw [hplan]
  exact hruns t plan ht hplan (by decide) (by decide)

end Calibration
end RfidReader
