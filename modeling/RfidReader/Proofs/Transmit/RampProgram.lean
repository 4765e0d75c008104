import Mathlib.Data.List.Forall2
import RfidReader.Proofs.Register.RoundTrip
import RfidReader.Proofs.Transmit.PowerLoop

/-!
# RfidReader.Proofs.Transmit.RampProgram

The program of a ramp, step by step.

A step of a ramp gives a register a value or runs an operation, and an
instruction `Carries` a step when what it writes is read back as the value.
`rampSteps` lists the steps of a plan's ramp as they are intended, with as much
of each value as its register takes: three bits of the reference divider's index,
five of the coarse gain and twenty of the DC offset.  The buffer that is assembled
for the ramp carries the steps one for one (`rampBuffer_carries`).  The values of
a plan are not all read back as they are: an index of 8 or above loses its upper
bits (`rampBuffer_index_cut`).
-/

namespace RfidReader

open Instruction

/-! ## Steps -/

/-- A step of a ramp. -/
inductive RampStep where
  /-- Take the host lock. -/
  | lock
  /-- Give a register a value. -/
  | set (name : Register.Name) (value : name.mapped.Value)
  /-- Run an operation. -/
  | run (op : Op)
  /-- End the program. -/
  | exit

namespace RampStep

/-- An instruction does what a step says.  A write fills the register with equal entries and is
read back as the value. -/
inductive Carries : RampStep → Instruction → Prop where
  | lock : Carries .lock (.hostMutex true)
  | set {name : Register.Name} {value : name.mapped.Value} {data entry : List UInt8}
      (entries : data = (List.replicate name.mapped.register.copies entry).flatten)
      (width : entry.length = name.mapped.register.width)
      (back : name.mapped.register.decode? data = some value) :
      Carries (.set name value) (.write name.mapped.register.address data)
  | run (op : Op) : Carries (.run op) (.runOp op)
  | exit : Carries .exit .exit

/-- Instructions that carry out a list of steps one by one. -/
abbrev CarriedBy (steps : List RampStep) (is : List Instruction) : Prop :=
  List.Forall₂ Carries steps is

/-- Writing a register whose values are read back gives it the value. -/
theorem carries_write (name : Register.Name) (h : name ≠ .dcOffset) (v : name.mapped.Value) :
    Carries (.set name v) (Sequence.write name.mapped.register v) :=
  .set rfl (Bytes.length_ofNatLE ..) (name.mapped.layout.decode?_encode (name.exact h) v)

/-- Of a DC offset, twenty bits are written. -/
theorem carries_write_dcOffset (v : Int32) :
    Carries (.set .dcOffset (Int32.ofInt (v.toInt.bmod (2 ^ 20))))
      (Sequence.write Register.dcOffset v) :=
  @Carries.set .dcOffset _ _ _ rfl (Bytes.length_ofNatLE ..)
    (Register.decode?_encode_dcOffset v)

theorem CarriedBy.append {steps steps' : List RampStep} {is js : List Instruction}
    (h : CarriedBy steps is) (h' : CarriedBy steps' js) : CarriedBy (steps ++ steps') (is ++ js) :=
  List.rel_append h h'

/-- Setting a register and running the operation that takes it. -/
theorem carriedBy_writeThenRun (name : Register.Name) (h : name ≠ .dcOffset)
    (v : name.mapped.Value) (op : Op) :
    CarriedBy [.set name v, .run op] (Sequence.writeThenRun name.mapped.register v op).instructions :=
  .cons (carries_write name h v) (.cons (.run op) .nil)

end RampStep

/-! ## The program -/

namespace PowerSettings

/-- The steps for a target to regulate to, which is there and not zero, or else some others. -/
def stepsTowards (target : Option AdcTarget) (steps : AdcTarget → List RampStep)
    (otherwise : List RampStep) : List RampStep :=
  match target with
  | none => otherwise
  | some target => if target.adc = 0 then otherwise else steps target

section Towards

variable {target : Option AdcTarget} {goal : AdcTarget} {steps : AdcTarget → List RampStep}
  {otherwise : List RampStep}

theorem stepsTowards_of_live (h : live? target = some goal) :
    stepsTowards target steps otherwise = steps goal := by
  obtain ⟨rfl, hadc⟩ := live?_eq_some h
  exact if_neg hadc

theorem stepsTowards_of_none (h : live? target = none) :
    stepsTowards target steps otherwise = otherwise := by
  cases target with
  | none => rfl
  | some goal =>
      have hadc : goal.adc = 0 := by simpa [live?] using h
      exact if_pos hadc

end Towards

/-- Setting the DC offset, of which twenty bits count. -/
def dcOffsetStep (s : PowerSettings) : RampStep :=
  .set .dcOffset (Int32.ofInt (s.dcOffset.toInt.bmod (2 ^ 20)))

/-- Setting up the power control loop for a target. -/
def controlSteps (s : PowerSettings) (target : AdcTarget) : List RampStep :=
  [.set .loopDetectors target.detector.enableBits, .set .loopGainDivisor s.gainDivisor,
    .set .loopMaxIterations s.maxIterations, .set .loopAdcTarget target.adc,
    .set .loopThresholds ⟨s.stopThreshold, s.errorThreshold⟩]

/-- Setting it up for a target that may be missing or zero, for which nothing is set. -/
def controlStepsFor (s : PowerSettings) (target : Option AdcTarget) : List RampStep :=
  stepsTowards target s.controlSteps []

/-- Ramp up, with the power control loop around it if there is a target. -/
def simpleSteps (s : PowerSettings) : List RampStep :=
  s.dcOffsetStep ::
    stepsTowards s.adcTarget
      (fun target => s.controlSteps target ++ [.run .txRampUp, .run .powerControlLoop])
      [.run .txRampUp]

/-- Ramp up to a boost target, hold it for 840 µs, and settle. -/
def boostedSteps (s : PowerSettings) (boost : AdcTarget) : List RampStep :=
  s.dcOffsetStep ::
    (s.controlSteps boost ++
      [.set .delayUs (840 : UInt32), .run .txRampUp, .run .usTimerStart, .run .powerControlLoop] ++
      s.controlStepsFor s.adcTarget ++
      [.run .usTimerWait, .run .powerControlLoop])

end PowerSettings

namespace Transmitter

open PowerSettings

/-- Ramp up by way of the boost target, if the boost is on and there is one. -/
def powerSteps (t : Transmitter) (power : PowerSettings) : List RampStep :=
  if t.powerBoost then stepsTowards power.boostTarget power.boostedSteps power.simpleSteps
  else power.simpleSteps

/-- The steps of a plan's ramp. -/
def rampSteps (t : Transmitter) (plan : RampPlan) : List RampStep :=
  [.lock,
    .set .pinChanges plan.pins, .run .setClearGpioPins,
    .set .synthesizer ⟨plan.synthesizer.nDivider, Fin.ofNat 8 plan.synthesizer.rIndex.toNat, true⟩,
    .run .lockSynthesizer,
    .set .fineGain plan.power.txScalar, .run .setTxFineGain,
    .set .nominalStop plan.timers.nominalMs, .set .extendedStop plan.timers.extendedMs,
    .set .regulatoryStop plan.timers.regulatoryMs, .set .txMutexTime (1500 : UInt16),
    .set .burstOffTime plan.timers.offSameChannelMs,
    .set .droop t.droop,
    .set .coarseGain (Fin.ofNat 32 plan.power.txAtten.toNat), .run .setTxCoarseGain] ++
  t.powerSteps plan.power ++ [.run .rxRunSjc, .exit]

end Transmitter

/-! ## The sequences -/

namespace Sequence

open PowerSettings RampStep

variable {s : PowerSettings}

theorem carriedBy_loopSettings (s : PowerSettings) (target : AdcTarget) :
    CarriedBy (s.controlSteps target) (loopSettings s target).instructions :=
  .cons (carries_write .loopDetectors (by decide) _) <|
    .cons (carries_write .loopGainDivisor (by decide) _) <|
      .cons (carries_write .loopMaxIterations (by decide) _) <|
        .cons (carries_write .loopAdcTarget (by decide) _) <|
          .cons (carries_write .loopThresholds (by decide) _) .nil

theorem carriedBy_loopSettingsFor (s : PowerSettings) (target : Option AdcTarget) :
    CarriedBy (s.controlStepsFor target) (loopSettingsFor s target).instructions := by
  rw [controlStepsFor]
  cases hgoal : live? target with
  | none =>
      rw [stepsTowards_of_none hgoal, loopSettingsFor_of_none hgoal]
      exact .nil
  | some goal =>
      rw [stepsTowards_of_live hgoal, loopSettingsFor_of_live hgoal]
      exact carriedBy_loopSettings s goal

theorem carriedBy_rampAndControl (s : PowerSettings) :
    CarriedBy s.simpleSteps (rampAndControl s).instructions := by
  rw [simpleSteps]
  cases hgoal : live? s.adcTarget with
  | none =>
      rw [stepsTowards_of_none hgoal, instructions_rampAndControl_of_none hgoal]
      exact .cons (carries_write_dcOffset _) (.cons (.run _) .nil)
  | some goal =>
      rw [stepsTowards_of_live hgoal, instructions_rampAndControl hgoal, List.cons_append,
        List.append_assoc]
      exact .cons (carries_write_dcOffset _) <|
        (carriedBy_loopSettings s goal).append (.cons (.run _) (.cons (.run _) .nil))

theorem carriedBy_boostedRamp {s : PowerSettings} {boost : AdcTarget}
    (h : live? s.boostTarget = some boost) :
    CarriedBy (s.boostedSteps boost) (boostedRamp s).instructions := by
  have his : (boostedRamp s).instructions =
      write Register.dcOffset s.dcOffset ::
        ((loopSettings s boost).instructions ++
          [write Register.delayUs boostHoldUs, runOp .txRampUp, runOp .usTimerStart,
            runOp .powerControlLoop] ++
          (loopSettingsFor s s.adcTarget).instructions ++
          [runOp .usTimerWait, runOp .powerControlLoop]) := by
    rw [instructions_boostedRamp h]
    simp only [List.append_assoc, List.cons_append, List.nil_append]
  have hhold : Carries (.set .delayUs (840 : UInt32)) (write Register.delayUs boostHoldUs) :=
    carries_write .delayUs (by decide) boostHoldUs
  rw [his]
  exact .cons (carries_write_dcOffset _) <|
    (((carriedBy_loopSettings s boost).append <|
      .cons hhold <| .cons (.run _) <| .cons (.run _) <| .cons (.run _) .nil).append <|
        carriedBy_loopSettingsFor s s.adcTarget).append <|
          .cons (.run _) (.cons (.run _) .nil)

theorem carriedBy_dwellTimers (t : DwellTimers) :
    CarriedBy
      [.set .nominalStop t.nominalMs, .set .extendedStop t.extendedMs,
        .set .regulatoryStop t.regulatoryMs, .set .txMutexTime (1500 : UInt16),
        .set .burstOffTime t.offSameChannelMs]
      (dwellTimers t).instructions :=
  .cons (carries_write .nominalStop (by decide) _) <|
    .cons (carries_write .extendedStop (by decide) _) <|
      .cons (carries_write .regulatoryStop (by decide) _) <|
        .cons (carries_write .txMutexTime (by decide) txMutexUs) <|
          .cons (carries_write .burstOffTime (by decide) _) .nil

end Sequence

namespace Transmitter

open PowerSettings RampStep Sequence

/-- The part of a ramp that depends on its targets. -/
theorem carriedBy_ramp (t : Transmitter) (power : PowerSettings) :
    CarriedBy (t.powerSteps power)
      (if t.boosts power then boostedRamp power else rampAndControl power).instructions := by
  rw [powerSteps, boosts]
  cases t.powerBoost with
  | false => exact carriedBy_rampAndControl power
  | true =>
      rw [if_pos rfl]
      cases hboost : live? power.boostTarget with
      | none =>
          rw [stepsTowards_of_none hboost]
          exact carriedBy_rampAndControl power
      | some boost =>
          rw [stepsTowards_of_live hboost]
          exact carriedBy_boostedRamp hboost

theorem carriedBy_rampBatches (t : Transmitter) (plan : RampPlan) :
    CarriedBy (t.rampSteps plan) (Batch.instructionsOf (t.rampBatches plan)) := by
  have hsetUp : CarriedBy ((t.rampSteps plan).take 15)
      (Batch.instructionsOf ((t.rampBatches plan).take 7)) :=
    .cons .lock <|
      (carriedBy_writeThenRun .pinChanges (by decide) _ _).append <|
        (carriedBy_writeThenRun .synthesizer (by decide) _ _).append <|
          (carriedBy_writeThenRun .fineGain (by decide) _ _).append <|
            (carriedBy_dwellTimers _).append <|
              .cons (carries_write .droop (by decide) _) <|
                carriedBy_writeThenRun .coarseGain (by decide) _ _
  have hend : CarriedBy [.run .rxRunSjc, .exit] [runOp .rxRunSjc, exit] :=
    .cons (.run _) (.cons .exit .nil)
  rw [instructionsOf_rampBatches]
  exact (hsetUp.append (t.carriedBy_ramp plan.power)).append hend

/-- **The program of a ramp**: a ramp can always be assembled, in less than half of the buffer, and
its instructions carry the steps of the plan's ramp one for one. -/
theorem rampBuffer_carries (t : Transmitter) (plan : RampPlan) :
    ∃ b, t.rampBuffer plan = .ok b ∧ b.length ≤ 240 ∧
      CarriedBy (t.rampSteps plan) b.instructions := by
  obtain ⟨b, hb, hholds⟩ := t.exists_rampBuffer plan
  have hextent := (t.fits_rampBatches plan).extent_le
  rw [← hholds.instructions_eq, hholds.extent_eq] at hextent
  refine ⟨b, hb, hextent, ?_⟩
  rw [hholds.instructions_eq]
  exact t.carriedBy_rampBatches plan

/-- A plan with an index of four bits: what is written for it is read back as index 1. -/
theorem rampBuffer_index_cut :
    let t : Transmitter :=
      { calibration :=
          { version := .notFound, customerVersion := 0xFF, params := .uncalibrated,
            tables := .standard, filter := {}, drmOffsets := [], otherOffsets := [] }
        region := .start .plain [] 24000 [1]
        board := {} }
    let plan : RampPlan :=
      { antenna := 1, mode := 103, cdbm := 2500, temperatureAdc := none, band := .upperBand
        khz := 902750, synthesizer := ⟨902750, 9, 3611⟩, pins := {}, timers := .disabled
        power := .openLoop 2500 }
    ∃ b data setting, t.rampBuffer plan = .ok b ∧
      .write Register.synthesizer.address data ∈ b.instructions ∧
      Register.synthesizer.decode? data = some setting ∧
      setting.rIndex.val = 1 ∧ plan.synthesizer.rIndex = 9 := by
  intro t plan
  obtain ⟨b, hb, hholds⟩ := t.exists_rampBuffer plan
  let setting : SynthesizerSetting := .ofIndex 3611 9 true
  refine ⟨b, Register.synthesizer.encode setting, setting, hb, ?_, ?_, rfl, rfl⟩
  · rw [hholds.instructions_eq]
    exact List.mem_of_getElem? (i := 3) rfl
  · exact Register.Name.synthesizer.mapped.layout.decode?_encode
      (Register.Name.synthesizer.exact (by decide)) setting

end Transmitter
end RfidReader
