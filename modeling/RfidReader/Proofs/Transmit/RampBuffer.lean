import RfidReader.Proofs.Aggregate.Room
import RfidReader.Transmit.Carrier

/-!
# RfidReader.Proofs.Transmit.RampBuffer

Every ramp fits into the aggregate buffer.

A ramp takes at most 240 of the 512 bytes, whichever of its parts a plan asks
for, and none of its instructions needs more than room (`fits_rampBatches`).
So assembling a ramp never fails, and the buffer holds the instructions of the
plan's batches (`exists_rampBuffer`).
-/

namespace RfidReader

open Instruction

namespace Sequence

/-! ## The extent of the sequences -/

theorem fits_loopSettings (s : PowerSettings) (target : AdcTarget) :
    Fits (loopSettings s target).instructions 45 :=
  (Fits.write Register.loopDetectors _).append <|
    (Fits.write Register.loopGainDivisor _).append <|
      (Fits.write Register.loopMaxIterations _).append <|
        (Fits.write Register.loopAdcTarget _).append <|
          Fits.write Register.loopThresholds _

/-- The settings for a target take no more room than those for one that is live. -/
theorem fits_loopSettingsFor (s : PowerSettings) (target : Option AdcTarget) :
    Fits (loopSettingsFor s target).instructions 45 := by
  rw [loopSettingsFor]
  cases PowerSettings.live? target with
  | none => exact Fits.nil.mono (by decide)
  | some target => exact fits_loopSettings s target

theorem fits_rampAndControl (s : PowerSettings) : Fits (rampAndControl s).instructions 58 := by
  have hloop : Fits (if s.isClosedLoop then Batch.one (.runOp .powerControlLoop)
      else .all []).instructions 2 := by
    cases s.isClosedLoop with
    | true => exact Fits.runOp .powerControlLoop
    | false => exact Fits.nil.mono (by decide)
  exact (Fits.write Register.dcOffset _).append <|
    (fits_loopSettingsFor s _).append <|
      (Fits.runOp .txRampUp).append <|
        hloop.append Fits.nil

theorem fits_boostedRamp (s : PowerSettings) : Fits (boostedRamp s).instructions 118 := by
  rw [boostedRamp]
  cases s.boostTarget.isNone with
  | true => exact (fits_rampAndControl s).mono (by decide)
  | false =>
      exact (Fits.write Register.dcOffset _).append <|
        (fits_loopSettingsFor s _).append <|
          (Fits.write Register.delayUs _).append <|
            (Fits.runOp .txRampUp).append <|
              (Fits.runOp .usTimerStart).append <|
                (Fits.runOp .powerControlLoop).append <|
                  (fits_loopSettingsFor s _).append <|
                    (Fits.runOp .usTimerWait).append <|
                      Fits.runOp .powerControlLoop

theorem fits_dwellTimers (t : DwellTimers) : Fits (dwellTimers t).instructions 37 :=
  (Fits.write Register.nominalStop _).append <|
    (Fits.write Register.extendedStop _).append <|
      (Fits.write Register.regulatoryStop _).append <|
        (Fits.write Register.txMutexTime _).append <|
          Fits.write Register.burstOffTime _

end Sequence

namespace Transmitter

/-- The last step of a ramp fits, whether it is boosted or not. -/
theorem fits_ramp (t : Transmitter) (power : PowerSettings) :
    Fits (if t.boosts power then Sequence.boostedRamp power
      else Sequence.rampAndControl power).instructions 118 := by
  cases t.boosts power with
  | true => exact Sequence.fits_boostedRamp power
  | false => exact (Sequence.fits_rampAndControl power).mono (by decide)

/-- The ramp of a plan takes at most 240 bytes. -/
theorem fits_rampBatches (t : Transmitter) (plan : RampPlan) :
    Fits (Batch.instructionsOf (t.rampBatches plan)) 240 := by
  have hmutex : Fits [hostMutex true] 1 := ⟨by simp [Plain], Nat.le_refl 1⟩
  have hexit : Fits [Instruction.exit] 1 := ⟨by simp [Plain], Nat.le_refl 1⟩
  exact hmutex.append <|
    (Fits.writeThenRun Register.pinChanges _ _).append <|
      (Fits.writeThenRun Register.synthesizer _ _).append <|
        (Fits.writeThenRun Register.fineGain _ _).append <|
          (Sequence.fits_dwellTimers _).append <|
            (Fits.write Register.droop _).append <|
              (Fits.writeThenRun Register.coarseGain _ _).append <|
                (t.fits_ramp plan.power).append <|
                  (Fits.runOp .rxRunSjc).append hexit

/-- **A ramp can always be assembled**: the buffer of a plan holds the instructions of its
batches. -/
theorem exists_rampBuffer (t : Transmitter) (plan : RampPlan) :
    ∃ b, t.rampBuffer plan = .ok b
      ∧ b.Holds (Batch.instructionsOf (t.rampBatches plan)) :=
  Builder.assemble_of_fits (t.fits_rampBatches plan) (by decide)

end Transmitter
end RfidReader
