import RfidReader.Aggregate.Builder
import RfidReader.Power.Settings
import RfidReader.Register.Map

/-!
# RfidReader.Aggregate.Sequence

The instruction sequences that set up and ramp the transmitter, each a batch
of its own or of shorter ones.

Most of them write a register and run the operation that takes it.  The power
control loop runs only when there is a target to regulate to; a boosted ramp
regulates to the boost target first, holds it, and then settles.
-/

namespace RfidReader

/-- How long the transmit lock is held, in every region. -/
def txMutexUs : UInt16 := 1500

/-- How long the boost is held before the second loop: the boost lasts 900 µs, of which waiting
for the timer takes about 60. -/
def boostHoldUs : UInt32 := 840

namespace Sequence

open Instruction

def write {α : Type} (r : Register α) (value : α) : Instruction :=
  .write r.address (r.encode value)

/-- Write a register and run the operation that takes it. -/
def writeThenRun {α : Type} (r : Register α) (value : α) (op : Op) : Batch :=
  .all [write r value, runOp op]

/-! ## Single settings -/

/-- Set the coarse attenuation, of which five bits count. -/
def coarseGain (atten : UInt8) : Batch :=
  writeThenRun Register.coarseGain (lowFive atten.toNat) .setTxCoarseGain

def fineGain (scalar : Int16) : Batch :=
  writeThenRun Register.fineGain scalar .setTxFineGain

/-- Switch the radio mode. -/
def rfMode (mode : UInt16) : Batch := writeThenRun Register.rfMode mode .setRfMode

/-- Set the DC offset and ramp up. -/
def rampUp (dcOffset : Int32) : Batch :=
  writeThenRun Register.dcOffset dcOffset .txRampUp

def startTimer (delayUs : UInt32) : Batch :=
  writeThenRun Register.delayUs delayUs .usTimerStart

def waitTimer : Batch := runOp .usTimerWait

/-- Cancel the reader's own signal in the receiver. -/
def cancelSelfJam : Batch := runOp .rxRunSjc

def rampDown : Batch := runOp .txRampDown

/-- Sample converter slots. -/
def measureAux (start : AuxChannel) (count : Nat) : Batch :=
  writeThenRun Register.auxControl (start.enableBits count) .measureAdc

def changePins (pins : PinChanges) : Batch :=
  writeThenRun Register.pinChanges pins .setClearGpioPins

/-- Lock the synthesizer to a pair of dividers. -/
def lockSynthesizer (rIndex : UInt8) (nDivider : UInt16) : Batch :=
  writeThenRun Register.synthesizer (.ofIndex nDivider rIndex true) .lockSynthesizer

def dwellTimers (t : DwellTimers) : Batch :=
  .all
    [write Register.nominalStop t.nominalMs, write Register.extendedStop t.extendedMs,
      write Register.regulatoryStop t.regulatoryMs, write Register.txMutexTime txMutexUs,
      write Register.burstOffTime t.offSameChannelMs]

def droop (d : DroopCompensation) : Batch := write Register.droop d

/-! ## Power control -/

/-- Write the five settings of the power control loop for a target. -/
def loopSettings (s : PowerSettings) (target : AdcTarget) : Batch :=
  .all
    [write Register.loopDetectors target.detector.enableBits,
      write Register.loopGainDivisor s.gainDivisor,
      write Register.loopMaxIterations s.maxIterations,
      write Register.loopAdcTarget target.adc,
      write Register.loopThresholds ⟨s.stopThreshold, s.errorThreshold⟩]

/-- The settings for a target that may be missing or zero, in which case there are none. -/
def loopSettingsFor (s : PowerSettings) (target : Option AdcTarget) : Batch :=
  match PowerSettings.live? target with
  | none => .all []
  | some target => loopSettings s target

/-- Set up and run the power control loop, if there is a target. -/
def powerControl (s : PowerSettings) : Batch :=
  if s.isClosedLoop then .all [loopSettingsFor s s.adcTarget, runOp .powerControlLoop]
  else .all []

/-- Ramp up and, if there is a target, run the power control loop right after. -/
def rampAndControl (s : PowerSettings) : Batch :=
  .all
    [write Register.dcOffset s.dcOffset, loopSettingsFor s s.adcTarget, runOp .txRampUp,
      if s.isClosedLoop then runOp .powerControlLoop else .all []]

/-- Ramp up to the boost target, hold it, and settle at the requested power.  Without a boost
target this is a plain ramp. -/
def boostedRamp (s : PowerSettings) : Batch :=
  if s.boostTarget.isNone then rampAndControl s
  else
    .all
      [write Register.dcOffset s.dcOffset, loopSettingsFor s s.boostTarget,
        write Register.delayUs boostHoldUs, runOp .txRampUp, runOp .usTimerStart,
        runOp .powerControlLoop, loopSettingsFor s s.adcTarget, runOp .usTimerWait,
        runOp .powerControlLoop]

/-- Set the gains and timers, ramp up, and run power control. -/
def transmit (s : PowerSettings) (t : DwellTimers) : Batch :=
  .all
    [coarseGain s.txAtten, fineGain s.txScalar, dwellTimers t, rampUp s.dcOffset,
      powerControl s]

end Sequence
end RfidReader
