import RfidReader.Transmit.Basic

/-!
# RfidReader.Transmit.Carrier

Turning the carrier on and off.

`rampUp` follows a plan: it assembles the ramp as one aggregate operation,
waits out the off time the channel owes, lets the hooks have their say, and
moves on to the next channel once the operation is complete.
`rampStepwise` is the same ramp one operation at a time, for test setups.
-/

namespace RfidReader
namespace Transmitter

/-! ## Sequence -/

/-- Whether a plan's ramp starts above the requested power. -/
def boosts (t : Transmitter) (power : PowerSettings) : Bool :=
  t.powerBoost && (PowerSettings.live? power.boostTarget).isSome

def rampBatches (t : Transmitter) (plan : RampPlan) : List Batch :=
  [Instruction.hostMutex true,
    Sequence.changePins plan.pins,
    Sequence.lockSynthesizer plan.synthesizer.rIndex plan.synthesizer.nDivider,
    Sequence.fineGain plan.power.txScalar,
    Sequence.dwellTimers plan.timers,
    Sequence.droop t.droop,
    Sequence.coarseGain plan.power.txAtten,
    if t.boosts plan.power then Sequence.boostedRamp plan.power
    else Sequence.rampAndControl plan.power,
    Sequence.cancelSelfJam,
    Instruction.exit]

/-- The ramp as the buffer of an aggregate operation. -/
def rampBuffer (t : Transmitter) (plan : RampPlan) : Except Fault AggregateBuffer :=
  Builder.assemble (Batch.appendEach (t.rampBatches plan))

/-! ## Carrier -/

def isCarrierOn : DeviceM Bool := Device.readRegister Register.cwIsOn

/-- Copy instructions to the chip and wait for the aggregate operation to carry them out. -/
def runAggregate (buffer : AggregateBuffer) : DeviceM OpStatus := do
  Device.write Register.aggregateBufferAddress buffer.bytes
  Device.runOp .aggregate

/-- Wait out the off time that a ramp's timers ask for, by the chip's own timer. -/
def waitOffTime (timers : DwellTimers) : DeviceM Unit := do
  if timers.offSameChannelMs ≠ 0 then
    Device.writeRegister Register.delayUs (timers.offSameChannelMs.toUInt32 * 1000)
    let _ ← Device.runOp .usTimerStart
    let _ ← Device.runOp .usTimerWait

/-- What the hooks of a plan's ramp can look at. -/
def rampContext (t : Transmitter) (plan : RampPlan) : RampContext where
  plan
  calibration := t.calibration
  index := t.region.nextIndex
  khz := plan.khz

/-- Turn the carrier on, with work to do right before and right after the ramp.  Nothing happens
if it is on already. -/
def rampUpAround {κ : Type} (plan : RampPlan)
    (before after : RampContext → HostM (Transmitter × κ) Unit) :
    HostM (Transmitter × κ) Unit := do
  if ← isCarrierOn then return
  let (t, _) ← get
  let buffer ← t.rampBuffer plan
  waitOffTime plan.timers
  let context := t.rampContext plan
  before context
  let _ ← runAggregate buffer
  modify fun (t, k) => ({ t with region := t.region.advance }, k)
  after context

/-- Turn the carrier on, with the hooks of a slot around the ramp. -/
def rampUp {κ : Type} (plan : RampPlan) (slot : HookSlot κ) : HostM (Transmitter × κ) Unit :=
  rampUpAround plan (fun context => (slot.before context).onSecond)
    (fun context => (slot.after context).onSecond)

/-- Start turning the carrier off, without waiting for it. -/
def rampDown : DeviceM Unit := Device.startOp .txRampDown

/-- Abort what is running and turn the carrier off, waiting for both. -/
def shutDown : DeviceM Unit := do
  Device.stopOp
  let _ ← Device.wait
  rampDown
  let _ ← Device.wait

/-! ## One operation at a time -/

/-- Set up and run the power control loop.  There has to be a target. -/
def controlPower (power : PowerSettings) : DeviceM Unit := do
  match power.settleTarget? with
  | none => throw (.host .noAdcTarget)
  | some target =>
    Device.writeAll
      [(Register.loopDetectors.address,
          Register.loopDetectors.encode target.detector.enableBits),
        (Register.loopGainDivisor.address, Register.loopGainDivisor.encode power.gainDivisor),
        (Register.loopMaxIterations.address,
          Register.loopMaxIterations.encode power.maxIterations),
        (Register.loopAdcTarget.address, Register.loopAdcTarget.encode target.adc),
        (Register.loopThresholds.address,
          Register.loopThresholds.encode ⟨power.stopThreshold, power.errorThreshold⟩),
        (Register.opsControl.address, Register.opsControl.encode Op.powerControlLoop.code)]
    let _ ← Device.wait

/-- Turn the carrier on one operation at a time. -/
def rampStepwise (power : PowerSettings) (timers : DwellTimers) : DeviceM Unit := do
  applyRegister Register.coarseGain (lowFive power.txAtten.toNat) .setTxCoarseGain
  applyRegister Register.fineGain power.txScalar .setTxFineGain
  setTimers timers
  applyRegister Register.dcOffset power.dcOffset .txRampUp
  if power.isClosedLoop then controlPower power

end Transmitter
end RfidReader
