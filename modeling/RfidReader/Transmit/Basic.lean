import RfidReader.Aggregate.Sequence
import RfidReader.Transmit.Ramp

/-!
# RfidReader.Transmit.Basic

The transmitter of one reader: what stays the same from one ramp to the next,
and the work that needs no ramp.

`plan` turns a request for a power on an antenna port into the plan of a ramp
on the next channel.  The other procedures power up the chip, set the receiver,
the radio mode, the dwell timers and droop compensation, and measure the
temperature.  What the host remembers changes only when the chip has taken the
setting.
-/

namespace RfidReader

/-- The state the host keeps for a transmitter. -/
structure Transmitter where
  calibration : Calibration
  region : ActiveRegion
  board : Board
  /-- Whether ramps start above the requested power. -/
  powerBoost : Bool := true
  /-- Droop compensation of the next ramp. -/
  droop : DroopCompensation := {}
  /-- The last temperature measured. -/
  temperatureAdc : Option UInt16 := none
  deriving DecidableEq

abbrev TransmitterM := HostM Transmitter

namespace Transmitter

/-! ## Planning -/

/-- The most a boosted ramp may transmit. -/
def maxPowerCdbm (t : Transmitter) : Int16 :=
  let board := t.board.maxPowerCdbm
  let region := t.region.region.maxPowerCdbm
  if region < board then region else board

/-- Plan a ramp on the next channel.  Without a temperature reading the last measured one counts;
either is used only if `compensate` asks for it. -/
def plan (t : Transmitter) (antenna : UInt8) (mode : RfMode) (cdbm : Int16)
    (temperatureAdc : Option UInt16) (compensate : Bool) : DeviceM RampPlan := do
  let khz := t.region.nextKhz
  let synthesizer ← t.region.synthesizerParams khz
  let timeMs ← Device.timestampMs
  let timers := t.region.timersAt t.region.nextIndex timeMs
  let band := t.region.region.filter
  let pins ← t.board.transmitPins antenna cdbm (t.calibration.filter.choose mode) band
  let temperatureAdc := if compensate then temperatureAdc <|> t.temperatureAdc else none
  let power := t.calibration.powerSettings cdbm t.powerBoost t.maxPowerCdbm
    { khz, temperatureAdc, band }
  pure { antenna, mode, cdbm, temperatureAdc, band, khz, synthesizer, pins, power, timers }

/-! ## Setting up -/

/-- Write a register and wait for the operation that takes it. -/
def applyRegister {α : Type} (r : Register α) (value : α) (op : Op) : DeviceM Unit := do
  Device.writeRegister r value
  let _ ← Device.runOp op

def setRxGains (gains : RxGains) : DeviceM Unit :=
  applyRegister Register.rxGains gains .setRxGain

/-- Supply the analog part of the chip and set the board's receiver gains. -/
def powerUp (t : Transmitter) : DeviceM Unit := do
  applyRegister Register.analogEnable true .radioPowerControl
  setRxGains t.board.rxGains

/-- Switch the radio mode and the receive filter that goes with it. -/
def setMode (t : Transmitter) (mode : RfMode) : DeviceM Unit := do
  applyRegister Register.rfMode mode .setRfMode
  applyRegister Register.pinChanges (t.board.filterPins (t.calibration.filter.choose mode))
    .setClearGpioPins

def setTimers (timers : DwellTimers) : DeviceM Unit :=
  Device.writeAll
    [(Register.nominalStop.address, Register.nominalStop.encode timers.nominalMs),
      (Register.extendedStop.address, Register.extendedStop.encode timers.extendedMs),
      (Register.regulatoryStop.address, Register.regulatoryStop.encode timers.regulatoryMs),
      (Register.txMutexTime.address, Register.txMutexTime.encode txMutexUs),
      (Register.burstOffTime.address, Register.burstOffTime.encode timers.offSameChannelMs)]

/-- Load the calibration stored in the chip, and go on with it. -/
def loadCalibration (tables : Rssi.Tables) (filter : BasebandFilter) :
    TransmitterM Calibration := do
  let calibration ← (Calibration.load Device.calibrationSource tables filter : DeviceM Calibration)
  modify fun t => { t with calibration }
  pure calibration

/-- Set whether ramps start above the requested power. -/
def setPowerBoost (on : Bool) : TransmitterM Unit :=
  modify fun t => { t with powerBoost := on }

/-! ## Droop and temperature -/

/-- Write droop compensation, and remember it for the next ramp. -/
def applyDroop (droop : DroopCompensation) : TransmitterM Unit := do
  (Device.writeRegister Register.droop droop : DeviceM Unit)
  modify fun t => { t with droop }

/-- Turn droop compensation on, every 10 to 40 ms in steps of 5 to 15 cdB. -/
def enableDroop (intervalMs stepCdb : UInt8) : TransmitterM Unit := do
  if intervalMs < 10 ∨ 40 < intervalMs then throw (.host .droopIntervalOutOfRange)
  if stepCdb < 5 ∨ 15 < stepCdb then throw (.host .droopStepOutOfRange)
  applyDroop { enable := true, intervalMs, stepCdb }

/-- Turn droop compensation off, keeping the interval and step the chip has. -/
def disableDroop : TransmitterM Unit := do
  let current ← (Device.readRegister Register.droop : DeviceM DroopCompensation)
  applyDroop { current with enable := false }

/-- Measure the temperature, and remember it for later ramps. -/
def measureTemperature : TransmitterM UInt16 := do
  let reading ← (Device.measureTemperature : DeviceM UInt16)
  modify fun t => { t with temperatureAdc := some reading }
  pure reading

end Transmitter
end RfidReader
