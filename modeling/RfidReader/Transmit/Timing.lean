import RfidReader.Transmit.Basic

/-!
# RfidReader.Transmit.Timing

The dwell timers by the chip's clock, and what the chip's record of the last
ramp teaches about it.
-/

namespace RfidReader
namespace ActiveRegion

/-- The timers of a ramp on the next channel, now. -/
def nextTimers (a : ActiveRegion) : DeviceM DwellTimers := do
  let timeMs ← Device.timestampMs
  pure (a.timersAt a.nextIndex timeMs)

/-- The timers of a ramp on the active channel, now. -/
def activeTimers (a : ActiveRegion) : DeviceM DwellTimers := do
  let timeMs ← Device.timestampMs
  pure (a.timersAt a.activeIndex timeMs)

end ActiveRegion

namespace Transmitter

def modifyRegion (f : ActiveRegion → ActiveRegion) : TransmitterM Unit :=
  modify fun t => { t with region := f t.region }

/-- Learn the overshoot of the last ramp, which has to have been ended by the nominal timer. -/
def learnOvershoot : TransmitterM Unit := do
  let upMs ← (Device.readRegister Register.lastRampUpMs : DeviceM UInt32)
  let downMs ← (Device.readRegister Register.lastRampDownMs : DeviceM UInt32)
  let nominalMs ← (Device.readRegister Register.nominalStop : DeviceM UInt16)
  modifyRegion (·.recordRamp upMs downMs nominalMs)

/-- Track the on time of the last ramp. -/
def trackLastRamp : TransmitterM Unit := do
  let upMs ← (Device.readRegister Register.lastRampUpMs : DeviceM UInt32)
  let upKhz ← (Device.readRegister Register.lastRampUpKhz : DeviceM UInt32)
  let downMs ← (Device.readRegister Register.lastRampDownMs : DeviceM UInt32)
  let downKhz ← (Device.readRegister Register.lastRampDownKhz : DeviceM UInt32)
  modifyRegion (·.trackRamp upMs upKhz downMs downKhz)

end Transmitter
end RfidReader
