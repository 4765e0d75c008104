import RfidReader.Fault
import RfidReader.Region.Basic
import RfidReader.Register.Settings
import RfidReader.RfMode

/-!
# RfidReader.Board

The board around the chip: its limits, its losses, and which of the chip's
pins drive what.

`transmitPins` gives the pin changes for a ramp on one of the antenna ports,
and `filterPins` those that only select the receive filter.
-/

namespace RfidReader

/-- The pins the board is driven through. -/
structure BoardPins where
  /-- High selects antenna 1, low antenna 2. -/
  antenna : Nat := 19
  /-- High selects the bandpass filter. -/
  receiveFilter : Nat := 7
  /-- High supplies the bias of the power amplifier. -/
  amplifierBias : Nat := 16
  /-- High selects the upper range of the power amplifier. -/
  powerRange : Nat := 15
  /-- High supplies the transmit path. -/
  rfSupply : Nat := 17
  /-- High selects the lower band's transmit filter. -/
  transmitFilter : Nat := 18
  deriving DecidableEq, Repr

/-- A board design.  The defaults are those of the reference design. -/
structure Board where
  /-- The frequency of the reference oscillator. -/
  referenceKhz : UInt32 := 24000
  /-- The most power the board can transmit. -/
  maxPowerCdbm : Int16 := 3000
  /-- The number of antenna ports, which are numbered from 1. -/
  antennaCount : UInt8 := 2
  /-- The loss from the antenna port to the receiver, in cdB. -/
  rxLossCdb : Int16 := 1100
  /-- The loss from the transmitter to the antenna port, in cdB. -/
  loLossCdb : Int16 := 1440
  /-- Temperature readings above this one are not trusted. -/
  maxTemperatureAdc : UInt16 := 500
  /-- The highest power of the power amplifier's lower range. -/
  lowRangeMaxCdbm : Int16 := 2700
  /-- The receiver gains after power-up: 12 dB, 18 dB and 11.2 dB in the first and third
  programmable stage and the mixer. -/
  rxGains : RxGains := { RxGains.ofCodes 0 3 0 3 1 with mixerBandwidth := true }
  pins : BoardPins := {}
  deriving DecidableEq, Repr

namespace Board

def reference : Board := {}

/-- Whether a temperature reading can be compensated for. -/
def trustsTemperature (b : Board) (adc : UInt16) : Bool := adc ≤ b.maxTemperatureAdc

/-- The pin changes that supply the transmit path. -/
def supplyPins (b : Board) : PinChanges :=
  (({} : PinChanges).drivePin b.pins.amplifierBias true).drivePin b.pins.rfSupply true

/-- The pin changes that select a receive filter. -/
def filterPins (b : Board) (filter : FilterType) : PinChanges :=
  ({} : PinChanges).drivePin b.pins.receiveFilter (filter == .bandpass)

/-- The pin changes for transmitting on an antenna port. -/
def transmitPins (b : Board) (antenna : UInt8) (cdbm : Int16) (filter : FilterType)
    (band : RfFilter) : Except Fault PinChanges :=
  if antenna = 0 ∨ b.antennaCount < antenna then .error .antennaPortMissing
  else if band = .undefined then .error .filterUndefined
  else
    .ok
      ((((({} : PinChanges).drivePin b.pins.antenna (antenna == 1)).drivePin b.pins.powerRange
        (b.lowRangeMaxCdbm < cdbm)).drivePin b.pins.receiveFilter
        (filter == .bandpass)).drivePin b.pins.transmitFilter (band == .lowerBand))

end Board
end RfidReader
