import RfidReader.Detector
import RfidReader.Region.Basic

/-!
# RfidReader.Power.Settings

What it takes to ramp the transmitter up to a power: gains, and the converter
readings that the power control loop regulates to.

Powers are in hundredths of a dBm (cdBm).  An uncalibrated device runs open
loop: the attenuation follows from the power alone and there is no reading to
regulate to.
-/

namespace RfidReader

/-- The conditions a transmit power is worked out for. -/
structure TxConditions where
  khz : UInt32
  /-- The temperature reading to compensate for, if any. -/
  temperatureAdc : Option UInt16
  band : RfFilter
  deriving DecidableEq, Repr

/-- A detector reading to regulate to. -/
structure AdcTarget where
  adc : UInt16
  detector : PowerDetector
  deriving DecidableEq, Repr

/-- The settings of a ramp. -/
structure PowerSettings where
  /-- The coarse attenuation, 0 through 30. -/
  txAtten : UInt8
  /-- The fine gain. -/
  txScalar : Int16
  dcOffset : Int32
  /-- The reading to settle at; none when running open loop. -/
  adcTarget : Option AdcTarget
  /-- The reading of the first loop of a boosted ramp. -/
  boostTarget : Option AdcTarget
  stopThreshold : UInt16
  errorThreshold : UInt16
  gainDivisor : UInt16
  maxIterations : UInt32
  deriving DecidableEq, Repr

namespace PowerSettings

def maxAtten : Nat := 30

/-- The operation fails at this many times the difference that stops the loop. -/
def errorThresholdRatio : UInt16 := 6

/-- The attenuation that is assumed to give a power, from 31 dBm without attenuation. -/
def openLoopAtten (cdbm : Int16) : UInt8 :=
  UInt8.ofNat (max 0 (min (maxAtten : Int) (31 - cdbm.toInt.tdiv 100))).toNat

/-- The settings of an uncalibrated device. -/
def openLoop (cdbm : Int16) : PowerSettings where
  txAtten := openLoopAtten cdbm
  txScalar := 1152
  dcOffset := 0
  adcTarget := none
  boostTarget := none
  stopThreshold := 5
  errorThreshold := errorThresholdRatio * 5
  gainDivisor := 400
  maxIterations := 10

/-- A target to regulate to: one that is there and not zero. -/
def live? (target : Option AdcTarget) : Option AdcTarget := target.filter (·.adc != 0)

/-- The reading the ramp settles at, if power control was asked for. -/
def settleTarget? (s : PowerSettings) : Option AdcTarget := live? s.adcTarget

/-- Whether the power control loop runs after the ramp. -/
def isClosedLoop (s : PowerSettings) : Bool := s.settleTarget?.isSome

end PowerSettings
end RfidReader
