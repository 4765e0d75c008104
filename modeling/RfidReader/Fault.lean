/-!
# RfidReader.Fault

What can go wrong on the host, before or between exchanges with the chip.

Each constructor of `Fault` is one cause.  `Fault.kind` sorts the causes into
the five classes callers tell apart, and `Fault.message` is the wording.
-/

namespace RfidReader

/-- The classes of host faults. -/
inductive FaultKind where
  /-- A parameter was outside its allowed range. -/
  | badParameter
  /-- The aggregate buffer is full. -/
  | bufferOverflow
  /-- The request does not fit the current state. -/
  | invalidState
  /-- A measurement crossed a safety threshold. -/
  | aboveThreshold
  /-- Data from the chip is malformed. -/
  | invalidData
  deriving DecidableEq, Repr

def FaultKind.name : FaultKind → String
  | .badParameter => "BadParamValue"
  | .bufferOverflow => "AggregateBufferOverflow"
  | .invalidState => "InvalidState"
  | .aboveThreshold => "AboveThreshold"
  | .invalidData => "InvalidData"

/-- The causes of host faults. -/
inductive Fault where
  | aggregateOverflow
  | fifoPacketLength
  | jumpTarget
  | customEventTooLong
  | unknownRegion
  | hopTableTooLong
  | hopIndexOutOfRange
  | adjacentOutOfRange
  | channelNotUsable
  | unknownRDivider
  | rDividerIndexOutOfRange
  | unsortedDrmModes
  | unsortedOtherModes
  | tooManyCalibrationModes
  | noDrmModes
  | noOtherModes
  | calibrationTooShort
  | imageTooShort
  | pastCalibrationRegion
  | antennaPortMissing
  | filterUndefined
  | noAdcTarget
  | droopIntervalOutOfRange
  | droopStepOutOfRange
  | callbacksRegistered
  /-- A ramp callback refused to go on, for a reason of its own. -/
  | refused (reason : String)
  | aboveThreshold
  | noTemperature
  | noReversePower
  | eventHeaderTruncated
  | eventFormatMismatch
  | eventShorterThanHeader
  | eventTruncated
  | eventShorterThanType
  | customEventTruncated
  deriving DecidableEq, Repr

namespace Fault

def kind : Fault → FaultKind
  | aggregateOverflow => .bufferOverflow
  | callbacksRegistered | refused _ => .invalidState
  | aboveThreshold => .aboveThreshold
  | noDrmModes | noOtherModes | calibrationTooShort | imageTooShort | noTemperature
  | noReversePower | eventHeaderTruncated | eventFormatMismatch | eventShorterThanHeader
  | eventTruncated | eventShorterThanType | customEventTruncated => .invalidData
  | _ => .badParameter

/-- What the cause was, without its class. -/
def reason : Fault → String
  | aggregateOverflow => "aggregate op buffer overflow"
  | fifoPacketLength => "FIFO event packet length must match its header"
  | jumpTarget => "jump target is not the start of an instruction"
  | customEventTooLong => "Custom event data doesn't fit in a FIFO packet"
  | unknownRegion => "No region defined for the region ID"
  | hopTableTooLong => "Hop table length exceeds the maximum channel count"
  | hopIndexOutOfRange => "Hop table index out of range"
  | adjacentOutOfRange => "Adjacent channel out of range"
  | channelNotUsable => "Channel is not usable"
  | unknownRDivider => "Unknown R divider"
  | rDividerIndexOutOfRange => "R divider index out of range"
  | unsortedDrmModes => "DRM calibration modes are not sorted by BLF"
  | unsortedOtherModes => "Non-DRM calibration modes are not sorted by BLF"
  | tooManyCalibrationModes => "Too many calibration modes in the RSSI lookup table"
  | noDrmModes => "No DRM calibration modes were found"
  | noOtherModes => "No non-DRM calibration modes were found"
  | calibrationTooShort => "Calibration data is too short"
  | imageTooShort => "Not enough data for a version 5 calibration image"
  | pastCalibrationRegion => "read past the calibration region"
  | antennaPortMissing => "antenna port does not exist"
  | filterUndefined => "RF filter is undefined"
  | noAdcTarget => "No ADC target for the power control loop"
  | droopIntervalOutOfRange => "Droop compensation interval out of range"
  | droopStepOutOfRange => "Droop compensation step out of range"
  | callbacksRegistered => "Ramp callbacks are already registered"
  | refused reason => reason
  | aboveThreshold => "measurement above threshold"
  | noTemperature => "No temperature measurement"
  | noReversePower => "No reverse power measurement"
  | eventHeaderTruncated => "Event packet header is truncated"
  | eventFormatMismatch =>
    "Event packet format doesn't match, the firmware version is probably different"
  | eventShorterThanHeader => "Event packet length is shorter than its header"
  | eventTruncated => "Event packet is truncated"
  | eventShorterThanType => "Event packet is shorter than its type requires"
  | customEventTruncated => "Custom event data is truncated"

/-- The text shown for a fault: parameter and state faults name their class first. -/
def message (f : Fault) : String :=
  match f.kind with
  | .badParameter => "bad parameter value: " ++ f.reason
  | .invalidState => "invalid state: " ++ f.reason
  | _ => f.reason

end Fault
end RfidReader
