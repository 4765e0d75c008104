import RfidReader.Cursor
import RfidReader.Fault
import RfidReader.Region.Basic

/-!
# RfidReader.Calibration.Params

The contents of a version 5 calibration image and their layout.

All fields are little-endian and sit at fixed offsets of the calibration
region, with a few unused gaps in between:

* 0 version, 1 customer version, 4 calibration procedures (6 bytes),
  10 board, 12 transmit scalar, 14 and 22 filter limits (upper, lower band),
  30 valid detector readings, 34 power control loop;
* 40 upper band tables and 456 lower band tables, each with, from its own
  start: 0 detector curves (3 × 31 × 2 bytes), 186 coarse attenuation curve
  (31 × 4), 310 forward power temperature slope, 314 calibration temperature,
  316 detector temperature slopes (3 × 4), 328 detector frequency shifts
  (3 × 4 × 2), 352 frequencies in MHz (4 × 4), 384 forward power frequency
  shifts (4 × 4);
* 872 DC offset of each attenuation (31 × 4);
* 996 signal strength tables, through 1201.

`Params.read` reads them, in any monad that cuts byte strings, and fails only when
there are fewer bytes than an image has; `Params.ofBytes` is the plain reading.
-/

namespace RfidReader
namespace Calibration

/-! ## Tables -/

/-- One value for each of the 31 coarse attenuation settings. -/
abbrev Curve (α : Type) := Vector α 31

namespace Curve

variable {α : Type}

/-- The value at a setting; numbers above the last setting stand for the last one. -/
def valueAt (c : Curve α) (setting : Nat) : α := c.get ⟨min setting 30, by omega⟩

/-- The values of a short per-block table, blocks above the last standing for the last. -/
def ofBlock (t : Vector α 3) (b : Nat) : α := t.get ⟨min b 2, by omega⟩

end Curve

/-- Which procedure produced each part of the calibration. -/
structure Procedures where
  powerDetector : UInt8
  forwardPower : UInt8
  powerDetectorTemperature : UInt8
  forwardPowerTemperature : UInt8
  powerDetectorFrequency : UInt8
  forwardPowerFrequency : UInt8
  deriving DecidableEq

/-- The frequency limits of a band's filter, in MHz. -/
structure FilterLimits where
  low : Float32
  high : Float32
  deriving DecidableEq

/-- The transmit power calibration of one band. -/
structure Band where
  /-- The readings of each detector at every attenuation. -/
  detectorCurves : Vector (Curve UInt16) 3
  /-- The output power in dBm at every attenuation; settings that were skipped have none. -/
  coarseDbm : Curve (Option Float32)
  /-- Forward power change in dB for a step of the temperature reading. -/
  forwardTempSlope : Float32
  /-- The temperature reading during calibration. -/
  calibrationTemp : UInt16
  /-- Detector change in dB for a step of the temperature reading. -/
  detectorTempSlopes : Vector Float32 3
  /-- Detector shifts in cdB at each of the frequencies. -/
  detectorShifts : Vector (Vector Int16 4) 3
  /-- The frequencies of the shifts in MHz, ascending. -/
  frequenciesMhz : Vector Float32 4
  /-- Forward power shifts in dB at each of the frequencies. -/
  forwardShifts : Vector Float32 4
  /-- The signal strength offset of receiving in the band, in log2 units. -/
  rssiShift : Int16
  deriving DecidableEq

/-- The signal strength calibration. -/
structure RssiParams where
  /-- The modes that were measured; some images use mode numbers of older firmware. -/
  rfModes : Vector UInt16 32
  /-- The measured offset of each of them. -/
  rfModeOffsets : Vector Int16 32
  pga1 : Vector Int16 4
  pga2 : Vector Int16 4
  pga3 : Vector Int16 4
  mixer : Vector Int16 4
  rxAtten : Vector Int16 4
  /-- For each antenna port, an index into the antenna offsets. -/
  antennas : Vector UInt8 8
  antennaOffsets : Vector Int16 8
  /-- The input power of the reference point, in dBm. -/
  referenceDbm : Int16
  /-- The reading at the reference point, in log2 units. -/
  referenceLog2 : Int16
  /-- Stored but not used: signal strength is compensated with a fixed temperature slope. -/
  tempSlope : Float32
  /-- The temperature reading the tables were measured at. -/
  tempIntercept : UInt16
  deriving DecidableEq

/-- The contents of a version 5 image. -/
structure Params where
  version : UInt8
  customerVersion : UInt8
  procedures : Procedures
  boardId : UInt16
  /-- The fine gain that gives the calibrated curves. -/
  txScalar : Int16
  upperLimits : FilterLimits
  lowerLimits : FilterLimits
  /-- Detector readings outside this range are not trusted. -/
  validMinAdc : UInt16
  validMaxAdc : UInt16
  loopGainDivisor : UInt16
  errorThreshold : UInt8
  maxIterations : UInt8
  upperBand : Band
  lowerBand : Band
  /-- The DC offset of each attenuation. -/
  dcOffsets : Curve Int32
  rssi : RssiParams
  deriving DecidableEq

/-! ## Defaults -/

/-- The tables of a band that was never calibrated. -/
def Band.uncalibrated : Band where
  detectorCurves := .replicate 3 (.replicate 31 0)
  coarseDbm := .replicate 31 (some 0)
  forwardTempSlope := 0
  calibrationTemp := 0
  detectorTempSlopes := .replicate 3 0
  detectorShifts := .replicate 3 (.replicate 4 0)
  frequenciesMhz := .replicate 4 0
  forwardShifts := .replicate 4 0
  rssiShift := 0

/-- Signal strength tables that were never calibrated. -/
def RssiParams.uncalibrated : RssiParams where
  rfModes := .replicate 32 0
  rfModeOffsets := .replicate 32 0
  pga1 := .replicate 4 0
  pga2 := .replicate 4 0
  pga3 := .replicate 4 0
  mixer := .replicate 4 0
  rxAtten := .replicate 4 0
  antennas := .replicate 8 0
  antennaOffsets := .replicate 8 0
  referenceDbm := 0
  referenceLog2 := 0
  tempSlope := 0
  tempIntercept := 0

/-- What is used when the device has no usable calibration. -/
def Params.uncalibrated : Params where
  version := 0xFF
  customerVersion := 0
  procedures := ⟨5, 1, 2, 1, 2, 1⟩
  boardId := 0
  txScalar := 1152
  upperLimits := ⟨0, 0⟩
  lowerLimits := ⟨0, 0⟩
  validMinAdc := 0
  validMaxAdc := 0
  loopGainDivisor := 0
  errorThreshold := 0
  maxIterations := 0
  upperBand := .uncalibrated
  lowerBand := .uncalibrated
  dcOffsets := .replicate 31 0
  rssi := .uncalibrated

/-! ## Layout -/

/-- The number of bytes of the calibration region an image uses. -/
def imageLength : Nat := 1202

/-- The power stored for an attenuation that was skipped. -/
def skippedDbm : Float32 := 255

/-- The power at an attenuation, as stored. -/
def coarseSetting (dbm : Float32) : Option Float32 :=
  if dbm < skippedDbm then some dbm else none

variable {m : Type → Type} [Monad m] [Slicing m]

/-- Reads the tables of a band; the signal strength offset is stored elsewhere. -/
def Band.cursor (rssiShift : Int16) : CursorT m Band := do
  let detectorCurves ← Cursor.vector (Cursor.words UInt16 31) 3
  let coarse ← Cursor.words Float32 31
  let forwardTempSlope ← Cursor.word Float32
  let calibrationTemp ← Cursor.word UInt16
  let detectorTempSlopes ← Cursor.words Float32 3
  let detectorShifts ← Cursor.vector (Cursor.words Int16 4) 3
  let frequenciesMhz ← Cursor.words Float32 4
  Cursor.skip 16
  let forwardShifts ← Cursor.words Float32 4
  pure
    { detectorCurves, coarseDbm := coarse.map coarseSetting, forwardTempSlope, calibrationTemp,
      detectorTempSlopes, detectorShifts, frequenciesMhz, forwardShifts, rssiShift }

/-- Reads the signal strength tables, with the offsets of the upper and the lower band. -/
def RssiParams.cursor : CursorT m (RssiParams × Int16 × Int16) := do
  let rfModes ← Cursor.words UInt16 32
  let rfModeOffsets ← Cursor.words Int16 32
  let pga1 ← Cursor.words Int16 4
  let pga2 ← Cursor.words Int16 4
  let pga3 ← Cursor.words Int16 4
  let mixer ← Cursor.words Int16 4
  let rxAtten ← Cursor.words Int16 4
  let antennas ← Cursor.words UInt8 8
  let antennaOffsets ← Cursor.words Int16 8
  let upperShift ← Cursor.word Int16
  let lowerShift ← Cursor.word Int16
  let referenceDbm ← Cursor.word Int16
  let referenceLog2 ← Cursor.word Int16
  let tempSlope ← Cursor.word Float32
  let tempIntercept ← Cursor.word UInt16
  pure
    ({ rfModes, rfModeOffsets, pga1, pga2, pga3, mixer, rxAtten, antennas, antennaOffsets,
       referenceDbm, referenceLog2, tempSlope, tempIntercept }, upperShift, lowerShift)

/-- Reads the fields in front of the bands; the others are given. -/
def Params.cursor (upperBand lowerBand : Band) (dcOffsets : Curve Int32) (rssi : RssiParams) :
    CursorT m Params := do
  let version ← Cursor.word UInt8
  let customerVersion ← Cursor.word UInt8
  Cursor.skip 2
  let powerDetector ← Cursor.word UInt8
  let forwardPower ← Cursor.word UInt8
  let powerDetectorTemperature ← Cursor.word UInt8
  let forwardPowerTemperature ← Cursor.word UInt8
  let powerDetectorFrequency ← Cursor.word UInt8
  let forwardPowerFrequency ← Cursor.word UInt8
  let boardId ← Cursor.word UInt16
  let txScalar ← Cursor.word Int16
  let upperLow ← Cursor.word Float32
  let upperHigh ← Cursor.word Float32
  let lowerLow ← Cursor.word Float32
  let lowerHigh ← Cursor.word Float32
  let validMinAdc ← Cursor.word UInt16
  let validMaxAdc ← Cursor.word UInt16
  let loopGainDivisor ← Cursor.word UInt16
  let errorThreshold ← Cursor.word UInt8
  let maxIterations ← Cursor.word UInt8
  pure
    { version, customerVersion
      procedures :=
        { powerDetector, forwardPower, powerDetectorTemperature, forwardPowerTemperature,
          powerDetectorFrequency, forwardPowerFrequency }
      boardId, txScalar
      upperLimits := ⟨upperLow, upperHigh⟩
      lowerLimits := ⟨lowerLow, lowerHigh⟩
      validMinAdc, validMaxAdc, loopGainDivisor, errorThreshold, maxIterations
      upperBand, lowerBand, dcOffsets, rssi }

namespace Params

def upperBandOffset : Nat := 40

def lowerBandOffset : Nat := 456

def dcOffsetOffset : Nat := 872

def rssiOffset : Nat := 996

/-- Read an image that starts at the front of `bs`.  Its version is not checked. -/
def read (bs : List UInt8) : ExceptT Fault m Params := do
  if bs.length < imageLength then throw .imageTooShort
  let (rssi, upperShift, lowerShift) ← (Cursor.readAt RssiParams.cursor bs rssiOffset : m _)
  let upperBand ← (Cursor.readAt (Band.cursor upperShift) bs upperBandOffset : m _)
  let lowerBand ← (Cursor.readAt (Band.cursor lowerShift) bs lowerBandOffset : m _)
  let dcOffsets ← (Cursor.readAt (Cursor.words Int32 31) bs dcOffsetOffset : m _)
  (Cursor.readAt (Params.cursor upperBand lowerBand dcOffsets rssi) bs 0 : m _)

/-- The image at the front of `bs`. -/
def ofBytes (bs : List UInt8) : Except Fault Params := read (m := Id) bs

/-- The tables of a band; anything but the lower band uses those of the upper one. -/
def band (p : Params) (filter : RfFilter) : Band :=
  match filter with
  | .lowerBand => p.lowerBand
  | _ => p.upperBand

end Params
end Calibration
end RfidReader
