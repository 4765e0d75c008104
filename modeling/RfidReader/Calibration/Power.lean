import RfidReader.Calibration.Basic
import RfidReader.Interpolation
import RfidReader.Power.Settings

/-!
# RfidReader.Calibration.Power

From a requested power to settings: the coarse attenuation that comes closest,
and the detector reading to regulate to.

The attenuation curve gives the output power at each of the 31 settings, and
each of the three detector blocks a reading at each setting.  The temperature
and the frequency of a transmission shift the power that the curves are
searched for.  A detector is trusted where its readings around the power are
inside the valid range; blocks are tried from 2 down to 0.  A device without a
supported calibration runs open loop.
-/

namespace RfidReader

open Calibration

/-- How far above the requested power a boosted ramp starts, in cdB. -/
def boostCdb : Int := 140

namespace TxConditions

def mhz (c : TxConditions) : Float32 := c.khz.toFloat32 / 1000

end TxConditions

namespace Calibration

/-- The attenuation settings from `first` up to and without `stop`. -/
def settings (first stop : Nat) : List Nat := List.range' first (stop - first)

def lastSetting : Nat := 30

/-- The detector blocks, in the order they are tried. -/
def blocks : List Nat := [2, 1, 0]

namespace Band

/-! ## Curves -/

/-- The first setting below `limit` that was calibrated. -/
def firstPopulated? (b : Band) (limit : Nat) : Option Nat :=
  (b.coarseDbm.toList.take limit).findIdx? Option.isSome

/-- The power at a setting.  A setting that was skipped sorts above every real power. -/
def dbm (b : Band) (setting : Nat) : Float32 := (b.coarseDbm.valueAt setting).getD skippedDbm

/-- A detector's reading at a setting. -/
def adc (b : Band) (block setting : Nat) : UInt16 :=
  (Curve.ofBlock b.detectorCurves block).valueAt setting

/-- The change of a reading with a slope, at a temperature; none without a temperature. -/
def tempOffset (b : Band) (slope : Float32) (temperature : Option UInt16) : Float32 :=
  match temperature with
  | none => 0
  | some t => slope * (t.toFloat32 - b.calibrationTemp.toFloat32)

/-- dB to take off the coarse curve. -/
def coarseOffset (b : Band) (c : TxConditions) : Float32 :=
  b.tempOffset b.forwardTempSlope c.temperatureAdc
    + Interpolation.single (b.frequenciesMhz.zip b.forwardShifts).toList c.mhz

/-- The power to search the coarse curve for. -/
def coarseTarget (b : Band) (cdbm : Int16) (c : TxConditions) : Float32 :=
  Binary32.ofInt cdbm.toInt / 100 - b.coarseOffset c

/-- A detector's frequency shift in cdB. -/
def detectorShift (b : Band) (block : Nat) (c : TxConditions) : Float32 :=
  let shifts := (Curve.ofBlock b.detectorShifts block).map fun s => Binary32.ofInt s.toInt
  Interpolation.single (b.frequenciesMhz.zip shifts).toList c.mhz

/-- The power to search a detector's curve for. -/
def detectorTarget (b : Band) (block : Nat) (cdbm : Int16) (c : TxConditions) : Float32 :=
  Binary32.ofInt cdbm.toInt / 100
    - b.tempOffset (Curve.ofBlock b.detectorTempSlopes block) c.temperatureAdc
    + b.detectorShift block c / 100

/-! ## Readings between settings -/

/-- The part of the way from the second setting of a pair to the first at which a power lies. -/
def fraction (b : Band) (pair : Nat × Nat) (target : Float32) : Float32 :=
  (target - b.dbm pair.2) / (b.dbm pair.1 - b.dbm pair.2)

/-- The reading's step from the second setting of a pair, a 32-bit integer. -/
def readingStep (b : Band) (block : Nat) (pair : Nat × Nat) (target : Float32) : Int :=
  let difference : Int := (b.adc block pair.1).toNat - (b.adc block pair.2).toNat
  Binary32.saturate (-2147483648) 2147483647
    (Binary32.ofInt difference * b.fraction pair target)

/-- A detector's reading at a power, on the line through a pair of settings. -/
def reading (b : Band) (block : Nat) (pair : Nat × Nat) (target : Float32) : UInt16 :=
  let sum := Int32.ofInt ((b.adc block pair.2).toNat + b.readingStep block pair target)
  clampUInt16 sum.toInt

/-! ## Coarse attenuation -/

/-- The setting closest to a power: the first that is not further from it than the next one is.
Above the strongest calibrated setting that setting is taken. -/
def closestSetting (b : Band) (target : Float32) : Nat :=
  match b.firstPopulated? 31 with
  | none => lastSetting
  | some start =>
    if b.dbm start < target then start
    else
      ((settings start lastSetting).find? fun i =>
        (b.dbm i - target).abs ≤ (b.dbm (i + 1) - target).abs).getD lastSetting

/-! ## Searching a detector curve -/

/-- Whether a reading is inside the valid range. -/
def isValid (range : UInt16 × UInt16) (adc : UInt16) : Bool := range.1 ≤ adc && adc ≤ range.2

/-- Whether a detector's readings at a setting and the one before are valid, and the power lies
between the two. -/
def brackets (b : Band) (range : UInt16 × UInt16) (block : Nat) (target : Float32) (i : Nat) :
    Bool :=
  b.dbm i ≤ target && target ≤ b.dbm (i - 1)
    && isValid range (b.adc block (i - 1)) && isValid range (b.adc block i)

/-- The pair to extrapolate from: it moves on to every setting that is closer to the power than
its second one. -/
def closestPair (b : Band) (target : Float32) (first : Nat) : Nat × Nat :=
  (settings (first + 1) lastSetting).foldl
    (fun pair i =>
      if (target - b.dbm i).abs < (target - b.dbm pair.2).abs then (pair.2, i) else pair)
    (first, first + 1)

/-- A detector's reading where its curve brackets the power. -/
def bracketed? (b : Band) (range : UInt16 × UInt16) (block : Nat) (target : Float32)
    (first : Nat) : Option UInt16 :=
  ((settings (first + 1) lastSetting).find? (b.brackets range block target)).map fun i =>
    b.reading block (i - 1, i) target

/-- A detector's reading extrapolated to the power. -/
def extrapolated (b : Band) (block : Nat) (target : Float32) (first : Nat) : UInt16 :=
  b.reading block (b.closestPair target first) target

/-- The first pair of neighbouring settings around a power, the last pair if there is none. -/
def pairAround (b : Band) (target : Float32) (first : Nat) : Nat × Nat :=
  let upper :=
    ((settings first lastSetting).find? fun i =>
      b.dbm (i + 1) ≤ target && target ≤ b.dbm i).getD (lastSetting - 1)
  (upper, upper + 1)

/-- A detector's reading where both readings around the power are valid. -/
def validAround? (b : Band) (range : UInt16 × UInt16) (block : Nat) (target : Float32)
    (first : Nat) : Option UInt16 :=
  let pair := b.pairAround target first
  if isValid range (b.adc block pair.1) && isValid range (b.adc block pair.2) then
    some (b.reading block pair target)
  else none

end Band

/-! ## Forward power -/

/-- The band, if the calibration can be used. -/
def band? (c : Calibration) (filter : RfFilter) : Option Band :=
  if c.isSupported then some (c.params.band filter) else none

def validRange (c : Calibration) : UInt16 × UInt16 := (c.params.validMinAdc, c.params.validMaxAdc)

/-- The coarse attenuation that comes closest to a power.  Skipped settings are never taken. -/
def coarseAtten (c : Calibration) (cdbm : Int16) (conditions : TxConditions) : UInt8 :=
  match c.band? conditions.band with
  | none => PowerSettings.openLoopAtten cdbm
  | some b => UInt8.ofNat (b.closestSetting (b.coarseTarget cdbm conditions))

/-- Twice the distance of a reading from the middle of a range. -/
def midpointDistance (range : UInt16 × UInt16) (adc : UInt16) : Nat :=
  ((range.2.toNat : Int) + range.1.toNat - 2 * adc.toNat).natAbs

/-- The target when no detector brackets the power: the end of the valid range if every reading
is beyond it, else the reading closest to the middle of the range. -/
def unbracketedTarget (range : UInt16 × UInt16) (reading : Nat → UInt16) : AdcTarget :=
  let closest := blocks.foldl
    (fun best block =>
      if midpointDistance range (reading block) < midpointDistance range (reading best) then block
      else best)
    0
  if blocks.all fun block => reading block ≤ range.1 then { adc := range.1, detector := .lo0 }
  else if blocks.all fun block => range.2 ≤ reading block then
    { adc := range.2, detector := .lo2 }
  else { adc := reading closest, detector := .forward closest }

/-- The forward detector and reading that stand for a power; none without a calibration. -/
def powerToAdc (c : Calibration) (cdbm : Int16) (conditions : TxConditions) : Option AdcTarget :=
  (c.band? conditions.band).map fun b =>
    let range := c.validRange
    match b.firstPopulated? lastSetting with
    | none => { adc := range.1, detector := .lo0 }
    | some first =>
      let target block := b.detectorTarget block cdbm conditions
      let found := blocks.findSome? fun block =>
        (b.bracketed? range block (target block) first).map fun adc =>
          ({ adc, detector := .forward block } : AdcTarget)
      found.getD (unbracketedTarget range fun block => b.extrapolated block (target block) first)

/-! ## Reverse power -/

/-- A power in dBm, without its sign, in cdBm. -/
def toCdbm (dbm : Float32) : Int := Binary32.saturate (-32768) 32767 (dbm.abs * 100)

/-- The lowest valid reading of a curve; the search starts from its first reading. -/
def lowestReading (validMin : UInt16) (curve : List UInt16) : UInt16 :=
  curve.foldl (fun lowest adc => if validMin ≤ adc && adc ≤ lowest then adc else lowest)
    (curve.headD 0)

/-- The highest valid reading of a curve; the search starts from its first reading. -/
def highestReading (validMax : UInt16) (curve : List UInt16) : UInt16 :=
  curve.foldl (fun highest adc => if adc ≤ validMax && highest ≤ adc then adc else highest)
    (curve.headD 0)

/-- The block and setting whose calibrated power is closest to what the block is searched for. -/
def closestReading (b : Band) (target : Nat → Float32) (first : Nat) : Nat × Nat :=
  let candidates := blocks.flatMap fun block =>
    (settings first lastSetting).map fun i => (block, i)
  (candidates.foldl
    (fun best candidate =>
      let distance := (target candidate.1 - b.dbm candidate.2).abs
      if distance < best.2 then (candidate, distance) else best)
    ((0, first), Binary32.largest)).1

/-- The target when no detector has valid readings around the reflected power. -/
def reverseFallback (b : Band) (range : UInt16 × UInt16) (cdbm : Int16) (target : Nat → Float32)
    (first : Nat) : AdcTarget :=
  if cdbm.toInt < toCdbm (b.dbm lastSetting) then
    { adc := lowestReading range.1 (Curve.ofBlock b.detectorCurves 0).toList, detector := .rx0 }
  else if toCdbm (b.dbm first) < cdbm.toInt then
    { adc := highestReading range.2 (Curve.ofBlock b.detectorCurves 2).toList, detector := .rx2 }
  else
    let (block, setting) := closestReading b target first
    { adc := b.adc block setting, detector := .reverse block }

/-- The reverse detector and reading that stand for a reflected power, by the forward curves;
none without a calibration. -/
def reversePowerToAdc (c : Calibration) (cdbm : Int16) (conditions : TxConditions) :
    Option AdcTarget :=
  (c.band? conditions.band).map fun b =>
    let range := c.validRange
    match b.firstPopulated? lastSetting with
    | none => { adc := range.1, detector := .rx0 }
    | some first =>
      let target block := b.detectorTarget block cdbm conditions
      let found := blocks.findSome? fun block =>
        (b.validAround? range block (target block) first).map fun adc =>
          ({ adc, detector := .reverse block } : AdcTarget)
      found.getD (reverseFallback b range cdbm target first)

/-! ## Ramp settings -/

/-- The power a boosted ramp starts at. -/
def boostedCdbm (cdbm maxCdbm : Int16) : Int16 :=
  let boosted := clampInt16 (cdbm.toInt + boostCdb)
  if maxCdbm < boosted then maxCdbm else boosted

/-- The settings of a ramp to a power.  With a boost the attenuation is picked for the boosted
power, and there is a second target if that power differs from the requested one. -/
def powerSettings (c : Calibration) (cdbm : Int16) (boost : Bool) (maxCdbm : Int16)
    (conditions : TxConditions) : PowerSettings :=
  if c.isSupported then
    let boosted := boostedCdbm cdbm maxCdbm
    let txAtten := c.coarseAtten (if boost then boosted else cdbm) conditions
    let stopThreshold := c.params.errorThreshold.toUInt16
    { txAtten
      txScalar := c.params.txScalar
      dcOffset := c.params.dcOffsets.valueAt txAtten.toNat
      adcTarget := c.powerToAdc cdbm conditions
      boostTarget := if boost && boosted != cdbm then c.powerToAdc boosted conditions else none
      stopThreshold
      errorThreshold := PowerSettings.errorThresholdRatio * stopThreshold
      gainDivisor := c.params.loopGainDivisor
      maxIterations := c.params.maxIterations.toUInt32 }
  else .openLoop cdbm

end Calibration
end RfidReader
