import RfidReader.Calibration.Power

/-!
# RfidReader.Calibration.Checked

The searches of the calibration curves, with every access to a table made on
its own.

An access outside a table stops the program, and so does a detector reading
whose 32-bit sum leaves its range, as long as sums are checked; where they are
not, the sum wraps around.  The searches go from setting to setting and from
block to block as a program does, and look at a table only where they get to.
-/

namespace RfidReader

/-- What stops the program. -/
inductive Panic where
  /-- A table was read at a place it does not have. -/
  | outOfBounds
  /-- A sum does not fit in 32 bits. -/
  | overflow
  deriving DecidableEq, Repr

namespace Calibration
namespace Checked

/-! ## Steps that may panic -/

/-- The entry of a table at a place. -/
def entry {α : Type} {n : Nat} (t : Vector α n) (i : Nat) : Except Panic α :=
  if h : i < n then pure t[i] else throw .outOfBounds

/-- The place before another one. -/
def before (i : Nat) : Except Panic Nat := if i = 0 then throw .outOfBounds else pure (i - 1)

/-- A sum in 32 bits, which wraps around unless it is checked. -/
def sum (check : Bool) (v : Int) : Except Panic Int :=
  let wrapped := (Int32.ofInt v).toInt
  if check && wrapped != v then throw .overflow else pure wrapped

section Band

variable (b : Band)

/-! ## Curves -/

def dbm (setting : Nat) : Except Panic Float32 :=
  return (← entry b.coarseDbm setting).getD skippedDbm

def adc (block setting : Nat) : Except Panic UInt16 := do
  entry (← entry b.detectorCurves block) setting

def tempOffset (block : Nat) : Option UInt16 → Except Panic Float32
  | none => pure 0
  | some t => return b.tempOffset (← entry b.detectorTempSlopes block) (some t)

def detectorShift (block : Nat) (c : TxConditions) : Except Panic Float32 := do
  let shifts := (← entry b.detectorShifts block).map fun s => Binary32.ofInt s.toInt
  return Interpolation.single (b.frequenciesMhz.zip shifts).toList c.mhz

def detectorTarget (cdbm : Int16) (c : TxConditions) (block : Nat) : Except Panic Float32 :=
  return Binary32.ofInt cdbm.toInt / 100 - (← tempOffset b block c.temperatureAdc)
    + (← detectorShift b block c) / 100

def reading (check : Bool) (block : Nat) (pair : Nat × Nat) (target : Float32) :
    Except Panic UInt16 := do
  let adc₁ ← adc b block pair.1
  let adc₂ ← adc b block pair.2
  let dbm₁ ← dbm b pair.1
  let dbm₂ ← dbm b pair.2
  let fraction := (target - dbm₂) / (dbm₁ - dbm₂)
  let difference : Int := adc₁.toNat - adc₂.toNat
  let step :=
    Binary32.saturate (-2147483648) 2147483647 (Binary32.ofInt difference * fraction)
  return clampUInt16 (← sum check (adc₂.toNat + step))

/-! ## Coarse attenuation -/

/-- The setting closest to a power. -/
def closestSetting (target : Float32) : Except Panic Nat :=
  match b.firstPopulated? 31 with
  | none => pure lastSetting
  | some start => do
    if (← dbm b start) < target then pure start
    else
      let found ← (settings start lastSetting).findM? fun i =>
        return ((← dbm b i) - target).abs ≤ ((← dbm b (i + 1)) - target).abs
      return found.getD lastSetting

/-! ## Searching a detector curve -/

/-- Whether a curve brackets a power at a setting; what is not needed to tell is not read. -/
def brackets (range : UInt16 × UInt16) (block : Nat) (target : Float32) (i : Nat) :
    Except Panic Bool :=
  (return (← dbm b i) ≤ target) <&&>
    (return target ≤ (← dbm b (← before i))) <&&>
    (return Band.isValid range (← adc b block (← before i))) <&&>
    (return Band.isValid range (← adc b block i))

/-- Go on through the settings with the pair that is closest so far.  Where the curve brackets the
power the search ends with that pair, and says so. -/
def scan (range : UInt16 × UInt16) (block : Nat) (target : Float32) :
    List Nat → Nat × Nat → Except Panic ((Nat × Nat) × Bool)
  | [], pair => pure (pair, false)
  | i :: rest, pair => do
    if ← brackets b range block target i then
      return ((← before i, i), true)
    else if (target - (← dbm b i)).abs < (target - (← dbm b pair.2)).abs then
      scan range block target rest (pair.2, i)
    else scan range block target rest pair

/-- Go on through the blocks with the readings that were extrapolated so far. -/
def search (check : Bool) (range : UInt16 × UInt16) (power : Nat → Except Panic Float32)
    (first : Nat) : List Nat → (Nat → UInt16) → Except Panic AdcTarget
  | [], readings => pure (unbracketedTarget range readings)
  | block :: rest, readings => do
    let target ← power block
    let (pair, bracketed) ←
      scan b range block target (settings (first + 1) lastSetting) (first, first + 1)
    let adc ← reading b check block pair target
    if bracketed then return { adc, detector := .forward block }
    else
      search check range power first rest fun other =>
        if other = block then adc else readings other

/-! ## Searching for a reflected power -/

/-- The first pair of neighbouring settings around a power, the last pair if there is none. -/
def pairAround (target : Float32) (first : Nat) : Except Panic (Nat × Nat) := do
  let found ← (settings first lastSetting).findM? fun i =>
    (return (← dbm b (i + 1)) ≤ target) <&&> (return target ≤ (← dbm b i))
  let upper := found.getD (lastSetting - 1)
  return (upper, upper + 1)

/-- Go through a block's settings with the block and setting that is closest so far, and how far
its power is from what its block is searched for. -/
def closestOf (block : Nat) (target : Float32) (first : Nat) (best : (Nat × Nat) × Float32) :
    Except Panic ((Nat × Nat) × Float32) :=
  (settings first lastSetting).foldlM
    (fun best i => do
      let distance := (target - (← dbm b i)).abs
      return if distance < best.2 then ((block, i), distance) else best)
    best

/-- Go on through the blocks, up to the first with valid readings around the power.  Without one
the closest setting is left. -/
def reverseSearch (check : Bool) (range : UInt16 × UInt16) (power : Nat → Except Panic Float32)
    (first : Nat) : List Nat → (Nat × Nat) × Float32 → Except Panic (AdcTarget ⊕ (Nat × Nat))
  | [], best => pure (.inr best.1)
  | block :: rest, best => do
    let target ← power block
    let pair ← pairAround b target first
    let best ← closestOf b block target first best
    if ← (return Band.isValid range (← adc b block pair.1)) <&&>
        (return Band.isValid range (← adc b block pair.2)) then
      return .inl { adc := ← reading b check block pair target, detector := .reverse block }
    else reverseSearch check range power first rest best

/-- The target when no detector has valid readings around the reflected power. -/
def reverseFallback (range : UInt16 × UInt16) (cdbm : Int16) (first : Nat)
    (closest : Nat × Nat) : Except Panic AdcTarget := do
  let least := toCdbm (← dbm b lastSetting)
  let most := toCdbm (← dbm b first)
  if cdbm.toInt < least then
    let curve ← entry b.detectorCurves 0
    let lowest := curve.toList.foldl
      (fun lowest adc => if range.1 ≤ adc && adc ≤ lowest then adc else lowest) (← entry curve 0)
    return { adc := lowest, detector := .rx0 }
  else if most < cdbm.toInt then
    let curve ← entry b.detectorCurves 2
    let highest := curve.toList.foldl
      (fun highest adc => if adc ≤ range.2 && highest ≤ adc then adc else highest)
      (← entry curve 0)
    return { adc := highest, detector := .rx2 }
  else return { adc := ← adc b closest.1 closest.2, detector := .reverse closest.1 }

end Band

/-! ## Powers and settings -/

variable (check : Bool) (c : Calibration)

def coarseAtten (cdbm : Int16) (conditions : TxConditions) : Except Panic UInt8 :=
  match c.band? conditions.band with
  | none => pure (PowerSettings.openLoopAtten cdbm)
  | some b => return UInt8.ofNat (← closestSetting b (b.coarseTarget cdbm conditions))

def powerToAdc (cdbm : Int16) (conditions : TxConditions) : Except Panic (Option AdcTarget) :=
  match c.band? conditions.band with
  | none => pure none
  | some b =>
    match b.firstPopulated? lastSetting with
    | none => pure (some { adc := c.validRange.1, detector := .lo0 })
    | some first =>
      some <$>
        search b check c.validRange (detectorTarget b cdbm conditions) first blocks fun _ => 0

def reversePowerToAdc (cdbm : Int16) (conditions : TxConditions) :
    Except Panic (Option AdcTarget) :=
  match c.band? conditions.band with
  | none => pure none
  | some b =>
    match b.firstPopulated? lastSetting with
    | none => pure (some { adc := c.validRange.1, detector := .rx0 })
    | some first => do
      let found ← reverseSearch b check c.validRange (detectorTarget b cdbm conditions) first blocks
        ((0, first), Binary32.largest)
      match found with
      | .inl target => return some target
      | .inr closest => some <$> reverseFallback b c.validRange cdbm first closest

def boostTarget (cdbm boosted : Int16) (boost : Bool) (conditions : TxConditions) :
    Except Panic (Option AdcTarget) :=
  if boost && boosted != cdbm then powerToAdc check c boosted conditions else pure none

def powerSettings (cdbm : Int16) (boost : Bool) (maxCdbm : Int16) (conditions : TxConditions) :
    Except Panic PowerSettings :=
  if c.isSupported then do
    let boosted := boostedCdbm cdbm maxCdbm
    let txAtten ← coarseAtten c (if boost then boosted else cdbm) conditions
    let boostTarget ← boostTarget check c cdbm boosted boost conditions
    let dcOffset ← entry c.params.dcOffsets txAtten.toNat
    let adcTarget ← powerToAdc check c cdbm conditions
    let stopThreshold := c.params.errorThreshold.toUInt16
    return {
      txAtten
      txScalar := c.params.txScalar
      dcOffset
      adcTarget
      boostTarget
      stopThreshold
      errorThreshold := PowerSettings.errorThresholdRatio * stopThreshold
      gainDivisor := c.params.loopGainDivisor
      maxIterations := c.params.maxIterations.toUInt32 }
  else return .openLoop cdbm

end Checked
end Calibration
end RfidReader
