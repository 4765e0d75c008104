import RfidReader.Calibration.Params
import RfidReader.Rssi.Standard

/-!
# RfidReader.Calibration.Basic

A loaded calibration: the parsed image, the signal strength tables in use, and
the analog offsets derived from both.

Only version 5 images are understood.  With any other version, an erased
region included, the device is uncalibrated: `Params.uncalibrated` takes the
place of the image and there are no analog offsets.  Loading and changing the
tables rebuild the analog offsets in place, and fail for the same reasons; a
change that fails goes back to the tables before and rebuilds once more.
-/

namespace RfidReader

/-- The version of a calibration image. -/
inductive CalibrationVersion where
  /-- The region is erased. -/
  | notFound
  | v5
  | unsupported (raw : UInt8)
  deriving DecidableEq, Repr

namespace CalibrationVersion

/-- The version stored in the first byte of the region. -/
def ofByte (raw : UInt8) : CalibrationVersion :=
  if raw = 0xFF then .notFound else if raw = 5 then .v5 else .unsupported raw

def name : CalibrationVersion → String
  | notFound => "NotFound"
  | v5 => "V5"
  | unsupported raw => "Unsupported(" ++ toString raw.toNat ++ ")"

end CalibrationVersion

/-- The analog part of the signal strength offset at the BLF of each calibration mode. -/
abbrev AnalogOffsets := List (UInt16 × Int16)

namespace AnalogOffsets

/-- The most calibration modes of a filter. -/
def maxModes : Nat := 8

/-- Whether the modes have strictly ascending BLF. -/
def sorted : List Rssi.CalibrationMode → Bool
  | a :: b :: rest => a.blfKhz < b.blfKhz && sorted (b :: rest)
  | _ => true

/-- The measured offset of a mode: that of the first entry whose number, converted from older
firmware, is the mode. -/
def measured? (rssi : Calibration.RssiParams) (mode : RfMode) : Option Int16 :=
  ((rssi.rfModes.toList.zip rssi.rfModeOffsets.toList).find?
    (RfMode.ofLegacy ·.1 == mode)).map (·.2)

/-- The analog offset of a mode: what was measured, less the digital correction; none unless both
are known. -/
def analog? (rssi : Calibration.RssiParams) (tables : Rssi.Tables) (mode : RfMode) :
    Option Int16 :=
  match measured? rssi mode, tables.modeCorrection? mode with
  | some offset, some correction => some (offset - correction.digital)
  | _, _ => none

/-- The offsets of a filter's modes; a mode that is not known has offset 0. -/
def ofModes (rssi : Calibration.RssiParams) (tables : Rssi.Tables)
    (modes : List Rssi.CalibrationMode) : AnalogOffsets :=
  modes.map fun m => (m.blfKhz, (analog? rssi tables m.mode).getD 0)

def blfKhz (offsets : AnalogOffsets) : List UInt16 := offsets.map (·.1)

/-- The offset at the BLF of each mode. -/
def values (offsets : AnalogOffsets) : List Int16 := offsets.map (·.2)

end AnalogOffsets

/-- Calibration data of one device. -/
structure Calibration where
  version : CalibrationVersion
  customerVersion : UInt8
  /-- The image, or the defaults of an uncalibrated device. -/
  params : Calibration.Params
  tables : Rssi.Tables
  filter : BasebandFilter
  drmOffsets : AnalogOffsets
  otherOffsets : AnalogOffsets
  deriving DecidableEq

namespace Calibration

/-- Whether the image is of a version that can be used. -/
def isSupported (c : Calibration) : Bool := c.version == .v5

/-! ## Changes in place -/

/-- Changes of a calibration.  One that fails leaves what it has done so far. -/
abbrev Update := ExceptT Fault (StateM Calibration)

/-- What a change comes to: its result, and the calibration it leaves. -/
def Update.outcome {α : Type} (u : Update α) (c : Calibration) : Except Fault α × Calibration :=
  u.run.run c

/-- The result of a change as a value, a fault included. -/
def Update.attempt {α : Type} (u : Update α) : Update (Except Fault α) :=
  ExceptT.mk (Except.ok <$> u.run)

/-- Put the offsets of a filter's modes in their place; `missing` is the fault when none of the
modes is known, which shows only once they are in place. -/
def fillOffsets (modes : List Rssi.CalibrationMode) (missing : Fault)
    (put : AnalogOffsets → Calibration → Calibration) : Update Unit := do
  let c ← get
  if AnalogOffsets.maxModes < modes.length then throw .tooManyCalibrationModes
  set (put (AnalogOffsets.ofModes c.params.rssi c.tables modes) c)
  if modes.all fun m => (AnalogOffsets.analog? c.params.rssi c.tables m.mode).isNone then
    throw missing

/-- Rebuild the analog offsets from the tables in use.  Both are cleared first. -/
def rebuildOffsets : Update Unit := do
  let c ← get
  if !AnalogOffsets.sorted c.tables.drmModes then throw .unsortedDrmModes
  if !AnalogOffsets.sorted c.tables.otherModes then throw .unsortedOtherModes
  set { c with drmOffsets := [], otherOffsets := [] }
  if c.isSupported then
    fillOffsets c.tables.drmModes .noDrmModes fun drmOffsets c => { c with drmOffsets }
    fillOffsets c.tables.otherModes .noOtherModes fun otherOffsets c => { c with otherOffsets }

/-- Put a calibration together from a parsed image. -/
def ofParams (version : CalibrationVersion) (customerVersion : UInt8) (params : Params)
    (tables : Rssi.Tables) (filter : BasebandFilter) : Except Fault Calibration :=
  let (result, c) := rebuildOffsets.outcome
    { version, customerVersion, params, tables, filter, drmOffsets := [], otherOffsets := [] }
  result.map fun _ => c

/-- Change the signal strength tables.  If the offsets cannot be rebuilt from them, the tables
before come back, and the offsets are rebuilt from those whether or not that succeeds. -/
def setTables (tables : Rssi.Tables) : Update Unit := do
  let previous := (← get).tables
  modify ({ · with tables })
  try rebuildOffsets
  catch fault =>
    modify ({ · with tables := previous })
    let _ ← rebuildOffsets.attempt
    throw fault

/-- Change how the receive filter is chosen. -/
def setFilter (c : Calibration) (filter : BasebandFilter) : Calibration := { c with filter }

/-! ## Loading -/

/-- Where a calibration region can be read from: `read offset n` gives the `n` bytes that start
`offset` bytes into it. -/
structure Source (m : Type → Type) where
  read : (offset n : Nat) → m (Vector UInt8 n)

/-- A region held in memory. -/
def Source.ofBytes (bs : List UInt8) : Source (Except Fault) where
  read offset n :=
    match Bytes.slice? bs offset n with
    | some piece => .ok piece
    | none => .error .calibrationTooShort

/-- Read what a region holds: the version, the customer's version and the parameters.  The image
itself is read only when its version is understood. -/
def readImage {m : Type → Type} [Monad m] [MonadLiftT (Except Fault) m] (source : Source m) :
    m (CalibrationVersion × UInt8 × Params) := do
  let header ← source.read 0 2
  let version := CalibrationVersion.ofByte header[0]
  let params ←
    if version = .v5 then do
      let bytes ← source.read 0 imageLength
      (Params.ofBytes bytes.toList : Except Fault Params)
    else pure Params.uncalibrated
  pure (version, header[1], params)

def load {m : Type → Type} [Monad m] [MonadLiftT (Except Fault) m] (source : Source m)
    (tables : Rssi.Tables) (filter : BasebandFilter) : m Calibration := do
  let (version, customerVersion, params) ← readImage source
  (ofParams version customerVersion params tables filter : Except Fault Calibration)

/-- The calibration that a region in memory holds, with the standard tables. -/
def ofBytes? (bs : List UInt8) : Option Calibration :=
  (load (m := Except Fault) (Source.ofBytes bs) Rssi.Tables.standard {}).toOption

end Calibration
end RfidReader
