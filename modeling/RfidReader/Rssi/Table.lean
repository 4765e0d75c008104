import RfidReader.RfMode

/-!
# RfidReader.Rssi.Table

The fixed tables of signal strength compensation.

Many radio modes share a receiver configuration.  Each configuration has a
digital correction and a nominal backscatter link frequency (BLF).  A table
set names the configuration of every supported mode, the constants of every
configuration, and the modes whose signal strength is measured when a device
is calibrated.
-/

namespace RfidReader
namespace Rssi

inductive RxMode where
  | mode0 | mode4 | mode5 | mode6 | mode11 | mode12 | mode16 | mode17 | mode18 | mode21
  | mode23 | mode44 | mode46 | mode47 | mode48 | mode49 | mode50 | mode51 | mode52
  deriving DecidableEq, Repr

namespace RxMode

/-- Every configuration, in table order. -/
def all : List RxMode :=
  [mode0, mode4, mode5, mode6, mode11, mode12, mode16, mode17, mode18, mode21, mode23, mode44,
    mode46, mode47, mode48, mode49, mode50, mode51, mode52]

/-- The configuration's position in the tables. -/
def index : RxMode → Nat
  | mode0 => 0 | mode4 => 1 | mode5 => 2 | mode6 => 3 | mode11 => 4 | mode12 => 5
  | mode16 => 6 | mode17 => 7 | mode18 => 8 | mode21 => 9 | mode23 => 10 | mode44 => 11
  | mode46 => 12 | mode47 => 13 | mode48 => 14 | mode49 => 15 | mode50 => 16 | mode51 => 17
  | mode52 => 18

def ofIndex? (i : Nat) : Option RxMode := all[i]?

def name : RxMode → String
  | mode0 => "Mode0" | mode4 => "Mode4" | mode5 => "Mode5" | mode6 => "Mode6"
  | mode11 => "Mode11" | mode12 => "Mode12" | mode16 => "Mode16" | mode17 => "Mode17"
  | mode18 => "Mode18" | mode21 => "Mode21" | mode23 => "Mode23" | mode44 => "Mode44"
  | mode46 => "Mode46" | mode47 => "Mode47" | mode48 => "Mode48" | mode49 => "Mode49"
  | mode50 => "Mode50" | mode51 => "Mode51" | mode52 => "Mode52"

theorem ofIndex?_index (m : RxMode) : ofIndex? m.index = some m := by
  cases m <;> decide

end RxMode

/-- The constants of a receiver configuration. -/
structure Correction where
  /-- What the digital receive chain adds, in log2 units. -/
  digital : Int16
  /-- The nominal backscatter link frequency. -/
  blfKhz : UInt16
  deriving DecidableEq, Repr

/-- A mode whose signal strength is measured during calibration. -/
structure CalibrationMode where
  mode : RfMode
  blfKhz : UInt16
  deriving DecidableEq, Repr

/-- A complete set of tables. -/
structure Tables where
  /-- The supported modes and their configuration; the first entry of a mode counts. -/
  rfModes : List (RfMode × RxMode)
  /-- The constants of each configuration, by position. -/
  rxModes : List Correction
  /-- The modes measured through the dense reader filter, by ascending BLF. -/
  drmModes : List CalibrationMode
  /-- The modes measured without it, by ascending BLF. -/
  otherModes : List CalibrationMode
  /-- The digital correction of listen before talk measurements. -/
  lbtDigital : Int16
  /-- The frequency shift of listen before talk measurements, in kHz. -/
  lbtShiftKhz : UInt16
  deriving DecidableEq, Repr

namespace Tables

/-- The configuration of a mode, if it is supported. -/
def rxMode? (t : Tables) (mode : RfMode) : Option RxMode :=
  (t.rfModes.find? (·.1 == mode)).map (·.2)

/-- The constants of a configuration. -/
def correction? (t : Tables) (rx : RxMode) : Option Correction := t.rxModes[rx.index]?

/-- The constants of a mode's configuration. -/
def modeCorrection? (t : Tables) (mode : RfMode) : Option Correction :=
  (t.rxMode? mode).bind t.correction?

/-- The nominal BLF of a mode, 0 for modes that are not supported. -/
def modeBlfKhz (t : Tables) (mode : RfMode) : UInt16 :=
  ((t.modeCorrection? mode).map (·.blfKhz)).getD 0

end Tables
end Rssi
end RfidReader
