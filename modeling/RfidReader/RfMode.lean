/-!
# RfidReader.RfMode

Radio modes and the baseband filter each of them is received through.

A mode is a number that stands for a link encoding and rate.  Dense reader
modes (DRM) go through the bandpass filter, all others through the highpass
filter; which modes count as dense depends on the modes the board supports,
and the choice can be overridden.
-/

namespace RfidReader

/-- A combination of link encoding and rate. -/
abbrev RfMode := UInt16

namespace RfMode

/-- The current number of a mode that older firmware numbered differently. -/
def ofLegacy (mode : RfMode) : RfMode :=
  match mode with
  | 1 => 124
  | 3 => 123
  | 5 => 141
  | 7 => 146
  | 11 => 102
  | 12 => 125
  | 13 => 185
  | 15 => 147
  | other => other

/-- The dense reader modes; 241 and 244 are further numbers of the modes 5 and 7. -/
def dense : List RfMode := [5, 7, 141, 146, 186, 241, 244, 286, 342, 343, 383, 4141, 4146]

/-- The dense reader modes that only a board with extended modes has. -/
def extendedDense : List RfMode := [4141, 4146, 4241, 4244, 4342, 4343]

end RfMode

/-- The modes a board supports. -/
inductive ModeSet where
  | standard
  | gen2x
  deriving DecidableEq, Repr

namespace ModeSet

def name : ModeSet → String
  | standard => "Standard"
  | gen2x => "Gen2x"

end ModeSet

/-- Whether the dense reader filter is chosen by the mode or forced. -/
inductive DrmStatus where
  | auto
  | on
  | off
  deriving DecidableEq, Repr

namespace DrmStatus

def code : DrmStatus → Nat
  | auto => 0
  | on => 1
  | off => 2

def ofCode? (n : Nat) : Option DrmStatus := [auto, on, off].find? (·.code == n)

end DrmStatus

/-- The two receive filters. -/
inductive FilterType where
  | highpass
  | bandpass
  deriving DecidableEq, Repr

namespace FilterType

def ofCode? : Nat → Option FilterType
  | 0 => some highpass
  | 1 => some bandpass
  | _ => none

def name : FilterType → String
  | highpass => "Highpass"
  | bandpass => "Bandpass"

end FilterType

/-- How the receive filter follows from the mode. -/
structure BasebandFilter where
  modeSet : ModeSet := .standard
  drmStatus : DrmStatus := .auto
  deriving DecidableEq, Repr

namespace BasebandFilter

/-- Whether a mode is received through the dense reader filter. -/
def isDense (f : BasebandFilter) (mode : RfMode) : Bool :=
  match f.drmStatus with
  | .on => true
  | .off => false
  | .auto =>
    (f.modeSet == .gen2x && RfMode.extendedDense.contains mode) || RfMode.dense.contains mode

/-- The filter a mode is received through. -/
def choose (f : BasebandFilter) (mode : RfMode) : FilterType :=
  if f.isDense mode then .bandpass else .highpass

end BasebandFilter
end RfidReader
