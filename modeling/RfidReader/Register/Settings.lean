import RfidReader.Register.Basic
import RfidReader.Op

/-!
# RfidReader.Register.Settings

The values held by the bit-packed registers: op status, receiver gains, droop
compensation, power control thresholds, synthesizer dividers and pin changes.
-/

namespace RfidReader

/-! ## Op status -/

/-- The status of the operation that was started last. -/
structure OpStatus where
  opCode : UInt8
  busy : Bool
  errorCode : UInt8
  deriving DecidableEq, Repr

namespace OpStatus

/-- The operation the status is for, if its number is known. -/
def op? (s : OpStatus) : Option Op := Op.ofCode? s.opCode

/-- How the operation finished, if the code is known. -/
def result? (s : OpStatus) : Option OpResult := OpResult.ofCode? s.errorCode

/-- Whether the operation finished with an error. -/
def hasError (s : OpStatus) : Bool := s.errorCode != OpResult.success.code

theorem hasError_iff (s : OpStatus) : s.hasError = true ↔ s.errorCode ≠ 0 := bne_iff_ne

end OpStatus

/-! ## Receiver gains -/

/-- The receiver's gain stages.  Each gain is one of four settings. -/
structure RxGains where
  rxAtten : Fin 4
  pga1 : Fin 4
  pga2 : Fin 4
  pga3 : Fin 4
  mixer : Fin 4
  pga1RinSelect : Bool := false
  mixerBandwidth : Bool := false
  deriving DecidableEq, Repr

namespace RxGains

/-- Gains from setting numbers, of which the lowest two bits count. -/
def ofCodes (rxAtten pga1 pga2 pga3 mixer : Nat) : RxGains where
  rxAtten := lowTwo rxAtten
  pga1 := lowTwo pga1
  pga2 := lowTwo pga2
  pga3 := lowTwo pga3
  mixer := lowTwo mixer

end RxGains

/-! ## Droop compensation -/

/-- Periodic fine gain steps that counter amplifier droop while transmitting. -/
structure DroopCompensation where
  enable : Bool := true
  intervalMs : UInt8 := 25
  stepCdb : UInt8 := 10
  deriving DecidableEq, Repr

/-! ## Power control -/

/-- The converter differences that end the power control loop. -/
structure LoopThresholds where
  /-- Close enough: the loop stops. -/
  stop : UInt16
  /-- Too far: the operation fails. -/
  opError : UInt16
  deriving DecidableEq, Repr

/-! ## Synthesizer -/

/-- The synthesizer's dividers and loop filter. -/
structure SynthesizerSetting where
  nDivider : UInt16
  /-- A position in the table of reference dividers. -/
  rIndex : Fin 8
  loopFilter : Bool
  deriving DecidableEq, Repr

namespace SynthesizerSetting

/-- Settings with the divider at an index, of which the lowest three bits count. -/
def ofIndex (nDivider : UInt16) (rIndex : UInt8) (loopFilter : Bool) : SynthesizerSetting where
  nDivider
  rIndex := lowThree rIndex.toNat
  loopFilter

end SynthesizerSetting

/-! ## Pins -/

/-- Changes to the level and direction of the digital pins, one bit a pin. -/
structure PinChanges where
  levelSet : UInt32 := 0
  levelClear : UInt32 := 0
  enableSet : UInt32 := 0
  enableClear : UInt32 := 0
  deriving DecidableEq, Repr

namespace PinChanges

/-- Drive the pins of `mask` to the matching bits of `levels`, as outputs. -/
def drive (p : PinChanges) (levels mask : UInt32) : PinChanges :=
  { p with
    levelSet := p.levelSet ||| (levels &&& mask)
    levelClear := p.levelClear ||| (~~~levels &&& mask)
    enableSet := p.enableSet ||| mask }

def drivePin (p : PinChanges) (pin : Nat) (high : Bool) : PinChanges :=
  p.drive (UInt32.ofNat (high.toNat <<< pin)) (UInt32.ofNat (1 <<< pin))

end PinChanges
end RfidReader
