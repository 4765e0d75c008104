/-!
# RfidReader.Detector

The auxiliary converter of the chip and the power detectors it samples.

The converter has fifteen result slots (`AuxChannel`), of which a run of
neighbours is sampled at once by a mask (`AuxChannel.enableBits`).  A power
detector regulates or checks transmit power: the `lo` detectors see forward
power, the `rx` detectors reflected power, and each reports into a slot.
-/

namespace RfidReader

/-! ## Converter slots -/

/-- The result slots of the auxiliary converter. -/
inductive AuxChannel where
  | powerLo0 | powerLo1 | powerLo2 | powerLo3 | powerRx0 | powerRx1 | powerRx2 | powerRx3
  | testMux0 | testMux1 | testMux2 | testMux3 | temperature | powerLoSum | powerRxSum
  deriving DecidableEq, Repr

namespace AuxChannel

/-- Every slot, in order. -/
def all : List AuxChannel :=
  [powerLo0, powerLo1, powerLo2, powerLo3, powerRx0, powerRx1, powerRx2, powerRx3,
    testMux0, testMux1, testMux2, testMux3, temperature, powerLoSum, powerRxSum]

def count : Nat := 15

/-- The slot's position. -/
def index : AuxChannel → Nat
  | powerLo0 => 0 | powerLo1 => 1 | powerLo2 => 2 | powerLo3 => 3
  | powerRx0 => 4 | powerRx1 => 5 | powerRx2 => 6 | powerRx3 => 7
  | testMux0 => 8 | testMux1 => 9 | testMux2 => 10 | testMux3 => 11
  | temperature => 12 | powerLoSum => 13 | powerRxSum => 14

def ofIndex? (i : Nat) : Option AuxChannel := all[i]?

/-- The name reports use. -/
def name : AuxChannel → String
  | powerLo0 => "PowerLo0" | powerLo1 => "PowerLo1" | powerLo2 => "PowerLo2"
  | powerLo3 => "PowerLo3" | powerRx0 => "PowerRx0" | powerRx1 => "PowerRx1"
  | powerRx2 => "PowerRx2" | powerRx3 => "PowerRx3" | testMux0 => "TestMux0"
  | testMux1 => "TestMux1" | testMux2 => "TestMux2" | testMux3 => "TestMux3"
  | temperature => "Temperature" | powerLoSum => "PowerLoSum" | powerRxSum => "PowerRxSum"

theorem index_lt (c : AuxChannel) : c.index < count := by
  cases c <;> decide

theorem ofIndex?_index (c : AuxChannel) : ofIndex? c.index = some c := by
  cases c <;> decide

/-- How many of `n` slots from this one on exist. -/
def available (start : AuxChannel) (n : Nat) : Nat := min n (count - start.index)

/-- The enable mask of `n` slots from this one on, clipped to the slots there are. -/
def enableBits (start : AuxChannel) (n : Nat) : UInt16 :=
  UInt16.ofNat (((1 <<< start.available n) - 1) <<< start.index)

end AuxChannel

/-! ## Power detectors -/

/-- The power detectors: `lo` sees forward power, `rx` reflected power. -/
inductive PowerDetector where
  | lo0 | lo1 | lo2 | rx0 | rx1 | rx2
  deriving DecidableEq, Repr

namespace PowerDetector

def all : List PowerDetector := [lo0, lo1, lo2, rx0, rx1, rx2]

/-- The detector's bit in the enable mask of the converter. -/
def enableBits : PowerDetector → UInt16
  | lo0 => 0x01 | lo1 => 0x02 | lo2 => 0x04 | rx0 => 0x10 | rx1 => 0x20 | rx2 => 0x40

def ofEnableBits? (bits : Nat) : Option PowerDetector := all.find? (·.enableBits.toNat == bits)

def name : PowerDetector → String
  | lo0 => "Lo0" | lo1 => "Lo1" | lo2 => "Lo2" | rx0 => "Rx0" | rx1 => "Rx1" | rx2 => "Rx2"

/-- The slot the detector reports into. -/
def channel : PowerDetector → AuxChannel
  | lo0 => .powerLo0 | lo1 => .powerLo1 | lo2 => .powerLo2
  | rx0 => .powerRx0 | rx1 => .powerRx1 | rx2 => .powerRx2

/-- The forward detector of a calibration block; blocks above 2 share the last one. -/
def forward : Nat → PowerDetector
  | 0 => lo0
  | 1 => lo1
  | _ => lo2

/-- The reverse detector of a calibration block; blocks above 2 share the last one. -/
def reverse : Nat → PowerDetector
  | 0 => rx0
  | 1 => rx1
  | _ => rx2

theorem ofEnableBits?_enableBits (d : PowerDetector) :
    ofEnableBits? d.enableBits.toNat = some d := by
  cases d <;> decide

end PowerDetector
end RfidReader
