import RfidReader.Register.Settings

/-!
# RfidReader.Register.Map

The chip's memory map: every register the host uses, with its address and
layout, and the memory areas that are not registers.
-/

namespace RfidReader
namespace Register

/-! ## Memory areas -/

/-- The first converter result; each result is 16 bits wide. -/
def auxResultsAddress : UInt16 := 0x0404

/-- The instructions of the aggregate operation. -/
def aggregateBufferAddress : UInt16 := 0x0704

/-- The calibration region. -/
def calibrationAddress : UInt16 := 0xE800

def calibrationLength : Nat := 0x0800

/-! ## Operations and time -/

/-- Writing an operation's number here starts it. -/
def opsControl : Register UInt8 := .ofWord UInt8 0x0300 1

/-- The status of the operation started last. -/
def opsStatus : Register OpStatus where
  address := 0x0304
  width := 4
  pack s := s.opCode.toNat + s.busy.toNat <<< 8 + s.errorCode.toNat <<< 16
  unpack w :=
    { opCode := UInt8.ofNat w
      busy := w.testBit 8
      errorCode := UInt8.ofNat (w >>> 16) }

/-- Microseconds since the chip booted. -/
def timestamp : Register UInt32 := .ofWord UInt32 0x0030 4

/-- The delay of the microsecond timer. -/
def delayUs : Register UInt32 := .ofWord UInt32 0x00D4 4

/-! ## Converter and power control -/

/-- The converter slots that are sampled next. -/
def auxControl : Register UInt16 := .ofWord UInt16 0x0400 2

/-- The detectors the power control loop looks at. -/
def loopDetectors : Register UInt16 := .ofWord UInt16 0x00BC 4

def loopGainDivisor : Register UInt16 := .ofWord UInt16 0x00C0 4

/-- The iteration limit of the power control loop. -/
def loopMaxIterations : Register UInt32 := .ofWord UInt32 0x00C4 4

/-- The reading the power control loop regulates to. -/
def loopAdcTarget : Register UInt16 := .ofWord UInt16 0x00CC 4

/-- The thresholds that end the power control loop. -/
def loopThresholds : Register LoopThresholds where
  address := 0x00D0
  width := 4
  pack t := t.stop.toNat + t.opError.toNat <<< 16
  unpack w := { stop := UInt16.ofNat w, opError := UInt16.ofNat (w >>> 16) }

/-! ## Transmitter -/

/-- The fine gain of the transmit ramp. -/
def fineGain : Register Int16 := .ofWord Int16 0x0504 4

/-- The coarse transmit attenuation, five bits. -/
def coarseGain : Register (Fin 32) where
  address := 0x050C
  width := 4
  needed := 1
  pack := Fin.val
  unpack := lowFive

/-- The DC offset of the transmit ramp, a signed value of twenty bits. -/
def dcOffset : Register Int32 where
  address := 0x0518
  width := 4
  pack v := (BitVec.ofInt 20 v.toInt).toNat
  unpack w := Int32.ofInt (BitVec.ofNat 20 w).toInt

/-- Whether the carrier is being transmitted. -/
def cwIsOn : Register Bool := .ofFlag 0x0520

/-- The dividers of the synthesizer, the same in each of five entries. -/
def synthesizer : Register SynthesizerSetting where
  address := 0x0588
  width := 4
  copies := 5
  pack s := s.nDivider.toNat + s.rIndex.val <<< 16 + s.loopFilter.toNat <<< 24
  unpack w :=
    { nDivider := UInt16.ofNat w
      rIndex := lowThree (w >>> 16)
      loopFilter := w.testBit 24 }

/-- Whether the analog supplies are powered. -/
def analogEnable : Register Bool := .ofFlag 0x0700

def droop : Register DroopCompensation where
  address := 0x0904
  width := 4
  pack d := d.enable.toNat + d.intervalMs.toNat <<< 16 + d.stepCdb.toNat <<< 24
  unpack w :=
    { enable := w.testBit 0
      intervalMs := UInt8.ofNat (w >>> 16)
      stepCdb := UInt8.ofNat (w >>> 24) }

/-! ## Ramp history -/

/-- When the transmitter last ramped up, in milliseconds. -/
def lastRampUpMs : Register UInt32 := .ofWord UInt32 0x0908 4

/-- The frequency of the last ramp up. -/
def lastRampUpKhz : Register UInt32 := .ofWord UInt32 0x090C 4

/-- When the transmitter last ramped down, in milliseconds. -/
def lastRampDownMs : Register UInt32 := .ofWord UInt32 0x0910 4

/-- The frequency of the last ramp down. -/
def lastRampDownKhz : Register UInt32 := .ofWord UInt32 0x0914 4

/-! ## Dwell timers -/

def nominalStop : Register UInt16 := .ofWord UInt16 0x1008 2

def extendedStop : Register UInt16 := .ofWord UInt16 0x100C 2

def regulatoryStop : Register UInt16 := .ofWord UInt16 0x1010 2

/-- How long the transmit lock is held. -/
def txMutexTime : Register UInt16 := .ofWord UInt16 0x1012 2

/-- How long the transmitter stays off before it reuses a channel. -/
def burstOffTime : Register UInt16 := .ofWord UInt16 0x051C 4

/-! ## Receiver and pins -/

def rfMode : Register UInt16 := .ofWord UInt16 0x0514 4

def rxGains : Register RxGains where
  address := 0x0508
  width := 2
  pack g :=
    g.rxAtten.val + g.pga1.val <<< 2 + g.pga2.val <<< 4 + g.pga3.val <<< 6
      + g.mixer.val <<< 10 + g.pga1RinSelect.toNat <<< 12 + g.mixerBandwidth.toNat <<< 14
  unpack w :=
    { rxAtten := lowTwo w
      pga1 := lowTwo (w >>> 2)
      pga2 := lowTwo (w >>> 4)
      pga3 := lowTwo (w >>> 6)
      mixer := lowTwo (w >>> 10)
      pga1RinSelect := w.testBit 12
      mixerBandwidth := w.testBit 14 }

/-- Pin changes, applied by the pin operation. -/
def pinChanges : Register PinChanges where
  address := 0x00E0
  width := 16
  pack p :=
    p.levelSet.toNat + p.levelClear.toNat <<< 32 + p.enableSet.toNat <<< 64
      + p.enableClear.toNat <<< 96
  unpack w :=
    { levelSet := UInt32.ofNat w
      levelClear := UInt32.ofNat (w >>> 32)
      enableSet := UInt32.ofNat (w >>> 64)
      enableClear := UInt32.ofNat (w >>> 96) }

end Register
end RfidReader
