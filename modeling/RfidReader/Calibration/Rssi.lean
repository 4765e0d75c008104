import RfidReader.Calibration.Basic
import RfidReader.Interpolation
import RfidReader.Register.Settings

/-!
# RfidReader.Calibration.Rssi

Signal strength compensation.

The receiver reports signal strength as a log2 magnitude, 128 units for each
factor of two in amplitude.  Compensation takes off what the receiver gains,
the antenna port, the band, the radio mode and the temperature add, and turns
the rest into cdBm by the calibrated reference point.  `rssiLog2` goes back.
Without a supported calibration readings pass through.
-/

namespace RfidReader
namespace Calibration

/-! ## Units -/

namespace RssiParams

def referenceCdbm (r : RssiParams) : Int := r.referenceDbm.toInt * 100

/-- A log2 value in cdBm: 470 cdBm for 1000 units, rounded and narrowed to 16 bits. -/
def toCdbm (r : RssiParams) (log2 : UInt16) : Int16 :=
  Int16.ofInt
    ((((log2.toNat : Int) - r.referenceLog2.toInt) * 470 + r.referenceCdbm * 100 + 50).tdiv 100)

/-- A power in cdBm as a log2 value, rounded and narrowed to 16 bits. -/
def toLog2 (r : RssiParams) (cdbm : Int16) : Int16 :=
  Int16.ofInt
    (((cdbm.toInt - r.referenceCdbm) * 100 + 235).tdiv 470 + r.referenceLog2.toInt)

/-- The log2 offset at a temperature reading: 616 units for 1000 codes.  A reading of 0 means
that the temperature was not measured. -/
def tempOffset (r : RssiParams) (temperatureAdc : UInt16) : Int16 :=
  if temperatureAdc = 0 then 0
  else
    let delta : Int := temperatureAdc.toNat - r.tempIntercept.toNat
    Int16.ofInt ((-616 * delta + 500).tdiv 1000)

/-- The log2 offset of an antenna port, 0 for ports without a calibration. -/
def antennaOffset (r : RssiParams) (antenna : UInt8) : Int16 :=
  ((r.antennas[antenna.toNat]?).bind fun index => r.antennaOffsets[index.toNat]?).getD 0

end RssiParams

/-- What the receive chain adds, in log2 units. -/
def Params.gainOffset (p : Params) (gains : RxGains) (antenna : UInt8) (filter : RfFilter) :
    Int16 :=
  let r := p.rssi
  Int16.ofInt
    ((r.rxAtten.get gains.rxAtten).toInt + (r.pga1.get gains.pga1).toInt
      + (r.pga2.get gains.pga2).toInt + (r.pga3.get gains.pga3).toInt
      + (r.mixer.get gains.mixer).toInt + (r.antennaOffset antenna).toInt
      + (p.band filter).rssiShift.toInt)

/-! ## Mode offsets -/

/-- The analog offset at a baseband frequency, through one of the filters. -/
def analogOffset (c : Calibration) (khz : Int16) (dense : Bool) : Int16 :=
  Interpolation.integer (if dense then c.drmOffsets else c.otherOffsets) khz

/-- The size of a 16-bit value, at most 32767. -/
def saturatingAbs (v : Int16) : Int16 := clampInt16 v.toInt.natAbs

/-- What receiving in a mode at a baseband frequency adds, in log2 units; 0 for modes that are
not in the tables. -/
def modeOffset (c : Calibration) (mode : RfMode) (khz : Int16) : Int16 :=
  match c.tables.modeCorrection? mode with
  | none => 0
  | some correction =>
    c.analogOffset (saturatingAbs khz) (c.filter.isDense mode) + correction.digital

/-- What a mode adds at its own BLF. -/
def nominalModeOffset (c : Calibration) (mode : RfMode) : Int16 :=
  c.modeOffset mode (c.tables.modeBlfKhz mode).toInt16

/-- What a listen before talk measurement adds: it goes past the dense reader filter, at a fixed
shift. -/
def lbtOffset (c : Calibration) : Int16 :=
  c.analogOffset c.tables.lbtShiftKhz.toInt16 false + c.tables.lbtDigital

/-! ## Compensation -/

/-- The setting a signal was received with. -/
structure RxSetting where
  gains : RxGains
  antenna : UInt8
  band : RfFilter
  /-- The temperature reading, 0 to leave the temperature out. -/
  temperatureAdc : UInt16

/-- What compensation takes off a reading, in log2 units: three offsets of 16 bits. -/
def totalOffset (c : Calibration) (rx : RxSetting) (basebandOffset : Int16) : Int :=
  (c.params.gainOffset rx.gains rx.antenna rx.band).toInt + basebandOffset.toInt
    + (c.params.rssi.tempOffset rx.temperatureAdc).toInt

/-- Take the offsets off a reading and convert it to cdBm. -/
def compensate (c : Calibration) (rx : RxSetting) (basebandOffset : Int16) (raw : UInt16) :
    Int16 :=
  c.params.rssi.toCdbm
    (UInt16.ofInt (raw.toNat - c.totalOffset rx basebandOffset))

/-- The power of a raw reading taken in a mode; the reading itself without a calibration. -/
def compensatedRssi (c : Calibration) (mode : RfMode) (rx : RxSetting) (raw : UInt16) : Int16 :=
  if c.isSupported then c.compensate rx (c.nominalModeOffset mode) raw else raw.toInt16

/-- The power of a raw listen before talk reading; the reading itself without a calibration. -/
def compensatedLbtRssi (c : Calibration) (rx : RxSetting) (raw : UInt16) : Int16 :=
  if c.isSupported then c.compensate rx c.lbtOffset raw else raw.toInt16

/-- The raw reading that stands for a power, not below 0; 0 without a calibration. -/
def rssiLog2 (c : Calibration) (mode : RfMode) (rx : RxSetting) (cdbm : Int16) : UInt16 :=
  if c.isSupported then
    let log2 := Int16.ofInt
      ((c.params.rssi.toLog2 cdbm).toInt + c.totalOffset rx (c.nominalModeOffset mode))
    if log2 ≤ 0 then 0 else log2.toUInt16
  else 0

end Calibration
end RfidReader
