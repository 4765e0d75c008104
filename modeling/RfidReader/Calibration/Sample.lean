import RfidReader.Calibration.Params
import RfidReader.Binary32

/-!
# RfidReader.Calibration.Sample

A synthetic version 5 calibration region.

The values come from no real board; they are picked so that results can be
worked out by hand.  The coarse attenuation curve is `31 - setting` dBm in both
bands.  Each detector has a linear curve of 250 codes per dB, and the detectors
0, 1 and 2 are centred on the settings 20, 10 and 0, so that their readings
are within 200 through 3800 for the settings 20 to 30, 10 to 23 and 0 to 13.
All frequency compensation is zero at 915 MHz.
-/

namespace RfidReader
namespace Calibration
namespace Sample

/-- A calibration region that was never written. -/
def erased : List UInt8 := List.replicate 2048 0xFF

/-- The bytes of a list of words. -/
def wordBytes {α : Type} [Word α] (values : List α) : List UInt8 := values.flatMap Word.encode

/-- Fill a list up with zeros to `n` entries. -/
def filled {α : Type} [OfNat α 0] (n : Nat) (values : List α) : List α :=
  values ++ List.replicate (n - values.length) 0

/-- A detector's readings, centred on a setting. -/
def detectorCurve (center : Nat) : List UInt16 :=
  (List.range 31).map fun (setting : Nat) =>
    clampUInt16 (max 0 (min 4095 (3600 - 250 * ((setting : Int) - center))))

/-- The output power at each attenuation. -/
def coarseCurve : List Float32 :=
  (List.range 31).map fun (setting : Nat) => Binary32.ofInt (31 - (setting : Int))

def dcOffsets : List Int32 :=
  (List.range 31).map fun (setting : Nat) => Int32.ofInt ((setting : Int) * 10 - 150)

/-- The tables of a band that starts at `base`, with its detectors' frequency shifts. -/
def bandFields (base : Nat) (shifts : List Int16) : List (Nat × List UInt8) :=
  [(base, wordBytes ([20, 10, 0].flatMap detectorCurve)),
    (base + 186, wordBytes coarseCurve),
    (base + 310, Word.encode (0.01 : Float32)),
    (base + 314, Word.encode (1000 : UInt16)),
    (base + 316, wordBytes (List.replicate 3 (0.01 : Float32))),
    (base + 328, wordBytes (List.replicate 3 shifts).flatten),
    (base + 352, wordBytes ([902, 910, 920, 928] : List Float32)),
    (base + 384, wordBytes ([0.5, 0, 0, -0.5] : List Float32))]

/-- The signal strength tables.  Their modes carry the numbers of older firmware. -/
def rssiFields : List (Nat × List UInt8) :=
  [(996, wordBytes (filled 32 ([7, 5, 13, 3, 1] : List UInt16))),
    (1060, wordBytes (filled 32 ([1000, 1100, 900, 950, 1050] : List Int16))),
    (1124, wordBytes (([[0, 10, 20, 30], [0, 10, 20, 30], [0, 10, 20, 30], [0, 5, 10, 15],
      [0, 30, 60, 90]] : List (List Int16)).flatten)),
    (1164, [0, 0, 1, 0, 0, 0, 0, 0]),
    (1172, wordBytes (filled 8 ([5, 25] : List Int16))),
    (1188, wordBytes ([12, -8, -60, 1800] : List Int16)),
    (1196, Word.encode (-0.616 : Float32)),
    (1200, Word.encode (1200 : UInt16))]

/-- Every field, with its offset. -/
def fields : List (Nat × List UInt8) :=
  [(0, [5, 0]),
    (4, [5, 1, 2, 1, 2, 1]),
    (10, Word.encode (0x0807 : UInt16)),
    (12, Word.encode (1100 : Int16)),
    (14, wordBytes ([902, 928, 865, 868] : List Float32)),
    (30, wordBytes ([200, 3800, 300] : List UInt16)),
    (36, [4, 12])]
  ++ bandFields Params.upperBandOffset [10, 0, 0, -10]
  ++ bandFields Params.lowerBandOffset [-6, 0, 0, 6]
  ++ [(Params.dcOffsetOffset, wordBytes dcOffsets)]
  ++ rssiFields

/-- Write fields over a region, in order. -/
def patch (region : List UInt8) (fields : List (Nat × List UInt8)) : List UInt8 :=
  fields.foldl (fun bs field => Bytes.overwrite bs field.1 field.2) region

/-- The sample region. -/
def image : List UInt8 := patch erased fields

/-- Replace one entry of a coarse attenuation curve that starts at `curveOffset`; 255 dBm marks
it as skipped.  The power is given by its stored pattern, so an entry that is not a number keeps
the very bits it was given. -/
def setCoarse (region : List UInt8) (curveOffset setting : Nat) (dbm : UInt32) : List UInt8 :=
  Bytes.overwrite region (curveOffset + 4 * setting) (Word.encode dbm)

end Sample
end Calibration
end RfidReader
