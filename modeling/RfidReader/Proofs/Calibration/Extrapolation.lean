import RfidReader.Proofs.Binary32.Order
import RfidReader.Proofs.Calibration.TableAccess

/-!
# RfidReader.Proofs.Calibration.Extrapolation

How far a detector reading can be extrapolated.

A reading is a sum, of the reading at the second setting of a pair and a step
from there, that is brought into 16 bits.  The step alone is brought into 32
bits before, at the end of their range, so a high reading to start from can
take the sum beyond them.  That happens exactly for lines that rise that far
(`Readout.overflow_iff`), and nowhere between two settings
(`Readout.sum_lt_of_between`).  The program then stops if it checks its sums;
if not, the sum wraps around and the reading is 0, not the largest one.

Two settings with the same power are enough, as the line through them has no
slope to speak of (`not_sum_lt_plateau`).
-/

namespace RfidReader
namespace Calibration

open Binary32

namespace Readout

variable {b : Band} {r : Readout}

/-- The reading. -/
def reading (b : Band) (r : Readout) : UInt16 := b.reading r.block r.pair r.target

/-- How far the line rises from the second setting of the pair. -/
def rise (b : Band) (r : Readout) : Float32 :=
  ofInt ((b.adc r.block r.pair.1).toNat - (b.adc r.block r.pair.2).toNat)
    * b.fraction r.pair r.target

theorem sum_eq (b : Band) (r : Readout) :
    r.sum b =
      (b.adc r.block r.pair.2).toNat + saturate (-2147483648) 2147483647 (r.rise b) := rfl

/-! ## Sums beyond 32 bits -/

/-- A step takes a sum below the reading it starts from, or beyond it, by 32 bits at most. -/
theorem sum_mem (b : Band) (r : Readout) :
    (b.adc r.block r.pair.2).toNat - 2 ^ 31 ≤ r.sum b ∧
      r.sum b < (b.adc r.block r.pair.2).toNat + 2 ^ 31 := by
  have hstep : -2147483648 ≤ saturate (-2147483648) 2147483647 (r.rise b) ∧
      saturate (-2147483648) 2147483647 (r.rise b) ≤ 2147483647 :=
    saturate_mem (r.rise b) (by decide) (by decide)
  rw [sum_eq]
  omega

theorem neg_le_sum (b : Band) (r : Readout) : -2 ^ 31 ≤ r.sum b := by
  have hmem := r.sum_mem b
  omega

/-- A sum is beyond 32 bits exactly if the line rises to there, from a reading that is not 0. -/
theorem overflow_iff :
    2 ^ 31 ≤ r.sum b ↔
      0 < (b.adc r.block r.pair.2).toNat ∧
        (2 ^ 31 - (b.adc r.block r.pair.2).toNat : ℚ) ≤ value (r.rise b) := by
  have hlt := (b.adc r.block r.pair.2).toNat_lt
  have hmem := r.sum_mem b
  obtain hzero | hpos := Nat.eq_zero_or_pos (b.adc r.block r.pair.2).toNat
  · exact iff_of_false (by omega) fun h => by omega
  · have hreach : (2 ^ 31 - (b.adc r.block r.pair.2).toNat : ℤ) ≤
          saturate (-2147483648) 2147483647 (r.rise b) ↔
        ((2 ^ 31 - (b.adc r.block r.pair.2).toNat : ℤ) : ℚ) ≤ value (r.rise b) :=
      le_saturate_iff (by omega) (by decide) (by omega) (by omega)
    rw [Int.cast_sub, Int.cast_pow, Int.cast_ofNat, Int.cast_natCast] at hreach
    rw [← hreach, sum_eq]
    omega

theorem sum_lt_of_between (hlow : b.dbm r.pair.2 ≤ r.target) (hhigh : r.target ≤ b.dbm r.pair.1) :
    r.sum b < 2 ^ 31 := by
  have hlt := (b.adc r.block r.pair.1).toNat_lt
  have hlt' := (b.adc r.block r.pair.2).toNat_lt
  have hstep : b.readingStep r.block r.pair r.target ≤
      max 0 ((b.adc r.block r.pair.1).toNat - (b.adc r.block r.pair.2).toNat : ℤ) :=
    (Band.readingStep_between hlow hhigh).2
  rw [sum]
  omega

/-- A line does not rise that far within 16384 times the distance of its two settings. -/
theorem sum_lt_of_fraction (h : |value (b.fraction r.pair r.target)| ≤ 2 ^ 14) :
    r.sum b < 2 ^ 31 := by
  have hlt := (b.adc r.block r.pair.1).toNat_lt
  have hlt' := (b.adc r.block r.pair.2).toNat_lt
  rw [← not_le, overflow_iff]
  rintro ⟨-, hrise⟩
  have hle : value (r.rise b) ≤ 2 ^ 30 := by
    cases hf : (b.fraction r.pair r.target).isNaN with
    | true =>
        rw [rise, value_of_isNaN (isNaN_mul hf)]
        norm_num
    | false =>
        have hfinite := isFinite_of_abs_lt hf (h.trans_lt (by norm_num))
        obtain ⟨hfn, hvn⟩ := ofInt_spec
          (n := (b.adc r.block r.pair.1).toNat - (b.adc r.block r.pair.2).toNat) (by omega)
        have hround := roundedTo_mul hfn hfinite
        refine hround.value_le ⟨1, 30, by decide, by decide, by norm_num⟩ (by norm_num) ?_
        have hsize : |((b.adc r.block r.pair.1).toNat - (b.adc r.block r.pair.2).toNat : ℤ)| ≤
            2 ^ 16 := abs_le.2 ⟨by omega, by omega⟩
        rw [hvn]
        calc _ ≤ |_| := le_abs_self _
          _ = _ := abs_mul _ _
          _ ≤ 2 ^ 16 * 2 ^ 14 := mul_le_mul (by exact_mod_cast hsize) h (abs_nonneg _) (by norm_num)
          _ = 2 ^ 30 := by norm_num
  have hadc : ((b.adc r.block r.pair.2).toNat : ℚ) < 2 ^ 16 := by exact_mod_cast hlt'
  linarith

/-! ## Readings -/

theorem sum_lt (b : Band) (r : Readout) : r.sum b < 2 ^ 32 := by
  have hlt := (b.adc r.block r.pair.2).toNat_lt
  have hmem := r.sum_mem b
  omega

/-- The sum in 32 bits. -/
theorem toInt_sum (b : Band) (r : Readout) :
    (Int32.ofInt (r.sum b)).toInt =
      if r.sum b < 2 ^ 31 then r.sum b else r.sum b - 2 ^ 32 := by
  have hlo := neg_le_sum b r
  have hhi := sum_lt b r
  rw [Int32.toInt_ofInt, Int.bmod_def, Int32.size]
  split_ifs <;> omega

theorem overflows_iff : Checked.Overflows true (r.sum b) ↔ 2 ^ 31 ≤ r.sum b := by
  rw [Checked.Overflows, toInt_sum]
  split_ifs with hlt
  · simpa using hlt
  · simpa using not_lt.1 hlt

theorem toNat_reading (hlt : r.sum b < 2 ^ 31) :
    ((r.reading b).toNat : ℤ) = max 0 (min 65535 (r.sum b)) := by
  have hreading : r.reading b = clampUInt16 (Int32.ofInt (r.sum b)).toInt := rfl
  rw [hreading, toInt_sum, if_pos hlt, clampUInt16, UInt16.toNat_ofNat']
  omega

theorem reading_of_overflow (hle : 2 ^ 31 ≤ r.sum b) : r.reading b = 0 := by
  have hhi := sum_lt b r
  have hreading : r.reading b = clampUInt16 (Int32.ofInt (r.sum b)).toInt := rfl
  have hnegative : min 65535 (r.sum b - 2 ^ 32) ≤ 0 := by omega
  rw [hreading, toInt_sum, if_neg (not_lt.2 hle), clampUInt16, max_eq_left hnegative]
  rfl

end Readout

/-- **Extrapolation**: of the readings that are worked out for a power, forward or reflected, no
sum is below 32 bits, and one is beyond them exactly if its line rises that far from a reading that
is not 0; never between the two settings of the pair, or within 16384 times their distance.  A sum
that fits gives the nearest 16-bit reading, and one that does not the reading 0.  With checked sums
the program stops exactly if one of them does not fit. -/
theorem reading_sums (c : Calibration) (cdbm : Int16) (conditions : TxConditions) :
    let b := c.params.band conditions.band
    (∀ r ∈ c.forwardReadouts cdbm conditions ++ c.reverseReadouts cdbm conditions,
      -2 ^ 31 ≤ r.sum b ∧
        (2 ^ 31 ≤ r.sum b ↔ 0 < (b.adc r.block r.pair.2).toNat ∧
          (2 ^ 31 - (b.adc r.block r.pair.2).toNat : ℚ) ≤ value (r.rise b)) ∧
        (b.dbm r.pair.2 ≤ r.target ∧ r.target ≤ b.dbm r.pair.1 ∨
          |value (b.fraction r.pair r.target)| ≤ 2 ^ 14 → r.sum b < 2 ^ 31) ∧
        (r.sum b < 2 ^ 31 → ((r.reading b).toNat : ℤ) = max 0 (min 65535 (r.sum b))) ∧
        (2 ^ 31 ≤ r.sum b → r.reading b = 0)) ∧
      Checked.powerToAdc true c cdbm conditions =
        (if ∃ r ∈ c.forwardReadouts cdbm conditions, 2 ^ 31 ≤ r.sum b then throw .overflow
        else pure (c.powerToAdc cdbm conditions)) ∧
      Checked.reversePowerToAdc true c cdbm conditions =
        (if ∃ r ∈ c.reverseReadouts cdbm conditions, 2 ^ 31 ≤ r.sum b then throw .overflow
        else pure (c.reversePowerToAdc cdbm conditions)) := by
  intro b
  refine ⟨fun r _ => ⟨r.neg_le_sum b, Readout.overflow_iff, ?_, Readout.toNat_reading,
    Readout.reading_of_overflow⟩, ?_, ?_⟩
  · rintro (⟨hlow, hhigh⟩ | hfraction)
    · exact Readout.sum_lt_of_between hlow hhigh
    · exact Readout.sum_lt_of_fraction hfraction
  · rw [Checked.powerToAdc_eq]
    simp only [Readout.overflows_iff, b]
  · rw [Checked.reversePowerToAdc_eq]
    simp only [Readout.overflows_iff, b]

/-- The sample region with 31 dBm at setting 1 of the upper band too. -/
def Sample.plateau : List UInt8 := Bytes.overwrite image 230 [0x00, 0x00, 0xf8, 0x41]

set_option maxRecDepth 20000 in
/-- Where the two strongest settings have the same power, the sum for 33 dBm does not fit: with
checked sums the program stops, and without the reading is 0, so that no power control runs. -/
theorem not_sum_lt_plateau :
    ∃ c ∈ ofBytes? Sample.plateau, c.isSupported = true ∧
      (c.params.band .upperBand).dbm 0 = 31 ∧ (c.params.band .upperBand).dbm 1 = 31 ∧
      (∃ r ∈ c.forwardReadouts 3300 Sample.conditions,
        2 ^ 31 ≤ r.sum (c.params.band .upperBand)) ∧
      Checked.powerToAdc true c 3300 Sample.conditions = throw .overflow ∧
      c.powerToAdc 3300 Sample.conditions = some { adc := 0, detector := .lo2 } ∧
      (c.powerSettings 3300 false 3300 Sample.conditions).isClosedLoop = false := by
  have h : (ofBytes? Sample.plateau).any (fun c => c.isSupported = true ∧
      (c.params.band .upperBand).dbm 0 = 31 ∧ (c.params.band .upperBand).dbm 1 = 31 ∧
      (∃ r ∈ c.forwardReadouts 3300 Sample.conditions,
        2 ^ 31 ≤ r.sum (c.params.band .upperBand)) ∧
      Checked.powerToAdc true c 3300 Sample.conditions = throw .overflow ∧
      c.powerToAdc 3300 Sample.conditions = some { adc := 0, detector := .lo2 } ∧
      (c.powerSettings 3300 false 3300 Sample.conditions).isClosedLoop = false) = true := by
    decide +kernel
  simpa [Option.any_eq_true] using h

end Calibration
end RfidReader
