import RfidReader.Calibration.Rssi
import RfidReader.Calibration.Sample

/-!
# RfidReader.Proofs.Calibration.SignalStrength

Readings and powers: there and back, and in order.

Compensation takes three offsets off a reading, keeps 16 bits of what is left,
converts that to whole cdBm and keeps 16 bits again.  A reading is expressed
when nothing gets lost (`Expressed`): it is no less than the offsets, what is
left is within 65535, and its power has 16 bits.

A power converted back gives the reading or the next one
(`rssiLog2_compensatedRssi`).  Among the readings that are expressed a stronger
one has no less power, but no calibration keeps this order for all readings
(`compensated_order`): one that is less than the offsets comes out strong.
-/

namespace RfidReader
namespace Calibration

/-! ## Truncating division and narrowing -/

/-- Truncating division in terms of division of what is not negative. -/
theorem tdiv_eq_ite (n k : Int) : n.tdiv k = if 0 ≤ n then n / k else -(-n / k) := by
  by_cases hn : 0 ≤ n
  · rw [if_pos hn, Int.tdiv_eq_ediv_of_nonneg hn]
  · rw [if_neg hn, ← Int.tdiv_eq_ediv_of_nonneg (by omega), Int.neg_tdiv, Int.neg_neg]

/-- Narrowing an integer to 16 bits. -/
theorem toInt_int16_ofInt (n : Int) :
    (Int16.ofInt n).toInt = (n + 32768) % 65536 - 32768 := by
  rw [Int16.toInt_ofInt, Int.bmod_def]
  simp only [Int16.size]
  split <;> omega

theorem toNat_uint16_ofInt (n : Int) : ((UInt16.ofInt n).toNat : Int) = n % 65536 := by
  rw [UInt16.ofInt, UInt16.toNat_ofNat']
  omega

/-- An integer from 0 through 32767 is the same with 16 bits, floored at 0 and without a sign. -/
theorem toNat_floored {n : Int} (hn : 0 ≤ n) (hn' : n ≤ 32767) :
    ((if Int16.ofInt n ≤ 0 then 0 else (Int16.ofInt n).toUInt16 : UInt16).toNat : Int) = n := by
  have hint : (Int16.ofInt n).toInt = n := by
    rw [toInt_int16_ofInt]
    omega
  split
  case isTrue h =>
    rw [Int16.le_iff_toInt_le, hint, Int16.toInt_zero] at h
    rw [UInt16.toNat_zero]
    omega
  case isFalse h =>
    rw [Int16.le_iff_toInt_le, hint, Int16.toInt_zero] at h
    rw [Int16.toNat_toUInt16_of_le, ← Int16.toNat_toInt, hint]
    · omega
    · rw [Int16.le_iff_toInt_le, hint, Int16.toInt_zero]
      omega

namespace RssiParams

variable (r : RssiParams)

/-- The power of a log2 value in whole cdBm, before it is narrowed. -/
def wholeCdbm (log2 : Int) : Int :=
  ((log2 - r.referenceLog2.toInt) * 470 + r.referenceCdbm * 100 + 50).tdiv 100

/-- The power of a log2 value that is narrowed before and after. -/
theorem toInt_toCdbm_ofInt (log2 : Int) :
    (r.toCdbm (UInt16.ofInt log2)).toInt =
      (r.wholeCdbm (log2 % 65536) + 32768) % 65536 - 32768 := by
  rw [toCdbm, toInt_int16_ofInt, toNat_uint16_ofInt, wholeCdbm]

/-- A stronger log2 value has no less power. -/
theorem wholeCdbm_mono {a b : Int} (h : a ≤ b) : r.wholeCdbm a ≤ r.wholeCdbm b := by
  unfold wholeCdbm
  rw [tdiv_eq_ite, tdiv_eq_ite]
  split <;> split <;> omega

/-- 7000 log2 units are 32900 cdBm, one less where the power changes its sign. -/
theorem wholeCdbm_add (log2 : Int) :
    r.wholeCdbm (log2 + 7000) = r.wholeCdbm log2 + 32900 ∨
      r.wholeCdbm (log2 + 7000) = r.wholeCdbm log2 + 32899 := by
  unfold wholeCdbm
  rw [tdiv_eq_ite, tdiv_eq_ite]
  split <;> split <;> omega

/-- Both conversions round by adding a half and truncating toward zero: going there and back
gives a log2 value or the next one. -/
theorem toLog2_wholeCdbm (log2 : Int) :
    ((r.wholeCdbm log2 - r.referenceCdbm) * 100 + 235).tdiv 470 + r.referenceLog2.toInt = log2 ∨
      ((r.wholeCdbm log2 - r.referenceCdbm) * 100 + 235).tdiv 470 + r.referenceLog2.toInt =
        log2 + 1 := by
  unfold wholeCdbm
  rw [tdiv_eq_ite _ 470, tdiv_eq_ite _ 100]
  split <;> split <;> omega

/-- Every offset takes some stronger reading to a weaker power.

Of three log2 values 7000 apart the narrowed powers cannot ascend twice, since each step is more
than half of the 65536 powers there are. -/
theorem exists_toCdbm_lt (offset : Int) :
    ∃ weak strong : UInt16, weak ≤ strong ∧
      r.toCdbm (UInt16.ofInt (strong.toNat - offset))
        < r.toCdbm (UInt16.ofInt (weak.toNat - offset)) := by
  -- From `a` on, 14000 readings do not get to a multiple of 65536 when the offset is taken off.
  obtain ⟨a, ha, hwin⟩ : ∃ a : Nat, a ≤ 14001 ∧
      ((a : Int) - offset) % 65536 + 14000 < 65536 := by
    by_cases h : (0 - offset) % 65536 + 14000 < 65536
    · exact ⟨0, by omega, h⟩
    · exact ⟨14001, by omega, by omega⟩
  let reading (k : Nat) : UInt16 := UInt16.ofNat (a + k)
  have hreading (k : Nat) (hk : k ≤ 14000) : (reading k).toNat = a + k :=
    UInt16.toNat_ofNat_of_lt' (by rw [UInt16.size]; omega)
  have hpower (k : Nat) (hk : k ≤ 14000) :
      (r.toCdbm (UInt16.ofInt ((reading k).toNat - offset))).toInt =
        (r.wholeCdbm (((a : Int) - offset) % 65536 + k) + 32768) % 65536 - 32768 := by
    rw [toInt_toCdbm_ofInt, hreading k hk]
    congr 4
    omega
  have h₀ := hpower 0 (by omega)
  have h₁ := hpower 7000 (by omega)
  have h₂ := hpower 14000 (by omega)
  simp only [Int.cast_ofNat_Int, Int.add_zero] at h₀ h₁ h₂
  have hstep₁ := r.wholeCdbm_add (((a : Int) - offset) % 65536)
  have hstep₂ := r.wholeCdbm_add (((a : Int) - offset) % 65536 + 7000)
  rw [Int.add_assoc, show (7000 : Int) + 7000 = 14000 from rfl] at hstep₂
  by_cases hfirst : r.toCdbm (UInt16.ofInt ((reading 7000).toNat - offset))
      < r.toCdbm (UInt16.ofInt ((reading 0).toNat - offset))
  · refine ⟨reading 0, reading 7000, ?_, hfirst⟩
    rw [UInt16.le_iff_toNat_le, hreading 0 (by omega), hreading 7000 (by omega)]
    omega
  · refine ⟨reading 7000, reading 14000, ?_, ?_⟩
    · rw [UInt16.le_iff_toNat_le, hreading 7000 (by omega), hreading 14000 (by omega)]
      omega
    · rw [Int16.lt_iff_toInt_lt] at hfirst ⊢
      omega

end RssiParams

/-! ## Readings that are expressed -/

/-- Nothing of a reading gets lost when it is compensated. -/
structure Expressed (c : Calibration) (rx : RxSetting) (basebandOffset : Int16) (raw : UInt16) :
    Prop where
  /-- The reading is no less than the offsets. -/
  above : c.totalOffset rx basebandOffset ≤ raw.toNat
  /-- What is left has 16 bits. -/
  below : raw.toNat - c.totalOffset rx basebandOffset ≤ 65535
  /-- Its power has 16 bits. -/
  fits : -32768 ≤ c.params.rssi.wholeCdbm (raw.toNat - c.totalOffset rx basebandOffset) ∧
    c.params.rssi.wholeCdbm (raw.toNat - c.totalOffset rx basebandOffset) ≤ 32767

namespace Expressed

variable {c : Calibration} {rx : RxSetting} {basebandOffset : Int16} {raw : UInt16}

/-- The power of an expressed reading is the exact one. -/
theorem toInt_compensate (h : Expressed c rx basebandOffset raw) :
    (c.compensate rx basebandOffset raw).toInt =
      c.params.rssi.wholeCdbm (raw.toNat - c.totalOffset rx basebandOffset) := by
  have habove := h.above
  have hbelow := h.below
  have hfits := h.fits
  have hlog : (raw.toNat - c.totalOffset rx basebandOffset) % 65536 =
      raw.toNat - c.totalOffset rx basebandOffset := by omega
  rw [compensate, RssiParams.toInt_toCdbm_ofInt, hlog]
  omega

/-- Expressed readings keep their order. -/
theorem compensate_le {strong : UInt16} (h : Expressed c rx basebandOffset raw)
    (hs : Expressed c rx basebandOffset strong) (hle : raw ≤ strong) :
    c.compensate rx basebandOffset raw ≤ c.compensate rx basebandOffset strong := by
  rw [Int16.le_iff_toInt_le, h.toInt_compensate, hs.toInt_compensate]
  apply RssiParams.wholeCdbm_mono
  rw [UInt16.le_iff_toNat_le] at hle
  omega

end Expressed

/-! ## Order -/

/-- Compensation in a mode and compensation of a listen before talk reading keep the order of
readings that are expressed, and neither keeps the order of all readings. -/
theorem compensated_order (c : Calibration) (h : c.isSupported = true) (mode : RfMode)
    (rx : RxSetting) :
    (∀ weak strong : UInt16, weak ≤ strong →
      Expressed c rx (c.nominalModeOffset mode) weak →
      Expressed c rx (c.nominalModeOffset mode) strong →
      c.compensatedRssi mode rx weak ≤ c.compensatedRssi mode rx strong) ∧
    (∀ weak strong : UInt16, weak ≤ strong →
      Expressed c rx c.lbtOffset weak → Expressed c rx c.lbtOffset strong →
      c.compensatedLbtRssi rx weak ≤ c.compensatedLbtRssi rx strong) ∧
    (∃ weak strong : UInt16, weak ≤ strong ∧
      c.compensatedRssi mode rx strong < c.compensatedRssi mode rx weak) ∧
    ∃ weak strong : UInt16, weak ≤ strong ∧
      c.compensatedLbtRssi rx strong < c.compensatedLbtRssi rx weak := by
  simp only [compensatedRssi, compensatedLbtRssi, if_pos h]
  refine ⟨?_, ?_, ?_, ?_⟩
  · intro weak strong hle hweak hstrong
    exact hweak.compensate_le hstrong hle
  · intro weak strong hle hweak hstrong
    exact hweak.compensate_le hstrong hle
  · exact c.params.rssi.exists_toCdbm_lt _
  · exact c.params.rssi.exists_toCdbm_lt _

namespace Sample

/-- Mode 146 on antenna 1, with every gain at its lowest setting. -/
def rx : RxSetting := ⟨.ofCodes 0 0 0 0 0, 1, .upperBand, 0⟩

set_option maxRecDepth 20000 in
/-- What the sample calibration takes off a reading, and its reference point. -/
theorem exists_offsets : ∃ c ∈ ofBytes? image, c.isSupported = true ∧
    c.totalOffset rx (c.nominalModeOffset 146) = 1017 ∧ c.totalOffset rx c.lbtOffset = 891 ∧
    c.params.rssi.referenceDbm = -60 ∧ c.params.rssi.referenceLog2 = 1800 := by
  have h : (ofBytes? image).any (fun c => c.isSupported = true ∧
      c.totalOffset rx (c.nominalModeOffset 146) = 1017 ∧ c.totalOffset rx c.lbtOffset = 891 ∧
      c.params.rssi.referenceDbm = -60 ∧ c.params.rssi.referenceLog2 = 1800) = true := by
    decide +kernel
  simpa [Option.any_eq_true] using h

end Sample

/-- The sample calibration takes 1017 units off a reading in mode 146: of the readings 900 and
1100 the weaker one comes out as 308.65 dBm and the stronger one as -140.69 dBm. -/
theorem not_compensated_order_sample :
    ∃ c ∈ ofBytes? Sample.image, c.isSupported = true ∧
      c.totalOffset Sample.rx (c.nominalModeOffset 146) = 1017 ∧
      c.compensatedRssi 146 Sample.rx 900 = 30865 ∧
      c.compensatedRssi 146 Sample.rx 1100 = -14069 := by
  obtain ⟨c, hc, hs, hoffset, -, hdbm, hlog⟩ := Sample.exists_offsets
  refine ⟨c, hc, hs, hoffset, ?_, ?_⟩
  · rw [compensatedRssi, if_pos hs, compensate, hoffset, RssiParams.toCdbm,
      RssiParams.referenceCdbm, hdbm, hlog]
    decide
  · rw [compensatedRssi, if_pos hs, compensate, hoffset, RssiParams.toCdbm,
      RssiParams.referenceCdbm, hdbm, hlog]
    decide

/-- The sample calibration keeps the order of the readings 1100 and 2500. -/
theorem compensated_order_sample :
    ∃ c ∈ ofBytes? Sample.image, c.isSupported = true ∧
      Expressed c Sample.rx (c.nominalModeOffset 146) 1100 ∧
      Expressed c Sample.rx (c.nominalModeOffset 146) 2500 ∧
      c.compensatedRssi 146 Sample.rx 1100 ≤ c.compensatedRssi 146 Sample.rx 2500 ∧
      ∃ weak strong : UInt16, weak ≤ strong ∧
        c.compensatedLbtRssi Sample.rx strong < c.compensatedLbtRssi Sample.rx weak := by
  obtain ⟨c, hc, hs, hoffset, -, hdbm, hlog⟩ := Sample.exists_offsets
  have hexpressed (raw : UInt16) (hraw : raw = 1100 ∨ raw = 2500) :
      Expressed c Sample.rx (c.nominalModeOffset 146) raw := by
    refine ⟨?_, ?_, ?_⟩
    · rw [hoffset]
      obtain rfl | rfl := hraw <;> decide
    · rw [hoffset]
      obtain rfl | rfl := hraw <;> decide
    · rw [hoffset, RssiParams.wholeCdbm, RssiParams.referenceCdbm, hdbm, hlog]
      obtain rfl | rfl := hraw <;> decide
  have horder := compensated_order c hs 146 Sample.rx
  exact ⟨c, hc, hs, hexpressed 1100 (.inl rfl), hexpressed 2500 (.inr rfl),
    horder.1 1100 2500 (by decide) (hexpressed 1100 (.inl rfl)) (hexpressed 2500 (.inr rfl)),
    horder.2.2.2⟩

/-! ## Round trip -/

/-- The power of a reading converted back gives the reading or the next one, if what is left of
the reading without its offsets has 15 bits and its power in whole cdBm has 16. -/
theorem rssiLog2_compensatedRssi (c : Calibration) (h : c.isSupported = true) (mode : RfMode)
    (rx : RxSetting) (raw : UInt16)
    (habove : 0 ≤ raw.toNat - c.totalOffset rx (c.nominalModeOffset mode))
    (hbelow : raw.toNat - c.totalOffset rx (c.nominalModeOffset mode) ≤ 32766)
    (hraw : raw ≤ 32766)
    (hfits : -32768 ≤
        c.params.rssi.wholeCdbm (raw.toNat - c.totalOffset rx (c.nominalModeOffset mode)) ∧
      c.params.rssi.wholeCdbm (raw.toNat - c.totalOffset rx (c.nominalModeOffset mode)) ≤ 32767) :
    c.rssiLog2 mode rx (c.compensatedRssi mode rx raw) = raw ∨
      c.rssiLog2 mode rx (c.compensatedRssi mode rx raw) = raw + 1 := by
  let offset := c.totalOffset rx (c.nominalModeOffset mode)
  have hpower : (c.compensate rx (c.nominalModeOffset mode) raw).toInt =
      c.params.rssi.wholeCdbm (raw.toNat - offset) :=
    Expressed.toInt_compensate ⟨by omega, by omega, hfits⟩
  have hround := c.params.rssi.toLog2_wholeCdbm (raw.toNat - offset)
  rw [UInt16.le_iff_toNat_le] at hraw
  change raw.toNat ≤ 32766 at hraw
  have hlog2 : (c.params.rssi.toLog2 (c.compensatedRssi mode rx raw)).toInt = raw.toNat - offset ∨
      (c.params.rssi.toLog2 (c.compensatedRssi mode rx raw)).toInt = raw.toNat - offset + 1 := by
    rw [compensatedRssi, if_pos h, RssiParams.toLog2, hpower, toInt_int16_ofInt]
    omega
  have hback : ((c.rssiLog2 mode rx (c.compensatedRssi mode rx raw)).toNat : Int) =
      (c.params.rssi.toLog2 (c.compensatedRssi mode rx raw)).toInt + offset := by
    simp only [rssiLog2, if_pos h]
    exact toNat_floored (by omega) (by omega)
  rw [← UInt16.toNat_inj, ← UInt16.toNat_inj, UInt16.toNat_add]
  change _ ∨ _ = (raw.toNat + 1) % 65536
  omega

/-- The sample calibration takes the reading 1100 to -140.69 dBm, and back to 1100 or 1101. -/
theorem rssiLog2_compensatedRssi_sample :
    ∃ c ∈ ofBytes? Sample.image, c.isSupported = true ∧
      c.totalOffset Sample.rx (c.nominalModeOffset 146) = 1017 ∧
      c.params.rssi.wholeCdbm (1100 - 1017) = -14069 ∧
      (c.rssiLog2 146 Sample.rx (c.compensatedRssi 146 Sample.rx 1100) = 1100 ∨
        c.rssiLog2 146 Sample.rx (c.compensatedRssi 146 Sample.rx 1100) = 1100 + 1) := by
  obtain ⟨c, hc, hs, hoffset, -, hdbm, hlog⟩ := Sample.exists_offsets
  have hwhole : c.params.rssi.wholeCdbm (1100 - 1017) = -14069 := by
    rw [RssiParams.wholeCdbm, RssiParams.referenceCdbm, hdbm, hlog]
    decide
  refine ⟨c, hc, hs, hoffset, hwhole, rssiLog2_compensatedRssi c hs 146 Sample.rx 1100 ?_ ?_
    (by decide) ?_⟩
  · rw [hoffset]
    decide
  · rw [hoffset]
    decide
  · rw [hoffset]
    change -32768 ≤ c.params.rssi.wholeCdbm (1100 - 1017) ∧
      c.params.rssi.wholeCdbm (1100 - 1017) ≤ 32767
    rw [hwhole]
    decide

end Calibration
end RfidReader
