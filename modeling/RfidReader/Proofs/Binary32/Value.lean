import RfidReader.Binary32
import RfidReader.Proofs.Binary32.Rounding

/-!
# RfidReader.Proofs.Binary32.Value

The number a single precision pattern stands for.

`value` is the exact number of a pattern; an infinity counts as `2 ^ 128`, the
first power of two there is no room for, which keeps the order.  A canonical
number that is packed and unpacked again is the same, or an infinity if its
exponent does not fit (`unpack_pack`).  Comparison is comparison of values
(`cases_of_le`), and `saturate` cuts off the fraction (`exists_saturate`).
-/

namespace RfidReader
namespace Binary32

open Float.Model Float.Model.UnpackedFloat

/-! ## Patterns -/

/-- The number with the given exponent and mantissa fields. -/
def ofFields (s : Sign) (exponent mantissa : ℕ) : UnpackedFloat :=
  if exponent = 255 then
    if mantissa = 0 then .infinity s else .notANumber
  else if exponent = 0 then
    if h : mantissa = 0 then .zero s else .finite s mantissa (-149) (Nat.pos_of_ne_zero h)
  else .finite s (0x800000 + mantissa) (exponent - 150) (by omega)

theorem isNaN_ofFields {s : Sign} {e m : ℕ} (h : (ofFields s e m).isNaN = true) :
    e = 255 ∧ m ≠ 0 := by
  unfold ofFields at h
  split_ifs at h with hlast hzero hfirst hzero
  · cases h
  · exact ⟨hlast, hzero⟩
  all_goals cases h

theorem isFinite_ofFields {s : Sign} {e m : ℕ} (h : (ofFields s e m).isFinite = true) :
    e ≠ 255 := by
  intro hlast
  rw [ofFields, if_pos hlast] at h
  split_ifs at h <;> cases h

section Pattern

variable (b : BitVec Format.binary32.numBits)

theorem toNat_unpackMantissa : (unpackMantissa b).toNat = b.toNat % 0x800000 := by
  simp [unpackMantissa, BitVec.extractLsb, BitVec.extractLsb'_toNat]

theorem toNat_unpackExponent : (unpackExponent b).toNat = (b.toNat >>> 23) % 256 := by
  simp [unpackExponent, BitVec.extractLsb, BitVec.extractLsb'_toNat]

theorem ofBitVec_unpackSign :
    Sign.ofBitVec (unpackSign b) = if b.toNat.testBit 31 then .negative else .positive := by
  have hbit : (unpackSign b).toNat = (b.toNat.testBit 31).toNat := by
    simp [unpackSign, BitVec.extractLsb, BitVec.extractLsb'_toNat, Nat.toNat_testBit,
      Nat.shiftRight_eq_div_pow]
  have hzero : unpackSign b = 0#1 ↔ b.toNat.testBit 31 = false := by
    rw [← BitVec.toNat_inj, hbit]
    cases b.toNat.testBit 31 <;> decide
  simp only [Sign.ofBitVec, hzero]
  cases b.toNat.testBit 31 <;> rfl

theorem unpack_eq_ofFields :
    UnpackedFloat.unpack Format.binary32 b =
      ofFields (Sign.ofBitVec (unpackSign b)) (unpackExponent b).toNat (unpackMantissa b).toNat := by
  have hexponent : unpackExponent b = -1#8 ↔ (unpackExponent b).toNat = 255 := by
    rw [← BitVec.toNat_inj]
    rfl
  have hexponent' : unpackExponent b = 0#8 ↔ (unpackExponent b).toNat = 0 := by
    rw [← BitVec.toNat_inj]
    rfl
  have hmantissa : unpackMantissa b = 0#23 ↔ (unpackMantissa b).toNat = 0 := by
    rw [← BitVec.toNat_inj]
    rfl
  have himplicit : (1#1 ++ unpackMantissa b).toNat = 0x800000 + (unpackMantissa b).toNat := by
    rw [BitVec.toNat_append, ← Nat.shiftLeft_add_eq_or_of_lt (unpackMantissa b).isLt]
    rfl
  have hbias : ((Format.binary32.exponentBias : ℤ) + (23 : ℕ)) = 150 := rfl
  simp only [UnpackedFloat.unpack, ofFields, hexponent, hexponent', hmantissa, himplicit, hbias]
  split_ifs with hlast hzero hfirst hzero <;> first | rfl | simp [hfirst]

theorem unpack_packComponents (s : Sign) (e : BitVec 8) (m : BitVec 23) :
    UnpackedFloat.unpack Format.binary32 (packComponents Format.binary32 s e m) = ofFields s e.toNat m.toNat := by
  rw [unpack_eq_ofFields, unpackSign_packComponents, Sign.ofBitVec_toBitVec,
    unpackExponent_packComponents, unpackMantissa_packComponents]

end Pattern

/-! ## Packing -/

/-- The exponent fits the format. -/
def Fits : UnpackedFloat → Prop
  | .finite _ _ e _ => e ≤ 104
  | _ => True

/-- A finite number whose exponent does not fit becomes an infinity. -/
def limited : UnpackedFloat → UnpackedFloat
  | .finite s m e h => if e ≤ 104 then .finite s m e h else .infinity s
  | u => u

theorem canonical_ofFields (s : Sign) {e m : ℕ} (hm : m < 0x800000) :
    Canonical (ofFields s e m) := by
  unfold ofFields
  split_ifs with hlast hzero hfirst hzero
  · trivial
  · trivial
  · trivial
  · exact ⟨by omega, le_rfl, .inr rfl⟩
  · exact ⟨by omega, by omega, .inl (by omega)⟩

theorem fits_ofFields (s : Sign) {e m : ℕ} (he : e < 256) : Fits (ofFields s e m) := by
  unfold ofFields
  split_ifs with hlast hzero hfirst hzero
  · trivial
  · trivial
  · trivial
  · exact show (-149 : ℤ) ≤ 104 by decide
  · exact show (e : ℤ) - 150 ≤ 104 by omega

theorem canonical_unpack (b : BitVec Format.binary32.numBits) :
    Canonical (UnpackedFloat.unpack Format.binary32 b) := by
  rw [unpack_eq_ofFields]
  exact canonical_ofFields _ (unpackMantissa b).isLt

theorem fits_unpack (b : BitVec Format.binary32.numBits) :
    Fits (UnpackedFloat.unpack Format.binary32 b) := by
  rw [unpack_eq_ofFields]
  exact fits_ofFields _ (unpackExponent b).isLt

/-- Packing loses nothing of a canonical number but an exponent that does not fit. -/
theorem unpack_pack {u : UnpackedFloat} (h : Canonical u) :
    UnpackedFloat.unpack Format.binary32 (UnpackedFloat.pack Format.binary32 u) = limited u := by
  cases u with
  | notANumber => exact unpack_packComponents .positive _ _
  | infinity s => exact unpack_packComponents s _ _
  | zero s => exact unpack_packComponents s _ _
  | finite s m e hpos =>
    obtain ⟨hm, he, hbits⟩ := h
    have hbias : (Format.binary32.exponentBias : ℤ) = 127 := rfl
    have hlog : m.log2 + 1 = Format.binary32.mantissaBits ↔ 2 ^ 23 ≤ m := by
      have hlt := (Nat.log2_lt hpos.ne').2 hm
      have hle := Nat.le_log2 (k := 23) hpos.ne'
      rw [show Format.binary32.mantissaBits = 24 from rfl, ← hle]
      omega
    simp only [UnpackedFloat.pack, limited, hbias, hlog]
    by_cases hfits : e ≤ 104
    · rw [if_neg (show ¬ 2 ^ 8 ≤ (e + 127 + (23 : ℕ)).toNat + 1 by omega), if_pos hfits]
      by_cases hnormal : 2 ^ 23 ≤ m
      · rw [if_pos hnormal, unpack_packComponents, BitVec.toNat_ofNat, BitVec.toNat_ofNat]
        simp only [ofFields]
        rw [if_neg (by omega), if_neg (by omega)]
        congr 1 <;> omega
      · rw [if_neg hnormal, unpack_packComponents, BitVec.toNat_ofNat, BitVec.toNat_ofNat,
          Nat.mod_eq_of_lt (show m < 2 ^ 23 by omega)]
        simp only [ofFields]
        rw [if_neg (by decide), if_pos (by decide), dif_neg hpos.ne']
        congr 1
        omega
    · rw [if_pos (show 2 ^ 8 ≤ (e + 127 + (23 : ℕ)).toNat + 1 by omega), if_neg hfits]
      exact unpack_packComponents s _ _

/-! ## Values -/

/-- The number limited to the first power of two there is no room for. -/
def clamp (q : ℚ) : ℚ := max (-2 ^ 128) (min (2 ^ 128) q)

theorem clamp_mono {q q' : ℚ} (h : q ≤ q') : clamp q ≤ clamp q' :=
  max_le_max le_rfl (min_le_min le_rfl h)

theorem clamp_of_abs_le {q : ℚ} (h : |q| ≤ 2 ^ 128) : clamp q = q := by
  obtain ⟨hlo, hhi⟩ := abs_le.1 h
  rw [clamp, min_eq_right hhi, max_eq_right hlo]

theorem signum_mul_abs (s : Sign) {q : ℚ} (h : 0 ≤ q) : |signum s * q| = q := by
  cases s <;> simp [signum, abs_of_nonneg h]

theorem abs_exact_lt {u : UnpackedFloat} (h : Canonical u) (hfits : Fits u)
    (hfinite : u.isFinite = true) : |exact u| < 2 ^ 128 := by
  cases u with
  | notANumber => cases hfinite
  | infinity => cases hfinite
  | zero => simp [exact]
  | finite s m e hpos =>
    rw [exact, signum_mul_abs s (by positivity)]
    have hm : (m : ℚ) < 2 ^ 24 := by exact_mod_cast h.1
    calc (m : ℚ) * 2 ^ e < 2 ^ 24 * 2 ^ e := by gcongr
      _ ≤ 2 ^ 24 * 2 ^ (104 : ℤ) := by
        gcongr
        · norm_num
        · exact hfits
      _ = 2 ^ 128 := by norm_num

theorem exact_limited {u : UnpackedFloat} (h : Canonical u) :
    exact (limited u) = clamp (exact u) := by
  have hzero : 0 = clamp 0 := (clamp_of_abs_le (by simp)).symm
  cases u with
  | notANumber => exact hzero
  | infinity s => exact (clamp_of_abs_le (signum_mul_abs s (by positivity)).le).symm
  | zero s => exact hzero
  | finite s m e hpos =>
    by_cases hfits : e ≤ 104
    · rw [limited, if_pos hfits]
      exact (clamp_of_abs_le (abs_exact_lt h hfits rfl).le).symm
    · rw [limited, if_neg hfits, exact, exact]
      have hlarge : (2 : ℚ) ^ 128 ≤ m * 2 ^ e := by
        have hm : (2 : ℚ) ^ 23 ≤ m := by exact_mod_cast h.2.2.resolve_right (by omega)
        calc (2 : ℚ) ^ 128 = (2 : ℚ) ^ 23 * (2 : ℚ) ^ (105 : ℤ) := by norm_num
          _ ≤ (m : ℚ) * 2 ^ e := by
            gcongr
            · norm_num
            · omega
      cases s
      · rw [signum, neg_one_mul, neg_one_mul, clamp, max_eq_left]
        exact min_le_of_right_le (by linarith)
      · rw [signum, one_mul, one_mul, clamp, min_eq_left hlarge, max_eq_right]
        norm_num

/-- What is finite is representable. -/
theorem representable_exact {u : UnpackedFloat} (h : Canonical u) (hfinite : u.isFinite = true) :
    Representable (exact u) := by
  cases u with
  | notANumber => cases hfinite
  | infinity => cases hfinite
  | zero => exact nearest_zero.representable
  | finite s m e hpos =>
    have hm : Representable (m * 2 ^ e) :=
      ⟨m, e, by rw [Nat.abs_cast]; exact_mod_cast h.1, h.2.1, by simp⟩
    cases s
    · simpa [exact, signum] using hm.neg
    · simpa [exact, signum] using hm

/-- The exact number of a pattern; an infinity counts as `2 ^ 128` and what is not a number
as 0. -/
def value (x : Float32) : ℚ := exact x.toModel.unpack

section Pattern

variable (x : Float32)

theorem canonical_toModel : Canonical x.toModel.unpack := canonical_unpack _

theorem fits_toModel : Fits x.toModel.unpack := fits_unpack _

end Pattern

theorem abs_value_lt {x : Float32} (h : x.isFinite = true) : |value x| < 2 ^ 128 :=
  abs_exact_lt (canonical_toModel x) (fits_toModel x) h

theorem representable_value {x : Float32} (h : x.isFinite = true) : Representable (value x) :=
  representable_exact (canonical_toModel x) h

/-! ## Order -/

/-- Of two canonical numbers the one with the larger exponent, or with the larger mantissa at the
same exponent, is larger. -/
theorem mantissa_mul_lt {s s' : Sign} {m m' : ℕ} {e e' : ℤ} {h h'}
    (hc : Canonical (.finite s m e h)) (hc' : Canonical (.finite s' m' e' h'))
    (hlt : e < e' ∨ e = e' ∧ m < m') : (m : ℚ) * 2 ^ e < m' * 2 ^ e' := by
  obtain hlt | ⟨rfl, hlt⟩ := hlt
  · have hm : (m : ℚ) < 2 ^ 24 := by exact_mod_cast hc.1
    have hm' : (2 : ℚ) ^ 23 ≤ m' := by
      have := hc.2.1
      exact_mod_cast hc'.2.2.resolve_right (by omega)
    calc (m : ℚ) * 2 ^ e < 2 ^ 24 * 2 ^ e := by gcongr
      _ = 2 ^ 23 * 2 ^ (e + 1) := by rw [zpow_add₀ (by norm_num)]; ring
      _ ≤ m' * 2 ^ e' := by
        gcongr
        · norm_num
        · omega
  · have hm : (m : ℚ) < m' := by exact_mod_cast hlt
    gcongr

theorem lt_or_eq_of_isLE {e e' : ℤ} {m m' : ℕ}
    (h : ((compare e e').then (compare m m')).isLE = true) :
    (e < e' ∨ e = e' ∧ m < m') ∨ e = e' ∧ m = m' := by
  cases he : compare e e' with
  | lt => exact .inl (.inl (compare_lt_iff_lt.1 he))
  | gt => simp [he] at h
  | eq =>
    have heq := compare_eq_iff_eq.1 he
    cases hm : compare m m' with
    | lt => exact .inl (.inr ⟨heq, compare_lt_iff_lt.1 hm⟩)
    | eq => exact .inr ⟨heq, compare_eq_iff_eq.1 hm⟩
    | gt => simp [he, hm] at h

/-- Comparing unpacked numbers compares what they stand for. -/
theorem cases_of_compare {u v : UnpackedFloat} (hu : Canonical u) (hv : Canonical v)
    (hfu : Fits u) (hfv : Fits v) (h : u.le v = true) :
    u.isNaN = false ∧ v.isNaN = false ∧
      (exact u < exact v ∨ u = v ∨ exact u = 0 ∧ exact v = 0) := by
  have hboundu := fun hfinite => abs_lt.1 (abs_exact_lt hu hfu hfinite)
  have hboundv := fun hfinite => abs_lt.1 (abs_exact_lt hv hfv hfinite)
  cases u with
  | notANumber => cases h
  | infinity s =>
    cases v with
    | notANumber => cases s <;> cases h
    | infinity s' =>
      cases s <;> cases s'
      · exact ⟨rfl, rfl, .inr (.inl rfl)⟩
      · exact ⟨rfl, rfl, .inl (by norm_num [exact, signum])⟩
      · cases h
      · exact ⟨rfl, rfl, .inr (.inl rfl)⟩
    | zero s' =>
      cases s
      · exact ⟨rfl, rfl, .inl (by norm_num [exact, signum])⟩
      · cases h
    | finite s' m' e' h' =>
      cases s
      · refine ⟨rfl, rfl, .inl ?_⟩
        have := (hboundv rfl).1
        rwa [exact, signum, neg_one_mul]
      · cases h
  | zero s =>
    cases v with
    | notANumber => cases h
    | infinity s' =>
      cases s'
      · cases h
      · exact ⟨rfl, rfl, .inl (by norm_num [exact, signum])⟩
    | zero s' => exact ⟨rfl, rfl, .inr (.inr ⟨rfl, rfl⟩)⟩
    | finite s' m' e' h' =>
      cases s'
      · cases h
      · exact ⟨rfl, rfl, .inl (by simp only [exact, signum]; positivity)⟩
  | finite s m e hpos =>
    cases v with
    | notANumber => cases s <;> cases h
    | infinity s' =>
      cases s'
      · cases s <;> cases h
      · refine ⟨rfl, rfl, .inl ?_⟩
        have := (hboundu rfl).2
        simpa only [exact, signum, one_mul] using this
    | zero s' =>
      cases s
      · exact ⟨rfl, rfl, .inl (by simp only [exact, signum, neg_one_mul, neg_lt_zero]; positivity)⟩
      · cases h
    | finite s' m' e' h' =>
      cases s <;> cases s'
      · have hle : ((compare e' e).then (compare m' m)).isLE = true := by
          rw [Std.OrientedOrd.eq_swap (a := e'), Std.OrientedOrd.eq_swap (a := m'),
            ← Ordering.swap_then]
          exact h
        obtain hlt | ⟨rfl, rfl⟩ := lt_or_eq_of_isLE hle
        · refine ⟨rfl, rfl, .inl ?_⟩
          simp only [exact, signum, neg_one_mul, neg_lt_neg_iff]
          exact mantissa_mul_lt hv hu hlt
        · exact ⟨rfl, rfl, .inr (.inl rfl)⟩
      · refine ⟨rfl, rfl, .inl ?_⟩
        have hm : (0 : ℚ) < m * 2 ^ e := by positivity
        have hm' : (0 : ℚ) < m' * 2 ^ e' := by positivity
        simp only [exact, signum]
        linarith
      · cases h
      · have hle : ((compare e e').then (compare m m')).isLE = true := h
        obtain hlt | ⟨rfl, rfl⟩ := lt_or_eq_of_isLE hle
        · refine ⟨rfl, rfl, .inl ?_⟩
          simp only [exact, signum, one_mul]
          exact mantissa_mul_lt hu hv hlt
        · exact ⟨rfl, rfl, .inr (.inl rfl)⟩

/-- Of two numbers in order the first is smaller, or they are the same but for the sign of
a zero. -/
theorem cases_of_le {x y : Float32} (h : x ≤ y) :
    x.isNaN = false ∧ y.isNaN = false ∧
      (value x < value y ∨ x.toModel.unpack = y.toModel.unpack ∨ value x = 0 ∧ value y = 0) := by
  refine cases_of_compare (canonical_toModel x) (canonical_toModel y) (fits_toModel x)
    (fits_toModel y) ?_
  have hle : decide (x.toModel.unpack.le y.toModel.unpack = true) = true := h
  rwa [decide_eq_true_eq] at hle

/-! ## Cutting off the fraction -/

/-- The number of a pattern by its fields. -/
theorem unpack_toModel (x : Float32) :
    x.toModel.unpack = ofFields (if x.toBits.toNat.testBit 31 then .negative else .positive)
      ((x.toBits.toNat >>> 23) % 256) (x.toBits.toNat % 0x800000) := by
  rw [Float32.Model.unpack, unpack_eq_ofFields, ofBitVec_unpackSign, toNat_unpackExponent,
    toNat_unpackMantissa]
  rfl

/-- The whole part of a number's size is its size without the fraction. -/
theorem exists_magnitude_eq_floor (s : Sign) {e m : ℕ} (he : e ≠ 255) (hm : m < 0x800000) :
    ∃ size : ℚ, 0 ≤ size ∧ (magnitude e m : ℤ) = ⌊size⌋ ∧
      exact (ofFields s e m) = signum s * size := by
  unfold ofFields
  rw [if_neg he]
  split_ifs with hfirst hzero
  · exact ⟨0, le_rfl, by simp [magnitude, hfirst, hzero], by simp [exact]⟩
  · have hcut : m >>> 150 = 0 := by
      rw [Nat.shiftRight_eq_div_pow]
      exact Nat.div_eq_of_lt (by omega)
    have hsmall : (m : ℚ) * 2 ^ (-149 : ℤ) < 1 := by
      have hm' : (m : ℚ) < 2 ^ 23 := by exact_mod_cast hm
      calc (m : ℚ) * 2 ^ (-149 : ℤ) < 2 ^ 23 * 2 ^ (-149 : ℤ) := by gcongr
        _ ≤ 1 := by norm_num
    refine ⟨_, by positivity, ?_, rfl⟩
    simp only [magnitude, hfirst, if_true, if_neg (show ¬ 150 ≤ 0 by decide), Nat.sub_zero, hcut]
    exact (Int.floor_eq_zero_iff.2 ⟨by positivity, hsmall⟩).symm
  · refine ⟨_, by positivity, ?_, rfl⟩
    simp only [magnitude, if_neg hfirst]
    split_ifs with hlarge
    · rw [Nat.shiftLeft_eq, show (e : ℤ) - 150 = ((e - 150 : ℕ) : ℤ) by omega, zpow_natCast]
      exact_mod_cast (Int.floor_natCast _).symm
    · rw [Nat.shiftRight_eq_div_pow, show (e : ℤ) - 150 = -((150 - e : ℕ) : ℤ) by omega, zpow_neg,
        zpow_natCast, ← div_eq_mul_inv]
      have hdiv := Rat.floor_intCast_div_natCast ((0x800000 + m : ℕ) : ℤ) (2 ^ (150 - e))
      push_cast at hdiv ⊢
      exact hdiv.symm

theorem saturate_of_isNaN {lo hi : ℤ} {x : Float32} (h : x.isNaN = true) :
    saturate lo hi x = 0 := by
  have hnan : x.toModel.unpack.isNaN = true := h
  rw [unpack_toModel] at hnan
  obtain ⟨hlast, hmantissa⟩ := isNaN_ofFields hnan
  simp only [saturate]
  rw [if_pos hlast, if_pos hmantissa]

/-- What `saturate` limits to the range is a finite number without its fraction. -/
theorem exists_saturate {x : Float32} (h : x.isFinite = true) (lo hi : ℤ) :
    ∃ whole : ℤ, saturate lo hi x = max lo (min hi whole) ∧
      (0 ≤ value x → whole = ⌊value x⌋) ∧ (value x ≤ 0 → whole = ⌈value x⌉) := by
  have hfinite : x.toModel.unpack.isFinite = true := h
  rw [unpack_toModel] at hfinite
  obtain ⟨size, hnonneg, hsize, hexact⟩ := exists_magnitude_eq_floor
    (if x.toBits.toNat.testBit 31 then .negative else .positive) (isFinite_ofFields hfinite)
    (Nat.mod_lt x.toBits.toNat (by decide))
  rw [← unpack_toModel] at hexact
  have hvalue : value x = _ := hexact
  simp only [saturate, if_neg (isFinite_ofFields hfinite), hsize]
  refine ⟨_, rfl, ?_⟩
  rw [hvalue]
  split_ifs with hsign
  · simp only [signum, neg_one_mul, Int.ceil_neg, implies_true, and_true]
    intro hle
    rw [show size = 0 by linarith]
    simp
  · simp only [signum, one_mul, implies_true, true_and]
    intro hle
    rw [show size = 0 by linarith]
    simp

end Binary32
end RfidReader
