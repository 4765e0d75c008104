import Mathlib

/-!
# RfidReader.Proofs.Binary32.Rounding

Rounding to single precision, over the rationals.

A number is representable when it has 24 significant bits and nothing below
`2 ^ -149`; how large it is does not matter here.  Every operation rounds its
exact result to a nearest representable number (`Nearest`), which is all that
order arguments need: rounding keeps what is representable, never crosses it,
and is monotone.

The operations carry a mantissa with two more bits for what was cut off.
`Truncated` says which number such a mantissa stands for, and
`nearest_roundWithAccuracy` that rounding it gives a nearest number in canonical
form.
-/

namespace RfidReader
namespace Binary32

open Float.Model Float.Model.UnpackedFloat

/-! ## Nearest representable numbers -/

/-- A number with 24 significant bits and nothing below `2 ^ -149`. -/
def Representable (r : ℚ) : Prop :=
  ∃ m e : ℤ, |m| < 2 ^ 24 ∧ -149 ≤ e ∧ r = m * 2 ^ e

theorem Representable.neg {r : ℚ} (h : Representable r) : Representable (-r) := by
  obtain ⟨m, e, hm, he, rfl⟩ := h
  exact ⟨-m, e, by rwa [abs_neg], he, by push_cast; ring⟩

theorem representable_int {n : ℤ} (h : |n| < 2 ^ 24) : Representable n :=
  ⟨n, 0, h, by decide, by simp⟩

/-- Nothing representable is closer to `q` than `v`, which is. -/
structure Nearest (q v : ℚ) : Prop where
  representable : Representable v
  abs_sub_le : ∀ r, Representable r → |q - v| ≤ |q - r|

namespace Nearest

variable {q v q' v' r : ℚ}

theorem neg (h : Nearest q v) : Nearest (-q) (-v) where
  representable := h.representable.neg
  abs_sub_le r hr := by
    have hmirror := h.abs_sub_le (-r) hr.neg
    rwa [show -q - -v = -(q - v) by ring, show -q - r = -(q - -r) by ring, abs_neg, abs_neg]

/-- What is representable stays. -/
theorem of_representable (hq : Representable q) : Nearest q q where
  representable := hq
  abs_sub_le r _ := by
    rw [sub_self, abs_zero]
    exact abs_nonneg _

/-- Rounding does not go past a representable number. -/
theorem le_of_le (h : Nearest q v) (hr : Representable r) (hle : q ≤ r) : v ≤ r := by
  by_contra! hlt
  have hclose := h.abs_sub_le r hr
  rw [abs_of_nonpos (by linarith), abs_of_nonpos (by linarith)] at hclose
  linarith

theorem ge_of_ge (h : Nearest q v) (hr : Representable r) (hle : r ≤ q) : r ≤ v := by
  linarith [h.neg.le_of_le hr.neg (neg_le_neg hle)]

/-- Rounding keeps the order of different numbers: otherwise each would be at least as close to
the other's result, past the middle of the two. -/
theorem le_of_lt (h : Nearest q v) (h' : Nearest q' v') (hlt : q < q') : v ≤ v' := by
  by_contra! hgt
  have hclose := h.abs_sub_le v' h'.representable
  have hclose' := h'.abs_sub_le v h.representable
  rw [← sq_le_sq] at hclose hclose'
  nlinarith [mul_pos (sub_pos.2 hlt) (sub_pos.2 hgt)]

end Nearest

theorem nearest_zero : Nearest 0 0 :=
  .of_representable (by simpa using representable_int (n := 0) (by decide))

/-! ## Rounding on a grid -/

/-- A multiple of `2 ^ g` that is within half a step of `q` is at least as close as any other. -/
theorem abs_sub_le_of_multiple {q : ℚ} {g n k : ℤ} (h : |q - n * 2 ^ g| ≤ 2 ^ g / 2) :
    |q - n * 2 ^ g| ≤ |q - k * 2 ^ g| := by
  obtain rfl | hne := eq_or_ne n k
  · rfl
  have hstep : (2 : ℚ) ^ g ≤ |((n - k : ℤ) : ℚ) * 2 ^ g| := by
    rw [abs_mul, abs_of_pos (show (0 : ℚ) < 2 ^ g by positivity)]
    have hone : (1 : ℚ) ≤ |((n - k : ℤ) : ℚ)| := by
      exact_mod_cast Int.one_le_abs (sub_ne_zero.2 hne)
    exact le_mul_of_one_le_left (by positivity) hone
  have htriangle : |((n - k : ℤ) : ℚ) * 2 ^ g| ≤ |q - k * 2 ^ g| + |q - n * 2 ^ g| := by
    rw [show ((n - k : ℤ) : ℚ) * 2 ^ g = (q - k * 2 ^ g) - (q - n * 2 ^ g) by push_cast; ring]
    exact abs_sub _ _
  linarith

/-- What is representable and no finer than the grid lies on it. -/
theorem exists_multiple {m e g : ℤ} (h : g ≤ e) : ∃ k : ℤ, (m : ℚ) * 2 ^ e = k * 2 ^ g := by
  refine ⟨m * 2 ^ (e - g).toNat, ?_⟩
  push_cast
  rw [mul_assoc, ← zpow_natCast, ← zpow_add₀ (by norm_num), Int.toNat_of_nonneg (by omega),
    sub_add_cancel]

/-- The nearest point of a grid is a nearest representable number, if the grid is the finest there
is or `q` is so large that finer ones end below it. -/
theorem nearest_of_grid {q : ℚ} {g : ℤ} {n : ℕ} (hg : -149 ≤ g)
    (hq : g = -149 ∨ 2 ^ (g + 23) ≤ q) (hn : n ≤ 2 ^ 24)
    (h : |q - n * 2 ^ g| ≤ 2 ^ g / 2) : Nearest q (n * 2 ^ g) where
  representable := by
    obtain hlt | rfl := Nat.lt_or_eq_of_le hn
    · exact ⟨n, g, by rw [Nat.abs_cast]; exact_mod_cast hlt, hg, by simp⟩
    · exact ⟨2 ^ 23, g + 1, by decide, by omega, by rw [zpow_add₀ (by norm_num)]; push_cast; ring⟩
  abs_sub_le := by
    rintro r ⟨m, e, hm, he, rfl⟩
    have hgrid := fun k => abs_sub_le_of_multiple (n := n) (k := k) (by simpa using h)
    simp only [Int.cast_natCast] at hgrid
    by_cases hge : g ≤ e
    · obtain ⟨k, hk⟩ := exists_multiple (m := m) hge
      rw [hk]
      exact hgrid k
    -- A finer number is below the point `2 ^ (g + 23)` of the grid, which is not above `q`.
    · have hlow : (2 : ℚ) ^ (g + 23) ≤ q := hq.resolve_left (by omega)
      have hbelow : (m : ℚ) * 2 ^ e ≤ 2 ^ (g + 23) := by
        have hm' : (m : ℚ) ≤ 2 ^ 24 := by exact_mod_cast (le_abs_self m).trans hm.le
        calc (m : ℚ) * 2 ^ e ≤ 2 ^ (24 : ℤ) * 2 ^ e := by gcongr; exact_mod_cast hm'
          _ = 2 ^ (24 + e) := (zpow_add₀ (by norm_num) _ _).symm
          _ ≤ 2 ^ (g + 23) := zpow_le_zpow_right₀ (by norm_num) (by omega)
      have hpoint := hgrid (2 ^ 23)
      rw [show ((2 ^ 23 : ℤ) : ℚ) * 2 ^ g = 2 ^ (g + 23) by
        rw [zpow_add₀ (by norm_num)]; push_cast; ring] at hpoint
      refine hpoint.trans ?_
      rw [abs_of_nonneg (by linarith), abs_of_nonneg (by linarith)]
      linarith

/-! ## Mantissas that were cut off -/

/-- A mantissa is what is left of `x`, with what the two residual bits say about the rest. -/
def Truncated (em : ExtendedMantissa) (x : ℚ) : Prop :=
  match em.roundBit, em.stickyBit with
  | false, false => x = em.mantissa
  | false, true => em.mantissa < x ∧ x < em.mantissa + 1 / 2
  | true, false => x = em.mantissa + 1 / 2
  | true, true => em.mantissa + 1 / 2 < x ∧ x < em.mantissa + 1

namespace Truncated

variable {em : ExtendedMantissa} {x : ℚ}

theorem exact (m : ℕ) : Truncated (.ofMantissaAndAccuracy m .exact) m := rfl

theorem mantissa_le (h : Truncated em x) : (em.mantissa : ℚ) ≤ x := by
  obtain ⟨m, round, sticky⟩ := em
  cases round <;> cases sticky <;> simp only [Truncated] at h ⊢ <;> linarith

theorem lt_mantissa_add_one (h : Truncated em x) : x < em.mantissa + 1 := by
  obtain ⟨m, round, sticky⟩ := em
  cases round <;> cases sticky <;> simp only [Truncated] at h ⊢ <;> linarith

theorem abs_sub_roundedMantissa_le (h : Truncated em x) : |x - em.roundedMantissa| ≤ 1 / 2 := by
  obtain ⟨m, round, sticky⟩ := em
  rw [abs_le]
  cases round <;> cases sticky <;>
    simp only [Truncated, ExtendedMantissa.roundedMantissa, ExtendedMantissa.accuracy,
      Accuracy.roundToNearestEven] at h ⊢ <;> push_cast
  · constructor <;> linarith
  · constructor <;> linarith
  · obtain heven | hodd := Nat.mod_two_eq_zero_or_one m
    · rw [heven]
      push_cast
      constructor <;> linarith
    · rw [hodd]
      push_cast
      constructor <;> linarith
  · constructor <;> linarith

theorem shiftRightOne (h : Truncated em x) : Truncated em.shiftRightOne (x / 2) := by
  obtain ⟨m, round, sticky⟩ := em
  have hm : (m : ℚ) = 2 * (m / 2 : ℕ) + (m % 2 : ℕ) := by exact_mod_cast (Nat.div_add_mod m 2).symm
  obtain heven | hodd := Nat.mod_two_eq_zero_or_one m
  · rw [heven, Nat.cast_zero] at hm
    cases round <;> cases sticky <;>
      simp only [Truncated, ExtendedMantissa.shiftRightOne, heven, bne_self_eq_false, Bool.or_false,
        Bool.or_true, Bool.or_self] at h ⊢ <;>
      first | linarith | constructor <;> linarith
  · rw [hodd, Nat.cast_one] at hm
    cases round <;> cases sticky <;>
      simp only [Truncated, ExtendedMantissa.shiftRightOne, hodd,
        show (1 != 0) = true from rfl, Bool.or_false, Bool.or_true, Bool.or_self] at h ⊢ <;>
      first | linarith | constructor <;> linarith

theorem shiftRight (h : Truncated em x) (n : ℕ) : Truncated (em >>> n) (x / 2 ^ n) := by
  change Truncated (n.repeat ExtendedMantissa.shiftRightOne em) _
  induction n with
  | zero => simpa [Nat.repeat] using h
  | succ n ih =>
    rw [pow_succ, ← div_div]
    exact ih.shiftRightOne

end Truncated

/-! ## Unpacked numbers -/

/-- A sign as a factor. -/
def signum : Sign → ℚ
  | .negative => -1
  | .positive => 1

/-- The number that is meant.  An infinity counts as the first power of two there is no room for,
and what is not a number as 0. -/
def exact : UnpackedFloat → ℚ
  | .infinity s => signum s * 2 ^ 128
  | .notANumber => 0
  | .zero _ => 0
  | .finite s m e _ => signum s * (m * 2 ^ e)

/-- Every bit of the mantissa is used, unless the exponent is the smallest one. -/
def Canonical : UnpackedFloat → Prop
  | .finite _ m e _ => m < 2 ^ 24 ∧ -149 ≤ e ∧ (2 ^ 23 ≤ m ∨ e = -149)
  | _ => True

/-- A finite number in canonical form that is nearest to `q`. -/
structure Rounded (q : ℚ) (u : UnpackedFloat) : Prop where
  canonical : Canonical u
  isFinite : u.isFinite = true
  nearest : Nearest q (exact u)

theorem targetExponent_totalExponent (m : ℕ) (e : ℤ) :
    Format.binary32.targetExponent (totalExponent m e) = max (m.log2 + e - 23) (-149) := by
  simp only [Format.targetExponent, totalExponent, Format.mantissaBits, Format.minExponent]
  omega

theorem shiftToTargetExponent_eq (m : ℕ) (e : ℤ) (acc : Accuracy) :
    shiftToTargetExponent Format.binary32 m e acc =
      (ExtendedMantissa.ofMantissaAndAccuracy m acc >>> (max (m.log2 + e - 23) (-149) - e).toNat,
        e + (max (m.log2 + e - 23) (-149) - e).toNat) := by
  simp only [shiftToTargetExponent, shiftToExponent, targetExponent_totalExponent]

/-- The shift to the target exponent cuts off what the format has no room for. -/
theorem exists_shiftToTargetExponent {m : ℕ} {e : ℤ} {acc : Accuracy} {x : ℚ}
    (h : Truncated (.ofMantissaAndAccuracy m acc) x)
    (he : e ≤ Format.binary32.targetExponent (totalExponent m e)) :
    ∃ em g, shiftToTargetExponent Format.binary32 m e acc = (em, g) ∧
      g = max (m.log2 + e - 23) (-149) ∧ Truncated em (x * 2 ^ e / 2 ^ g) := by
  rw [targetExponent_totalExponent] at he
  obtain ⟨n, hn⟩ := Int.le.dest he
  have hshift : (max ((m.log2 : ℤ) + e - 23) (-149) - e).toNat = n := by omega
  refine ⟨_, _, shiftToTargetExponent_eq m e acc, ?_, ?_⟩
  · rw [hshift, hn]
  · rw [hshift, zpow_add₀ (by norm_num), mul_comm x, mul_div_mul_left _ _ (by positivity),
      zpow_natCast]
    exact h.shiftRight n

/-- A rounded mantissa takes at most one more bit, and giving it up loses nothing. -/
theorem shiftToTargetExponent_exact {n : ℕ} {g : ℤ} (hn : n ≤ 2 ^ 24) (hg : -149 ≤ g) :
    shiftToTargetExponent Format.binary32 n g .exact =
      if n = 2 ^ 24 then (⟨2 ^ 23, false, false⟩, g + 1) else (⟨n, false, false⟩, g) := by
  rw [shiftToTargetExponent_eq]
  split
  case isTrue h =>
    have hshift : (max (((2 ^ 24).log2 : ℤ) + g - 23) (-149) - g).toNat = 1 := by
      rw [Nat.log2_two_pow]
      omega
    rw [h, hshift]
    rfl
  case isFalse h =>
    have hlog : n.log2 < 24 := by
      obtain rfl | hpos := Nat.eq_zero_or_pos n
      · decide
      · exact (Nat.log2_lt hpos.ne').2 (by omega)
    have hshift : (max ((n.log2 : ℤ) + g - 23) (-149) - g).toNat = 0 := by omega
    rw [hshift]
    simp only [Nat.cast_zero, add_zero]
    rfl

theorem mantissa_ofMantissaAndAccuracy (m : ℕ) (acc : Accuracy) :
    (ExtendedMantissa.ofMantissaAndAccuracy m acc).mantissa = m := by
  cases acc with
  | exact => rfl
  | inexact side => cases side <;> rfl

/-- At the target exponent a number has at most 24 bits. -/
theorem scaled_lt {m : ℕ} {e g : ℤ} {x : ℚ} (hx : x < m + 1) (hg : m.log2 + e - 23 ≤ g) :
    x * 2 ^ e / 2 ^ g < 2 ^ 24 := by
  have hx' : x < 2 ^ (m.log2 + 1) := by
    have hm : (m + 1 : ℚ) ≤ 2 ^ (m.log2 + 1) := by exact_mod_cast Nat.lt_log2_self
    linarith
  calc x * 2 ^ e / 2 ^ g < 2 ^ (m.log2 + 1) * 2 ^ e / 2 ^ g := by gcongr
    _ = 2 ^ ((m.log2 + 1 : ℕ) + e - g) := by
      rw [← zpow_natCast, ← zpow_add₀ (by norm_num), ← zpow_sub₀ (by norm_num)]
    _ ≤ 2 ^ (24 : ℤ) := zpow_le_zpow_right₀ (by norm_num) (by push_cast; omega)
    _ = 2 ^ 24 := by norm_num

/-- At a target exponent above the smallest one a number has 24 bits. -/
theorem le_scaled {m : ℕ} {e g : ℤ} {x : ℚ} (hm : m ≠ 0) (hx : m ≤ x)
    (hg : g = m.log2 + e - 23) : 2 ^ 23 ≤ x * 2 ^ e / 2 ^ g := by
  have hx' : 2 ^ m.log2 ≤ x := by
    have hm' : (2 ^ m.log2 : ℚ) ≤ m := by exact_mod_cast Nat.log2_self_le hm
    linarith
  calc (2 : ℚ) ^ 23 = 2 ^ (23 : ℤ) := by norm_num
    _ = 2 ^ ((m.log2 : ℤ) + e - g) := by rw [hg]; congr 1; ring
    _ = 2 ^ m.log2 * 2 ^ e / 2 ^ g := by
      rw [zpow_sub₀ (by norm_num), zpow_add₀ (by norm_num), zpow_natCast]
    _ ≤ x * 2 ^ e / 2 ^ g := by gcongr

/-- What a mantissa at the target exponent is rounded to, if it has as many bits as it should. -/
theorem roundWithAccuracy_eq (s : Sign) {m : ℕ} {e g : ℤ} {acc : Accuracy} {em : ExtendedMantissa}
    (h : shiftToTargetExponent Format.binary32 m e acc = (em, g)) (hg : -149 ≤ g)
    (hem : em.roundedMantissa ≤ 2 ^ 24)
    (hbits : g = -149 ∨ 2 ^ 23 ≤ em.roundedMantissa) :
    let u := roundWithAccuracy Format.binary32 s m e acc
    Canonical u ∧ u.isFinite = true ∧ exact u = signum s * (em.roundedMantissa * 2 ^ g) := by
  simp only [roundWithAccuracy, h, shiftToTargetExponent_exact hem hg]
  by_cases hcarry : em.roundedMantissa = 2 ^ 24
  · simp only [hcarry, if_true, dif_neg (show (2 : ℕ) ^ 23 ≠ 0 by decide)]
    refine ⟨⟨by decide, by omega, .inl le_rfl⟩, rfl, ?_⟩
    rw [exact, zpow_add₀ (by norm_num)]
    push_cast
    ring
  · simp only [if_neg hcarry]
    by_cases hzero : em.roundedMantissa = 0
    · simp only [hzero, dif_pos]
      exact ⟨trivial, rfl, by simp [exact]⟩
    · simp only [dif_neg hzero]
      exact ⟨⟨by omega, hg, hbits.symm⟩, rfl, rfl⟩

/-- Rounding a mantissa that was cut off, with no bits missing in front. -/
theorem rounded_roundWithAccuracy (s : Sign) {m : ℕ} {e : ℤ} {acc : Accuracy} {x : ℚ}
    (h : Truncated (.ofMantissaAndAccuracy m acc) x)
    (he : e ≤ Format.binary32.targetExponent (totalExponent m e)) :
    Rounded (signum s * (x * 2 ^ e)) (roundWithAccuracy Format.binary32 s m e acc) := by
  obtain ⟨em, g, hshift, hg, hem⟩ := exists_shiftToTargetExponent h he
  rw [targetExponent_totalExponent] at he
  have hle := h.mantissa_le
  have hlt := h.lt_mantissa_add_one
  rw [mantissa_ofMantissaAndAccuracy] at hle hlt
  have hhalf := hem.abs_sub_roundedMantissa_le
  have hupper := scaled_lt (e := e) (g := g) hlt (by omega)
  have hlower : g = -149 ∨ 2 ^ 23 ≤ x * 2 ^ e / 2 ^ g := by
    by_cases hsmall : g = -149
    · exact .inl hsmall
    · refine .inr (le_scaled ?_ hle (by omega))
      rintro rfl
      rw [Nat.log2_zero] at hg he
      omega
  have habs := abs_le.1 hhalf
  have hround : em.roundedMantissa ≤ 2 ^ 24 := by
    have : (em.roundedMantissa : ℚ) < (2 ^ 24 + 1 : ℕ) := by push_cast; linarith
    exact Nat.le_of_lt_succ (by exact_mod_cast this)
  have hbits : g = -149 ∨ 2 ^ 23 ≤ em.roundedMantissa := by
    refine hlower.imp_right fun hlarge => ?_
    have : ((2 ^ 23 : ℕ) : ℚ) < (em.roundedMantissa + 1 : ℕ) := by push_cast; linarith
    exact Nat.le_of_lt_succ (by exact_mod_cast this)
  obtain ⟨hcanonical, hfinite, hexact⟩ := roundWithAccuracy_eq s hshift (by omega) hround hbits
  refine ⟨hcanonical, hfinite, ?_⟩
  have hnearest : Nearest (x * 2 ^ e) (em.roundedMantissa * 2 ^ g) := by
    have hscale : x * 2 ^ e = x * 2 ^ e / 2 ^ g * 2 ^ g := by
      rw [div_mul_cancel₀ _ (by positivity)]
    refine nearest_of_grid (by omega) ?_ hround ?_
    · refine hlower.imp_right fun hlarge => ?_
      rw [zpow_add₀ (by norm_num), hscale, mul_comm]
      gcongr
      exact_mod_cast hlarge
    · rw [hscale, ← sub_mul, abs_mul, abs_of_pos (show (0 : ℚ) < 2 ^ g by positivity)]
      linarith [mul_le_mul_of_nonneg_right hhalf (show (0 : ℚ) ≤ 2 ^ g by positivity)]
  rw [hexact]
  cases s
  · simpa [signum] using hnearest.neg
  · simpa [signum] using hnearest

theorem exact_decreaseExponent (m : ℕ) (e t : ℤ) :
    ((decreaseExponent m e t).1 : ℚ) * 2 ^ (decreaseExponent m e t).2 = m * 2 ^ e := by
  simp only [decreaseExponent, Nat.shiftLeft_eq]
  push_cast
  rw [mul_assoc, ← zpow_natCast, ← zpow_add₀ (by norm_num), add_sub_cancel]

theorem le_log2_mul_two_pow {m : ℕ} (hm : m ≠ 0) (k : ℕ) : m.log2 + k ≤ (m * 2 ^ k).log2 := by
  rw [Nat.le_log2 (by positivity), Nat.pow_add]
  exact Nat.mul_le_mul_right _ (Nat.log2_self_le hm)

/-- Rounding a number with any mantissa. -/
theorem rounded_round (s : Sign) {m : ℕ} (hm : m ≠ 0) (e : ℤ) :
    Rounded (signum s * (m * 2 ^ e)) (UnpackedFloat.round Format.binary32 s m e) := by
  simp only [UnpackedFloat.round, targetExponent_totalExponent]
  rw [← exact_decreaseExponent m e (max (m.log2 + e - 23) (-149))]
  apply rounded_roundWithAccuracy s (.exact _)
  simp only [targetExponent_totalExponent, decreaseExponent, Nat.shiftLeft_eq]
  have hbits := le_log2_mul_two_pow hm (e - max (m.log2 + e - 23) (-149)).toNat
  omega

/-- Rounding a number with a signed mantissa. -/
theorem rounded_normalize (n e : ℤ) (s : Sign) :
    Rounded (n * 2 ^ e) (UnpackedFloat.normalize Format.binary32 n e s) := by
  rw [UnpackedFloat.normalize]
  split
  case h_1 h =>
    have hneg : n < 0 := compare_lt_iff_lt.1 h
    have hround := rounded_round .negative (m := (-n).toNat) (by omega) e
    rwa [show signum .negative * (((-n).toNat : ℕ) * (2 : ℚ) ^ e) = n * 2 ^ e by
      rw [← Int.cast_natCast, Int.toNat_of_nonneg (by omega), signum]
      push_cast
      ring] at hround
  case h_2 h =>
    rw [compare_eq_iff_eq.1 h, Int.cast_zero, zero_mul]
    exact ⟨trivial, rfl, nearest_zero⟩
  case h_3 h =>
    have hpos : 0 < n := compare_gt_iff_gt.1 h
    have hround := rounded_round .positive (m := n.toNat) (by omega) e
    rwa [show signum .positive * ((n.toNat : ℕ) * (2 : ℚ) ^ e) = n * 2 ^ e by
      rw [← Int.cast_natCast, Int.toNat_of_nonneg (by omega), signum, one_mul]] at hround

end Binary32
end RfidReader
