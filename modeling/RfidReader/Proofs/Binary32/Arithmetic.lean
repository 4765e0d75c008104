import RfidReader.Proofs.Binary32.Value

/-!
# RfidReader.Proofs.Binary32.Arithmetic

What the operations on single precision numbers give.

Differences, products and quotients of finite numbers are the exact results,
rounded to a nearest number and limited where there is no room (`RoundedTo`).
An integer of 24 bits is met exactly.

The main statement is about the line between two points, which power tables
are read by: where the interpolated position is between the two ends, the step
along the line is between zero and the whole step, whatever was rounded on the
way (`saturate_step`).
-/

namespace RfidReader
namespace Binary32

open Float.Model Float.Model.UnpackedFloat

/-! ## Operations on unpacked numbers -/

section Unpacked

variable {u v : UnpackedFloat}

theorem rounded_self (h : Canonical u) (hfinite : u.isFinite = true) : Rounded (exact u) u where
  canonical := h
  isFinite := hfinite
  nearest := .of_representable (representable_exact h hfinite)

theorem rounded_zero (s : Sign) : Rounded 0 (.zero s) := ⟨trivial, rfl, nearest_zero⟩

theorem signum_neg (s : Sign) : signum (-s) = -signum s := by
  cases s <;> norm_num [signum]

theorem signum_mul (s s' : Sign) : signum (s * s') = signum s * signum s' := by
  cases s <;> cases s' <;> norm_num [signum]

theorem signum_div (s s' : Sign) : signum (s / s') = signum s / signum s' := by
  rw [show s / s' = s * s' by cases s <;> cases s' <;> rfl]
  cases s <;> cases s' <;> norm_num [signum]

theorem cast_apply (s : Sign) (n : ℤ) : (s.apply n : ℚ) = signum s * n := by
  cases s <;> simp [Sign.apply, signum]

/-- Lowering an exponent changes the mantissa, not the number. -/
theorem decreaseExponent_mul {m : ℕ} {e t : ℤ} (h : t ≤ e) :
    ((decreaseExponent m e t).1 : ℚ) * 2 ^ t = m * 2 ^ e := by
  rw [← exact_decreaseExponent m e t]
  congr 2
  simp only [decreaseExponent]
  omega

theorem rounded_neg (hu : Canonical u) (hfu : u.isFinite = true) :
    Rounded (-exact u) (neg u) := by
  cases u with
  | notANumber => cases hfu
  | infinity => cases hfu
  | zero s =>
    rw [exact, neg_zero]
    exact rounded_zero _
  | finite s m e h =>
    have hneg : Rounded (exact (.finite (-s) m e h)) (.finite (-s) m e h) := rounded_self hu rfl
    rw [exact, signum_neg, neg_mul] at hneg
    exact hneg

theorem rounded_sub (hu : Canonical u) (hv : Canonical v) (hfu : u.isFinite = true)
    (hfv : v.isFinite = true) : Rounded (exact u - exact v) (sub Format.binary32 u v) := by
  cases u with
  | notANumber => cases hfu
  | infinity => cases hfu
  | zero s =>
    cases v with
    | notANumber => cases hfv
    | infinity => cases hfv
    | zero s' =>
      rw [exact, exact, sub_zero]
      simp only [UnpackedFloat.sub]
      split <;> exact rounded_zero _
    | finite s' m' e' h' =>
      rw [show exact (.zero s) = 0 from rfl, zero_sub]
      exact rounded_neg hv rfl
  | finite s m e h =>
    cases v with
    | notANumber => cases hfv
    | infinity => cases hfv
    | zero s' =>
      rw [show exact (.zero s') = 0 from rfl, sub_zero]
      exact rounded_self hu rfl
    | finite s' m' e' h' =>
      have hround := rounded_normalize
        (s.apply (decreaseExponent m e (min e e')).1 -
          s'.apply (decreaseExponent m' e' (min e e')).1) (min e e') .positive
      rw [Int.cast_sub, cast_apply, cast_apply, Int.cast_natCast, Int.cast_natCast, sub_mul,
        mul_assoc, mul_assoc, decreaseExponent_mul (min_le_left _ _),
        decreaseExponent_mul (min_le_right _ _)] at hround
      exact hround

/-- A product has enough bits, or is beyond the smallest exponent. -/
theorem mul_exponent_le {s s' : Sign} {m m' : ℕ} {e e' : ℤ} {h : 0 < m} {h' : 0 < m'}
    (hu : Canonical (.finite s m e h)) (hv : Canonical (.finite s' m' e' h')) :
    e + e' ≤ Format.binary32.targetExponent (totalExponent (m * m') (e + e')) := by
  rw [targetExponent_totalExponent]
  by_cases hbits : 2 ^ 23 ≤ m * m'
  · have hlog := (Nat.le_log2 (Nat.mul_pos h h').ne').2 hbits
    omega
  · have hle : m ≤ m * m' := Nat.le_mul_of_pos_right m h'
    have hle' : m' ≤ m * m' := Nat.le_mul_of_pos_left m' h
    have hexp := hu.2.2.resolve_left (by omega)
    have hexp' := hv.2.2.resolve_left (by omega)
    omega

theorem rounded_mul (hu : Canonical u) (hv : Canonical v) (hfu : u.isFinite = true)
    (hfv : v.isFinite = true) : Rounded (exact u * exact v) (mul Format.binary32 u v) := by
  cases u with
  | notANumber => cases hfu
  | infinity => cases hfu
  | zero s =>
    rw [show exact (.zero s) = 0 from rfl, zero_mul]
    cases v with
    | notANumber => cases hfv
    | infinity => cases hfv
    | zero s' => exact rounded_zero _
    | finite s' m' e' h' => exact rounded_zero _
  | finite s m e h =>
    cases v with
    | notANumber => cases hfv
    | infinity => cases hfv
    | zero s' =>
      rw [show exact (.zero s') = 0 from rfl, mul_zero]
      exact rounded_zero _
    | finite s' m' e' h' =>
      have hround := rounded_roundWithAccuracy (s * s') (.exact (m * m')) (mul_exponent_le hu hv)
      have hexact : exact (.finite s m e h) * exact (.finite s' m' e' h') =
          signum (s * s') * ((m * m' : ℕ) * 2 ^ (e + e')) := by
        rw [exact, exact, signum_mul, zpow_add₀ (by norm_num), Nat.cast_mul]
        ring
      rw [hexact]
      exact hround

/-- The integer quotient with the accuracy of the remainder stands for the quotient. -/
theorem truncated_div (m : ℕ) {n : ℕ} (hn : 0 < n) :
    Truncated (.ofMantissaAndAccuracy (m / n) (accuracyOfFraction (m % n) n)) ((m : ℚ) / n) := by
  have hn' : (0 : ℚ) < n := by exact_mod_cast hn
  have hquotient : (m : ℚ) / n = (m / n : ℕ) + (m % n : ℕ) / n := by
    rw [add_div_eq_mul_add_div _ _ hn'.ne', div_left_inj' hn'.ne']
    exact_mod_cast (Nat.div_add_mod' m n).symm
  have hlt : ((m % n : ℕ) : ℚ) / n < 1 := by
    rw [div_lt_one hn']
    exact_mod_cast Nat.mod_lt m hn
  rw [hquotient]
  unfold accuracyOfFraction
  split
  case isTrue hexact =>
    rw [hexact, Nat.cast_zero, zero_div, add_zero]
    exact .exact _
  case isFalse hrest =>
    have hpos : (0 : ℚ) < (m % n : ℕ) / n := by
      have : (0 : ℚ) < (m % n : ℕ) := by exact_mod_cast Nat.pos_of_ne_zero hrest
      positivity
    cases hhalf : compare (2 * (m % n)) n with
    | lt =>
      have hlt : ((m % n : ℕ) : ℚ) / n < 1 / 2 := by
        have : (2 * (m % n : ℕ) : ℚ) < n := by exact_mod_cast compare_lt_iff_lt.1 hhalf
        rw [div_lt_iff₀ hn']
        linarith
      change ((m / n : ℕ) : ℚ) < _ ∧ _ < ((m / n : ℕ) : ℚ) + 1 / 2
      exact ⟨by linarith, by linarith⟩
    | eq =>
      have heq : ((m % n : ℕ) : ℚ) / n = 1 / 2 := by
        have : (2 * (m % n : ℕ) : ℚ) = n := by exact_mod_cast compare_eq_iff_eq.1 hhalf
        rw [div_eq_iff hn'.ne']
        linarith
      exact congrArg _ heq
    | gt =>
      have hgt : 1 / 2 < ((m % n : ℕ) : ℚ) / n := by
        have : (n : ℚ) < (2 * (m % n : ℕ) : ℚ) := by exact_mod_cast compare_gt_iff_gt.1 hhalf
        rw [lt_div_iff₀ hn']
        linarith
      change ((m / n : ℕ) : ℚ) + 1 / 2 < _ ∧ _ < ((m / n : ℕ) : ℚ) + 1
      exact ⟨by linarith, by linarith⟩

/-- A quotient is computed to enough bits, or to the smallest exponent. -/
theorem div_exponent_le {m m' : ℕ} (h : 0 < m) (h' : 0 < m') (e e' : ℤ) :
    (divCore Format.binary32 m e m' e').2.1 ≤ Format.binary32.targetExponent
      (totalExponent (divCore Format.binary32 m e m' e').1
        (divCore Format.binary32 m e m' e').2.1) := by
  rw [targetExponent_totalExponent]
  simp only [divCore, Format.targetExponent, totalExponent, Format.mantissaBits, Format.minExponent]
  generalize htarget : min (e - e') (max ((m.log2 + 1 + e : ℤ) - (m'.log2 + 1 + e') - (1 + 23 : ℕ))
    (3 - 2 ^ (8 - 1) - (1 + 23 : ℕ))) = target
  obtain hsmall | hbits : target ≤ -149 ∨ (24 : ℤ) + m'.log2 - m.log2 ≤ e - e' - target := by
    omega
  · omega
  · have hlog : 23 ≤ ((m <<< (e - e' - target).toNat) / m').log2 := by
      have hle : 2 ^ 23 ≤ (m <<< (e - e' - target).toNat) / m' := by
        rw [Nat.le_div_iff_mul_le h', Nat.shiftLeft_eq]
        calc 2 ^ 23 * m' ≤ 2 ^ 23 * 2 ^ (m'.log2 + 1) := by
              gcongr
              exact Nat.lt_log2_self.le
          _ = 2 ^ (24 + m'.log2) := by rw [← Nat.pow_add]; congr 1; omega
          _ ≤ 2 ^ (m.log2 + (e - e' - target).toNat) := Nat.pow_le_pow_right (by decide) (by omega)
          _ = 2 ^ m.log2 * 2 ^ (e - e' - target).toNat := Nat.pow_add _ _ _
          _ ≤ m * 2 ^ (e - e' - target).toNat := Nat.mul_le_mul_right _ (Nat.log2_self_le h.ne')
      exact (Nat.le_log2 (by omega)).2 hle
    omega

theorem rounded_div (hu : Canonical u) (hv : Canonical v) (hfu : u.isFinite = true)
    (hfv : v.isFinite = true) (hne : exact v ≠ 0) :
    Rounded (exact u / exact v) (div Format.binary32 u v) := by
  cases v with
  | notANumber => cases hfv
  | infinity => cases hfv
  | zero s' => exact absurd rfl hne
  | finite s' m' e' h' =>
    cases u with
    | notANumber => cases hfu
    | infinity => cases hfu
    | zero s =>
      rw [show exact (.zero s) = 0 from rfl, zero_div]
      exact rounded_zero _
    | finite s m e h =>
      have hround := rounded_roundWithAccuracy (s / s')
        (truncated_div (m <<< (e - e' - (divCore Format.binary32 m e m' e').2.1).toNat) h')
        (div_exponent_le h h' e e')
      have hexact : exact (.finite s m e h) / exact (.finite s' m' e' h') =
          signum (s / s') *
            (((m <<< (e - e' - (divCore Format.binary32 m e m' e').2.1).toNat : ℕ) : ℚ) / m' *
              2 ^ (divCore Format.binary32 m e m' e').2.1) := by
        have hshift := decreaseExponent_mul (m := m)
          (show (divCore Format.binary32 m e m' e').2.1 ≤ e - e' from min_le_left _ _)
        simp only [decreaseExponent] at hshift
        rw [div_mul_eq_mul_div, hshift, exact, exact, signum_div, zpow_sub₀ (by norm_num)]
        ring
      rw [hexact]
      exact hround

end Unpacked

/-! ## Operations -/

/-- A nearest number to `q`, limited where there is no room. -/
def RoundedTo (q : ℚ) (x : Float32) : Prop :=
  ∃ u, Rounded q u ∧ x.toModel.unpack = limited u

namespace RoundedTo

variable {q q' r : ℚ} {x x' : Float32}

theorem of_pack {u : UnpackedFloat} (h : Rounded q u)
    (hx : x.toModel = Float32.Model.pack u) : RoundedTo q x := by
  refine ⟨u, h, ?_⟩
  rw [hx]
  exact unpack_pack h.canonical

theorem isNaN_eq_false (h : RoundedTo q x) : x.isNaN = false := by
  obtain ⟨u, hu, hx⟩ := h
  have hfinite := hu.isFinite
  change x.toModel.unpack.isNaN = false
  rw [hx]
  cases u with
  | notANumber => cases hfinite
  | infinity => cases hfinite
  | zero => rfl
  | finite s m e h =>
    rw [limited]
    split <;> rfl

/-- Rounding does not go past a number there is room for. -/
theorem value_le (h : RoundedTo q x) (hr : Representable r) (hroom : |r| ≤ 2 ^ 128)
    (hle : q ≤ r) : value x ≤ r := by
  obtain ⟨u, hu, hx⟩ := h
  rw [value, hx, exact_limited hu.canonical, ← clamp_of_abs_le hroom]
  exact clamp_mono (hu.nearest.le_of_le hr hle)

theorem le_value (h : RoundedTo q x) (hr : Representable r) (hroom : |r| ≤ 2 ^ 128)
    (hle : r ≤ q) : r ≤ value x := by
  obtain ⟨u, hu, hx⟩ := h
  rw [value, hx, exact_limited hu.canonical, ← clamp_of_abs_le hroom]
  exact clamp_mono (hu.nearest.ge_of_ge hr hle)

/-- A number there is room for is met. -/
theorem value_eq (h : RoundedTo q x) (hq : Representable q) (hroom : |q| ≤ 2 ^ 128) :
    value x = q :=
  le_antisymm (h.value_le hq hroom le_rfl) (h.le_value hq hroom le_rfl)

/-- Rounding keeps the order of different numbers. -/
theorem value_le_value (h : RoundedTo q x) (h' : RoundedTo q' x') (hlt : q < q') :
    value x ≤ value x' := by
  obtain ⟨u, hu, hx⟩ := h
  obtain ⟨u', hu', hx'⟩ := h'
  rw [value, value, hx, hx', exact_limited hu.canonical, exact_limited hu'.canonical]
  exact clamp_mono (hu.nearest.le_of_lt hu'.nearest hlt)

end RoundedTo

section Finite

variable {x y : Float32}

theorem roundedTo_neg (hx : x.isFinite = true) : RoundedTo (-value x) (-x) :=
  .of_pack (rounded_neg (canonical_toModel x) hx) rfl

theorem roundedTo_sub (hx : x.isFinite = true) (hy : y.isFinite = true) :
    RoundedTo (value x - value y) (x - y) :=
  .of_pack (rounded_sub (canonical_toModel x) (canonical_toModel y) hx hy) rfl

theorem roundedTo_mul (hx : x.isFinite = true) (hy : y.isFinite = true) :
    RoundedTo (value x * value y) (x * y) :=
  .of_pack (rounded_mul (canonical_toModel x) (canonical_toModel y) hx hy) rfl

theorem roundedTo_div (hx : x.isFinite = true) (hy : y.isFinite = true) (hne : value y ≠ 0) :
    RoundedTo (value x / value y) (x / y) :=
  .of_pack (rounded_div (canonical_toModel x) (canonical_toModel y) hx hy hne) rfl

end Finite

/-! ## Infinities -/

section Infinite

variable {x y : Float32}

theorem isFinite_or_infinity (h : x.isNaN = false) :
    x.isFinite = true ∨ ∃ s, x.toModel.unpack = .infinity s := by
  change x.toModel.unpack.isNaN = false at h
  change x.toModel.unpack.isFinite = true ∨ _
  cases hx : x.toModel.unpack with
  | notANumber =>
    rw [hx] at h
    cases h
  | infinity s => exact .inr ⟨s, rfl⟩
  | zero => exact .inl rfl
  | finite => exact .inl rfl

theorem value_of_infinity {s : Sign} (h : x.toModel.unpack = .infinity s) :
    value x = signum s * 2 ^ 128 := by
  rw [value, h, exact]

theorem abs_value_of_infinity {s : Sign} (h : x.toModel.unpack = .infinity s) :
    |value x| = 2 ^ 128 := by
  rw [value_of_infinity h]
  exact signum_mul_abs s (by positivity)

theorem abs_value_le (h : x.isNaN = false) : |value x| ≤ 2 ^ 128 := by
  obtain hfinite | ⟨s, hs⟩ := isFinite_or_infinity h
  · exact (abs_value_lt hfinite).le
  · exact (abs_value_of_infinity hs).le

theorem isFinite_of_abs_lt (h : x.isNaN = false) (hlt : |value x| < 2 ^ 128) :
    x.isFinite = true := by
  obtain hfinite | ⟨s, hs⟩ := isFinite_or_infinity h
  · exact hfinite
  · exact absurd (abs_value_of_infinity hs) hlt.ne

theorem unpack_of_isNaN (h : x.isNaN = true) : x.toModel.unpack = .notANumber := isNaN_iff.1 h

theorem isNaN_of_unpack (h : x.toModel.unpack = .notANumber) : x.isNaN = true := isNaN_iff.2 h

theorem exists_zero_of_value (h : x.isFinite = true) (hvalue : value x = 0) :
    ∃ s, x.toModel.unpack = .zero s := by
  change x.toModel.unpack.isFinite = true at h
  change exact x.toModel.unpack = 0 at hvalue
  cases hx : x.toModel.unpack with
  | notANumber =>
    rw [hx] at h
    cases h
  | infinity =>
    rw [hx] at h
    cases h
  | zero s => exact ⟨s, rfl⟩
  | finite s m e hm =>
    have hpos : (0 : ℚ) < m * 2 ^ e := by positivity
    have habs := signum_mul_abs s hpos.le
    rw [hx, exact] at hvalue
    rw [hvalue, abs_zero] at habs
    exact absurd habs hpos.ne

theorem sub_infinity {u : UnpackedFloat} (h : u.isFinite = true) (s : Sign) :
    sub Format.binary32 u (.infinity s) = .infinity (-s) := by
  cases u with
  | notANumber => cases h
  | infinity => cases h
  | zero => rfl
  | finite => rfl

theorem infinity_sub {u : UnpackedFloat} (h : u.isFinite = true) (s : Sign) :
    sub Format.binary32 (.infinity s) u = .infinity s := by
  cases u with
  | notANumber => cases h
  | infinity => cases h
  | zero => rfl
  | finite => rfl

theorem div_infinity {u : UnpackedFloat} (h : u.isFinite = true) (s : Sign) :
    ∃ s', div Format.binary32 u (.infinity s) = .zero s' := by
  cases u with
  | notANumber => cases h
  | infinity => cases h
  | zero s' => exact ⟨_, rfl⟩
  | finite s' => exact ⟨_, rfl⟩

/-- The difference of an infinity and something smaller is the infinity above, if it is a
number. -/
theorem sub_of_infinity (hx : x.isNaN = false) (hy : y.isNaN = false) (hle : value y ≤ value x)
    (h : ¬ (x.isFinite = true ∧ y.isFinite = true)) :
    (x - y).isNaN = true ∨ value (x - y) = 2 ^ 128 := by
  have hunpack {w : UnpackedFloat}
      (hw : sub Format.binary32 x.toModel.unpack y.toModel.unpack = w) (hc : Canonical w) :
      (x - y).toModel.unpack = limited w := by
    subst hw
    exact unpack_pack hc
  have habove (hw : sub Format.binary32 x.toModel.unpack y.toModel.unpack = .infinity .positive) :
      value (x - y) = 2 ^ 128 := by
    rw [value_of_infinity (hunpack hw trivial), signum, one_mul]
  obtain hfx | ⟨s, hs⟩ := isFinite_or_infinity hx
  · obtain hfy | ⟨s', hs'⟩ := isFinite_or_infinity hy
    · exact absurd ⟨hfx, hfy⟩ h
    · have hlt := abs_lt.1 (abs_value_lt hfx)
      rw [value_of_infinity hs'] at hle
      cases s' with
      | negative => exact .inr (habove (by rw [hs']; exact sub_infinity hfx _))
      | positive => exact absurd hlt.2 (not_lt.2 (by simpa [signum] using hle))
  · obtain hfy | ⟨s', hs'⟩ := isFinite_or_infinity hy
    · have hlt := abs_lt.1 (abs_value_lt hfy)
      rw [value_of_infinity hs] at hle
      cases s with
      | negative => exact absurd hlt.1 (not_lt.2 (by simpa [signum] using hle))
      | positive => exact .inr (habove (by rw [hs]; exact infinity_sub hfy _))
    · rw [value_of_infinity hs, value_of_infinity hs'] at hle
      cases s <;> cases s'
      · exact .inl (isNaN_of_unpack (hunpack (w := .notANumber) (by rw [hs, hs']; rfl) trivial))
      · exact absurd hle (by norm_num [signum])
      · exact .inr (habove (by rw [hs, hs']; rfl))
      · exact .inl (isNaN_of_unpack (hunpack (w := .notANumber) (by rw [hs, hs']; rfl) trivial))

end Infinite

/-! ## Between two points -/

section Between

variable {x y b t a : Float32}

theorem value_le_of_le (h : x ≤ y) : value x ≤ value y := by
  obtain ⟨-, -, hlt | heq | ⟨hx, hy⟩⟩ := cases_of_le h
  · exact hlt.le
  · rw [value, value, heq]
  · rw [hx, hy]

/-- Differences to the lower of two points are in order, unless one is not a number. -/
theorem sub_between (hbt : b ≤ t) (hta : t ≤ a) (hn : (t - b).isNaN = false)
    (hd : (a - b).isNaN = false) :
    0 ≤ value (t - b) ∧ value (t - b) ≤ value (a - b) := by
  obtain ⟨hb, ht, -⟩ := cases_of_le hbt
  obtain ⟨-, ha, hcases⟩ := cases_of_le hta
  have hbt' := value_le_of_le hbt
  have hta' := value_le_of_le hta
  by_cases hfa : a.isFinite = true ∧ b.isFinite = true
  · have hroom := abs_lt.1 (abs_value_lt hfa.1)
    have hroom' := abs_lt.1 (abs_value_lt hfa.2)
    have hft : t.isFinite = true :=
      isFinite_of_abs_lt ht (abs_lt.2 ⟨by linarith, by linarith⟩)
    have hlow := roundedTo_sub hft hfa.2
    have hhigh := roundedTo_sub hfa.1 hfa.2
    refine ⟨hlow.le_value nearest_zero.representable (by norm_num) (sub_nonneg.2 hbt'), ?_⟩
    obtain hlt | heq | ⟨hzt, hza⟩ := hcases
    · exact hlow.value_le_value hhigh (by linarith)
    · have hsame : t - b = a - b := congrArg
        (fun u => Float32.ofModel (.pack (sub Format.binary32 u b.toModel.unpack))) heq
      rw [hsame]
    -- Zeros of both signs: the differences are what the lower point is with its sign changed.
    · rw [hzt, zero_sub] at hlow
      rw [hza, zero_sub] at hhigh
      have hneg := (representable_value hfa.2).neg
      have hneg' : |-value b| ≤ 2 ^ 128 := by
        rw [abs_neg]
        exact (abs_value_lt hfa.2).le
      rw [hlow.value_eq hneg hneg', hhigh.value_eq hneg hneg']
  · have habove := (sub_of_infinity ha hb (hbt'.trans hta') hfa).resolve_left
      (Bool.eq_false_iff.1 hd)
    rw [habove]
    refine ⟨?_, (abs_le.1 (abs_value_le hn)).2⟩
    by_cases hft : t.isFinite = true ∧ b.isFinite = true
    · exact (roundedTo_sub hft.1 hft.2).le_value nearest_zero.representable (by norm_num)
        (sub_nonneg.2 hbt')
    · rw [(sub_of_infinity ht hb hbt' hft).resolve_left (Bool.eq_false_iff.1 hn)]
      norm_num

/-- The quotient of two numbers in order is a part of the whole, unless it is not a number. -/
theorem div_between (hx : x.isNaN = false) (hy : y.isNaN = false) (hzero : 0 ≤ value x)
    (hle : value x ≤ value y) (hq : (x / y).isNaN = false) :
    (x / y).isFinite = true ∧ 0 ≤ value (x / y) ∧ value (x / y) ≤ 1 := by
  have hunpack {w : UnpackedFloat}
      (hw : div Format.binary32 x.toModel.unpack y.toModel.unpack = w) (hc : Canonical w) :
      (x / y).toModel.unpack = limited w := by
    subst hw
    exact unpack_pack hc
  have hnot (hw : div Format.binary32 x.toModel.unpack y.toModel.unpack = .notANumber) : False := by
    rw [isNaN_of_unpack (hunpack hw trivial)] at hq
    cases hq
  obtain hfy | ⟨s', hs'⟩ := isFinite_or_infinity hy
  · have hfx : x.isFinite = true := isFinite_of_abs_lt hx
      (abs_lt.2 ⟨by linarith, lt_of_le_of_lt hle (abs_lt.1 (abs_value_lt hfy)).2⟩)
    by_cases hne : value y = 0
    · obtain ⟨s, hs⟩ := exists_zero_of_value hfx (le_antisymm (hne ▸ hle) hzero)
      obtain ⟨s', hs'⟩ := exists_zero_of_value hfy hne
      exact (hnot (by rw [hs, hs']; rfl)).elim
    · have hpos : 0 < value y := lt_of_le_of_ne (hzero.trans hle) (Ne.symm hne)
      have hround := roundedTo_div hfx hfy hne
      have hlow := hround.le_value nearest_zero.representable (by norm_num)
        (div_nonneg hzero hpos.le)
      have hhigh := hround.value_le (representable_int (n := 1) (by decide)) (by norm_num)
        (by rw [Int.cast_one]; exact (div_le_one hpos).2 hle)
      rw [Int.cast_one] at hhigh
      exact ⟨isFinite_of_abs_lt hq (abs_lt.2 ⟨by linarith, by linarith⟩), hlow, hhigh⟩
  · obtain hfx | ⟨s, hs⟩ := isFinite_or_infinity hx
    · obtain ⟨s'', hquotient⟩ := div_infinity hfx s'
      have hz : (x / y).toModel.unpack = .zero s'' :=
        hunpack (w := .zero s'') (by rw [hs', hquotient]) trivial
      have hvalue : value (x / y) = 0 := by rw [value, hz, exact]
      rw [hvalue]
      exact ⟨isFinite_of_abs_lt hq (by rw [hvalue]; norm_num), le_rfl, zero_le_one⟩
    · exact (hnot (by rw [hs, hs']; rfl)).elim

end Between

/-! ## Integers -/

theorem toFloat32_spec (n : UInt32) (hn : n.toNat < 2 ^ 24) :
    n.toFloat32.isFinite = true ∧ value n.toFloat32 = n.toNat := by
  have hround : RoundedTo (n.toNat : ℤ) n.toFloat32 := by
    have hnormalize := rounded_normalize n.toNat 0 .positive
    rw [zpow_zero, mul_one] at hnormalize
    exact .of_pack hnormalize rfl
  have hsmall : |(n.toNat : ℤ)| < 2 ^ 24 := by
    rw [Nat.abs_cast]
    exact_mod_cast hn
  have hroom : |((n.toNat : ℤ) : ℚ)| < 2 ^ 128 := by
    rw [← Int.cast_abs]
    calc ((|(n.toNat : ℤ)| : ℤ) : ℚ) < 2 ^ 24 := by exact_mod_cast hsmall
      _ ≤ 2 ^ 128 := by norm_num
  have hvalue := hround.value_eq (representable_int hsmall) hroom.le
  exact ⟨isFinite_of_abs_lt hround.isNaN_eq_false (by rwa [hvalue]), by rw [hvalue]; simp⟩

/-- An integer of 24 bits is met exactly. -/
theorem ofInt_spec {n : ℤ} (hn : n.natAbs < 2 ^ 24) :
    (ofInt n).isFinite = true ∧ value (ofInt n) = n := by
  have hnat : (UInt32.ofNat n.natAbs).toNat = n.natAbs :=
    UInt32.toNat_ofNat_of_lt' (by rw [UInt32.size]; omega)
  obtain ⟨hfinite, hvalue⟩ := toFloat32_spec (UInt32.ofNat n.natAbs) (by rwa [hnat])
  rw [hnat] at hvalue
  unfold ofInt
  split
  case isTrue hneg =>
    have hround := roundedTo_neg hfinite
    have hmirror := hround.value_eq (representable_value hfinite).neg
      (by rw [abs_neg]; exact (abs_value_lt hfinite).le)
    refine ⟨isFinite_of_abs_lt hround.isNaN_eq_false ?_, ?_⟩
    · rw [hmirror, abs_neg]
      exact abs_value_lt hfinite
    · rw [hmirror, hvalue, ← Int.cast_natCast, ← Int.cast_neg]
      congr 1
      omega
  case isFalse hneg =>
    refine ⟨hfinite, ?_⟩
    rw [hvalue, ← Int.cast_natCast, Int.natAbs_of_nonneg (by omega)]

/-! ## A step along a line -/

section Step

variable {x y b t a : Float32} {n lo hi : ℤ}

/-- A product with what is not a number is not a number. -/
theorem isNaN_mul (h : y.isNaN = true) : (x * y).isNaN = true := by
  have hmul : mul Format.binary32 x.toModel.unpack y.toModel.unpack = .notANumber := by
    rw [unpack_of_isNaN h]
    cases x.toModel.unpack <;> rfl
  refine isNaN_of_unpack ((unpack_pack ?_).trans ?_) <;> rw [hmul]
  · trivial
  · rfl

/-- A quotient with what is not a number is not a number. -/
theorem isNaN_div (h : x.isNaN = true ∨ y.isNaN = true) : (x / y).isNaN = true := by
  have hdiv : div Format.binary32 x.toModel.unpack y.toModel.unpack = .notANumber := by
    obtain hx | hy := h
    · rw [unpack_of_isNaN hx]
      rfl
    · rw [unpack_of_isNaN hy]
      cases x.toModel.unpack <;> rfl
  refine isNaN_of_unpack ((unpack_pack ?_).trans ?_) <;> rw [hdiv]
  · trivial
  · rfl

/-- The position between two ends is a part of the whole, unless it is not a number. -/
theorem fraction_between (hbt : b ≤ t) (hta : t ≤ a) (hf : ((t - b) / (a - b)).isNaN = false) :
    ((t - b) / (a - b)).isFinite = true ∧ 0 ≤ value ((t - b) / (a - b)) ∧
      value ((t - b) / (a - b)) ≤ 1 := by
  have hn : (t - b).isNaN = false :=
    Bool.eq_false_iff.2 fun h => Bool.eq_false_iff.1 hf (isNaN_div (.inl h))
  have hd : (a - b).isNaN = false :=
    Bool.eq_false_iff.2 fun h => Bool.eq_false_iff.1 hf (isNaN_div (.inr h))
  obtain ⟨hzero, hle⟩ := sub_between hbt hta hn hd
  exact div_between hn hd hzero hle hf

/-- What is rounded to a number between two integers around 0 is cut off to an integer between
them. -/
theorem RoundedTo.saturate_between {q : ℚ} {low high : ℤ} (h : RoundedTo q x)
    (hlow : -2 ^ 24 < low ∧ low ≤ 0) (hhigh : 0 ≤ high ∧ high < 2 ^ 24) (hq : low ≤ q)
    (hq' : q ≤ high) (hlo : lo ≤ low) (hhi : high ≤ hi) :
    low ≤ saturate lo hi x ∧ saturate lo hi x ≤ high := by
  have hlow' : |low| < 2 ^ 24 := abs_lt.2 ⟨hlow.1, by omega⟩
  have hhigh' : |high| < 2 ^ 24 := abs_lt.2 ⟨by omega, hhigh.2⟩
  have hroom {n : ℤ} (hn : |n| < 2 ^ 24) : |(n : ℚ)| < 2 ^ 128 := by
    have hbits : |(n : ℚ)| < 2 ^ 24 := by exact_mod_cast hn
    exact hbits.trans (by norm_num)
  have hvlow := h.le_value (representable_int hlow') (hroom hlow').le hq
  have hvhigh := h.value_le (representable_int hhigh') (hroom hhigh').le hq'
  have hfinite : x.isFinite = true := isFinite_of_abs_lt h.isNaN_eq_false
    (abs_lt.2 ⟨(abs_lt.1 (hroom hlow')).1.trans_le hvlow,
      hvhigh.trans_lt (abs_lt.1 (hroom hhigh')).2⟩)
  obtain ⟨whole, hwhole, hup, hdown⟩ := exists_saturate hfinite lo hi
  obtain hpos | hneg := le_total 0 (value x)
  · have hwlow : 0 ≤ whole := hup hpos ▸ Int.floor_nonneg.2 hpos
    have hwhigh : (whole : ℚ) ≤ value x := hup hpos ▸ Int.floor_le _
    have hle : whole ≤ high := by exact_mod_cast hwhigh.trans hvhigh
    omega
  · have hwhigh : whole ≤ 0 := hdown hneg ▸ Int.ceil_le.2 (by exact_mod_cast hneg)
    have hwlow : value x ≤ whole := hdown hneg ▸ Int.le_ceil _
    have hle : low ≤ whole := by exact_mod_cast hvlow.trans hwlow
    omega

/-- The step along a line that rises or falls by `n` is between zero and `n` where the position
is between the two ends. -/
theorem saturate_step (hbt : b ≤ t) (hta : t ≤ a) (hn : n.natAbs < 2 ^ 24) (hlo : lo ≤ min 0 n)
    (hhi : max 0 n ≤ hi) :
    min 0 n ≤ saturate lo hi (ofInt n * ((t - b) / (a - b))) ∧
      saturate lo hi (ofInt n * ((t - b) / (a - b))) ≤ max 0 n := by
  cases hf : ((t - b) / (a - b)).isNaN with
  | true =>
    rw [saturate_of_isNaN (isNaN_mul hf)]
    omega
  | false =>
    obtain ⟨hfinite, hzero, hone⟩ := fraction_between hbt hta hf
    obtain ⟨hfn, hvn⟩ := ofInt_spec hn
    have hround := roundedTo_mul hfn hfinite
    rw [hvn] at hround
    refine hround.saturate_between (by omega) (by omega) ?_ ?_ hlo hhi
    · rw [Int.cast_min, Int.cast_zero]
      obtain hpos | hneg := le_total 0 (n : ℚ)
      · exact min_le_of_left_le (mul_nonneg hpos hzero)
      · exact min_le_of_right_le (le_mul_of_le_one_right hneg hone)
    · rw [Int.cast_max, Int.cast_zero]
      obtain hpos | hneg := le_total 0 (n : ℚ)
      · exact le_max_of_le_right (mul_le_of_le_one_right hpos hone)
      · exact le_max_of_le_left (mul_nonpos_of_nonpos_of_nonneg hneg hzero)

end Step

end Binary32
end RfidReader
