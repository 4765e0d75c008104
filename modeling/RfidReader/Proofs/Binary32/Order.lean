import RfidReader.Proofs.Binary32.Arithmetic

/-!
# RfidReader.Proofs.Binary32.Order

Comparing single precision numbers, their sizes and their integer parts.

Numbers are compared like their values, infinities included, as long as both
are numbers (`le_iff_value_le`).  Rounding a difference keeps the order of
exact distances that differ (`abs_sub_le_abs_sub`).  A positive integer is
reached by the integer part that `saturate` gives exactly when it is reached
by the number itself (`le_saturate_iff`).
-/

namespace RfidReader
namespace Binary32

open Float.Model Float.Model.UnpackedFloat

/-! ## Comparison -/

section Compare

variable {u v : UnpackedFloat}

theorem compare_swap (u v : UnpackedFloat) : v.compare u = (u.compare v).map Ordering.swap := by
  cases u with
  | notANumber => cases v <;> simp [UnpackedFloat.compare]
  | infinity s => cases v <;> cases s <;> first | rfl | (rename_i s'; cases s' <;> rfl)
  | zero s =>
    cases v with
    | notANumber | zero => rfl
    | infinity s' => cases s' <;> rfl
    | finite s' => cases s' <;> rfl
  | finite s m e h =>
    cases v with
    | notANumber => cases s <;> rfl
    | infinity s' => cases s <;> cases s' <;> rfl
    | zero => cases s <;> rfl
    | finite s' m' e' h' =>
      have hswap : (compare e' e).then (compare m' m) =
          ((compare e e').then (compare m m')).swap := by
        rw [Ordering.swap_then, ← Std.OrientedOrd.eq_swap, ← Std.OrientedOrd.eq_swap]
      cases s <;> cases s' <;> simp [UnpackedFloat.compare, hswap]

/-- Numbers can be compared. -/
theorem exists_compare (hu : u.isNaN = false) (hv : v.isNaN = false) :
    ∃ order, u.compare v = some order := by
  unfold UnpackedFloat.compare
  split
  · cases hu
  · cases hv
  all_goals exact ⟨_, rfl⟩

end Compare

section Order

variable {x y : Float32}

theorem le_iff_compare :
    x ≤ y ↔ (x.toModel.unpack.compare y.toModel.unpack).any (·.isLE) = true :=
  decide_eq_true_iff

theorem lt_iff_compare : x < y ↔ x.toModel.unpack.compare y.toModel.unpack = some .lt := by
  have h : decide (x.toModel.unpack.lt y.toModel.unpack = true) = true ↔
      x.toModel.unpack.compare y.toModel.unpack = some .lt := by
    rw [decide_eq_true_iff, UnpackedFloat.lt, beq_iff_eq]
  exact h

/-- Of two numbers the first is smaller, or the second is not larger. -/
theorem lt_iff_not_le (hx : x.isNaN = false) (hy : y.isNaN = false) : x < y ↔ ¬ y ≤ x := by
  obtain ⟨order, horder⟩ := exists_compare (u := x.toModel.unpack) (v := y.toModel.unpack) hx hy
  rw [lt_iff_compare, le_iff_compare, compare_swap x.toModel.unpack, horder]
  cases order <;> simp

theorem le_or_le (hx : x.isNaN = false) (hy : y.isNaN = false) : x ≤ y ∨ y ≤ x := by
  obtain ⟨order, horder⟩ := exists_compare (u := x.toModel.unpack) (v := y.toModel.unpack) hx hy
  rw [le_iff_compare, le_iff_compare, compare_swap x.toModel.unpack, horder]
  cases order <;> simp

/-- Numbers are in order like their values. -/
theorem le_iff_value_le (hx : x.isNaN = false) (hy : y.isNaN = false) :
    x ≤ y ↔ value x ≤ value y := by
  refine ⟨value_le_of_le, fun hle => ?_⟩
  obtain h | h := le_or_le hx hy
  · exact h
  · obtain ⟨-, -, hlt | heq | ⟨hzero, hzero'⟩⟩ := cases_of_le h
    · exact absurd hle (not_le.2 hlt)
    · rw [le_iff_compare, heq] at h ⊢
      exact h
    · obtain ⟨s, hs⟩ := exists_zero_of_value (isFinite_of_abs_lt hx (by simp [hzero'])) hzero'
      obtain ⟨s', hs'⟩ := exists_zero_of_value (isFinite_of_abs_lt hy (by simp [hzero])) hzero
      rw [le_iff_compare, hs, hs']
      rfl

theorem isNaN_of_lt (h : x < y) : x.isNaN = false ∧ y.isNaN = false := by
  have hle : x ≤ y := by
    rw [lt_iff_compare] at h
    rw [le_iff_compare, h]
    rfl
  obtain ⟨hx, hy, -⟩ := cases_of_le hle
  exact ⟨hx, hy⟩

theorem lt_iff_value_lt (hx : x.isNaN = false) (hy : y.isNaN = false) :
    x < y ↔ value x < value y := by
  rw [lt_iff_not_le hx hy, le_iff_value_le hy hx, not_le]

end Order

/-! ## Sizes -/

section Unpacked

variable {u : UnpackedFloat}

theorem limited_of_fits (h : Fits u) : limited u = u := by
  cases u with
  | finite => exact if_pos h
  | _ => rfl

theorem canonical_abs (h : Canonical u) : Canonical u.abs := by
  cases u with
  | finite => exact h
  | _ => trivial

theorem fits_abs (h : Fits u) : Fits u.abs := by
  cases u with
  | finite => exact h
  | _ => trivial

theorem exact_abs (u : UnpackedFloat) : exact u.abs = |exact u| := by
  cases u with
  | infinity s | finite s =>
    rw [UnpackedFloat.abs, exact, exact, signum_mul_abs s (by positivity), signum, one_mul]
  | notANumber | zero => simp [UnpackedFloat.abs, exact]

theorem abs_limited (u : UnpackedFloat) : (limited u).abs = limited u.abs := by
  cases u with
  | finite s m e h =>
    by_cases hfits : e ≤ 104 <;> simp only [limited, UnpackedFloat.abs, hfits, if_true, if_false]
  | _ => rfl

end Unpacked

section Size

variable {x y t : Float32} {q : ℚ}

theorem unpack_abs (x : Float32) : x.abs.toModel.unpack = x.toModel.unpack.abs := by
  have hpack : x.abs.toModel.unpack = limited x.toModel.unpack.abs :=
    unpack_pack (canonical_abs (canonical_toModel x))
  rw [hpack, limited_of_fits (fits_abs (fits_toModel x))]

theorem value_abs (x : Float32) : value x.abs = |value x| := by
  rw [value, unpack_abs, exact_abs, value]

theorem isNaN_abs (x : Float32) : x.abs.isNaN = x.isNaN := by
  show x.abs.toModel.unpack.isNaN = x.toModel.unpack.isNaN
  rw [unpack_abs]
  cases x.toModel.unpack <;> rfl

theorem Nearest.abs {v : ℚ} (h : Nearest q v) : Nearest |q| |v| := by
  obtain hq | hq := le_total 0 q
  · rwa [abs_of_nonneg hq, abs_of_nonneg (h.ge_of_ge nearest_zero.representable hq)]
  · rw [abs_of_nonpos hq, abs_of_nonpos (h.le_of_le nearest_zero.representable hq)]
    exact h.neg

/-- The size of what was rounded is the exact size, rounded. -/
theorem RoundedTo.abs (h : RoundedTo q x) : RoundedTo |q| x.abs := by
  obtain ⟨u, hu, hx⟩ := h
  have hfinite : u.abs.isFinite = true := by
    have := hu.isFinite
    cases u <;> simp_all [UnpackedFloat.abs, UnpackedFloat.isFinite]
  refine ⟨u.abs, ⟨canonical_abs hu.canonical, hfinite, ?_⟩, ?_⟩
  · rw [exact_abs]
    exact hu.nearest.abs
  · rw [unpack_abs, hx, abs_limited]

/-! ## Distances -/

theorem isNaN_of_isFinite (h : x.isFinite = true) : x.isNaN = false := by
  have hfinite : x.toModel.unpack.isFinite = true := h
  show x.toModel.unpack.isNaN = false
  cases hunpack : x.toModel.unpack with
  | notANumber => rw [hunpack] at hfinite; contradiction
  | _ => rfl

/-- The difference of a number and a finite one is a number. -/
theorem isNaN_sub (hx : x.isNaN = false) (ht : t.isFinite = true) : (x - t).isNaN = false := by
  obtain hfinite | ⟨s, hs⟩ := isFinite_or_infinity hx
  · exact (roundedTo_sub hfinite ht).isNaN_eq_false
  · have hsub : sub Format.binary32 x.toModel.unpack t.toModel.unpack = .infinity s := by
      rw [hs]
      exact infinity_sub ht s
    have hunpack : (x - t).toModel.unpack = limited (.infinity s) := by
      rw [← hsub]
      exact unpack_pack (by rw [hsub]; trivial)
    show (x - t).toModel.unpack.isNaN = false
    rw [hunpack]
    rfl

/-- Of two distances that differ, the one that is shorter when exact is not longer as computed. -/
theorem abs_sub_le_abs_sub (hx : x.isFinite = true) (hy : y.isFinite = true)
    (ht : t.isFinite = true) (h : |value x - value t| < |value y - value t|) :
    (x - t).abs ≤ (y - t).abs := by
  have hxt := (roundedTo_sub hx ht).abs
  have hyt := (roundedTo_sub hy ht).abs
  exact (le_iff_value_le hxt.isNaN_eq_false hyt.isNaN_eq_false).2 (hxt.value_le_value hyt h)

/-- A finite number less something is finite only if that is. -/
theorem isFinite_of_sub (hx : x.isFinite = true) (h : (x - t).isFinite = true) :
    t.isFinite = true := by
  have hnot {u : UnpackedFloat} (hu : Canonical u) (hinfinite : u.isFinite = false)
      (hsub : sub Format.binary32 x.toModel.unpack t.toModel.unpack = u) : False := by
    have hunpack : (x - t).toModel.unpack = limited u := by
      rw [← hsub]
      exact unpack_pack (hsub ▸ hu)
    have hlimited : (limited u).isFinite = true := hunpack ▸ h
    cases u <;> simp_all [limited, UnpackedFloat.isFinite]
  cases ht : t.toModel.unpack with
  | notANumber =>
      refine (hnot (u := .notANumber) trivial rfl ?_).elim
      rw [ht]
      cases x.toModel.unpack <;> rfl
  | infinity s =>
      refine (hnot (u := .infinity (-s)) trivial rfl ?_).elim
      rw [ht]
      exact sub_infinity hx s
  | zero s | finite s m e hm =>
      show t.toModel.unpack.isFinite = true
      rw [ht]
      rfl

/-- Taking the same off keeps the order. -/
theorem value_sub_le_value_sub (hx : x.isFinite = true) (hy : y.isFinite = true)
    (ht : t.isFinite = true) (hle : value x ≤ value y) : value (x - t) ≤ value (y - t) := by
  have hxt := roundedTo_sub hx ht
  have hyt := roundedTo_sub hy ht
  obtain ⟨-, -, hlt | heq | ⟨hzero, hzero'⟩⟩ :=
    cases_of_le ((le_iff_value_le (isNaN_of_isFinite hx) (isNaN_of_isFinite hy)).2 hle)
  · exact hxt.value_le_value hyt (by linarith)
  · show exact (Float32.Model.pack (sub Format.binary32 x.toModel.unpack _)).unpack ≤ _
    rw [heq]
    exact le_rfl
  · have hneg := (representable_value ht).neg
    have hroom : |-value t| ≤ 2 ^ 128 := by
      rw [abs_neg]
      exact (abs_value_lt ht).le
    rw [hzero, zero_sub] at hxt
    rw [hzero', zero_sub] at hyt
    rw [hxt.value_eq hneg hroom, hyt.value_eq hneg hroom]

end Size

/-! ## Integer parts -/

theorem value_of_isNaN {x : Float32} (h : x.isNaN = true) : value x = 0 := by
  rw [value, unpack_of_isNaN h, exact]

/-- An integer part is within the range. -/
theorem saturate_mem (x : Float32) {lo hi : ℤ} (hlo : lo ≤ 0) (hhi : 0 ≤ hi) :
    lo ≤ saturate lo hi x ∧ saturate lo hi x ≤ hi := by
  simp only [saturate]
  split_ifs <;> omega

theorem saturate_of_infinity {x : Float32} {s : Sign} (h : x.toModel.unpack = .infinity s)
    (lo hi : ℤ) :
    s = .negative ∧ saturate lo hi x = lo ∨ s = .positive ∧ saturate lo hi x = hi := by
  rw [unpack_toModel, ofFields] at h
  split_ifs at h with hlast hzero hsign hsign
  · refine .inl ⟨(UnpackedFloat.infinity.inj h).symm, ?_⟩
    simp only [saturate, if_pos hlast, hzero, ne_eq, not_true_eq_false, if_false, if_pos hsign]
  · refine .inr ⟨(UnpackedFloat.infinity.inj h).symm, ?_⟩
    simp only [saturate, if_pos hlast, hzero, ne_eq, not_true_eq_false, if_false, if_neg hsign]

/-- A positive integer within the range is reached by the integer part exactly when it is reached
by the number. -/
theorem le_saturate_iff {x : Float32} {n lo hi : ℤ} (hn : 0 < n) (hlo : lo ≤ 0) (hhi : n ≤ hi)
    (hroom : n < 2 ^ 128) : n ≤ saturate lo hi x ↔ (n : ℚ) ≤ value x := by
  have hn' : (0 : ℚ) < n := by exact_mod_cast hn
  have hroom' : (n : ℚ) < 2 ^ 128 := by exact_mod_cast hroom
  cases hx : x.isNaN with
  | true =>
    rw [saturate_of_isNaN hx, value_of_isNaN hx]
    exact iff_of_false (not_le.2 hn) (not_le.2 hn')
  | false =>
    obtain hfinite | ⟨s, hs⟩ := isFinite_or_infinity hx
    · obtain ⟨whole, hwhole, hup, hdown⟩ := exists_saturate hfinite lo hi
      obtain hpos | hneg := le_total 0 (value x)
      · rw [← Int.le_floor, ← hup hpos]
        omega
      · have hle : whole ≤ 0 := hdown hneg ▸ Int.ceil_le.2 (by exact_mod_cast hneg)
        refine iff_of_false (by omega) (not_le.2 (hneg.trans_lt hn'))
    · rw [value_of_infinity hs]
      obtain ⟨rfl, hlow⟩ | ⟨rfl, hhigh⟩ := saturate_of_infinity hs lo hi
      · refine iff_of_false (by omega) (not_le.2 (lt_trans ?_ hn'))
        norm_num [signum]
      · rw [hhigh, signum, one_mul]
        exact iff_of_true hhi hroom'.le

end Binary32
end RfidReader
