import Mathlib.Algebra.Order.Field.Basic
import Mathlib.Data.Rat.Cast.Order
import Mathlib.Tactic.FieldSimp
import Mathlib.Tactic.Linarith
import Mathlib.Tactic.Ring
import RfidReader.Proofs.Interpolation

/-!
# RfidReader.Proofs.IntegerTables

Integer tables in 32-bit arithmetic, and how close they come to the line.

A table is given as two lists, of which the longer one is cut.  `integerIn32`
walks along both by an index, with every access and every step of the arithmetic
checked; nothing is out of bounds, overflows, is divided by zero or lost when it
is narrowed, in whatever order the samples are (`integerIn32_eq`).  The walk only
divides once it has passed a sample below the query and found one above it.  The
weights of the two then add up to their distance, which bounds each product and
the sum of the quotients (`blend_between`).

In an ascending table these are the samples around the query.  Each of the two
quotients is off by less than one, so the value is off by less than two
(`abs_blend_sub_line_lt`).
-/

namespace RfidReader
namespace Interpolation

/-! ## Truncating division -/

/-- A multiple of the divisor that is a truncated dividend lies between it and zero. -/
theorem mul_tdiv_between {n s : Int} (hs : 0 < s) :
    min n 0 ≤ s * n.tdiv s ∧ s * n.tdiv s ≤ max n 0 := by
  have hsum := Int.mul_tdiv_add_tmod n s
  rcases Int.le_total 0 n with hn | hn
  · have hquotient := Int.mul_nonneg (Int.le_of_lt hs) (Int.tdiv_nonneg hn (Int.le_of_lt hs))
    have hrest := Int.tmod_nonneg s hn
    omega
  · have hquotient := Int.mul_nonneg (Int.le_of_lt hs)
      (Int.tdiv_nonneg (Int.neg_nonneg_of_nonpos hn) (Int.le_of_lt hs))
    have hrest := Int.tmod_nonneg s (Int.neg_nonneg_of_nonpos hn)
    rw [Int.neg_tdiv, Int.mul_neg] at hquotient
    rw [Int.neg_tmod] at hrest
    omega

/-- Truncating takes away less than one divisor. -/
theorem abs_mul_tdiv_sub_lt {n s : Int} (hs : 0 < s) : |s * n.tdiv s - n| < s := by
  have hsum := Int.mul_tdiv_add_tmod n s
  have hlow := Int.lt_tmod_of_pos n hs
  have hhigh := Int.tmod_lt_of_pos n hs
  rw [abs_lt]
  omega

/-! ## Between two samples -/

section Blend

variable {lo hi : UInt16 × Int16} {x : Int}

/-- A truncated part of 16 bits is no larger than its weight allows. -/
theorem weighted_between {a s : Int} (ha : 0 ≤ a) (hs : 0 < s) (y : Int16) :
    -32768 * a ≤ s * (a * y.toInt).tdiv s ∧ s * (a * y.toInt).tdiv s ≤ 32767 * a := by
  have hlow := Int.mul_le_mul_of_nonneg_left y.le_toInt ha
  have hle : y.toInt ≤ 32767 := Int.le_of_lt_add_one y.toInt_lt
  have hhigh := Int.mul_le_mul_of_nonneg_left hle ha
  have hbetween := mul_tdiv_between (n := a * y.toInt) hs
  omega

/-- The value between two samples fits 16 bits. -/
theorem blend_between (hlo : (lo.1.toNat : Int) < x) (hhi : x < hi.1.toNat) :
    -32768 ≤ blend lo hi x ∧ blend lo hi x ≤ 32767 := by
  have hspan : 0 < (hi.1.toNat : Int) - lo.1.toNat := by omega
  have hleft := weighted_between (a := hi.1.toNat - x) (by omega) hspan lo.2
  have hright := weighted_between (a := x - lo.1.toNat) (by omega) hspan hi.2
  -- The two weights add up to the distance of the samples.
  have hsum : ((hi.1.toNat : Int) - lo.1.toNat) * blend lo hi x =
      (hi.1.toNat - lo.1.toNat) *
        ((hi.1.toNat - x) * lo.2.toInt).tdiv (hi.1.toNat - lo.1.toNat) +
      (hi.1.toNat - lo.1.toNat) *
        ((x - lo.1.toNat) * hi.2.toInt).tdiv (hi.1.toNat - lo.1.toNat) := Int.mul_add _ _ _
  constructor
  · exact Int.le_of_mul_le_mul_left (by omega) hspan
  · exact Int.le_of_mul_le_mul_left (by omega) hspan

/-- Nothing is lost when the value between two samples is narrowed to 16 bits. -/
theorem toInt_ofInt_blend (hlo : (lo.1.toNat : Int) < x) (hhi : x < hi.1.toNat) :
    (Int16.ofInt (blend lo hi x)).toInt = blend lo hi x := by
  have hbetween := blend_between hlo hhi
  exact Int16.toInt_ofInt_of_le hbetween.1 (Int.lt_add_one_of_le hbetween.2)

/-- The line through two samples. -/
def line (lo hi : UInt16 × Int16) (x : ℚ) : ℚ :=
  lo.2.toInt + (x - lo.1.toNat) / (hi.1.toNat - lo.1.toNat) * (hi.2.toInt - lo.2.toInt)

/-- The line in terms of the weights of the samples. -/
theorem line_eq (h : (lo.1.toNat : ℚ) < hi.1.toNat) (x : ℚ) :
    line lo hi x = ((hi.1.toNat - x) * lo.2.toInt + (x - lo.1.toNat) * hi.2.toInt) /
      (hi.1.toNat - lo.1.toNat) := by
  have hspan : (hi.1.toNat : ℚ) - lo.1.toNat ≠ 0 := (sub_pos.mpr h).ne'
  unfold line
  field_simp
  ring

/-- **Between two samples** the value is less than two away from the line. -/
theorem abs_blend_sub_line_lt (hlo : (lo.1.toNat : Int) < x) (hhi : x < hi.1.toNat) :
    |(blend lo hi x : ℚ) - line lo hi x| < 2 := by
  have hspan : 0 < (hi.1.toNat : Int) - lo.1.toNat := by omega
  have hspan' : (0 : ℚ) < hi.1.toNat - lo.1.toNat := by exact_mod_cast hspan
  have hleft := abs_lt.mp (abs_mul_tdiv_sub_lt (n := (hi.1.toNat - x) * lo.2.toInt) hspan)
  have hright := abs_lt.mp (abs_mul_tdiv_sub_lt (n := (x - lo.1.toNat) * hi.2.toInt) hspan)
  have hscaled : |((hi.1.toNat : Int) - lo.1.toNat) * blend lo hi x -
      ((hi.1.toNat - x) * lo.2.toInt + (x - lo.1.toNat) * hi.2.toInt)| <
      2 * (hi.1.toNat - lo.1.toNat) := by
    rw [blend, Int.mul_add, abs_lt]
    omega
  have hdistance : (blend lo hi x : ℚ) - line lo hi x =
      (((hi.1.toNat : Int) - lo.1.toNat) * blend lo hi x -
        ((hi.1.toNat - x) * lo.2.toInt + (x - lo.1.toNat) * hi.2.toInt) : Int) /
        (hi.1.toNat - lo.1.toNat) := by
    rw [line_eq (sub_pos.mp hspan')]
    push_cast
    field_simp
  rw [hdistance, abs_div, abs_of_pos hspan', div_lt_iff₀ hspan']
  exact_mod_cast hscaled

end Blend

/-! ## 32-bit arithmetic -/

/-- A number, none if it does not fit 32 bits. -/
def fit32? (n : Int) : Option Int := if -2147483648 ≤ n ∧ n ≤ 2147483647 then some n else none

/-- A truncated quotient, none if the divisor is zero or it does not fit 32 bits. -/
def quotient32? (n s : Int) : Option Int := if s = 0 then none else fit32? (n.tdiv s)

/-- A number narrowed to 16 bits, none if anything is lost. -/
def narrow16? (n : Int) : Option Int16 :=
  if -32768 ≤ n ∧ n ≤ 32767 then some (Int16.ofInt n) else none

theorem fit32?_eq {n : Int} (hlow : -2147483648 ≤ n) (hhigh : n ≤ 2147483647) :
    fit32? n = some n := if_pos ⟨hlow, hhigh⟩

/-- A truncated part in 32-bit arithmetic: the distance to the other sample times a value, by the
distance of the samples. -/
def part32? (far near : Int) (y : Int16) (s : Int) : Option Int := do
  let weight ← fit32? (far - near)
  let product ← fit32? (weight * y.toInt)
  quotient32? product s

/-- The value between two samples in 32-bit arithmetic. -/
def blendIn32 (lo hi : UInt16 × Int16) (x : Int) : Option Int16 := do
  let span ← fit32? (hi.1.toNat - lo.1.toNat)
  let left ← part32? hi.1.toNat x lo.2 span
  let right ← part32? x lo.1.toNat hi.2 span
  let sum ← fit32? (left + right)
  narrow16? sum

theorem part32?_eq {far near s : Int} (hlow : 0 ≤ far - near) (hhigh : far - near ≤ s)
    (hs : 0 < s) (hs' : s ≤ 65535) (y : Int16) :
    part32? far near y s = some (((far - near) * y.toInt).tdiv s) := by
  have hy : y.toInt ≤ 32767 := Int.le_of_lt_add_one y.toInt_lt
  have hproduct := Int.mul_le_mul_of_nonneg_left y.le_toInt hlow
  have hproduct' := Int.mul_le_mul_of_nonneg_left hy hlow
  have hpart := weighted_between hlow hs y
  have hquotient : -32768 ≤ ((far - near) * y.toInt).tdiv s :=
    Int.le_of_mul_le_mul_left (by omega) hs
  have hquotient' : ((far - near) * y.toInt).tdiv s ≤ 32767 :=
    Int.le_of_mul_le_mul_left (by omega) hs
  simp only [part32?, quotient32?, Option.bind_eq_bind]
  rw [fit32?_eq (by omega) (by omega), Option.bind_some, fit32?_eq (by omega) (by omega),
    Option.bind_some, if_neg hs.ne', fit32?_eq (by omega) (by omega)]

/-- **No overflow** between a sample below the query and one above it. -/
theorem blendIn32_eq {lo hi : UInt16 × Int16} {x : Int} (hlo : (lo.1.toNat : Int) < x)
    (hhi : x < hi.1.toNat) : blendIn32 lo hi x = some (Int16.ofInt (blend lo hi x)) := by
  have hword := hi.1.toNat_lt
  have hbetween := blend_between hlo hhi
  simp only [blendIn32, Option.bind_eq_bind]
  rw [fit32?_eq (by omega) (by omega), Option.bind_some,
    part32?_eq (by omega) (by omega) (by omega) (by omega), Option.bind_some,
    part32?_eq (by omega) (by omega) (by omega) (by omega), Option.bind_some]
  show (fit32? (blend lo hi x)).bind narrow16? = _
  rw [fit32?_eq (by omega) (by omega), Option.bind_some, narrow16?, if_pos hbetween]

/-! ## The walk by an index -/

section Walk

variable (xs : List UInt16) (ys : List Int16)

/-- The value at `x` from index `i` of two lists on, of which `length` entries count.  There is no
result where an entry is missing or the arithmetic has none. -/
def integerAboveIn32 (x : Int) (length i : Nat) : Option Int16 :=
  if i < length then do
    let hi ← xs[i]?
    if (hi.toNat : Int) = x then ys[i]?
    else if x < hi.toNat then do
      let lo ← xs[i - 1]?
      let y₀ ← ys[i - 1]?
      let y₁ ← ys[i]?
      blendIn32 (lo, y₀) (hi, y₁) x
    else integerAboveIn32 x length (i + 1)
  else ys[length - 1]?
termination_by length - i

/-- Integer interpolation in two lists, of which as many entries count as the shorter one has. -/
def integerIn32 (x : Int16) : Option Int16 := do
  let length := min xs.length ys.length
  if length = 0 then pure 0
  else
    let first ← xs[0]?
    if x.toInt < first.toNat then ys[0]?
    else
      let last ← xs[length - 1]?
      if (last.toNat : Int) < x.toInt then ys[length - 1]?
      else if x.toInt = first.toNat then ys[0]?
      else integerAboveIn32 xs ys x.toInt length 1

variable {xs ys}

/-- Behind a sample below the query, the walk by an index is the walk along the samples. -/
theorem integerAboveIn32_eq {x : Int} {rest : List (UInt16 × Int16)} {lo : UInt16 × Int16}
    {j : Nat} (hrest : (xs.zip ys).drop (j + 1) = rest) (hlo : (xs.zip ys)[j]? = some lo)
    (hbelow : (lo.1.toNat : Int) < x) :
    integerAboveIn32 xs ys x (min xs.length ys.length) (j + 1) = some (integerAbove lo x rest) := by
  have hlength : (xs.zip ys).length = min xs.length ys.length := List.length_zip
  obtain ⟨hxlo, hylo⟩ := List.getElem?_zip_eq_some.mp hlo
  -- The samples that are left are walked along; the one in front of them stays below the query.
  induction rest generalizing lo j with
  | nil =>
      obtain ⟨hinside, -⟩ := List.getElem?_eq_some_iff.mp hlo
      have hend := List.drop_eq_nil_iff.mp hrest
      have hlast : min xs.length ys.length - 1 = j := by omega
      rw [integerAboveIn32, if_neg (by omega), hlast, hylo, integerAbove]
  | cons hi rest ih =>
      have hhi : (xs.zip ys)[j + 1]? = some hi := by
        rw [← Nat.add_zero (j + 1), ← List.getElem?_drop, hrest]
        rfl
      have hinside := (List.getElem?_eq_some_iff.mp hhi).1
      obtain ⟨hxhi, hyhi⟩ := List.getElem?_zip_eq_some.mp hhi
      rw [integerAboveIn32, if_pos (by omega), hxhi, integerAbove]
      simp only [Option.bind_eq_bind, Option.bind_some, Nat.add_sub_cancel, hxlo, hylo, hyhi]
      by_cases hat : (hi.1.toNat : Int) = x
      · rw [if_pos hat, if_pos hat]
      by_cases habove : x < hi.1.toNat
      · rw [if_neg hat, if_neg hat, if_pos habove, if_pos habove, blendIn32_eq hbelow habove]
      · have hnext : (xs.zip ys).drop (j + 1 + 1) = rest := by
          rw [← List.drop_drop, hrest, List.drop_one, List.tail_cons]
        rw [if_neg hat, if_neg hat, if_neg habove, if_neg habove]
        exact ih hnext hhi (by omega) hxhi hyhi

/-- **No access out of bounds, no overflow**: interpolation in two lists always has a result, which
is that in the samples they make. -/
theorem integerIn32_eq (xs : List UInt16) (ys : List Int16) (x : Int16) :
    integerIn32 xs ys x = some (integer (xs.zip ys) x) := by
  have hlength : (xs.zip ys).length = min xs.length ys.length := List.length_zip
  unfold integerIn32 integer
  cases hsamples : xs.zip ys with
  | nil =>
      rw [hsamples, List.length_nil] at hlength
      rw [if_pos hlength.symm]
      rfl
  | cons first rest =>
      have hfirst : (xs.zip ys)[0]? = some first := by rw [hsamples]; rfl
      have hlast : (xs.zip ys)[min xs.length ys.length - 1]? = some (rest.getLast?.getD first) := by
        rw [← hlength, ← List.getLast?_eq_getElem?, hsamples, List.getLast?_cons]
      obtain ⟨hxfirst, hyfirst⟩ := List.getElem?_zip_eq_some.mp hfirst
      obtain ⟨hxlast, hylast⟩ := List.getElem?_zip_eq_some.mp hlast
      have hrest : (xs.zip ys).drop 1 = rest := by rw [hsamples, List.drop_one, List.tail_cons]
      rw [hsamples, List.length_cons] at hlength
      simp only [if_neg (show min xs.length ys.length ≠ 0 by omega), hxfirst, hyfirst, hxlast,
        hylast, Option.bind_eq_bind, Option.bind_some]
      by_cases hbelow : x.toInt < first.1.toNat
      · rw [if_pos hbelow, if_pos hbelow]
      by_cases habove : ((rest.getLast?.getD first).1.toNat : Int) < x.toInt
      · rw [if_neg hbelow, if_neg hbelow, if_pos habove, if_pos habove]
      by_cases hat : x.toInt = first.1.toNat
      · rw [if_neg hbelow, if_neg hbelow, if_neg habove, if_neg habove, if_pos hat, if_pos hat]
      · rw [if_neg hbelow, if_neg hbelow, if_neg habove, if_neg habove, if_neg hat, if_neg hat]
        exact integerAboveIn32_eq hrest hfirst (by omega)

end Walk

/-! ## Ascending tables -/

section Ascending

variable {samples : List (UInt16 × Int16)} {lo hi : UInt16 × Int16} {x : Int16}

/-- Below its first sample a table gives the first value. -/
theorem integer_of_below (hfirst : samples.head? = some lo) (hx : x.toInt < lo.1.toNat) :
    integer samples x = lo.2 := by
  obtain ⟨rest, rfl⟩ := List.head?_eq_some_iff.mp hfirst
  rw [integer, if_pos hx]

/-- Above its last sample an ascending table gives the last value. -/
theorem integer_of_above (h : samples.Pairwise (·.1 < ·.1)) (hlast : samples.getLast? = some hi)
    (hx : (hi.1.toNat : Int) < x.toInt) : integer samples x = hi.2 := by
  cases samples with
  | nil => contradiction
  | cons first rest =>
      rw [List.getLast?_cons, Option.some.injEq] at hlast
      have hle := UInt16.le_iff_toNat_le.mp (le_last h List.mem_cons_self)
      rw [hlast] at hle
      simp only [integer, hlast]
      rw [if_neg (by omega), if_pos hx]

/-- The walk stops between the two samples around the query. -/
theorem integerAbove_of_between {first : UInt16 × Int16} {rest : List (UInt16 × Int16)} {k : Nat}
    {x : Int} (h : (first :: rest).Pairwise (·.1 < ·.1)) (hk : (first :: rest)[k]? = some lo)
    (hk' : (first :: rest)[k + 1]? = some hi) (hlo : (lo.1.toNat : Int) < x)
    (hhi : x < hi.1.toNat) : integerAbove first x rest = Int16.ofInt (blend lo hi x) := by
  induction k generalizing first rest with
  | zero =>
      obtain rfl := Option.some.inj hk
      obtain ⟨back, rfl⟩ : ∃ back, rest = hi :: back :=
        List.head?_eq_some_iff.mp (List.head?_eq_getElem?.trans hk')
      rw [integerAbove, if_neg (by omega), if_pos hhi]
  | succ k ih =>
      cases rest with
      | nil => contradiction
      | cons second rest =>
          have htail := h.tail
          have hmem : lo ∈ second :: rest := List.mem_of_getElem? (i := k) hk
          have hle := UInt16.le_iff_toNat_le.mp (first_le htail hmem)
          rw [integerAbove, if_neg (by omega), if_neg (by omega)]
          exact ih htail hk hk'

/-- **Between two samples** of an ascending table the value is the one on the line, each part
truncated, and nothing is lost when it is narrowed. -/
theorem toInt_integer_of_between {k : Nat} (h : samples.Pairwise (·.1 < ·.1))
    (hk : samples[k]? = some lo) (hk' : samples[k + 1]? = some hi)
    (hlo : (lo.1.toNat : Int) < x.toInt) (hhi : x.toInt < hi.1.toNat) :
    (integer samples x).toInt = blend lo hi x.toInt := by
  cases samples with
  | nil => contradiction
  | cons first rest =>
      have hlast := UInt16.le_iff_toNat_le.mp (le_last h (List.mem_of_getElem? hk'))
      have hfirst := UInt16.le_iff_toNat_le.mp (first_le h (List.mem_of_getElem? hk))
      simp only [integer]
      rw [if_neg (by omega), if_neg (by omega), if_neg (by omega),
        integerAbove_of_between h hk hk' hlo hhi, toInt_ofInt_blend hlo hhi]

/-- Lists of the same length make an ascending table if the first one ascends. -/
theorem pairwise_zip {xs : List UInt16} {ys : List Int16} (h : xs.Pairwise (· < ·))
    (hlength : xs.length = ys.length) : (xs.zip ys).Pairwise (·.1 < ·.1) := by
  have hxs : (xs.zip ys).map Prod.fst = xs := List.map_fst_zip (Nat.le_of_eq hlength)
  rw [← hxs] at h
  exact List.pairwise_map.mp h

end Ascending

/-- **Integer tables**: in whatever order the samples are, and however long the two lists, 32-bit
arithmetic gives the value, with no overflow, no division by zero and nothing lost when it is
narrowed.  An ascending table gives the first value below its first sample, the last value above
its last one, the value of a sample at it, and between two neighbours a value less than two away
from the line through them. -/
theorem integer_in_words :
    (∀ xs ys x, integerIn32 xs ys x = some (integer (xs.zip ys) x)) ∧
    ∀ (xs : List UInt16) (ys : List Int16), xs.Pairwise (· < ·) → xs.length = ys.length →
      ∀ x : Int16,
        (∀ x₀ y₀, xs.head? = some x₀ → ys.head? = some y₀ → x.toInt < x₀.toNat →
          integer (xs.zip ys) x = y₀) ∧
        (∀ xₙ yₙ, xs.getLast? = some xₙ → ys.getLast? = some yₙ → (xₙ.toNat : Int) < x.toInt →
          integer (xs.zip ys) x = yₙ) ∧
        (∀ (k : ℕ) xₖ yₖ, xs[k]? = some xₖ → ys[k]? = some yₖ → x.toInt = xₖ.toNat →
          integer (xs.zip ys) x = yₖ) ∧
        ∀ (k : ℕ) x₀ y₀ x₁ y₁, xs[k]? = some x₀ → ys[k]? = some y₀ →
          xs[k + 1]? = some x₁ → ys[k + 1]? = some y₁ →
          (x₀.toNat : Int) < x.toInt → x.toInt < x₁.toNat →
          |((integer (xs.zip ys) x).toInt : ℚ) - line (x₀, y₀) (x₁, y₁) x.toInt| < 2 := by
  refine ⟨integerIn32_eq, fun xs ys hxs hlength x => ?_⟩
  have hsamples := pairwise_zip hxs hlength
  have hentry {k : ℕ} {xₖ : UInt16} {yₖ : Int16} (hx : xs[k]? = some xₖ) (hy : ys[k]? = some yₖ) :
      (xs.zip ys)[k]? = some (xₖ, yₖ) := List.getElem?_zip_eq_some.mpr ⟨hx, hy⟩
  refine ⟨fun x₀ y₀ hx hy hbelow => ?_, fun xₙ yₙ hx hy habove => ?_,
    fun k xₖ yₖ hx hy hat => ?_, fun k x₀ y₀ x₁ y₁ hx hy hx' hy' hlo hhi => ?_⟩
  · rw [List.head?_eq_getElem?] at hx hy
    exact integer_of_below (List.head?_eq_getElem?.trans (hentry hx hy)) hbelow
  · rw [List.getLast?_eq_getElem?] at hx hy
    rw [← hlength] at hy
    have hlast : (xs.zip ys).getLast? = some (xₙ, yₙ) := by
      rw [List.getLast?_eq_getElem?, List.length_zip, ← hlength, Nat.min_self]
      exact hentry hx hy
    exact integer_of_above hsamples hlast habove
  · exact integer_of_mem hsamples (List.mem_of_getElem? (hentry hx hy)) hat
  · rw [toInt_integer_of_between hsamples (hentry hx hy) (hentry hx' hy') hlo hhi]
    exact abs_blend_sub_line_lt hlo hhi

/-- A table out of order with the largest product there is between two samples, and an ascending
one below, above, at and between its samples. -/
theorem integer_in_words_three :
    integerIn32 [0, 65535, 7] [-32768, -32768, 3, 5] 1 = some (-32767) ∧
    (let xs : List UInt16 := [160, 320, 640]
    let ys : List Int16 := [100, -50, 20]
    integer (xs.zip ys) (-300) = 100 ∧ integer (xs.zip ys) 641 = 20 ∧
      integer (xs.zip ys) 320 = -50 ∧ integer (xs.zip ys) 340 = -45 ∧
      |((integer (xs.zip ys) 340).toInt : ℚ) - line (320, -50) (640, 20) (340 : Int16).toInt|
        < 2) := by
  refine ⟨(integer_in_words.1 _ _ _).trans rfl, ?_⟩
  intro xs ys
  have hascending := integer_in_words.2 xs ys (by decide) rfl
  have hbelow := (hascending (-300)).1 160 100 rfl rfl (by decide)
  have habove := (hascending 641).2.1 640 20 rfl rfl (by decide)
  have hat := (hascending 320).2.2.1 1 320 (-50) rfl rfl (by decide)
  have hbetween := (hascending 340).2.2.2 1 320 (-50) 640 20 rfl rfl rfl rfl (by decide)
    (by decide)
  exact ⟨hbelow, habove, hat, rfl, hbetween⟩

end Interpolation
end RfidReader
