import Mathlib.Algebra.Order.Round
import Mathlib.Data.Rat.Floor
import Mathlib.Tactic.FieldSimp
import Mathlib.Tactic.Linarith
import RfidReader.Hopping.Synthesizer

/-!
# RfidReader.Proofs.Hopping.Dividers

Carriers and the dividers that give them.

A carrier is the reference frequency times `n / (4 r)`, rounded down
(`exists_carrierKhz`), and a divider the exact one rounded to the nearest
(`toNat_nDivider`).  A reference of at least `8 r` makes the carriers of
neighbouring dividers lie two kilohertz apart or more.  What is lost by rounding
down is then less than half a step, so a divider is found again from its carrier
(`round_exactDivider_floor`); and the carrier nearest to a frequency is off by
half a step and less than one kilohertz (`abs_floor_exactKhz_sub_lt`).

The arithmetic is done in words of 64 bits.  For references of up to 6 GHz
nothing overflows on the way, and no divider or carrier loses bits when it is
narrowed (`nDividerIn64_eq`, `carrierIn64_eq`).
-/

namespace RfidReader
namespace Synthesizer

/-! ## Exact dividers and carriers -/

/-- The divider that gives a frequency exactly. -/
def exactDivider (reference r : ℕ) (khz : ℚ) : ℚ := 4 * khz * r / reference

/-- The frequency that a divider gives exactly. -/
def exactKhz (reference r : ℕ) (n : ℚ) : ℚ := reference * n / (4 * r)

section Exact

variable {reference r : ℕ}

theorem exactKhz_exactDivider (hr : 0 < r) (href : 0 < reference) (khz : ℚ) :
    exactKhz reference r (exactDivider reference r khz) = khz := by
  unfold exactKhz exactDivider
  field_simp

theorem exactDivider_exactKhz (hr : 0 < r) (href : 0 < reference) (n : ℚ) :
    exactDivider reference r (exactKhz reference r n) = n := by
  unfold exactKhz exactDivider
  field_simp

theorem exactKhz_sub (m n : ℚ) :
    exactKhz reference r m - exactKhz reference r n = reference / (4 * r) * (m - n) := by
  unfold exactKhz
  ring

theorem exactDivider_sub (a b : ℚ) :
    exactDivider reference r a - exactDivider reference r b = 4 * r / reference * (a - b) := by
  unfold exactDivider
  ring

/-- A divider is the one nearest to what gives its carrier, rounded down, exactly. -/
theorem round_exactDivider_floor (hr : 0 < r) (hlow : 8 * r ≤ reference) (n : ℤ) :
    round (exactDivider reference r ⌊exactKhz reference r n⌋) = n := by
  have href : 0 < reference := by omega
  have hstep : (4 * r / reference : ℚ) ≤ 1 / 2 := by
    have hlow : (8 * r : ℚ) ≤ reference := by exact_mod_cast hlow
    rw [div_le_iff₀ (by exact_mod_cast href)]
    linarith
  have hpos : (0 : ℚ) < 4 * r / reference := by positivity
  have hloss : exactDivider reference r (exactKhz reference r n)
      - exactDivider reference r ⌊exactKhz reference r n⌋ = _ := exactDivider_sub _ _
  rw [exactDivider_exactKhz hr href, ← Int.fract] at hloss
  have hfract := Int.fract_nonneg (exactKhz reference r n)
  have hfract' := Int.fract_lt_one (exactKhz reference r n)
  -- Less than a kilohertz was lost, which is less than half a step of the divider.
  have hnonneg := mul_nonneg hpos.le hfract
  have hhalf : 4 * r / reference * Int.fract (exactKhz reference r n) < 1 / 2 :=
    (mul_lt_of_lt_one_right hpos hfract').trans_le hstep
  rw [round_eq_iff]
  constructor <;> linarith

/-- The carrier of the nearest divider is off by half a step and less than a kilohertz. -/
theorem abs_floor_exactKhz_sub_lt (hr : 0 < r) (href : 0 < reference) (khz : ℚ) :
    |(⌊exactKhz reference r (round (exactDivider reference r khz))⌋ : ℚ) - khz|
      < reference / (8 * r) + 1 := by
  generalize hx : exactDivider reference r khz = x
  have hkhz : exactKhz reference r x = khz := hx ▸ exactKhz_exactDivider hr href khz
  have hround : |exactKhz reference r (round x) - khz| ≤ reference / (8 * r) := by
    have hstep : (0 : ℚ) ≤ reference / (4 * r) := by positivity
    rw [← hkhz, exactKhz_sub, abs_mul, abs_of_nonneg hstep, abs_sub_comm]
    calc (reference / (4 * r) * |x - round x| : ℚ)
      _ ≤ reference / (4 * r) * (1 / 2) := mul_le_mul_of_nonneg_left (abs_sub_round x) hstep
      _ = reference / (8 * r) := by ring
  have hfract := Int.fract_nonneg (exactKhz reference r (round x))
  have hfract' := Int.fract_lt_one (exactKhz reference r (round x))
  rw [Int.fract] at hfract hfract'
  rw [abs_le] at hround
  rw [abs_lt]
  constructor <;> linarith

end Exact

/-! ## Rounding -/

/-- Half of the denominator is added to round to the nearest; that a half of one is cut off where
it is odd does not matter. -/
theorem round_natCast_div (a : ℕ) {b : ℕ} (hb : 0 < b) :
    round (a / b : ℚ) = ((a + b / 2) / b : ℕ) := by
  have hdiv := Nat.div_add_mod (a + b / 2) b
  have hmod := Nat.mod_lt (a + b / 2) hb
  generalize (a + b / 2) / b = q at hdiv ⊢
  have hlow : 2 * (b * q) ≤ 2 * a + b := by omega
  have hhigh : 2 * a < 2 * (b * q) + b := by omega
  have hb' : (0 : ℚ) < b := by exact_mod_cast hb
  have hlow' : (2 * (b * q) : ℚ) ≤ 2 * a + b := by exact_mod_cast hlow
  have hhigh' : (2 * a : ℚ) < 2 * (b * q) + b := by exact_mod_cast hhigh
  rw [round_eq_iff, Set.mem_Ico, le_div_iff₀ hb', div_lt_iff₀ hb']
  push_cast
  constructor <;> linarith

variable {reference khz r : UInt32} {n : UInt16}

theorem rDividers_bounds : ∀ r ∈ rDividers, 24 ≤ r.toNat ∧ r.toNat ≤ 240 := by
  simp [rDividers]

/-- The exact divider rounded to the nearest, in whole numbers. -/
theorem round_exactDivider (href : 0 < reference.toNat) (khz r : UInt32) :
    round (exactDivider reference.toNat r.toNat khz.toNat) =
      ((4 * khz.toNat * r.toNat + reference.toNat / 2) / reference.toNat : ℕ) := by
  rw [← round_natCast_div _ href, exactDivider]
  push_cast
  rfl

/-- **Dividers** are the exact ones, rounded to the nearest. -/
theorem toNat_nDivider (href : 0 < reference.toNat)
    (hfits : round (exactDivider reference.toNat r.toNat khz.toNat) < 65536) :
    ((nDivider reference khz r).toNat : ℤ) =
      round (exactDivider reference.toNat r.toNat khz.toNat) := by
  have hne : reference ≠ 0 := by
    rintro rfl
    exact absurd href (by decide)
  rw [round_exactDivider href] at hfits ⊢
  rw [nDivider, if_neg hne, UInt16.toNat_ofNat', Nat.mod_eq_of_lt (by omega)]

/-- A carrier fits 32 bits. -/
theorem carrier_lt (hr : r ∈ rDividers) (hhigh : reference.toNat ≤ 6000000) (n : UInt16) :
    reference.toNat * n.toNat / (4 * r.toNat) < 4294967296 := by
  have hlow := (rDividers_bounds r hr).1
  have hn : n.toNat ≤ 65535 := Nat.le_of_lt_succ n.toNat_lt
  have hproduct := Nat.mul_le_mul hhigh hn
  rw [Nat.div_lt_iff_lt_mul (by omega)]
  omega

/-- **Carriers** are the exact ones, rounded down. -/
theorem exists_carrierKhz {k : UInt8} (hk : rDividers[k.toNat]? = some r)
    (hhigh : reference.toNat ≤ 6000000) (n : UInt16) :
    ∃ khz, carrierKhz reference k n = .ok khz ∧
      (khz.toNat : ℤ) = ⌊exactKhz reference.toNat r.toNat n.toNat⌋ := by
  have hlt := carrier_lt (List.mem_of_getElem? hk) hhigh n
  refine ⟨_, by rw [carrierKhz, hk], ?_⟩
  have hfloor := Rat.floor_intCast_div_natCast (reference.toNat * n.toNat : ℕ) (4 * r.toNat)
  rw [UInt32.toNat_ofNat', Nat.mod_eq_of_lt hlt, exactKhz]
  push_cast at hfloor ⊢
  exact hfloor.symm

/-! ## Words of 64 bits -/

/-- A product of 64-bit words, none if it overflows. -/
def product? (a b : UInt64) : Option UInt64 :=
  if a.toNat * b.toNat < 18446744073709551616 then some (a * b) else none

/-- A sum of 64-bit words, none if it overflows. -/
def sum? (a b : UInt64) : Option UInt64 :=
  if a.toNat + b.toNat < 18446744073709551616 then some (a + b) else none

/-- The 16-bit word of a number, none if it has more bits. -/
def narrow16? (a : UInt64) : Option UInt16 := if a.toNat < 65536 then some a.toUInt16 else none

/-- The 32-bit word of a number, none if it has more bits. -/
def narrow32? (a : UInt64) : Option UInt32 := if a.toNat < 4294967296 then some a.toUInt32 else none

/-- The nearest divider in 64-bit words; there is no result if anything overflows or is lost. -/
def nDividerIn64 (reference khz r : UInt32) : Option UInt16 :=
  if reference = 0 then some 0
  else do
    let quarters ← product? 4 khz.toUInt64
    let scaled ← product? quarters r.toUInt64
    let numerator ← sum? scaled (reference / 2).toUInt64
    narrow16? (numerator / reference.toUInt64)

/-- The carrier in 64-bit words; there is no result if anything overflows or is lost. -/
def carrierIn64 (reference : UInt32) (rIndex : UInt8) (n : UInt16) : Option (Except Fault UInt32) :=
  match rDividers[rIndex.toNat]? with
  | none => some (.error .rDividerIndexOutOfRange)
  | some r => do
    let numerator ← product? reference.toUInt64 n.toUInt64
    let denominator ← product? 4 r.toUInt64
    let khz ← narrow32? (numerator / denominator)
    pure (.ok khz)

theorem exists_product? {a b : UInt64} (h : a.toNat * b.toNat < 18446744073709551616) :
    ∃ c, product? a b = some c ∧ c.toNat = a.toNat * b.toNat :=
  ⟨a * b, if_pos h, by rw [UInt64.toNat_mul]; exact Nat.mod_eq_of_lt h⟩

theorem exists_sum? {a b : UInt64} (h : a.toNat + b.toNat < 18446744073709551616) :
    ∃ c, sum? a b = some c ∧ c.toNat = a.toNat + b.toNat :=
  ⟨a + b, if_pos h, by rw [UInt64.toNat_add]; exact Nat.mod_eq_of_lt h⟩

theorem narrow16?_eq {a : UInt64} (h : a.toNat < 65536) :
    narrow16? a = some (UInt16.ofNat a.toNat) := by
  rw [narrow16?, if_pos h]
  rfl

theorem narrow32?_eq {a : UInt64} (h : a.toNat < 4294967296) :
    narrow32? a = some (UInt32.ofNat a.toNat) := by
  rw [narrow32?, if_pos h]
  rfl

/-- **Dividers in 64 bits**: nothing overflows on the way to a divider that fits its word. -/
theorem nDividerIn64_eq (hr : r ∈ rDividers) (href : 0 < reference.toNat)
    (hfits : round (exactDivider reference.toNat r.toNat khz.toNat) < 65536) :
    nDividerIn64 reference khz r = some (nDivider reference khz r) := by
  have hhigh := (rDividers_bounds r hr).2
  have hkhz := khz.toNat_lt
  have hreference := reference.toNat_lt
  have hproduct : khz.toNat * r.toNat ≤ 4294967295 * 240 :=
    Nat.mul_le_mul (by omega) hhigh
  have hhalf : (reference / 2).toUInt64.toNat = reference.toNat / 2 := by
    rw [UInt32.toNat_toUInt64, UInt32.toNat_div]
    rfl
  have hfour : (4 : UInt64).toNat = 4 := rfl
  rw [round_exactDivider href] at hfits
  unfold nDividerIn64 nDivider
  by_cases hzero : reference = 0
  · rw [if_pos hzero, if_pos hzero]
  rw [if_neg hzero, if_neg hzero]
  obtain ⟨quarters, hquarters, hquartersNat⟩ := @exists_product? 4 khz.toUInt64
    (by rw [UInt32.toNat_toUInt64, hfour]; omega)
  rw [UInt32.toNat_toUInt64, hfour] at hquartersNat
  obtain ⟨scaled, hscaled, hscaledNat⟩ := @exists_product? quarters r.toUInt64
    (by rw [hquartersNat, UInt32.toNat_toUInt64, Nat.mul_assoc]; omega)
  rw [UInt32.toNat_toUInt64, hquartersNat] at hscaledNat
  obtain ⟨numerator, hnumerator, hnumeratorNat⟩ := @exists_sum? scaled (reference / 2).toUInt64
    (by rw [hscaledNat, hhalf, Nat.mul_assoc]; omega)
  rw [hhalf, hscaledNat] at hnumeratorNat
  have hquotient : (numerator / reference.toUInt64).toNat =
      (4 * khz.toNat * r.toNat + reference.toNat / 2) / reference.toNat := by
    rw [UInt64.toNat_div, hnumeratorNat, UInt32.toNat_toUInt64]
  simp only [hquarters, hscaled, hnumerator, Option.bind_eq_bind, Option.bind_some]
  rw [narrow16?_eq (by omega), hquotient]

/-- **Carriers in 64 bits**: nothing overflows on the way to a carrier. -/
theorem carrierIn64_eq {k : UInt8} (hk : rDividers[k.toNat]? = some r)
    (hhigh : reference.toNat ≤ 6000000) (n : UInt16) :
    carrierIn64 reference k n = some (carrierKhz reference k n) := by
  have hr := List.mem_of_getElem? hk
  have hbound := (rDividers_bounds r hr).2
  have hlt := carrier_lt hr hhigh n
  have hn : n.toNat ≤ 65535 := Nat.le_of_lt_succ n.toNat_lt
  have hproduct := Nat.mul_le_mul hhigh hn
  have hfour : (4 : UInt64).toNat = 4 := rfl
  obtain ⟨numerator, hnumerator, hnumeratorNat⟩ := @exists_product? reference.toUInt64 n.toUInt64
    (by rw [UInt32.toNat_toUInt64, UInt16.toNat_toUInt64]; omega)
  rw [UInt32.toNat_toUInt64, UInt16.toNat_toUInt64] at hnumeratorNat
  obtain ⟨denominator, hdenominator, hdenominatorNat⟩ := @exists_product? 4 r.toUInt64
    (by rw [UInt32.toNat_toUInt64, hfour]; omega)
  rw [UInt32.toNat_toUInt64, hfour] at hdenominatorNat
  have hquotient : (numerator / denominator).toNat =
      reference.toNat * n.toNat / (4 * r.toNat) := by
    rw [UInt64.toNat_div, hnumeratorNat, hdenominatorNat]
  simp only [carrierIn64, carrierKhz, hk, hnumerator, hdenominator, Option.bind_eq_bind,
    Option.bind_some, Option.pure_def]
  rw [narrow32?_eq (by omega), hquotient, Option.bind_some]

/-! ## Round trips -/

/-- Every divider of the table is found at its own index. -/
theorem exists_rIndex? (hr : r ∈ rDividers) :
    ∃ k : UInt8, k < 8 ∧ rIndex? r = some k ∧ rDividers[k.toNat]? = some r := by
  have hindex : ∀ k : Fin 8, UInt8.ofNat k < 8 ∧
      rIndex? (rDividers.get k) = some (UInt8.ofNat k) ∧
      rDividers[(UInt8.ofNat k).toNat]? = some (rDividers.get k) := by decide
  obtain ⟨k, rfl⟩ := List.mem_iff_get.mp hr
  exact ⟨UInt8.ofNat k, hindex k⟩

/-- **Dividers round trip**: with a reference frequency from `8 r` up to 6 GHz every divider is
found again from its carrier, and the carrier of the divider for a frequency, if that fits its
word, is off by less than half a step and one kilohertz.  Nothing overflows or is lost on the
way. -/
theorem dividers_round_trip {r : UInt32} (hr : r ∈ rDividers) :
    ∃ k : UInt8, k < 8 ∧ rIndex? r = some k ∧ ∀ reference : UInt32,
      8 * r.toNat ≤ reference.toNat → reference.toNat ≤ 6000000 →
      (∀ n : UInt16, ∃ khz, carrierKhz reference k n = .ok khz ∧ nDivider reference khz r = n ∧
        carrierIn64 reference k n = some (.ok khz) ∧ nDividerIn64 reference khz r = some n) ∧
      ∀ khz : UInt32, round (exactDivider reference.toNat r.toNat khz.toNat) < 65536 →
        let n := nDivider reference khz r
        ∃ khz', carrierKhz reference k n = .ok khz' ∧
          |(khz'.toNat : ℚ) - khz.toNat| < reference.toNat / (8 * r.toNat) + 1 ∧
          nDividerIn64 reference khz r = some n ∧
          carrierIn64 reference k n = some (.ok khz') := by
  obtain ⟨k, hlt, hk, hk'⟩ := exists_rIndex? hr
  refine ⟨k, hlt, hk, fun reference hlow hhigh => ?_⟩
  have hrpos : 0 < r.toNat := Nat.zero_lt_of_lt (rDividers_bounds r hr).1
  have href : 0 < reference.toNat := by omega
  refine ⟨fun n => ?_, fun khz hfits => ?_⟩
  · obtain ⟨khz, hkhz, hfloor⟩ := exists_carrierKhz hk' hhigh n
    have hround : round (exactDivider reference.toNat r.toNat khz.toNat) = n.toNat := by
      have hfound := round_exactDivider_floor hrpos hlow n.toNat
      rw [← Int.cast_natCast khz.toNat, hfloor]
      exact_mod_cast hfound
    have hfits : round (exactDivider reference.toNat r.toNat khz.toNat) < 65536 := by
      have hn := n.toNat_lt
      rw [hround]
      omega
    have hdivider : nDivider reference khz r = n := by
      have hnat := toNat_nDivider href hfits
      rw [hround] at hnat
      exact UInt16.toNat_inj.mp (by exact_mod_cast hnat)
    refine ⟨khz, hkhz, hdivider, ?_, ?_⟩
    · rw [carrierIn64_eq hk' hhigh, hkhz]
    · rw [nDividerIn64_eq hr href hfits, hdivider]
  · intro n
    obtain ⟨khz', hkhz', hfloor⟩ := exists_carrierKhz hk' hhigh n
    refine ⟨khz', hkhz', ?_, nDividerIn64_eq hr href hfits, ?_⟩
    · have hnat := toNat_nDivider href hfits
      have hclose := abs_floor_exactKhz_sub_lt hrpos href (khz.toNat : ℚ)
      rw [← hnat] at hclose
      rw [← Int.cast_natCast khz'.toNat, hfloor]
      exact_mod_cast hclose
    · rw [carrierIn64_eq hk' hhigh, hkhz']

/-- An odd reference just wide enough for the largest divider: its largest divider is found again,
and a frequency between two carriers is met to within two kilohertz. -/
theorem dividers_round_trip_odd :
    (∃ khz, carrierKhz 1921 7 65535 = .ok khz ∧ nDivider 1921 khz 240 = 65535 ∧
      carrierIn64 1921 7 65535 = some (.ok khz) ∧ nDividerIn64 1921 khz 240 = some 65535) ∧
    ∃ khz, carrierKhz 1921 7 (nDivider 1921 131101 240) = .ok khz ∧
      |(khz.toNat : ℚ) - 131101| < 1921 / 1920 + 1 ∧
      nDividerIn64 1921 131101 240 = some (nDivider 1921 131101 240) ∧
      carrierIn64 1921 7 (nDivider 1921 131101 240) = some (.ok khz) := by
  obtain ⟨k, -, hk, htrip⟩ := dividers_round_trip (r := 240) (by decide)
  obtain rfl : k = 7 := by
    have hseven : rIndex? 240 = some 7 := by decide
    exact Option.some.inj (hk.symm.trans hseven)
  obtain ⟨hdivider, hcarrier⟩ := htrip 1921 (by decide) (by decide)
  refine ⟨hdivider 65535, ?_⟩
  have hfits : round (exactDivider (1921 : UInt32).toNat (240 : UInt32).toNat
      (131101 : UInt32).toNat) < 65536 := by
    rw [round_exactDivider (by decide)]
    decide
  obtain ⟨khz, hkhz, hclose, hrest⟩ := hcarrier 131101 hfits
  refine ⟨khz, hkhz, ?_, hrest⟩
  have hwidth : ((1921 : UInt32).toNat / (8 * (240 : UInt32).toNat) : ℚ) = 1921 / 1920 := by
    norm_num [show (1921 : UInt32).toNat = 1921 from rfl, show (240 : UInt32).toNat = 240 from rfl]
  rwa [hwidth] at hclose

end Synthesizer
end RfidReader
