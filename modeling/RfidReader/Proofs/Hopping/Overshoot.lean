import Mathlib.Logic.Relation
import Mathlib.Tactic.SplitIfs
import RfidReader.Proofs.Hopping.DwellLimits
import RfidReader.Proofs.Word

/-!
# RfidReader.Proofs.Hopping.Overshoot

What a ramp teaches about the chip's overshoot.

The learned overshoot is adjusted by how much longer or shorter the ramp was
than expected, but what was learned before cancels out: the new value is the
measured time less the nominal one, between 0 and the largest word
(`overshootMs_recordRamp`).  The measured time comes from two readings of the
millisecond counter, across its rollover if need be, and is off by a
millisecond at most (`elapsedMs_readingAt`).  No sum or difference on the way
overflows its 32 bits (`recordRampIn32_eq`).

A chip that is always late by the same time is therefore known after its first
ramp, and from then on stays on for exactly the nominal time of the region
(`recordRamp_learns`).
-/

namespace RfidReader
namespace ActiveRegion

/-! ## The counter -/

/-- What the millisecond counter reads at an instant given in microseconds: the 32-bit timestamp,
in whole milliseconds. -/
def readingAt (us : Nat) : UInt32 := UInt32.ofNat us / 1000

theorem toNat_readingAt (us : Nat) : (readingAt us).toNat = us % 4294967296 / 1000 := by
  rw [readingAt, UInt32.toNat_div, UInt32.toNat_ofNat']
  rfl

theorem readingAt_le (us : Nat) : readingAt us ≤ lastCounterMs := by
  rw [UInt32.le_iff_toNat_le, toNat_readingAt]
  show us % 4294967296 / 1000 ≤ 4294967
  omega

/-- The time between two readings, as a number. -/
theorem toNat_elapsedMs {up : UInt32} (hup : up ≤ lastCounterMs) (down : UInt32) :
    (elapsedMs up down).toNat =
      if down.toNat < up.toNat then 4294967 - up.toNat + down.toNat
      else down.toNat - up.toNat := by
  have hlast : up.toNat ≤ 4294967 := UInt32.le_iff_toNat_le.mp hup
  unfold elapsedMs
  by_cases hover : down < up
  · have hlt := UInt32.lt_iff_toNat_lt.mp hover
    have hleft : (lastCounterMs - up).toNat = 4294967 - up.toNat :=
      UInt32.toNat_sub_of_le _ _ hup
    rw [if_pos hover, if_pos hlt, UInt32.toNat_add, hleft]
    omega
  · have hle := UInt32.not_lt.mp hover
    rw [if_neg hover, if_neg (mt UInt32.lt_iff_toNat_lt.mpr hover), UInt32.toNat_sub_of_le _ _ hle]

/-- **Measured time**: up to half a period of the timestamp, the time between two readings is the
true one in whole milliseconds, give or take one. -/
theorem elapsedMs_readingAt {upUs downUs : Nat} (hle : upUs ≤ downUs)
    (hhalf : downUs ≤ upUs + 2147483648) :
    (elapsedMs (readingAt upUs) (readingAt downUs)).toNat ≤ (downUs - upUs) / 1000 + 1 ∧
      (downUs - upUs) / 1000 ≤ (elapsedMs (readingAt upUs) (readingAt downUs)).toNat + 1 := by
  rw [toNat_elapsedMs (readingAt_le upUs), toNat_readingAt, toNat_readingAt]
  -- Half a period is more than a millisecond, so the second reading is the smaller one exactly
  -- when the timestamp has started over.
  split_ifs with hover <;> omega

/-- A time of whole milliseconds is measured exactly while the timestamp does not start over. -/
theorem elapsedMs_readingAt_whole {upUs ms : Nat}
    (hpass : upUs / 4294967296 = (upUs + 1000 * ms) / 4294967296) :
    (elapsedMs (readingAt upUs) (readingAt (upUs + 1000 * ms))).toNat = ms := by
  rw [toNat_elapsedMs (readingAt_le upUs), toNat_readingAt, toNat_readingAt]
  split_ifs with hover <;> omega

/-! ## Learning -/

/-- **What is learned** is the measured time less the nominal one, whatever was known before. -/
theorem overshootMs_recordRamp (a : ActiveRegion) (upMs downMs : UInt32) (nominalMs : UInt16) :
    ((a.recordRamp upMs downMs nominalMs).overshootMs.toNat : Int) =
      max 0 (min 65535 (((elapsedMs upMs downMs).toNat : Int) - nominalMs.toNat)) := by
  simp only [recordRamp, toNat_clampUInt16]
  -- Both branches add the old overshoot and take it away again.
  split_ifs <;> omega

/-! ## Overflow -/

/-- A sum of 32-bit words, none if it overflows. -/
def sum? (a b : UInt32) : Option UInt32 :=
  if a.toNat + b.toNat < 4294967296 then some (a + b) else none

/-- A difference of 32-bit words, none if it falls below zero. -/
def difference? (a b : UInt32) : Option UInt32 := if b ≤ a then some (a - b) else none

theorem exists_sum? {a b : UInt32} (h : a.toNat + b.toNat < 4294967296) :
    ∃ c, sum? a b = some c ∧ c.toNat = a.toNat + b.toNat := by
  refine ⟨a + b, if_pos h, ?_⟩
  rw [UInt32.toNat_add]
  exact Nat.mod_eq_of_lt h

theorem exists_difference? {a b : UInt32} (h : b ≤ a) :
    ∃ c, difference? a b = some c ∧ c.toNat = a.toNat - b.toNat :=
  ⟨a - b, if_pos h, UInt32.toNat_sub_of_le a b h⟩

/-- The time between two readings in 32-bit words.  The sum across the rollover is let overflow,
the differences are not. -/
def elapsedIn32 (up down : UInt32) : Option UInt32 :=
  if down < up then (difference? lastCounterMs up).map (· + down) else difference? down up

/-- Learn the overshoot of a ramp in 32-bit words; there is no result once a sum or a difference
overflows.  A ramp that was too short takes away no more than was known. -/
def recordRampIn32 (a : ActiveRegion) (upMs downMs : UInt32) (nominalMs : UInt16) :
    Option ActiveRegion := do
  let known := a.overshootMs.toUInt32
  let onMs ← elapsedIn32 upMs downMs
  let expected ← sum? nominalMs.toUInt32 known
  let overshoot ←
    if expected ≤ onMs then do
      let late ← difference? onMs expected
      sum? known late
    else do
      let early ← difference? expected onMs
      pure (if early ≤ known then known - early else 0)
  pure { a with overshootMs := (if overshoot ≤ 65535 then overshoot else 65535).toUInt16 }

theorem elapsedIn32_eq {up : UInt32} (hup : up ≤ lastCounterMs) (down : UInt32) :
    elapsedIn32 up down = some (elapsedMs up down) := by
  unfold elapsedIn32 elapsedMs
  split
  · rw [difference?, if_pos hup, Option.map_some]
  · next hover => rw [difference?, if_pos (UInt32.not_lt.mp hover)]

/-- The new overshoot is the one that was learned, if it is the same number up to the largest
word. -/
theorem recordRamp_eq_of_toNat {a : ActiveRegion} {upMs downMs : UInt32} {nominalMs : UInt16}
    {overshoot : UInt32}
    (h : overshoot.toNat = (elapsedMs upMs downMs).toNat - nominalMs.toNat) :
    { a with overshootMs := (if overshoot ≤ 65535 then overshoot else 65535).toUInt16 } =
      a.recordRamp upMs downMs nominalMs := by
  have hlearned := a.overshootMs_recordRamp upMs downMs nominalMs
  have hovershoot : (if overshoot ≤ 65535 then overshoot else 65535).toUInt16 =
      (a.recordRamp upMs downMs nominalMs).overshootMs := by
    rw [← UInt16.toNat_inj, UInt32.toNat_toUInt16]
    split_ifs with hfits
    · have hle : overshoot.toNat ≤ 65535 := UInt32.le_iff_toNat_le.mp hfits
      omega
    · have hlt : 65535 < overshoot.toNat := UInt32.lt_iff_toNat_lt.mp (UInt32.not_le.mp hfits)
      show 65535 % 65536 = _
      omega
  rw [hovershoot]
  rfl

/-- **Nothing overflows** on the way from readings of the counter to what is learned. -/
theorem recordRampIn32_eq (a : ActiveRegion) {upMs downMs : UInt32} (hup : upMs ≤ lastCounterMs)
    (hdown : downMs ≤ lastCounterMs) (nominalMs : UInt16) :
    a.recordRampIn32 upMs downMs nominalMs = some (a.recordRamp upMs downMs nominalMs) := by
  have hlast : upMs.toNat ≤ 4294967 := UInt32.le_iff_toNat_le.mp hup
  have hlast' : downMs.toNat ≤ 4294967 := UInt32.le_iff_toNat_le.mp hdown
  have hknown : a.overshootMs.toUInt32.toNat = a.overshootMs.toNat := UInt16.toNat_toUInt32 _
  have hnominal : nominalMs.toUInt32.toNat = nominalMs.toNat := UInt16.toNat_toUInt32 _
  have hlt := a.overshootMs.toNat_lt
  have hlt' := nominalMs.toNat_lt
  have honMs : (elapsedMs upMs downMs).toNat ≤ 4294967 := by
    rw [toNat_elapsedMs hup]
    split <;> omega
  obtain ⟨expected, hexpected, hexpectedMs⟩ :=
    @exists_sum? nominalMs.toUInt32 a.overshootMs.toUInt32 (by omega)
  simp only [recordRampIn32, elapsedIn32_eq hup, hexpected, Option.bind_eq_bind, Option.bind_some,
    Option.pure_def]
  split
  · next hlong =>
      have hle := UInt32.le_iff_toNat_le.mp hlong
      obtain ⟨late, hlate, hlateMs⟩ := exists_difference? hlong
      obtain ⟨sum, hsum, hsumMs⟩ := @exists_sum? a.overshootMs.toUInt32 late (by omega)
      simp only [hlate, hsum, Option.bind_some]
      exact congrArg some (recordRamp_eq_of_toNat (by omega))
  · next hshort =>
      have hlt := UInt32.not_le.mp hshort
      have hltMs := UInt32.lt_iff_toNat_lt.mp hlt
      obtain ⟨early, hearly, hearlyMs⟩ := exists_difference? (UInt32.le_of_lt hlt)
      simp only [hearly, Option.bind_some]
      refine congrArg some (recordRamp_eq_of_toNat ?_)
      split_ifs with hknown'
      · rw [UInt32.toNat_sub_of_le _ _ hknown']
        omega
      · have hmore := UInt32.lt_iff_toNat_lt.mp (UInt32.not_le.mp hknown')
        show 0 = _
        omega

/-! ## A chip that is always late -/

/-- A ramp that is recorded, by a chip that stays on `lateMs` longer than the nominal time it is
given.  The timestamp does not start over during the ramp. -/
inductive LateRamp (timers : DwellTimers) (lateMs : UInt16) :
    ActiveRegion → ActiveRegion → Prop where
  | record (a : ActiveRegion) (upUs onMs : Nat)
      (hon : onMs = (a.compensateOvershoot timers).nominalMs.toNat + lateMs.toNat)
      (hpass : upUs / 4294967296 = (upUs + 1000 * onMs) / 4294967296) :
      LateRamp timers lateMs a
        (a.recordRamp (readingAt upUs) (readingAt (upUs + 1000 * onMs))
          (a.compensateOvershoot timers).nominalMs)

variable {timers : DwellTimers} {lateMs : UInt16} {a b : ActiveRegion}

/-- One ramp tells how late the chip is. -/
theorem LateRamp.overshootMs_eq (h : LateRamp timers lateMs a b) : b.overshootMs = lateMs := by
  cases h with
  | record upUs onMs hon hpass =>
      have hlearned := a.overshootMs_recordRamp (readingAt upUs) (readingAt (upUs + 1000 * onMs))
        (a.compensateOvershoot timers).nominalMs
      rw [elapsedMs_readingAt_whole hpass] at hlearned
      have hlt := lateMs.toNat_lt
      rw [← UInt16.toNat_inj]
      omega

/-- The nominal time makes up for an overshoot that is shorter. -/
theorem nominalMs_compensateOvershoot (h : a.overshootMs < timers.nominalMs) :
    (a.compensateOvershoot timers).nominalMs.toNat + a.overshootMs.toNat =
      timers.nominalMs.toNat := by
  have hlt := UInt16.lt_iff_toNat_lt.mp h
  have hone : 1 ≤ timers.nominalMs := UInt16.le_iff_toNat_le.mpr (Nat.one_le_of_lt hlt)
  rw [compensateOvershoot_eq a hone, ChannelUse.toNat_remaining]
  omega

/-- **Learning**: between any two instants up to half a period of the timestamp apart, what is
learned is a time that is right to the millisecond, less the nominal time, whatever was known
before; nothing overflows.  A chip that is late by less than the nominal time, always by the
same, is known after one ramp, and its next ramp then takes the nominal time exactly. -/
theorem recordRamp_learns :
    (∀ upUs downUs : Nat, upUs ≤ downUs → downUs ≤ upUs + 2 ^ 31 → ∃ onMs : Nat,
      (onMs ≤ (downUs - upUs) / 1000 + 1 ∧ (downUs - upUs) / 1000 ≤ onMs + 1) ∧
      ∀ (a : ActiveRegion) (nominalMs : UInt16),
        a.recordRampIn32 (readingAt upUs) (readingAt downUs) nominalMs =
          some (a.recordRamp (readingAt upUs) (readingAt downUs) nominalMs) ∧
        ((a.recordRamp (readingAt upUs) (readingAt downUs) nominalMs).overshootMs.toNat : Int) =
          max 0 (min 65535 ((onMs : Int) - nominalMs.toNat))) ∧
    ∀ (timers : DwellTimers) (lateMs : UInt16) (a b : ActiveRegion), lateMs < timers.nominalMs →
      Relation.TransGen (LateRamp timers lateMs) a b →
        b.overshootMs = lateMs ∧
        (b.compensateOvershoot timers).nominalMs.toNat + lateMs.toNat =
          timers.nominalMs.toNat := by
  refine ⟨fun upUs downUs hle hhalf => ?_, fun timers lateMs a b hlate hramps => ?_⟩
  · refine ⟨(elapsedMs (readingAt upUs) (readingAt downUs)).toNat,
      elapsedMs_readingAt hle hhalf, fun a nominalMs => ⟨?_, ?_⟩⟩
    · exact a.recordRampIn32_eq (readingAt_le upUs) (readingAt_le downUs) nominalMs
    · exact a.overshootMs_recordRamp _ _ nominalMs
  · -- Whatever went before, the last ramp settles it.
    have hlearned : b.overshootMs = lateMs := by
      cases hramps with
      | single hramp => exact hramp.overshootMs_eq
      | tail _ hramp => exact hramp.overshootMs_eq
    have hdwell := nominalMs_compensateOvershoot (hlearned ▸ hlate : b.overshootMs < _)
    rw [hlearned] at hdwell
    exact ⟨hlearned, hdwell⟩

/-- A ramp of 3813 ms that starts 3 ms before the counter starts over, and a chip that is 13 ms
late when 8 were expected. -/
theorem recordRamp_learns_thirteen :
    let a := start Region.plain [] 24000 [1]
    (∃ onMs : Nat, (onMs ≤ 3814 ∧ 3813 ≤ onMs + 1) ∧
      a.recordRampIn32 (readingAt 4294964296) (readingAt 4298777296) 3800 =
        some (a.recordRamp (readingAt 4294964296) (readingAt 4298777296) 3800) ∧
      ((a.recordRamp (readingAt 4294964296) (readingAt 4298777296) 3800).overshootMs.toNat : Int) =
        max 0 (min 65535 ((onMs : Int) - 3800))) ∧
    ∃ b, Relation.TransGen (LateRamp ⟨3800, 3980, 4000, 100⟩ 13) a b ∧
      b.overshootMs = 13 ∧
      (b.compensateOvershoot ⟨3800, 3980, 4000, 100⟩).nominalMs.toNat + 13 = 3800 := by
  intro a
  obtain ⟨onMs, hclose, hlearned⟩ :=
    recordRamp_learns.1 4294964296 4298777296 (by decide) (by decide)
  have hramp : LateRamp ⟨3800, 3980, 4000, 100⟩ 13 a _ :=
    .record a 1000000 3805 (by decide) (by decide)
  exact ⟨⟨onMs, hclose, hlearned a 3800⟩, _, .single hramp,
    recordRamp_learns.2 _ _ _ _ (by decide) (.single hramp)⟩

end ActiveRegion
end RfidReader
