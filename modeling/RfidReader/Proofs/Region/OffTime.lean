import RfidReader.Proofs.Word
import RfidReader.Region.OffTime

/-!
# RfidReader.Proofs.Region.OffTime

How the record of a channel follows what happens on it.

`start` and `finish` change the record of their own entry and leave the others
alone.  The timers of an idle channel allow for what has been used: a ramp that
keeps to them starts on a rested channel, or what it may use adds up with what
was used to the regulatory limit at most (`rested_or_within`).
-/

namespace RfidReader

/-! ## Clamping -/

/-- A sum that is clamped is no less than what stays within the range. -/
theorem le_toNat_clampUInt32 {m n : Nat} (hmn : m ≤ n) (hm : m < 4294967296) :
    m ≤ (clampUInt32 n).toNat := by
  rw [toNat_clampUInt32]
  omega

namespace ChannelUse

/-! ## Records -/

variable {u : ChannelUse} {timers : DwellTimers}

theorem toNat_sinceOff {timeMs : UInt32} (h : u.lastEnd ≤ timeMs) :
    (timeMs - u.lastEnd).toNat = timeMs.toNat - u.lastEnd.toNat :=
  UInt32.toNat_sub_of_le timeMs u.lastEnd h

/-- Turning on after less than the off time keeps what was used. -/
theorem le_totalMs_started {timeMs : UInt32} {n : Nat} (hend : u.lastEnd ≤ timeMs)
    (hshort : timeMs.toNat - u.lastEnd.toNat < timers.offSameChannelMs.toNat)
    (hn : n ≤ u.totalMs.toNat) : n ≤ (u.started timeMs timers).totalMs.toNat := by
  have hlt := u.totalMs.toNat_lt
  simp only [started, toNat_sinceOff hend]
  rw [if_neg (Nat.not_le_of_lt hshort)]
  exact le_toNat_clampUInt32 (by omega) (by omega)

/-- Turning off adds the on time to what was used. -/
theorem le_totalMs_ended {timeMs : UInt32} {n : Nat} (hstart : u.lastStart ≤ timeMs)
    (hn : n ≤ u.totalMs.toNat) (hbound : n + (timeMs.toNat - u.lastStart.toNat) < 4294967296) :
    n + (timeMs.toNat - u.lastStart.toNat) ≤ (u.ended timeMs).totalMs.toNat := by
  simp only [ended]
  rw [UInt32.toNat_sub_of_le timeMs u.lastStart hstart]
  exact le_toNat_clampUInt32 (by omega) hbound

/-! ## Timers -/

/-- **Budget of a ramp**: the channel has rested when the ramp starts, or what the ramp may use
and what was used are within the regulatory limit together. -/
theorem rested_or_within (hlimits : timers.nominalMs ≤ timers.regulatoryMs)
    (hidle : u.lastStart ≤ u.lastEnd) {queryMs startMs : UInt32} (hquery : u.lastEnd ≤ queryMs)
    (hstart : queryMs.toNat + (u.timersAt queryMs timers).offSameChannelMs.toNat ≤ startMs.toNat) :
    (timers.offSameChannelMs.toNat ≤ startMs.toNat - u.lastEnd.toNat ∧
      (u.timersAt queryMs timers).regulatoryMs = timers.regulatoryMs) ∨
    u.totalMs.toNat + (u.timersAt queryMs timers).regulatoryMs.toNat ≤ timers.regulatoryMs.toNat
    := by
  have hsince := toNat_sinceOff hquery
  unfold timersAt at hstart ⊢
  simp only [UInt32.not_lt.mpr hidle, if_false, hsince] at hstart ⊢
  have hend : u.lastEnd.toNat ≤ queryMs.toNat := hquery
  by_cases hrested : timers.offSameChannelMs.toNat ≤ queryMs.toNat - u.lastEnd.toNat
  · -- The channel has rested already at the query.
    rw [if_pos hrested] at hstart ⊢
    have hle : queryMs.toNat ≤ startMs.toNat := Nat.le_of_add_right_le hstart
    exact .inl ⟨by omega, rfl⟩
  · rw [if_neg hrested] at hstart ⊢
    by_cases hused : timers.nominalMs ≤ clampUInt16 u.totalMs.toNat
    · -- The nominal dwell is used up: the rest of the off time is owed.
      rw [if_pos hused] at hstart ⊢
      have hoff := timers.offSameChannelMs.toNat_lt
      have howed : (timers.offSameChannelMs - (queryMs - u.lastEnd).toUInt16).toNat =
          timers.offSameChannelMs.toNat - (queryMs.toNat - u.lastEnd.toNat) := by
        have hgap : (queryMs - u.lastEnd).toUInt16.toNat = queryMs.toNat - u.lastEnd.toNat := by
          rw [UInt32.toNat_toUInt16, hsince]
          omega
        rw [UInt16.toNat_sub_of_le _ _ (UInt16.le_iff_toNat_le.mpr (by omega)), hgap]
      simp only [howed] at hstart
      exact .inl ⟨by omega, rfl⟩
    · -- Part of the dwell is used: the limits are shortened by it.
      rw [if_neg hused]
      have hshort := UInt16.lt_iff_toNat_lt.mp (UInt16.not_le.mp hused)
      rw [toNat_clampUInt16] at hshort
      have hnominal := UInt16.le_iff_toNat_le.mp hlimits
      have hregulatory := timers.regulatoryMs.toNat_lt
      have htotal : (clampUInt16 u.totalMs.toNat).toNat = u.totalMs.toNat := by
        rw [toNat_clampUInt16]
        omega
      have hleft : clampUInt16 u.totalMs.toNat < timers.regulatoryMs := by
        rw [UInt16.lt_iff_toNat_lt, htotal]
        omega
      right
      simp only [remaining, if_pos hleft]
      rw [UInt16.toNat_sub_of_le _ _ (UInt16.le_of_lt hleft), htotal]
      omega

end ChannelUse

namespace OffTimeTracker

variable (t : OffTimeTracker) {index other : Nat} (f : ChannelUse → ChannelUse)

theorem use?_update (h : index < 4) : (t.update index f).use? index = (t.use? index).map f := by
  have hget : t.uses.get ⟨index, h⟩ = t.uses[index] := rfl
  rw [update, dif_pos h, use?, use?]
  simp [h, hget]

/-- An entry keeps its record while another one changes. -/
theorem use?_update_of_ne (h : other ≠ index) :
    (t.update other f).use? index = t.use? index := by
  rw [update]
  split
  · rw [use?, use?]
    simp [h]
  · rfl

theorem use?_fresh (h : index < 4) : fresh.use? index = some {} := by
  simp [use?, fresh, h]

theorem timersAt_of_use? {t : OffTimeTracker} {u : ChannelUse} (h : t.use? index = some u)
    (timeMs : UInt32) (rested : DwellTimers) :
    t.timersAt index timeMs rested = u.timersAt timeMs rested := by
  rw [timersAt, h]
  rfl

end OffTimeTracker
end RfidReader
