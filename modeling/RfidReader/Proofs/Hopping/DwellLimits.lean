import Mathlib.Logic.Relation
import RfidReader.Hopping.ActiveRegion

/-!
# RfidReader.Proofs.Hopping.DwellLimits

The dwell limits of a ramp against those of its region.

What a ramp may take is shortened twice: by the time its channel has already
used, and by the overshoot that was learned.  Both stop at 1, since a nominal
time of zero would turn the limits off, and both keep the order of the three
limits.  The off time that is asked for is what is left of the region's.

Turning the timers off makes all of them zero, and they stay so whatever is
recorded afterwards (`timersAt_within`).
-/

namespace RfidReader

/-! ## Limits -/

namespace DwellTimers

/-- Limits that are in force: the nominal time is not zero, and the limits are in order. -/
structure InForce (t : DwellTimers) : Prop where
  one_le : 1 ≤ t.nominalMs
  nominal_le : t.nominalMs ≤ t.extendedMs
  extended_le : t.extendedMs ≤ t.regulatoryMs

/-- Timers none of which is longer than those of a region. -/
structure Within (t region : DwellTimers) : Prop where
  nominal_le : t.nominalMs ≤ region.nominalMs
  extended_le : t.extendedMs ≤ region.extendedMs
  regulatory_le : t.regulatoryMs ≤ region.regulatoryMs
  offSameChannel_le : t.offSameChannelMs ≤ region.offSameChannelMs

instance (t : DwellTimers) : Decidable t.InForce :=
  decidable_of_iff (1 ≤ t.nominalMs ∧ t.nominalMs ≤ t.extendedMs ∧ t.extendedMs ≤ t.regulatoryMs)
    ⟨fun h => ⟨h.1, h.2.1, h.2.2⟩, fun h => ⟨h.one_le, h.nominal_le, h.extended_le⟩⟩

theorem Within.trans {t t' region : DwellTimers} (h : t.Within t') (h' : t'.Within region) :
    t.Within region where
  nominal_le := UInt16.le_trans h.nominal_le h'.nominal_le
  extended_le := UInt16.le_trans h.extended_le h'.extended_le
  regulatory_le := UInt16.le_trans h.regulatory_le h'.regulatory_le
  offSameChannel_le := UInt16.le_trans h.offSameChannel_le h'.offSameChannel_le

end DwellTimers

/-- The limits of the built-in regions are in force. -/
theorem Region.inForce_builtin : ∀ region ∈ Region.builtin, region.timers.InForce := by decide

/-! ## Time that was used -/

namespace ChannelUse

theorem toNat_remaining (limit used : UInt16) :
    (remaining limit used).toNat = max 1 (limit.toNat - used.toNat) := by
  unfold remaining
  split
  · next hleft =>
      have hlt := UInt16.lt_iff_toNat_lt.mp hleft
      rw [UInt16.toNat_sub_of_le _ _ (UInt16.le_of_lt hleft)]
      omega
  · next hused =>
      have hle := UInt16.le_iff_toNat_le.mp (UInt16.not_lt.mp hused)
      show 1 = _
      omega

theorem one_le_remaining (limit used : UInt16) : 1 ≤ remaining limit used := by
  rw [UInt16.le_iff_toNat_le, toNat_remaining]
  exact Nat.le_max_left 1 _

theorem remaining_le {limit : UInt16} (h : 1 ≤ limit) (used : UInt16) :
    remaining limit used ≤ limit := by
  have hone : 1 ≤ limit.toNat := UInt16.le_iff_toNat_le.mp h
  rw [UInt16.le_iff_toNat_le, toNat_remaining]
  omega

theorem remaining_mono {limit limit' : UInt16} (h : limit ≤ limit') (used : UInt16) :
    remaining limit used ≤ remaining limit' used := by
  have hle := UInt16.le_iff_toNat_le.mp h
  rw [UInt16.le_iff_toNat_le, toNat_remaining, toNat_remaining]
  omega

/-- A channel leaves the limits as they are and asks for part of the off time, or shortens all of
them by the same time and asks for none. -/
theorem timersAt_cases (u : ChannelUse) (timeMs : UInt32) (rested : DwellTimers) :
    (∃ off ≤ rested.offSameChannelMs,
      u.timersAt timeMs rested = { rested with offSameChannelMs := off }) ∨
    ∃ used, u.timersAt timeMs rested =
      ⟨remaining rested.nominalMs used, remaining rested.extendedMs used,
        remaining rested.regulatoryMs used, 0⟩ := by
  unfold timersAt
  dsimp only
  have hzero : 0 ≤ rested.offSameChannelMs := UInt16.le_iff_toNat_le.mpr (Nat.zero_le _)
  split
  · exact .inl ⟨0, hzero, rfl⟩
  · split
    · exact .inl ⟨0, hzero, rfl⟩
    · next howed =>
        split
        · -- The gap is shorter than the off time, so it keeps its value in 16 bits.
          have hoff := rested.offSameChannelMs.toNat_lt
          have hgap : (timeMs - u.lastEnd).toUInt16.toNat = (timeMs - u.lastEnd).toNat := by
            rw [UInt32.toNat_toUInt16]
            omega
          have hle : (timeMs - u.lastEnd).toUInt16 ≤ rested.offSameChannelMs := by
            rw [UInt16.le_iff_toNat_le, hgap]
            omega
          refine .inl ⟨_, ?_, rfl⟩
          rw [UInt16.le_iff_toNat_le, UInt16.toNat_sub_of_le _ _ hle]
          exact Nat.sub_le _ _
        · exact .inr ⟨_, rfl⟩

variable {rested : DwellTimers}

theorem inForce_timersAt (h : rested.InForce) (u : ChannelUse) (timeMs : UInt32) :
    (u.timersAt timeMs rested).InForce := by
  obtain ⟨off, -, htimers⟩ | ⟨used, htimers⟩ := u.timersAt_cases timeMs rested
  · rw [htimers]
    exact ⟨h.one_le, h.nominal_le, h.extended_le⟩
  · rw [htimers]
    exact ⟨one_le_remaining _ _, remaining_mono h.nominal_le _, remaining_mono h.extended_le _⟩

theorem within_timersAt (h : rested.InForce) (u : ChannelUse) (timeMs : UInt32) :
    (u.timersAt timeMs rested).Within rested := by
  have hextended := UInt16.le_trans h.one_le h.nominal_le
  have hregulatory := UInt16.le_trans hextended h.extended_le
  obtain ⟨off, hoff, htimers⟩ | ⟨used, htimers⟩ := u.timersAt_cases timeMs rested
  · rw [htimers]
    exact ⟨UInt16.le_refl _, UInt16.le_refl _, UInt16.le_refl _, hoff⟩
  · rw [htimers]
    exact ⟨remaining_le h.one_le _, remaining_le hextended _, remaining_le hregulatory _,
      UInt16.le_iff_toNat_le.mpr (Nat.zero_le _)⟩

/-- Timers that are turned off ask for no off time, so every channel has rested. -/
theorem timersAt_disabled (u : ChannelUse) (timeMs : UInt32) :
    u.timersAt timeMs .disabled = .disabled := by
  unfold timersAt
  split
  · rfl
  · exact if_pos (Nat.zero_le _)

end ChannelUse

namespace OffTimeTracker

/-- The timers of an entry are those of its record, or the region's where none is kept. -/
theorem timersAt_cases (t : OffTimeTracker) (index : Nat) (timeMs : UInt32)
    (rested : DwellTimers) :
    t.timersAt index timeMs rested = rested ∨
      ∃ u : ChannelUse, t.timersAt index timeMs rested = u.timersAt timeMs rested := by
  unfold timersAt
  cases t.use? index with
  | none => exact .inl rfl
  | some u => exact .inr ⟨u, rfl⟩

end OffTimeTracker

/-! ## Learned overshoot -/

namespace ActiveRegion

/-- The learned overshoot takes part of the nominal time. -/
theorem compensateOvershoot_eq (a : ActiveRegion) {timers : DwellTimers}
    (h : 1 ≤ timers.nominalMs) :
    a.compensateOvershoot timers =
      { timers with nominalMs := ChannelUse.remaining timers.nominalMs a.overshootMs } := by
  have hnonzero : timers.nominalMs ≠ 0 := fun hzero => by
    rw [hzero] at h
    exact absurd h (by decide)
  unfold compensateOvershoot ChannelUse.remaining
  rw [if_neg hnonzero]
  split <;> rfl

theorem inForce_compensateOvershoot (a : ActiveRegion) {timers : DwellTimers}
    (h : timers.InForce) : (a.compensateOvershoot timers).InForce := by
  rw [compensateOvershoot_eq a h.one_le]
  exact ⟨ChannelUse.one_le_remaining _ _,
    UInt16.le_trans (ChannelUse.remaining_le h.one_le _) h.nominal_le, h.extended_le⟩

theorem within_compensateOvershoot (a : ActiveRegion) {timers : DwellTimers}
    (h : timers.InForce) : (a.compensateOvershoot timers).Within timers := by
  rw [compensateOvershoot_eq a h.one_le]
  exact ⟨ChannelUse.remaining_le h.one_le _, UInt16.le_refl _, UInt16.le_refl _, UInt16.le_refl _⟩

/-- The timers of a ramp, before the overshoot is taken off, are the region's or those of a
record of its channel. -/
theorem timersAt_cases (a : ActiveRegion) (index : Nat) (timeMs : UInt32) :
    a.timersAt index timeMs = a.compensateOvershoot a.region.timers ∨
      ∃ u : ChannelUse,
        a.timersAt index timeMs = a.compensateOvershoot (u.timersAt timeMs a.region.timers) := by
  unfold timersAt
  split
  · obtain htimers | ⟨u, htimers⟩ :=
      a.offTime.timersAt_cases index timeMs a.region.timers
    · exact .inl (congrArg _ htimers)
    · exact .inr ⟨u, congrArg _ htimers⟩
  · exact .inl rfl

/-! ## Timers that are turned off -/

/-- What can follow while the region stays selected and its timers are not turned on again. -/
inductive Continues : ActiveRegion → ActiveRegion → Prop where
  | singleFrequency (a : ActiveRegion) (khz : UInt32) : Continues a (a.singleFrequency khz)
  | advance (a : ActiveRegion) : Continues a a.advance
  | disableTimers (a : ActiveRegion) : Continues a a.disableTimers
  | recordRamp (a : ActiveRegion) (upMs downMs : UInt32) (nominalMs : UInt16) :
      Continues a (a.recordRamp upMs downMs nominalMs)
  | trackStart (a : ActiveRegion) (index : Nat) (timeMs : UInt32) :
      Continues a (a.trackStart index timeMs)
  | trackEnd (a : ActiveRegion) (index : Nat) (timeMs : UInt32) :
      Continues a (a.trackEnd index timeMs)
  | trackRamp (a : ActiveRegion) (upMs upKhz downMs downKhz : UInt32) :
      Continues a (a.trackRamp upMs upKhz downMs downKhz)

theorem timers_trackStart (a : ActiveRegion) (index : Nat) (timeMs : UInt32) :
    (a.trackStart index timeMs).region.timers = a.region.timers := by
  unfold trackStart
  split <;> rfl

theorem timers_trackEnd (a : ActiveRegion) (index : Nat) (timeMs : UInt32) :
    (a.trackEnd index timeMs).region.timers = a.region.timers := by
  unfold trackEnd
  split <;> rfl

variable {a b : ActiveRegion}

/-- **Step**: the timers of the region stay off. -/
theorem Continues.timers_eq (h : Continues a b) (hoff : a.region.timers = .disabled) :
    b.region.timers = .disabled := by
  cases h with
  | singleFrequency khz => exact hoff
  | advance => exact hoff
  | disableTimers => rfl
  | recordRamp upMs downMs nominalMs => exact hoff
  | trackStart index timeMs => exact (timers_trackStart a index timeMs).trans hoff
  | trackEnd index timeMs => exact (timers_trackEnd a index timeMs).trans hoff
  | trackRamp upMs upKhz downMs downKhz =>
      unfold ActiveRegion.trackRamp
      split
      · exact ((timers_trackEnd _ _ _).trans (timers_trackStart _ _ _)).trans hoff
      · exact hoff

/-- **Run**: the timers of the region stay off, whatever follows. -/
theorem timers_eq_of_continues (h : Relation.ReflTransGen Continues a b)
    (hoff : a.region.timers = .disabled) : b.region.timers = .disabled := by
  induction h with
  | refl => exact hoff
  | tail _ hstep ih => exact hstep.timers_eq ih

theorem timersAt_of_disabled (h : a.region.timers = .disabled) (index : Nat) (timeMs : UInt32) :
    a.timersAt index timeMs = .disabled := by
  obtain htimers | ⟨u, htimers⟩ := a.timersAt_cases index timeMs
  · rw [htimers, h]
    rfl
  · rw [htimers, h, ChannelUse.timersAt_disabled]
    rfl

/-- **Dwell limits**: where the region's limits are in force, so are those of every ramp, and none
of its timers is longer than the region's.  Once the timers are turned off they stay off, whatever
is recorded, until they are turned on again or another region is selected. -/
theorem timersAt_within :
    (∀ (a : ActiveRegion) (index : Nat) (timeMs : UInt32), a.region.timers.InForce →
      (a.timersAt index timeMs).InForce ∧ (a.timersAt index timeMs).Within a.region.timers) ∧
    ∀ a b : ActiveRegion, Relation.ReflTransGen Continues a.disableTimers b →
      ∀ (index : Nat) (timeMs : UInt32), b.timersAt index timeMs = .disabled := by
  refine ⟨fun a index timeMs hforce => ?_, fun a b hrun index timeMs => ?_⟩
  · obtain htimers | ⟨u, htimers⟩ := a.timersAt_cases index timeMs
    · rw [htimers]
      exact ⟨a.inForce_compensateOvershoot hforce, a.within_compensateOvershoot hforce⟩
    · have hused := ChannelUse.inForce_timersAt hforce u timeMs
      rw [htimers]
      exact ⟨a.inForce_compensateOvershoot hused,
        (a.within_compensateOvershoot hused).trans (ChannelUse.within_timersAt hforce u timeMs)⟩
  · exact timersAt_of_disabled (timers_eq_of_continues hrun rfl) index timeMs

/-- A channel that has used one of its 3.8 seconds, and the same channel with the timers turned
off, after a ramp that was far too long. -/
theorem timersAt_within_used :
    let rested := start Region.etsiLower [4, 7, 10, 13] 24000 [4, 7, 10, 13]
    let a := (rested.trackStart 0 1000).trackEnd 0 2000
    a.region.timers.InForce ∧ a.timersAt 0 2050 = ⟨2792, 2980, 3000, 0⟩ ∧
      (a.timersAt 0 2050).InForce ∧ (a.timersAt 0 2050).Within a.region.timers ∧
      ∀ (index : Nat) (timeMs : UInt32),
        ((a.disableTimers.trackStart 0 3000).recordRamp 3000 9000 3800).timersAt index timeMs =
          .disabled := by
  intro rested a
  have hforce : a.region.timers.InForce := Region.inForce_builtin .etsiLower (by decide)
  have hrun : Relation.ReflTransGen Continues a.disableTimers
      ((a.disableTimers.trackStart 0 3000).recordRamp 3000 9000 3800) :=
    (Relation.ReflTransGen.single (.trackStart _ 0 3000)).tail (.recordRamp _ 3000 9000 3800)
  obtain ⟨hlimits, hwithin⟩ := timersAt_within.1 a 0 2050 hforce
  exact ⟨hforce, by decide, hlimits, hwithin, timersAt_within.2 a _ hrun⟩

end ActiveRegion
end RfidReader
