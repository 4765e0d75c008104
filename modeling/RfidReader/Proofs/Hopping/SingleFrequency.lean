import RfidReader.Proofs.Hopping.HopSequence

/-!
# RfidReader.Proofs.Hopping.SingleFrequency

A region that stays on one frequency.

The channel a frequency falls in starts at or below the frequency, less than one
spacing away (`ChannelPlan.exactKhz_channelNumber_le`,
`ChannelPlan.lt_exactKhz_channelNumber`), and a channel's own frequency falls in
the channel (`ChannelPlan.channelNumber_channelKhz`).  Put on a single frequency,
a region keeps this one channel however often it hops, with nothing left of what
it has learned (`singleFrequency_stays`).
-/

namespace RfidReader

/-! ## Channels and frequencies -/

namespace ChannelPlan

variable {p : ChannelPlan} {khz : UInt32}

theorem toNat_spacingKhz_pos (h : p.spacingKhz ≠ 0) : 0 < p.spacingKhz.toNat :=
  Nat.pos_of_ne_zero fun hzero => h (UInt32.toNat_inj.mp hzero)

/-- The channel a frequency falls in, counted from 1 in steps of the spacing. -/
theorem toNat_channelNumber (hspacing : p.spacingKhz ≠ 0)
    (hfits : (khz.toNat - p.startKhz.toNat) / p.spacingKhz.toNat + 1 < UInt16.size) :
    (p.channelNumber khz).toNat = (khz.toNat - p.startKhz.toNat) / p.spacingKhz.toNat + 1 := by
  rw [channelNumber, if_neg hspacing, UInt16.toNat_ofNat_of_lt' hfits]

section Within

variable (hspacing : p.spacingKhz ≠ 0) (hstart : p.startKhz ≤ khz)
  (hfits : (khz.toNat - p.startKhz.toNat) / p.spacingKhz.toNat + 1 < UInt16.size)

include hspacing hstart hfits

/-- A frequency is not below the channel it falls in. -/
theorem exactKhz_channelNumber_le : p.exactKhz (p.channelNumber khz) ≤ khz.toNat := by
  have hle := UInt32.le_iff_toNat_le.mp hstart
  have hsteps := Nat.div_mul_le_self (khz.toNat - p.startKhz.toNat) p.spacingKhz.toNat
  rw [exactKhz, toNat_channelNumber hspacing hfits, Nat.add_sub_cancel]
  omega

/-- A frequency is less than one spacing above the channel it falls in. -/
theorem lt_exactKhz_channelNumber :
    khz.toNat < p.exactKhz (p.channelNumber khz) + p.spacingKhz.toNat := by
  have hle := UInt32.le_iff_toNat_le.mp hstart
  have hsteps := Nat.lt_div_mul_add (a := khz.toNat - p.startKhz.toNat)
    (toNat_spacingKhz_pos hspacing)
  rw [exactKhz, toNat_channelNumber hspacing hfits, Nat.add_sub_cancel]
  omega

end Within

/-- **Channels**: the frequency of a channel falls in the channel. -/
theorem channelNumber_channelKhz (hspacing : p.spacingKhz ≠ 0) {channel : UInt16}
    (hone : 1 ≤ channel) (hfits : p.exactKhz channel < UInt32.size) :
    p.channelNumber (p.channelKhz channel) = channel := by
  have hpos := UInt16.le_iff_toNat_le.mp hone
  have hlt := channel.toNat_lt_size
  have hnumber : ((p.channelKhz channel).toNat - p.startKhz.toNat) / p.spacingKhz.toNat + 1 =
      channel.toNat := by
    rw [toNat_channelKhz hfits, exactKhz, Nat.add_sub_cancel_left,
      Nat.mul_div_cancel _ (toNat_spacingKhz_pos hspacing)]
    exact Nat.sub_add_cancel hpos
  apply UInt16.toNat_inj.mp
  rw [toNat_channelNumber hspacing (by omega), hnumber]

end ChannelPlan

/-! ## One channel -/

namespace ActiveRegion

/-- Hopping does nothing on a single frequency. -/
theorem iterate_advance_singleFrequency (a : ActiveRegion) (khz : UInt32) (hops : Nat) :
    advance^[hops] (a.singleFrequency khz) = a.singleFrequency khz :=
  Function.iterate_fixed rfl hops

/-- **Single frequency**: from any state, mid-hop included, the hop table becomes the one channel
that the frequency falls in.  It is the active channel and the next one after any number of hops,
and the off time and the overshoot are forgotten.  Channel numbers and frequencies of the plan
correspond as before. -/
theorem singleFrequency_stays (a : ActiveRegion) {khz : UInt32}
    (hspacing : a.region.channels.spacingKhz ≠ 0) (hstart : a.region.channels.startKhz ≤ khz)
    (hnumber : (khz.toNat - a.region.channels.startKhz.toNat) /
      a.region.channels.spacingKhz.toNat + 1 ≤ 65535) :
    ∃ (channel : UInt16) (khz' : UInt32),
      (a.singleFrequency khz).hopTable = [channel] ∧
      (a.singleFrequency khz).channelsKhz = [khz'] ∧
      khz'.toNat = a.region.channels.exactKhz channel ∧
      khz' ≤ khz ∧ khz.toNat < khz'.toNat + a.region.channels.spacingKhz.toNat ∧
      (∀ hops, (advance^[hops] (a.singleFrequency khz)).activeKhz = khz' ∧
        (advance^[hops] (a.singleFrequency khz)).nextKhz = khz') ∧
      (a.singleFrequency khz).offTime = .fresh ∧
      (a.singleFrequency khz).overshootMs = defaultOvershootMs ∧
      ∀ channel', 1 ≤ channel' → a.region.channels.exactKhz channel' < UInt32.size →
        a.region.channels.channelNumber (a.region.channels.channelKhz channel') = channel' ∧
        (a.singleFrequency khz).region.channels.channelNumber
          ((a.singleFrequency khz).region.channels.channelKhz channel') = channel' := by
  have hfits := Nat.lt_of_le_of_lt hnumber (by decide : 65535 < UInt16.size)
  have hexact := ChannelPlan.toNat_channelKhz (a.region.channels.exactKhz_channelNumber_lt khz)
  refine ⟨a.region.channels.channelNumber khz,
    a.region.channels.channelKhz (a.region.channels.channelNumber khz), rfl, rfl, hexact, ?_, ?_,
    ?_, rfl, rfl, ?_⟩
  · rw [UInt32.le_iff_toNat_le, hexact]
    exact ChannelPlan.exactKhz_channelNumber_le hspacing hstart hfits
  · rw [hexact]
    exact ChannelPlan.lt_exactKhz_channelNumber hspacing hstart hfits
  · intro hops
    rw [iterate_advance_singleFrequency]
    exact ⟨rfl, rfl⟩
  · intro channel' hone hchannel
    exact ⟨ChannelPlan.channelNumber_channelKhz hspacing hone hchannel,
      ChannelPlan.channelNumber_channelKhz hspacing hone hchannel⟩

/-- A frequency inside channel 10 of the European lower band, after a hop and a long ramp. -/
theorem singleFrequency_stays_inside :
    let a := ((start .etsiLower [4, 7, 10, 13] 24000 [4, 7, 10, 13]).advance.recordRamp 0 9000 3800)
    a.region.channels.spacingKhz ≠ 0 ∧ a.region.channels.startKhz ≤ 867050 ∧
    (867050 - a.region.channels.startKhz.toNat) / a.region.channels.spacingKhz.toNat + 1 ≤ 65535 ∧
    a.activeIndex = 1 ∧ a.overshootMs = 5200 ∧
    (a.singleFrequency 867050).hopTable = [10] ∧
    (advance^[3] (a.singleFrequency 867050)).nextKhz = 866900 ∧
    (a.singleFrequency 867050).overshootMs = defaultOvershootMs ∧
    a.region.channels.channelNumber (a.region.channels.channelKhz 7) = 7 := by
  intro a
  have hspacing : a.region.channels.spacingKhz ≠ 0 := by decide
  have hstart : a.region.channels.startKhz ≤ 867050 := by decide
  have hnumber : (867050 - a.region.channels.startKhz.toNat) /
      a.region.channels.spacingKhz.toNat + 1 ≤ 65535 := by decide
  obtain ⟨-, khz, -, hkhz, -, -, -, hhops, -, hovershoot, hback⟩ :=
    singleFrequency_stays a hspacing hstart hnumber
  have hten : (a.singleFrequency 867050).hopTable = [10] := by decide
  have hlower : (a.singleFrequency 867050).channelsKhz = [866900] := by decide
  obtain rfl : khz = 866900 := List.singleton_inj.mp (hkhz.symm.trans hlower)
  exact ⟨hspacing, hstart, hnumber, rfl, by decide, hten, (hhops 3).2, hovershoot,
    (hback 7 (by decide) (by decide)).1⟩

end ActiveRegion
end RfidReader
