import Mathlib.Data.List.Range
import Mathlib.Data.List.Rotate
import RfidReader.Hopping.ActiveRegion
import RfidReader.Proofs.Hopping.Shuffle

/-!
# RfidReader.Proofs.Hopping.HopSequence

What holds of an active region, however it came about.

A region is selected once and then changed step by step (`Step`): it hops, is
put on a single frequency or replaced by a built-in region, and its timers are
turned off and on and learn from ramps.  In every state that is reached so, the
hop table holds the channels the region allows, each with its frequency beside
it, and the active index stands inside it (`FollowsPlan`).  That is so whether or
not the frequencies fit their words; if those of the plan do, those of the hop
table do as well (`Reachable.fits`).

Hopping therefore goes round: from any entry, as many hops as there are entries
visit each of them once and lead back (`Reachable.hop_sequence`).
-/

namespace RfidReader

/-! ## Frequencies -/

namespace ChannelPlan

/-- The frequency of a channel number, as a number that cannot overflow. -/
def exactKhz (p : ChannelPlan) (channel : UInt16) : Nat :=
  p.startKhz.toNat + (channel.toNat - 1) * p.spacingKhz.toNat

/-- Whether the frequencies of a plan's channels fit their 32 bits. -/
def Fits (p : ChannelPlan) : Prop :=
  ∀ channel ∈ ActiveRegion.planChannels p.usable p.count, p.exactKhz channel < UInt32.size

instance (p : ChannelPlan) : Decidable p.Fits :=
  List.decidableBAll (fun channel => p.exactKhz channel < UInt32.size) _

theorem toNat_channelKhz {p : ChannelPlan} {channel : UInt16}
    (h : p.exactKhz channel < UInt32.size) : (p.channelKhz channel).toNat = p.exactKhz channel := by
  have hchannel := channel.toNat_lt
  have hoffset : (UInt32.ofNat (channel.toNat - 1)).toNat = channel.toNat - 1 := by
    rw [UInt32.toNat_ofNat']
    omega
  unfold exactKhz at h ⊢
  rw [channelKhz, UInt32.toNat_add, UInt32.toNat_mul, hoffset, Nat.add_mod_mod]
  exact Nat.mod_eq_of_lt h

/-- The channel a frequency falls in starts at a frequency that fits. -/
theorem exactKhz_channelNumber_lt (p : ChannelPlan) (khz : UInt32) :
    p.exactKhz (p.channelNumber khz) < UInt32.size := by
  have hstart := p.startKhz.toNat_lt_size
  have hkhz := khz.toNat_lt_size
  unfold channelNumber
  split
  · show p.startKhz.toNat + 0 * p.spacingKhz.toNat < UInt32.size
    omega
  · have hsteps := Nat.div_mul_le_self (khz.toNat - p.startKhz.toNat) p.spacingKhz.toNat
    generalize (khz.toNat - p.startKhz.toNat) / p.spacingKhz.toNat = steps at hsteps
    have hle : (UInt16.ofNat (steps + 1)).toNat - 1 ≤ steps := by
      rw [UInt16.toNat_ofNat']
      omega
    have hmul := Nat.mul_le_mul_right p.spacingKhz.toNat hle
    unfold exactKhz
    omega

end ChannelPlan

/-- The frequencies of the built-in regions fit. -/
theorem Region.fits_builtin : ∀ region ∈ Region.builtin, region.channels.Fits := by decide

namespace ActiveRegion

/-! ## Reachable states -/

/-- The channels a region allows: the usable ones, or 1 through the count when none are listed. -/
def allowedChannels (a : ActiveRegion) : List UInt16 :=
  match a.usable with
  | [] => (List.range' 1 a.region.channels.count.toNat).map UInt16.ofNat
  | usable => usable

/-- A change of an active region.  Selecting a region that is not built in changes nothing. -/
inductive Step : ActiveRegion → ActiveRegion → Prop where
  | select {ρ : Type} [RandomSource ρ] (a : ActiveRegion) {b : ActiveRegion} {id : RegionId}
      {referenceKhz : UInt32} {source : ρ}
      (h : ((ofId id referenceKhz).run.run source).1 = .ok b) : Step a b
  | singleFrequency (a : ActiveRegion) (khz : UInt32) : Step a (a.singleFrequency khz)
  | advance (a : ActiveRegion) : Step a a.advance
  | disableTimers (a : ActiveRegion) : Step a a.disableTimers
  | reenableTimers (a : ActiveRegion) : Step a a.reenableTimers
  | recordRamp (a : ActiveRegion) (upMs downMs : UInt32) (nominalMs : UInt16) :
      Step a (a.recordRamp upMs downMs nominalMs)
  | trackStart (a : ActiveRegion) (index : Nat) (timeMs : UInt32) :
      Step a (a.trackStart index timeMs)
  | trackEnd (a : ActiveRegion) (index : Nat) (timeMs : UInt32) :
      Step a (a.trackEnd index timeMs)
  | trackRamp (a : ActiveRegion) (upMs upKhz downMs downKhz : UInt32) :
      Step a (a.trackRamp upMs upKhz downMs downKhz)

/-- The states that are reached from any region that is selected, whether or not its frequencies
fit. -/
inductive Selected : ActiveRegion → Prop where
  | ofRegion {ρ : Type} [RandomSource ρ] {region : Region} {referenceKhz : UInt32} {source : ρ}
      {a : ActiveRegion} (h : ((ofRegion region referenceKhz).run.run source).1 = .ok a) :
      Selected a
  | step {a b : ActiveRegion} (h : Selected a) (hstep : Step a b) : Selected b

/-- The states that are reached from a region whose frequencies fit, or from a built-in one. -/
inductive Reachable : ActiveRegion → Prop where
  | ofRegion {ρ : Type} [RandomSource ρ] {region : Region} {referenceKhz : UInt32} {source : ρ}
      {a : ActiveRegion} (hfits : region.channels.Fits)
      (h : ((ofRegion region referenceKhz).run.run source).1 = .ok a) : Reachable a
  | ofId {ρ : Type} [RandomSource ρ] {id : RegionId} {referenceKhz : UInt32} {source : ρ}
      {a : ActiveRegion} (h : ((ofId id referenceKhz).run.run source).1 = .ok a) : Reachable a
  | step {a b : ActiveRegion} (h : Reachable a) (hstep : Step a b) : Reachable b

/-! ## The invariant -/

/-- A region is selected with a hop order of its plan, unless it is too long. -/
theorem fst_run_ofRegion {ρ : Type} [RandomSource ρ] (region : Region) (referenceKhz : UInt32)
    (source : ρ) :
    ((ofRegion region referenceKhz).run.run source).1 =
      if maxChannels < region.channels.usable.length ∨ maxChannels < region.channels.count.toNat
      then .error .hopTableTooLong
      else .ok (start region region.channels.usable referenceKhz
        (StateT.run (m := Id) (Hopping.order region.channels.randomHop
          (planChannels region.channels.usable region.channels.count)) source).1) := by
  unfold ofRegion
  split <;> rfl

/-- A built-in region is selected as any other. -/
theorem exists_ofRegion_of_ofId {ρ : Type} [RandomSource ρ] {id : RegionId}
    {referenceKhz : UInt32} {source : ρ} {a : ActiveRegion}
    (h : ((ofId id referenceKhz).run.run source).1 = .ok a) :
    ∃ region ∈ Region.builtin, ((ofRegion region referenceKhz).run.run source).1 = .ok a := by
  unfold ofId at h
  split at h
  · contradiction
  · next region hregion => exact ⟨region, List.mem_of_find?_eq_some hregion, h⟩

theorem Reachable.selected {a : ActiveRegion} (h : Reachable a) : Selected a := by
  induction h with
  | ofRegion _ h => exact .ofRegion h
  | ofId h =>
      obtain ⟨_, -, hregion⟩ := exists_ofRegion_of_ofId h
      exact .ofRegion hregion
  | step _ hstep ih => exact ih.step hstep

/-- What holds in every selected state: the hop table follows the plan of the region. -/
structure FollowsPlan (a : ActiveRegion) : Prop where
  perm : a.hopTable.Perm a.allowedChannels
  length_le : a.hopTable.length ≤ maxChannels
  channelsKhz_eq : a.channelsKhz = a.hopTable.map a.region.channels.channelKhz
  /-- The active index stands inside the hop table, at the front of an empty one. -/
  activeIndex_lt : a.activeIndex < a.hopTable.length ∨ a.hopTable = [] ∧ a.activeIndex = 0

/-- Whether two states hop alike: they differ in what they know of past ramps at most. -/
structure HopsLike (a b : ActiveRegion) : Prop where
  channels : b.region.channels = a.region.channels
  usable : b.usable = a.usable
  hopTable : b.hopTable = a.hopTable
  channelsKhz : b.channelsKhz = a.channelsKhz
  activeIndex : b.activeIndex = a.activeIndex

namespace HopsLike

variable {a b c : ActiveRegion}

theorem refl (a : ActiveRegion) : HopsLike a a := ⟨rfl, rfl, rfl, rfl, rfl⟩

theorem trans (hab : HopsLike a b) (hbc : HopsLike b c) : HopsLike a c where
  channels := hbc.channels.trans hab.channels
  usable := hbc.usable.trans hab.usable
  hopTable := hbc.hopTable.trans hab.hopTable
  channelsKhz := hbc.channelsKhz.trans hab.channelsKhz
  activeIndex := hbc.activeIndex.trans hab.activeIndex

theorem disableTimers (a : ActiveRegion) : HopsLike a a.disableTimers := ⟨rfl, rfl, rfl, rfl, rfl⟩

theorem reenableTimers (a : ActiveRegion) : HopsLike a a.reenableTimers := by
  unfold ActiveRegion.reenableTimers
  split
  · exact refl a
  · exact ⟨rfl, rfl, rfl, rfl, rfl⟩

theorem recordRamp (a : ActiveRegion) (upMs downMs : UInt32) (nominalMs : UInt16) :
    HopsLike a (a.recordRamp upMs downMs nominalMs) :=
  ⟨rfl, rfl, rfl, rfl, rfl⟩

theorem trackStart (a : ActiveRegion) (index : Nat) (timeMs : UInt32) :
    HopsLike a (a.trackStart index timeMs) := by
  unfold ActiveRegion.trackStart
  split
  · exact ⟨rfl, rfl, rfl, rfl, rfl⟩
  · exact refl a

theorem trackEnd (a : ActiveRegion) (index : Nat) (timeMs : UInt32) :
    HopsLike a (a.trackEnd index timeMs) := by
  unfold ActiveRegion.trackEnd
  split
  · exact ⟨rfl, rfl, rfl, rfl, rfl⟩
  · exact refl a

theorem trackRamp (a : ActiveRegion) (upMs upKhz downMs downKhz : UInt32) :
    HopsLike a (a.trackRamp upMs upKhz downMs downKhz) := by
  unfold ActiveRegion.trackRamp
  split
  · exact (trackStart a _ upMs).trans (trackEnd _ _ downMs)
  · exact refl a

end HopsLike

/-- What a change does to hopping: it starts over on a built-in region or on a single channel, it
hops, or it leaves hopping alone. -/
theorem Step.cases {a b : ActiveRegion} (hstep : Step a b) :
    (∃ (ρ : Type) (_ : RandomSource ρ) (referenceKhz : UInt32) (source : ρ),
      ∃ region ∈ Region.builtin, ((ofRegion region referenceKhz).run.run source).1 = .ok b) ∨
    (∃ khz, b = a.singleFrequency khz) ∨ b = a.advance ∨ HopsLike a b := by
  cases hstep with
  | select _ h => exact .inl ⟨_, _, _, _, exists_ofRegion_of_ofId h⟩
  | singleFrequency _ khz => exact .inr (.inl ⟨khz, rfl⟩)
  | advance => exact .inr (.inr (.inl rfl))
  | disableTimers => exact .inr (.inr (.inr (.disableTimers a)))
  | reenableTimers => exact .inr (.inr (.inr (.reenableTimers a)))
  | recordRamp _ upMs downMs nominalMs =>
      exact .inr (.inr (.inr (.recordRamp a upMs downMs nominalMs)))
  | trackStart _ index timeMs => exact .inr (.inr (.inr (.trackStart a index timeMs)))
  | trackEnd _ index timeMs => exact .inr (.inr (.inr (.trackEnd a index timeMs)))
  | trackRamp _ upMs upKhz downMs downKhz =>
      exact .inr (.inr (.inr (.trackRamp a upMs upKhz downMs downKhz)))

/-- From a hop table that is not empty the next index stands inside it. -/
theorem nextIndex_lt {a : ActiveRegion} (h : a.hopTable ≠ []) :
    a.nextIndex < a.hopTable.length := by
  have hlength := List.length_pos_iff.mpr h
  unfold nextIndex
  split <;> omega

/-- A region that is selected with its whole plan allows the channels of the plan. -/
theorem allowedChannels_start (region : Region) (referenceKhz : UInt32) (hopTable : List UInt16)
    (hcount : region.channels.count.toNat ≤ maxChannels) :
    (ActiveRegion.start region region.channels.usable referenceKhz hopTable).allowedChannels
      = planChannels region.channels.usable region.channels.count := by
  unfold allowedChannels planChannels
  simp only [ActiveRegion.start]
  cases region.channels.usable with
  | cons channel rest => rfl
  | nil =>
      rw [List.isEmpty_nil, if_pos rfl, Nat.min_eq_left hcount, List.range'_eq_map_range,
        List.map_map]
      apply List.map_congr_left
      intro n _
      rw [Function.comp_apply, Nat.add_comm]

theorem length_planChannels_le {usable : List UInt16} (count : UInt16)
    (h : usable.length ≤ maxChannels) : (planChannels usable count).length ≤ maxChannels := by
  unfold planChannels
  split
  · rw [List.length_map, List.length_range]
    exact Nat.min_le_right _ _
  · exact h

namespace FollowsPlan

variable {a b : ActiveRegion}

/-- A region at the start of a hop order of its channels follows its plan. -/
theorem start {region : Region} {usable hopTable : List UInt16} (referenceKhz : UInt32)
    (hperm : hopTable.Perm (start region usable referenceKhz hopTable).allowedChannels)
    (hlength : hopTable.length ≤ maxChannels) :
    FollowsPlan (start region usable referenceKhz hopTable) where
  perm := hperm
  length_le := hlength
  channelsKhz_eq := rfl
  activeIndex_lt := by
    cases hopTable with
    | nil => exact .inr ⟨rfl, rfl⟩
    | cons channel rest => exact .inl (Nat.zero_lt_succ rest.length)

theorem ofRegion {ρ : Type} [RandomSource ρ] {region : Region} {referenceKhz : UInt32}
    {source : ρ} (h : ((ofRegion region referenceKhz).run.run source).1 = .ok a) :
    FollowsPlan a := by
  rw [fst_run_ofRegion] at h
  split at h
  · contradiction
  · next hshort =>
      obtain ⟨husable, hcount⟩ := not_or.mp hshort
      rw [← Except.ok.inj h]
      have hperm := Hopping.order_perm region.channels.randomHop
        (planChannels region.channels.usable region.channels.count) source
      apply start
      · rw [allowedChannels_start _ _ _ (Nat.le_of_not_lt hcount)]
        exact hperm
      · rw [hperm.length_eq]
        exact length_planChannels_le _ (Nat.le_of_not_lt husable)

theorem singleFrequency (a : ActiveRegion) (khz : UInt32) :
    FollowsPlan (a.singleFrequency khz) := by
  apply start
  · exact .refl _
  · show 1 ≤ maxChannels
    decide

/-- Ramps and timers do not matter to hopping. -/
theorem of_hopsLike (h : FollowsPlan a) (hlike : HopsLike a b) : FollowsPlan b where
  perm := by
    unfold allowedChannels
    rw [hlike.hopTable, hlike.usable, hlike.channels]
    exact h.perm
  length_le := hlike.hopTable ▸ h.length_le
  channelsKhz_eq := by
    rw [hlike.channelsKhz, hlike.hopTable, hlike.channels]
    exact h.channelsKhz_eq
  activeIndex_lt := by
    rw [hlike.activeIndex, hlike.hopTable]
    exact h.activeIndex_lt

theorem advance (h : FollowsPlan a) : FollowsPlan a.advance :=
  { h with
    activeIndex_lt := by
      show a.nextIndex < a.hopTable.length ∨ a.hopTable = [] ∧ a.nextIndex = 0
      cases hempty : a.hopTable with
      | nil =>
          have hnext : a.nextIndex = 0 := by simp [nextIndex, hempty]
          exact .inr ⟨rfl, hnext⟩
      | cons channel rest =>
          rw [← hempty]
          exact .inl (nextIndex_lt (by simp [hempty])) }

/-- **Step**: every change leaves a hop table that follows the plan. -/
theorem step (h : FollowsPlan a) (hstep : Step a b) : FollowsPlan b := by
  obtain ⟨_, _, _, _, _, -, hselect⟩ | ⟨khz, rfl⟩ | rfl | hlike := hstep.cases
  · exact .ofRegion hselect
  · exact .singleFrequency a khz
  · exact h.advance
  · exact h.of_hopsLike hlike

end FollowsPlan

/-- **Run**: in every selected state the hop table follows the plan. -/
theorem Selected.followsPlan {a : ActiveRegion} (h : Selected a) : FollowsPlan a := by
  induction h with
  | ofRegion h => exact .ofRegion h
  | step _ hstep ih => exact ih.step hstep

/-- Whether the frequencies of the hop table fit their 32 bits. -/
def Fits (a : ActiveRegion) : Prop :=
  ∀ channel ∈ a.hopTable, a.region.channels.exactKhz channel < UInt32.size

namespace Fits

variable {a b : ActiveRegion}

theorem ofRegion {ρ : Type} [RandomSource ρ] {region : Region} {referenceKhz : UInt32}
    {source : ρ} (hfits : region.channels.Fits)
    (h : ((ofRegion region referenceKhz).run.run source).1 = .ok a) : Fits a := by
  rw [fst_run_ofRegion] at h
  split at h
  · contradiction
  · rw [← Except.ok.inj h]
    intro channel hchannel
    exact hfits channel ((Hopping.order_perm ..).mem_iff.mp hchannel)

theorem singleFrequency (a : ActiveRegion) (khz : UInt32) : Fits (a.singleFrequency khz) := by
  intro channel hchannel
  rw [List.mem_singleton.mp hchannel]
  exact a.region.channels.exactKhz_channelNumber_lt khz

/-- **Step**: every change keeps frequencies that fit. -/
theorem step (h : Fits a) (hstep : Step a b) : Fits b := by
  obtain ⟨_, _, _, _, region, hbuiltin, hselect⟩ | ⟨khz, rfl⟩ | rfl | hlike := hstep.cases
  · exact .ofRegion (Region.fits_builtin region hbuiltin) hselect
  · exact .singleFrequency a khz
  · exact h
  · unfold Fits
    rw [hlike.hopTable, hlike.channels]
    exact h

end Fits

/-- **Run**: in every reachable state the frequencies of the hop table fit. -/
theorem Reachable.fits {a : ActiveRegion} (h : Reachable a) : a.Fits := by
  induction h with
  | ofRegion hfits h => exact .ofRegion hfits h
  | ofId h =>
      obtain ⟨region, hbuiltin, hregion⟩ := exists_ofRegion_of_ofId h
      exact .ofRegion (Region.fits_builtin region hbuiltin) hregion
  | step _ hstep ih => exact ih.step hstep

/-! ## Hopping round -/

variable {a b : ActiveRegion}

/-- From inside a hop table the next index is the one behind, modulo the length. -/
theorem nextIndex_eq_mod (h : a.activeIndex < a.hopTable.length) :
    a.nextIndex = (a.activeIndex + 1) % a.hopTable.length := by
  unfold nextIndex
  split
  · next hend =>
      have hlast : a.activeIndex + 1 = a.hopTable.length := by omega
      rw [hlast, Nat.mod_self]
  · next hinside => exact (Nat.mod_eq_of_lt (by omega)).symm

/-- Some hops change the active index alone, which goes round the hop table. -/
theorem iterate_advance (h : a.activeIndex < a.hopTable.length) (hops : Nat) :
    advance^[hops] a = { a with activeIndex := (a.activeIndex + hops) % a.hopTable.length } := by
  induction hops with
  | zero => rw [Function.iterate_zero_apply, Nat.add_zero, Nat.mod_eq_of_lt h]
  | succ hops ih =>
      have hindex : (a.activeIndex + hops) % a.hopTable.length < a.hopTable.length :=
        Nat.mod_lt _ (Nat.zero_lt_of_lt h)
      rw [Function.iterate_succ_apply', ih, advance, nextIndex_eq_mod hindex]
      simp only [Nat.mod_add_mod, Nat.add_assoc]

theorem FollowsPlan.iterate_advance (h : FollowsPlan a) (hops : Nat) :
    FollowsPlan (ActiveRegion.advance^[hops] a) := by
  induction hops with
  | zero => exact h
  | succ hops ih =>
      rw [Function.iterate_succ_apply']
      exact ih.advance

/-- The next index goes round the hop table with the active one. -/
theorem nextIndex_iterate_advance (h : a.activeIndex < a.hopTable.length) (hops : Nat) :
    (advance^[hops] a).nextIndex = (a.nextIndex + hops) % a.hopTable.length := by
  have hnext : (advance^[hops] a).nextIndex = (advance^[hops + 1] a).activeIndex := by
    rw [Function.iterate_succ_apply', advance]
  rw [hnext, iterate_advance h, nextIndex_eq_mod h, Nat.mod_add_mod, Nat.add_assoc,
    Nat.add_comm 1]

/-- The next channel is an entry of the hop table, with the frequency of that entry. -/
theorem FollowsPlan.exists_next (h : FollowsPlan a) (hchannels : a.hopTable ≠ []) :
    ∃ channel, a.hopTable[a.nextIndex]? = some channel ∧
      a.nextKhz = a.region.channels.channelKhz channel := by
  have hchannel := List.getElem?_eq_getElem (nextIndex_lt hchannels)
  refine ⟨_, hchannel, ?_⟩
  rw [nextKhz, khzAt, h.channelsKhz_eq, List.getElem?_map, hchannel]
  rfl

/-- As many hops as there are entries visit each of them once. -/
theorem visits_perm (h : a.activeIndex < a.hopTable.length) :
    ((List.range a.hopTable.length).map fun k => (advance^[k + 1] a).activeIndex).Perm
      (List.range a.hopTable.length) := by
  have hrotate : ((List.range a.hopTable.length).map fun k => (advance^[k + 1] a).activeIndex)
      = (List.range a.hopTable.length).rotate (a.activeIndex + 1) := by
    apply List.ext_getElem
    · simp
    · intro k hk _
      simp only [List.getElem_map, List.getElem_range, List.getElem_rotate, List.length_range,
        iterate_advance h]
      congr 1
      omega
  rw [hrotate]
  exact List.rotate_perm _ _

/-- Where no frequency is there twice, looking one up finds its place and no other. -/
theorem channelIndex?_eq_some_iff (h : a.channelsKhz.Nodup) (khz : UInt32) (index : Nat) :
    a.channelIndex? khz = some index ↔ a.channelsKhz[index]? = some khz := by
  rw [channelIndex?, List.findIdx?_eq_some_iff_getElem, List.getElem?_eq_some_iff]
  simp only [beq_iff_eq]
  constructor
  · rintro ⟨hlt, hkhz, -⟩
    exact ⟨hlt, hkhz⟩
  · rintro ⟨hlt, hkhz⟩
    refine ⟨hlt, hkhz, ?_⟩
    intro j hj hkhz'
    have heq : j = index := h.getElem_inj_iff.mp (hkhz'.trans hkhz.symm)
    omega

/-- **Hop sequence**: in every reachable state the hop table is a permutation of the channels the
region allows, at most fifty, with the frequency of each beside it, and the active index stands
inside it.  Hopping goes through all of its entries and back to the first one, and frequencies
that differ lead back to their entries. -/
theorem Reachable.hop_sequence (h : Reachable a) :
    a.hopTable.Perm a.allowedChannels ∧
    a.hopTable.length ≤ 50 ∧
    a.channelsKhz.length = a.hopTable.length ∧
    (∀ (index : Nat) (channel : UInt16), a.hopTable[index]? = some channel →
      ∃ khz, a.channelsKhz[index]? = some khz ∧ khz = a.region.channels.channelKhz channel ∧
        khz.toNat = a.region.channels.exactKhz channel) ∧
    (a.activeIndex < a.hopTable.length ∨ a.hopTable = [] ∧ a.activeIndex = 0) ∧
    (a.hopTable ≠ [] →
      ((List.range a.hopTable.length).map fun k => (advance^[k + 1] a).activeIndex).Perm
        (List.range a.hopTable.length) ∧
      advance^[a.hopTable.length] a = a) ∧
    (a.channelsKhz.Nodup → ∀ (khz : UInt32) (index : Nat),
      a.channelIndex? khz = some index ↔ a.channelsKhz[index]? = some khz) := by
  have hplan := h.selected.followsPlan
  refine ⟨hplan.perm, hplan.length_le, ?_, ?_, hplan.activeIndex_lt, ?_, channelIndex?_eq_some_iff⟩
  · rw [hplan.channelsKhz_eq, List.length_map]
  · intro index channel hchannel
    have hfits := h.fits channel (List.mem_of_getElem? hchannel)
    refine ⟨a.region.channels.channelKhz channel, ?_, rfl, ChannelPlan.toNat_channelKhz hfits⟩
    rw [hplan.channelsKhz_eq, List.getElem?_map, hchannel, Option.map_some]
  · intro hchannels
    have hlt := hplan.activeIndex_lt.resolve_right fun hempty => hchannels hempty.1
    refine ⟨visits_perm hlt, ?_⟩
    rw [iterate_advance hlt, Nat.add_mod_right, Nat.mod_eq_of_lt hlt]

/-- Four shuffled channels, after one hop and with the timers turned off. -/
theorem hop_sequence_shuffled :
    ∃ a, Reachable a ∧ a.hopTable = [4, 1, 3, 2] ∧ a.activeIndex = 1 ∧
      a.hopTable.Perm [1, 2, 3, 4] ∧
      ((List.range 4).map fun k => (advance^[k + 1] a).activeIndex).Perm (List.range 4) ∧
      a.channelIndex? 902750 = some 1 := by
  let region : Region := { Region.plain with channels := ⟨902750, 500, 4, [], true⟩ }
  let selected := start region [] 24000 [4, 1, 3, 2]
  have horder : ((Hopping.order true (planChannels [] 4) : StateM CyclicSource (List UInt16)).run
      ⟨[5, 2, 1], [5, 2, 1]⟩).1 = [4, 1, 3, 2] := by decide
  have hselected : Reachable selected := by
    apply @Reachable.ofRegion CyclicSource _ region 24000 ⟨[5, 2, 1], [5, 2, 1]⟩ _ (by decide)
    rw [fst_run_ofRegion, if_neg (by decide)]
    exact congrArg (Except.ok <| start region [] 24000 ·) horder
  let a := selected.advance.disableTimers
  have hreachable : Reachable a := (hselected.step (.advance _)).step (.disableTimers _)
  have hchannels : a.hopTable ≠ [] := by decide
  have hallowed : a.allowedChannels = [1, 2, 3, 4] := by decide
  have hkhz : a.channelsKhz = [904250, 902750, 903750, 903250] := by decide
  obtain ⟨hperm, -, -, -, -, hround, hindex⟩ := hreachable.hop_sequence
  rw [hkhz] at hindex
  exact ⟨a, hreachable, rfl, rfl, hallowed ▸ hperm, (hround hchannels).1,
    (hindex (by decide) 902750 1).mpr rfl⟩

end ActiveRegion
end RfidReader
