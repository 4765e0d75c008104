import Mathlib.Data.List.Nodup
import RfidReader.Proofs.Hopping.HopSequence

/-!
# RfidReader.Proofs.Hopping.AdjacentChannels

Channels side by side in the plan of a region.

The neighbours of a hop table entry are looked up in the plan and not in the hop
order.  A region that lists its usable channels moves through the list, any other
through the channel numbers; both come to the place of the channel in the plan
plus the offset (`adjacentKhz_eq`).  So a neighbour is found exactly
if that place is in the plan, and going back by the same offset leads to the
frequency of the entry again (`Selected.adjacentKhz_neighbour`).
-/

namespace RfidReader
namespace ActiveRegion

variable {a b : ActiveRegion}

/-! ## Places in the plan -/

/-- The entry of a plan at a place, if the place is in the plan. -/
def entryAt? (plan : List UInt16) (place : Int) : Option UInt16 :=
  if place < 0 then none else plan[place.toNat]?

/-- The frequency of the plan's entry at a place. -/
def placeKhz (a : ActiveRegion) (place : Int) : Except Fault UInt32 :=
  match entryAt? a.allowedChannels place with
  | none => .error .adjacentOutOfRange
  | some channel => .ok (a.region.channels.channelKhz channel)

theorem entryAt?_eq_some_iff {plan : List UInt16} {place : Int} {channel : UInt16} :
    entryAt? plan place = some channel ↔
      ∃ position : Nat, (position : Int) = place ∧ plan[position]? = some channel := by
  unfold entryAt?
  split
  · next hneg =>
      refine iff_of_false (Option.some_ne_none channel).symm ?_
      rintro ⟨position, hposition, -⟩
      omega
  · next hpos =>
      constructor
      · intro h
        exact ⟨place.toNat, by omega, h⟩
      · rintro ⟨position, rfl, h⟩
        simpa using h

theorem placeKhz_eq_ok_iff {place : Int} {khz : UInt32} :
    a.placeKhz place = .ok khz ↔ ∃ channel, entryAt? a.allowedChannels place = some channel ∧
      a.region.channels.channelKhz channel = khz := by
  unfold placeKhz
  split <;> simp_all

/-- Without a list of usable channels the plan counts up from 1. -/
theorem getElem?_allowedChannels (h : a.usable = []) (position : Nat) :
    a.allowedChannels[position]? =
      if position < a.region.channels.count.toNat then some (UInt16.ofNat (position + 1))
      else none := by
  simp only [allowedChannels, h, List.getElem?_map]
  split
  · next hlt => rw [List.getElem?_range' hlt, Option.map_some, Nat.one_mul, Nat.add_comm]
  · next hge => simpa using hge

theorem entryAt?_allowedChannels (h : a.usable = []) (place : Int) :
    entryAt? a.allowedChannels place =
      if 0 < place + 1 ∧ place + 1 ≤ a.region.channels.count.toNat then
        some (UInt16.ofNat (place + 1).toNat)
      else none := by
  unfold entryAt?
  rw [getElem?_allowedChannels h]
  by_cases hin : 0 < place + 1 ∧ place + 1 ≤ a.region.channels.count.toNat
  · have hnumber : place.toNat + 1 = (place + 1).toNat := by omega
    rw [if_pos hin, if_neg (by omega), if_pos (by omega), hnumber]
  · rw [if_neg hin, ite_eq_left_iff]
    intro hpos
    rw [if_neg (by omega)]

theorem allowedChannels_of_ne_nil (h : a.usable ≠ []) : a.allowedChannels = a.usable := by
  unfold allowedChannels
  split
  · contradiction
  · rfl

section Neighbours

variable {index position : Nat} {current : UInt16}

/-- Counting through the channel numbers moves through the plan. -/
theorem adjacentKhz_of_counted (husable : a.usable = [])
    (hcurrent : a.hopTable[index]? = some current)
    (hposition : a.allowedChannels[position]? = some current) (offset : Int) :
    a.adjacentKhz index offset = a.placeKhz (position + offset) := by
  have hcount := a.region.channels.count.toNat_lt_size
  have hnumber : (current.toNat : Int) = position + 1 := by
    rw [getElem?_allowedChannels husable, Option.ite_none_right_eq_some] at hposition
    rw [← Option.some.inj hposition.2, UInt16.toNat_ofNat_of_lt' (by omega)]
    rfl
  have hplace : (current.toNat : Int) + offset = position + offset + 1 := by omega
  unfold adjacentKhz placeKhz
  simp only [hcurrent, husable, List.isEmpty_nil, if_true, hplace, entryAt?_allowedChannels husable]
  split <;> rfl

/-- Going through the list of usable channels moves through the plan. -/
theorem adjacentKhz_of_listed (husable : a.usable ≠ []) (hnodup : a.allowedChannels.Nodup)
    (hcurrent : a.hopTable[index]? = some current)
    (hposition : a.allowedChannels[position]? = some current) (offset : Int) :
    a.adjacentKhz index offset = a.placeKhz (position + offset) := by
  have hplan := allowedChannels_of_ne_nil husable
  rw [hplan] at hnodup hposition
  have hfind : a.usable.findIdx? (· == current) = some position := by
    obtain ⟨hlt, hentry⟩ := List.getElem?_eq_some_iff.mp hposition
    rw [List.findIdx?_eq_some_iff_getElem]
    refine ⟨hlt, by simpa using hentry, fun j hj => ?_⟩
    have hne : a.usable[j] ≠ a.usable[position] := fun heq =>
      absurd (hnodup.getElem_inj_iff.mp heq) (by omega)
    simpa [← hentry] using hne
  have hlisted : a.usable.isEmpty = false := by simpa using husable
  unfold adjacentKhz placeKhz entryAt?
  simp only [hcurrent, hlisted, hfind, hplan]
  split_ifs <;> first | contradiction | rfl

/-- **Places**: both ways of moving through a plan lead to the place of the channel plus the
offset. -/
theorem adjacentKhz_eq (hnodup : a.allowedChannels.Nodup)
    (hcurrent : a.hopTable[index]? = some current)
    (hposition : a.allowedChannels[position]? = some current) (offset : Int) :
    a.adjacentKhz index offset = a.placeKhz (position + offset) := by
  by_cases husable : a.usable = []
  · exact adjacentKhz_of_counted husable hcurrent hposition offset
  · exact adjacentKhz_of_listed husable hnodup hcurrent hposition offset

end Neighbours

/-! ## Neighbours -/

/-- The plan's entry `offset` places away from the channel of a hop table entry. -/
def Neighbour (a : ActiveRegion) (index : Nat) (offset : Int) (channel : UInt16) : Prop :=
  ∃ (current : UInt16) (position target : Nat), a.hopTable[index]? = some current ∧
    a.allowedChannels[position]? = some current ∧ (target : Int) = position + offset ∧
    a.allowedChannels[target]? = some channel

theorem FollowsPlan.nodup (h : FollowsPlan a) (hdistinct : a.channelsKhz.Nodup) :
    a.allowedChannels.Nodup := by
  rw [h.channelsKhz_eq] at hdistinct
  exact h.perm.nodup_iff.mp (List.Nodup.of_map _ hdistinct)

theorem FollowsPlan.exists_position (h : FollowsPlan a) {index : Nat} {current : UInt16}
    (hcurrent : a.hopTable[index]? = some current) :
    ∃ position : Nat, a.allowedChannels[position]? = some current :=
  List.mem_iff_getElem?.mp (h.perm.mem_iff.mp (List.mem_of_getElem? hcurrent))

/-- A neighbour is found exactly if its place is in the plan. -/
theorem FollowsPlan.adjacentKhz_eq_ok_iff (h : FollowsPlan a) (hdistinct : a.channelsKhz.Nodup)
    {index : Nat} {offset : Int} {khz : UInt32} :
    a.adjacentKhz index offset = .ok khz ↔
      ∃ channel, a.Neighbour index offset channel ∧ a.region.channels.channelKhz channel = khz := by
  have hnodup := h.nodup hdistinct
  constructor
  · intro hkhz
    cases hcurrent : a.hopTable[index]? with
    | none => simp [adjacentKhz, hcurrent] at hkhz
    | some current =>
        obtain ⟨position, hposition⟩ := h.exists_position hcurrent
        rw [adjacentKhz_eq hnodup hcurrent hposition, placeKhz_eq_ok_iff] at hkhz
        obtain ⟨channel, hentry, rfl⟩ := hkhz
        obtain ⟨target, htarget, hchannel⟩ := entryAt?_eq_some_iff.mp hentry
        exact ⟨channel, ⟨current, position, target, hcurrent, hposition, htarget, hchannel⟩, rfl⟩
  · rintro ⟨channel, ⟨current, position, target, hcurrent, hposition, htarget, hchannel⟩, rfl⟩
    rw [adjacentKhz_eq hnodup hcurrent hposition, placeKhz_eq_ok_iff]
    exact ⟨channel, entryAt?_eq_some_iff.mpr ⟨target, htarget, hchannel⟩, rfl⟩

/-- The hop order does not matter to the neighbours of a channel. -/
theorem adjacentKhz_congr {index index' : Nat} (hchannels : b.region.channels = a.region.channels)
    (husable : b.usable = a.usable) (hcurrent : b.hopTable[index']? = a.hopTable[index]?)
    (offset : Int) : b.adjacentKhz index' offset = a.adjacentKhz index offset := by
  unfold adjacentKhz
  rw [hchannels, husable, hcurrent]

/-- A neighbour is in the hop table, and the way back leads to the entry. -/
theorem FollowsPlan.exists_back (h : FollowsPlan a) (hdistinct : a.channelsKhz.Nodup) {index : Nat}
    {offset : Int} {khz : UInt32} (hkhz : a.adjacentKhz index offset = .ok khz) :
    ∃ index' origin, a.channelIndex? khz = some index' ∧ a.channelsKhz[index]? = some origin ∧
      a.adjacentKhz index' (-offset) = .ok origin := by
  obtain ⟨channel, ⟨current, position, target, hcurrent, hposition, htarget, hchannel⟩, rfl⟩ :=
    (h.adjacentKhz_eq_ok_iff hdistinct).mp hkhz
  obtain ⟨index', hindex'⟩ : ∃ index' : Nat, a.hopTable[index']? = some channel :=
    List.mem_iff_getElem?.mp (h.perm.mem_iff.mpr (List.mem_of_getElem? hchannel))
  refine ⟨index', a.region.channels.channelKhz current, ?_, ?_, ?_⟩
  · rw [channelIndex?_eq_some_iff hdistinct, h.channelsKhz_eq, List.getElem?_map, hindex',
      Option.map_some]
  · rw [h.channelsKhz_eq, List.getElem?_map, hcurrent, Option.map_some]
  · exact (h.adjacentKhz_eq_ok_iff hdistinct).mpr
      ⟨current, ⟨channel, target, position, hindex', hchannel, by omega, hposition⟩, rfl⟩

/-- **Adjacent channels**: in every reachable state whose hop table has different frequencies that
fit, a hop table entry has a neighbour exactly if its place in the plan plus the offset is in the
plan, and it is the frequency of the entry there, whatever the hop order.  The neighbour is in the
hop table itself, and the opposite offset leads back from it. -/
theorem Selected.adjacentKhz_neighbour (h : Selected a) (hdistinct : a.channelsKhz.Nodup)
    (hfits : ∀ channel ∈ a.hopTable, a.region.channels.exactKhz channel < UInt32.size) :
    (∀ (index : Nat) (offset : Int) (khz : UInt32), a.adjacentKhz index offset = .ok khz ↔
      ∃ channel, a.Neighbour index offset channel ∧
        khz.toNat = a.region.channels.exactKhz channel) ∧
    (∀ (b : ActiveRegion) (index index' : Nat) (offset : Int),
      b.region.channels = a.region.channels → b.usable = a.usable →
      b.hopTable[index']? = a.hopTable[index]? →
      b.adjacentKhz index' offset = a.adjacentKhz index offset) ∧
    (∀ (index : Nat) (offset : Int) (khz : UInt32), a.adjacentKhz index offset = .ok khz →
      ∃ index' origin, a.channelIndex? khz = some index' ∧ a.channelsKhz[index]? = some origin ∧
        a.adjacentKhz index' (-offset) = .ok origin) := by
  have hfollows := h.followsPlan
  refine ⟨?_, ?_, fun index offset khz => hfollows.exists_back hdistinct⟩
  · intro index offset khz
    rw [hfollows.adjacentKhz_eq_ok_iff hdistinct]
    refine exists_congr fun channel => and_congr_right ?_
    rintro ⟨current, position, target, -, -, -, hchannel⟩
    have hmem := hfollows.perm.mem_iff.mpr (List.mem_of_getElem? hchannel)
    rw [← ChannelPlan.toNat_channelKhz (hfits channel hmem), UInt32.toNat_inj]
    exact eq_comm
  · intro b index index' offset hchannels husable hcurrent
    exact adjacentKhz_congr hchannels husable hcurrent offset

/-- Four listed channels in a shuffled order: two places on from the first of them, and back. -/
theorem adjacentKhz_neighbour_listed :
    ∃ a, Selected a ∧ a.hopTable = [13, 4, 10, 7] ∧ a.channelsKhz.Nodup ∧
      (∀ channel ∈ a.hopTable, a.region.channels.exactKhz channel < UInt32.size) ∧
      a.adjacentKhz 1 2 = .ok 866900 ∧ a.channelIndex? 866900 = some 2 ∧
      a.adjacentKhz 2 (-2) = .ok 865700 ∧ ∀ khz, a.adjacentKhz 0 1 ≠ .ok khz := by
  let region : Region := { Region.etsiLower with channels := ⟨865100, 200, 4, [4, 7, 10, 13], true⟩ }
  let a := start region [4, 7, 10, 13] 24000 [13, 4, 10, 7]
  have horder : ((Hopping.order true (planChannels [4, 7, 10, 13] 4) :
      StateM CyclicSource (List UInt16)).run ⟨[5, 2, 1], [5, 2, 1]⟩).1 = [13, 4, 10, 7] := by decide
  have hselected : Selected a := by
    apply @Selected.ofRegion CyclicSource _ region 24000 ⟨[5, 2, 1], [5, 2, 1]⟩
    rw [fst_run_ofRegion, if_neg (by decide)]
    exact congrArg (Except.ok <| start region [4, 7, 10, 13] 24000 ·) horder
  have hdistinct : a.channelsKhz.Nodup := by decide
  have hplan : region.channels.Fits := by decide
  have hfits : ∀ channel ∈ a.hopTable, a.region.channels.exactKhz channel < UInt32.size :=
    fun channel hchannel => hplan channel (hselected.followsPlan.perm.mem_iff.mp hchannel)
  obtain ⟨hneighbour, -, hback⟩ := hselected.adjacentKhz_neighbour hdistinct hfits
  have hthere : a.adjacentKhz 1 2 = .ok 866900 :=
    (hneighbour 1 2 866900).mpr ⟨10, ⟨4, 0, 2, rfl, rfl, rfl, rfl⟩, rfl⟩
  refine ⟨a, hselected, rfl, hdistinct, hfits, hthere, ?_⟩
  obtain ⟨index', origin, hindex', horigin, hreturn⟩ := hback 1 2 866900 hthere
  have hthird : a.channelIndex? 866900 = some 2 := by decide
  have hfirst : a.channelsKhz[1]? = some 865700 := by decide
  obtain rfl : index' = 2 := Option.some.inj (hindex'.symm.trans hthird)
  obtain rfl : origin = 865700 := Option.some.inj (horigin.symm.trans hfirst)
  refine ⟨hindex', hreturn, fun khz hkhz => ?_⟩
  obtain ⟨channel, ⟨current, position, target, hcurrent, hposition, htarget, hchannel⟩, -⟩ :=
    (hneighbour 0 1 khz).mp hkhz
  -- Channel 13 is the last of the plan, so nothing is one place behind it.
  obtain rfl : (13 : UInt16) = current := Option.some.inj hcurrent
  have hlast : ∀ place < 3, a.allowedChannels[place]? ≠ some 13 := by decide
  have hbehind : 3 ≤ position := Nat.le_of_not_lt fun hlt => hlast position hlt hposition
  have hin : target < 4 := (List.getElem?_eq_some_iff.mp hchannel).1
  omega

end ActiveRegion
end RfidReader
