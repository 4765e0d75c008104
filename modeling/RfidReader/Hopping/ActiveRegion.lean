import RfidReader.Hopping.Shuffle
import RfidReader.Hopping.Synthesizer
import RfidReader.Region.Builtin
import RfidReader.Region.OffTime

/-!
# RfidReader.Hopping.ActiveRegion

The region the reader transmits in and where it stands in its hop sequence.

A ramp always uses the *next* channel of the hop table, and `advance` moves on
once the ramp has succeeded.  The frequency of every hop table entry is kept
beside it.  Two things are learned from past ramps: how long each channel has
been on the air, and by how much the chip overshoots its nominal dwell time.
-/

namespace RfidReader

/-- The longest hop table. -/
def maxChannels : Nat := 50

/-- The dwell overshoot assumed before a ramp was measured. -/
def defaultOvershootMs : UInt16 := 8

/-- The chip's millisecond counter starts over after this value. -/
def lastCounterMs : UInt32 := 4294967

/-- The channel state of the selected region. -/
structure ActiveRegion where
  region : Region
  /-- The channels that may be used; empty when all of the plan may. -/
  usable : List UInt16
  /-- The reference frequency of the synthesizer. -/
  referenceKhz : UInt32
  /-- Channel numbers in hop order. -/
  hopTable : List UInt16
  /-- The frequency of each hop table entry. -/
  channelsKhz : List UInt32
  activeIndex : Nat
  overshootMs : UInt16
  offTime : OffTimeTracker
  deriving DecidableEq

namespace ActiveRegion

/-! ## Selecting a region -/

/-- The channels of a plan in channel order: the usable ones, or 1 through the count. -/
def planChannels (usable : List UInt16) (count : UInt16) : List UInt16 :=
  if usable.isEmpty then (List.range (min count.toNat maxChannels)).map (UInt16.ofNat <| · + 1)
  else usable

/-- A region at the start of a hop order, with nothing learned yet. -/
def start (region : Region) (usable : List UInt16) (referenceKhz : UInt32)
    (hopTable : List UInt16) : ActiveRegion where
  region
  usable
  referenceKhz
  hopTable
  channelsKhz := hopTable.map region.channels.channelKhz
  activeIndex := 0
  overshootMs := defaultOvershootMs
  offTime := .fresh

/-- Select a region.  Its hop table is shuffled if the region hops at random. -/
def ofRegion {ρ : Type} [RandomSource ρ] (region : Region) (referenceKhz : UInt32) :
    ExceptT Fault (StateM ρ) ActiveRegion := do
  if maxChannels < region.channels.usable.length ∨ maxChannels < region.channels.count.toNat then
    throw .hopTableTooLong
  let plan := planChannels region.channels.usable region.channels.count
  let hopTable ← (Hopping.order region.channels.randomHop plan : StateM ρ (List UInt16))
  pure (start region region.channels.usable referenceKhz hopTable)

def ofId {ρ : Type} [RandomSource ρ] (id : RegionId) (referenceKhz : UInt32) :
    ExceptT Fault (StateM ρ) ActiveRegion :=
  match Region.byId? id with
  | none => throw .unknownRegion
  | some region => ofRegion region referenceKhz

/-! ## Hopping -/

/-- The hop table index the next ramp uses. -/
def nextIndex (a : ActiveRegion) : Nat :=
  if a.hopTable.length ≤ a.activeIndex + 1 then 0 else a.activeIndex + 1

/-- The frequency of a hop table entry, 0 if there is none. -/
def khzAt (a : ActiveRegion) (index : Nat) : UInt32 := (a.channelsKhz[index]?).getD 0

def activeKhz (a : ActiveRegion) : UInt32 := a.khzAt a.activeIndex

/-- The frequency the next ramp uses. -/
def nextKhz (a : ActiveRegion) : UInt32 := a.khzAt a.nextIndex

/-- Move on by one channel. -/
def advance (a : ActiveRegion) : ActiveRegion := { a with activeIndex := a.nextIndex }

/-- The hop table index of a frequency. -/
def channelIndex? (a : ActiveRegion) (khz : UInt32) : Option Nat :=
  a.channelsKhz.findIdx? (· == khz)

/-- The frequency `offset` channels away from a hop table entry.  Where the region lists its
usable channels the offset moves through that list. -/
def adjacentKhz (a : ActiveRegion) (index : Nat) (offset : Int) : Except Fault UInt32 :=
  match a.hopTable[index]? with
  | none => .error .hopIndexOutOfRange
  | some current =>
    if a.usable.isEmpty then
      let adjacent : Int := current.toNat + offset
      if 0 < adjacent ∧ adjacent ≤ a.region.channels.count.toNat then
        .ok (a.region.channels.channelKhz (UInt16.ofNat adjacent.toNat))
      else .error .adjacentOutOfRange
    else
      match a.usable.findIdx? (· == current) with
      | none => .error .channelNotUsable
      | some position =>
        let adjacent : Int := position + offset
        if adjacent < 0 then .error .adjacentOutOfRange
        else
          match a.usable[adjacent.toNat]? with
          | none => .error .adjacentOutOfRange
          | some channel => .ok (a.region.channels.channelKhz channel)

/-- Synthesizer settings for a frequency, with the region's reference divider. -/
def synthesizerParams (a : ActiveRegion) (khz : UInt32) : Except Fault SynthesizerParams :=
  match Synthesizer.rIndex? a.region.rDivider with
  | none => .error .unknownRDivider
  | some rIndex =>
    .ok { khz, rIndex, nDivider := Synthesizer.nDivider a.referenceKhz khz a.region.rDivider }

theorem rIndex_lt {a : ActiveRegion} {khz : UInt32} {params : SynthesizerParams}
    (h : a.synthesizerParams khz = .ok params) : params.rIndex < 8 := by
  unfold synthesizerParams at h
  split at h
  · contradiction
  · next hfound =>
    rw [← Except.ok.inj h]
    exact Synthesizer.lt_of_rIndex? hfound

/-- Stay on the one channel that contains a frequency, for testing. -/
def singleFrequency (a : ActiveRegion) (khz : UInt32) : ActiveRegion :=
  let channel := a.region.channels.channelNumber khz
  let channels := { a.region.channels with count := 1, randomHop := false }
  start { a.region with channels } [channel] a.referenceKhz [channel]

/-! ## Dwell timers -/

/-- Turn the dwell timers off, so that the transmitter can stay on without limit. -/
def disableTimers (a : ActiveRegion) : ActiveRegion :=
  { a with region := { a.region with timers := .disabled }, offTime := .fresh }

/-- Go back to the dwell timers of a built-in region; other regions have none to go back to. -/
def reenableTimers (a : ActiveRegion) : ActiveRegion :=
  match Region.byId? a.region.id with
  | none => a
  | some builtin =>
    { a with region := { a.region with timers := builtin.timers }, offTime := .fresh }

/-- Shorten the nominal dwell time by the learned overshoot, but not below 1.  A nominal time of
zero stays. -/
def compensateOvershoot (a : ActiveRegion) (timers : DwellTimers) : DwellTimers :=
  if timers.nominalMs = 0 then timers
  else if a.overshootMs < timers.nominalMs then
    { timers with nominalMs := timers.nominalMs - a.overshootMs }
  else { timers with nominalMs := 1 }

/-- The milliseconds from one reading of the chip's counter to a later one, across its
rollover. -/
def elapsedMs (up down : UInt32) : UInt32 :=
  if down < up then lastCounterMs - up + down else down - up

/-- Learn the overshoot of a ramp that was ended by the nominal timer. -/
def recordRamp (a : ActiveRegion) (upMs downMs : UInt32) (nominalMs : UInt16) : ActiveRegion :=
  let onMs := (elapsedMs upMs downMs).toNat
  let expected := nominalMs.toNat + a.overshootMs.toNat
  let overshoot :=
    if expected ≤ onMs then a.overshootMs.toNat + (onMs - expected)
    else a.overshootMs.toNat - (expected - onMs)
  { a with overshootMs := clampUInt16 overshoot }

/-- The timers of a ramp on a hop table entry. -/
def timersAt (a : ActiveRegion) (index : Nat) (timeMs : UInt32) : DwellTimers :=
  a.compensateOvershoot <|
    if a.region.tracksOffTime then a.offTime.timersAt index timeMs a.region.timers
    else a.region.timers

/-- The transmitter turns on for a hop table entry. -/
def trackStart (a : ActiveRegion) (index : Nat) (timeMs : UInt32) : ActiveRegion :=
  if a.region.tracksOffTime then
    { a with offTime := a.offTime.start index timeMs a.region.timers }
  else a

/-- The transmitter turns off for a hop table entry. -/
def trackEnd (a : ActiveRegion) (index : Nat) (timeMs : UInt32) : ActiveRegion :=
  if a.region.tracksOffTime then { a with offTime := a.offTime.finish index timeMs } else a

/-- The transmitter turns on for the active channel. -/
def trackActiveStart (a : ActiveRegion) (timeMs : UInt32) : ActiveRegion :=
  a.trackStart a.activeIndex timeMs

/-- The transmitter turns off for the active channel. -/
def trackActiveEnd (a : ActiveRegion) (timeMs : UInt32) : ActiveRegion :=
  a.trackEnd a.activeIndex timeMs

/-- Track a ramp the chip reports by frequency.  Nothing is recorded unless both frequencies are
in the hop table. -/
def trackRamp (a : ActiveRegion) (upMs upKhz downMs downKhz : UInt32) : ActiveRegion :=
  match a.channelIndex? upKhz, a.channelIndex? downKhz with
  | some upIndex, some downIndex => (a.trackStart upIndex upMs).trackEnd downIndex downMs
  | _, _ => a

end ActiveRegion
end RfidReader
