import RfidReader.Region.Basic
import RfidReader.Word

/-!
# RfidReader.Region.OffTime

How long each channel has been on the air, and the dwell timers that remain.

Times are the chip's milliseconds, subtracted modulo `2 ^ 32`.  A channel's
total starts over once it has been off for the full off time; a shorter gap
counts as on time.  A channel that used up its nominal dwell owes the rest of
the off time, one that used part of it gets shorter dwell timers.
-/

namespace RfidReader

/-- The on time of one channel. -/
structure ChannelUse where
  lastStart : UInt32 := 0
  lastEnd : UInt32 := 0
  totalMs : UInt32 := 0
  deriving DecidableEq, Repr

namespace ChannelUse

/-- The transmitter turns on at `timeMs`. -/
def started (u : ChannelUse) (timeMs : UInt32) (timers : DwellTimers) : ChannelUse :=
  let sinceOff := timeMs - u.lastEnd
  { u with
    lastStart := timeMs
    totalMs :=
      if timers.offSameChannelMs.toNat ≤ sinceOff.toNat then 0
      else clampUInt32 (u.totalMs.toNat + sinceOff.toNat) }

/-- The transmitter turns off at `timeMs`. -/
def ended (u : ChannelUse) (timeMs : UInt32) : ChannelUse :=
  { u with
    lastEnd := timeMs
    totalMs := clampUInt32 (u.totalMs.toNat + (timeMs - u.lastStart).toNat) }

/-- What is left of a limit after `used`, at least 1. -/
def remaining (limit used : UInt16) : UInt16 := if used < limit then limit - used else 1

/-- The timers of a ramp at `timeMs`, given those of a rested channel. -/
def timersAt (u : ChannelUse) (timeMs : UInt32) (rested : DwellTimers) : DwellTimers :=
  let sinceOff := timeMs - u.lastEnd
  let used := clampUInt16 u.totalMs.toNat
  if u.lastEnd < u.lastStart then
    -- Still transmitting on this channel.
    { rested with offSameChannelMs := 0 }
  else if rested.offSameChannelMs.toNat ≤ sinceOff.toNat then
    { rested with offSameChannelMs := 0 }
  else if rested.nominalMs ≤ used then
    { rested with offSameChannelMs := rested.offSameChannelMs - sinceOff.toUInt16 }
  else
    { nominalMs := remaining rested.nominalMs used
      extendedMs := remaining rested.extendedMs used
      regulatoryMs := remaining rested.regulatoryMs used
      offSameChannelMs := 0 }

end ChannelUse

/-- The on time of the first four entries of a hop table. -/
structure OffTimeTracker where
  uses : Vector ChannelUse 4 := Vector.replicate 4 {}
  deriving DecidableEq

namespace OffTimeTracker

/-- A tracker that has seen nothing. -/
def fresh : OffTimeTracker := {}

/-- The record of a tracked entry. -/
def use? (t : OffTimeTracker) (index : Nat) : Option ChannelUse := t.uses[index]?

/-- Change the record of an entry; entries that are not tracked stay out. -/
def update (t : OffTimeTracker) (index : Nat) (f : ChannelUse → ChannelUse) : OffTimeTracker :=
  if h : index < 4 then ⟨t.uses.set index (f (t.uses.get ⟨index, h⟩)) h⟩ else t

/-- The transmitter turns on. -/
def start (t : OffTimeTracker) (index : Nat) (timeMs : UInt32) (timers : DwellTimers) :
    OffTimeTracker :=
  t.update index (·.started timeMs timers)

/-- The transmitter turns off. -/
def finish (t : OffTimeTracker) (index : Nat) (timeMs : UInt32) : OffTimeTracker :=
  t.update index (·.ended timeMs)

/-- The on time of an entry, 0 for those that are not tracked. -/
def totalMs (t : OffTimeTracker) (index : Nat) : UInt32 :=
  ((t.use? index).map (·.totalMs)).getD 0

/-- The timers of a ramp on an entry, given those of a rested channel. -/
def timersAt (t : OffTimeTracker) (index : Nat) (timeMs : UInt32) (rested : DwellTimers) :
    DwellTimers :=
  ((t.use? index).map (·.timersAt timeMs rested)).getD rested

end OffTimeTracker
end RfidReader
