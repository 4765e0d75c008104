import RfidReader.Transmit.Carrier

/-!
# RfidReader.Transmit.Recorder

Hooks that record the ramps they see, and fail when they are told to.
-/

namespace RfidReader

/-- A hook that ran. -/
structure RampRecord where
  /-- Whether it was the hook before the ramp. -/
  isBefore : Bool
  /-- The hop table index of the ramp. -/
  index : Nat
  khz : UInt32
  deriving DecidableEq, Repr

/-- What recording hooks do besides. -/
structure RecorderSetting where
  /-- Refuse the ramp. -/
  failBefore : Bool := false
  /-- Shut the transmitter down after the ramp. -/
  shutDown : Bool := false
  /-- Fail after the ramp. -/
  failAfter : Bool := false
  deriving DecidableEq, Repr

namespace RecorderSetting

/-- The reason a ramp is refused for. -/
def refusal : Fault := .refused "channel busy"

/-- The hooks; they keep a list of records, newest first. -/
def hooks (s : RecorderSetting) : RampHooks (List RampRecord) where
  before context := do
    modify ({ isBefore := true, index := context.index, khz := context.khz } :: ·)
    if s.failBefore then throw (.host refusal)
  after context := do
    modify ({ isBefore := false, index := context.index, khz := context.khz } :: ·)
    if s.shutDown then (Transmitter.shutDown : DeviceM Unit)
    if s.failAfter then throw (.host .aboveThreshold)

end RecorderSetting
end RfidReader
