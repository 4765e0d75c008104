import RfidReader.Board
import RfidReader.Calibration.Power
import RfidReader.Device.Basic
import RfidReader.Hopping.ActiveRegion

/-!
# RfidReader.Transmit.Ramp

One ramp of the carrier: the plan it follows, and the hooks around it.

A `RampPlan` holds everything a ramp needs.  `RampHooks` are procedures to run
right before and right after a ramp, with a state of their own; a failing
`before` cancels the ramp.  A `HookSlot` holds at most one set of hooks.
-/

namespace RfidReader

/-! ## Plans -/

/-- Everything needed for one ramp. -/
structure RampPlan where
  /-- The antenna port, from 1. -/
  antenna : UInt8
  mode : RfMode
  cdbm : Int16
  /-- The temperature the power is compensated for, if any. -/
  temperatureAdc : Option UInt16
  band : RfFilter
  khz : UInt32
  synthesizer : SynthesizerParams
  pins : PinChanges
  power : PowerSettings
  timers : DwellTimers
  deriving DecidableEq, Repr

namespace RampPlan

/-- The conditions the power was worked out for. -/
def conditions (p : RampPlan) : TxConditions where
  khz := p.khz
  temperatureAdc := p.temperatureAdc
  band := p.band

end RampPlan

/-! ## Hooks -/

/-- What the hooks of a ramp can look at. -/
structure RampContext where
  plan : RampPlan
  calibration : Calibration
  /-- The hop table index the ramp uses. -/
  index : Nat
  /-- The frequency the ramp uses. -/
  khz : UInt32

/-- What to do around a ramp. -/
structure RampHooks (κ : Type) where
  /-- Runs before anything is written for the ramp itself. -/
  before : RampContext → HostM κ Unit := fun _ => pure ()
  /-- Runs once the ramp is complete. -/
  after : RampContext → HostM κ Unit := fun _ => pure ()

/-- Hooks on the first of two states. -/
def RampHooks.onFirst {σ τ : Type} (hooks : RampHooks σ) : RampHooks (σ × τ) where
  before context := (hooks.before context).onFirst
  after context := (hooks.after context).onFirst

/-- Hooks on the second of two states. -/
def RampHooks.onSecond {σ τ : Type} (hooks : RampHooks τ) : RampHooks (σ × τ) where
  before context := (hooks.before context).onSecond
  after context := (hooks.after context).onSecond

/-- A place for at most one set of hooks. -/
structure HookSlot (κ : Type) where
  hooks? : Option (RampHooks κ) := none

namespace HookSlot

variable {κ : Type}

def isRegistered (s : HookSlot κ) : Bool := s.hooks?.isSome

/-- Put hooks into an empty slot. -/
def register (s : HookSlot κ) (hooks : RampHooks κ) : Except Fault (HookSlot κ) :=
  if s.isRegistered then .error .callbacksRegistered else .ok { hooks? := some hooks }

def release (_ : HookSlot κ) : HookSlot κ := {}

/-- Run the hook before a ramp, if there is one. -/
def before (s : HookSlot κ) (context : RampContext) : HostM κ Unit :=
  match s.hooks? with
  | none => pure ()
  | some hooks => hooks.before context

/-- Run the hook after a ramp, if there is one. -/
def after (s : HookSlot κ) (context : RampContext) : HostM κ Unit :=
  match s.hooks? with
  | none => pure ()
  | some hooks => hooks.after context

end HookSlot
end RfidReader
