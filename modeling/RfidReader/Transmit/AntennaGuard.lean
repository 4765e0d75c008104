import RfidReader.Transmit.Carrier

/-!
# RfidReader.Transmit.AntennaGuard

Noticing a missing antenna by the power that comes back.

With nothing on the antenna port most of the power is reflected.  After a ramp
the guard measures the reflected power and compares it to what an antenna with
the assumed return loss would reflect, plus a margin.  Above that, or when the
measurement fails, the transmitter is shut down.
-/

namespace RfidReader

/-- The state of the reflected power check. -/
structure AntennaGuard where
  /-- The return loss of a connected antenna, in cdB. -/
  returnLossCdb : UInt16 := 1000
  /-- The allowance above the reflected power that is expected, in cdB, counted downward. -/
  marginCdb : Int16 := -400
  /-- The board's loss from the antenna port to the receiver, in cdB. -/
  rxLossCdb : Int16
  /-- The board's loss from the transmitter to the antenna port, in cdB. -/
  loLossCdb : Int16
  /-- The threshold of the last check. -/
  lastThreshold : UInt16 := 0
  /-- The measurement of the last check. -/
  lastMeasurement : UInt16 := 0
  deriving DecidableEq, Repr

namespace AntennaGuard

/-- A guard for a board. -/
def ofBoard (board : Board) : AntennaGuard where
  rxLossCdb := board.rxLossCdb
  loLossCdb := board.loLossCdb

/-- A difference, stopping at the ends of the 16-bit range. -/
def saturatingSub (a b : Int16) : Int16 := clampInt16 (a.toInt - b.toInt)

/-- The reflected power that counts as a missing antenna at a transmit power.  The detectors are
calibrated against the transmitter, so the difference of the losses is taken out as well; unlike
the other differences it wraps. -/
def thresholdCdbm (g : AntennaGuard) (cdbm : Int16) : Int16 :=
  let reflected := saturatingSub cdbm (clampInt16 g.returnLossCdb.toNat)
  let atDetector := saturatingSub reflected (g.rxLossCdb - g.loLossCdb)
  saturatingSub atDetector g.marginCdb

/-- Measure the reflected power, and tell whether it has reached the threshold.  A calibration
without reverse power has no threshold to reach. -/
def check (context : RampContext) : HostM AntennaGuard Bool := do
  let g ← get
  let target := context.calibration.reversePowerToAdc (g.thresholdCdbm context.plan.cdbm)
    context.plan.conditions
  match target with
  | none => pure false
  | some target =>
    let readings ← (Device.measureAux target.detector.channel 1 : DeviceM (List UInt16))
    match readings with
    | [] => throw (.host .noReversePower)
    | measurement :: _ =>
      set { g with lastThreshold := target.adc, lastMeasurement := measurement }
      pure (target.adc ≤ measurement)

/-- Check the reflected power after a ramp, and shut the transmitter down unless it is below the
threshold.  A failed measurement is reported even if the shutdown fails too. -/
def afterRamp (context : RampContext) : HostM AntennaGuard Unit := do
  match ← (check context).attempt with
  | .ok false => pure ()
  | .ok true =>
    (Transmitter.shutDown : DeviceM Unit)
    throw (.host .aboveThreshold)
  | .error error =>
    let _ ← HostM.attempt (liftM (Transmitter.shutDown : DeviceM Unit) : HostM AntennaGuard Unit)
    throw error

/-- The guard as hooks of a ramp. -/
def hooks : RampHooks AntennaGuard where
  after := afterRamp

end AntennaGuard
end RfidReader
