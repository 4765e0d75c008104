import RfidReader.Aggregate.Buffer
import RfidReader.Aggregate.Builder
import RfidReader.Aggregate.Instruction
import RfidReader.Aggregate.Reader
import RfidReader.Aggregate.Sequence
import RfidReader.Binary32
import RfidReader.Board
import RfidReader.Bytes
import RfidReader.Calibration.Basic
import RfidReader.Calibration.Checked
import RfidReader.Calibration.Params
import RfidReader.Calibration.Power
import RfidReader.Calibration.Rssi
import RfidReader.Calibration.Sample
import RfidReader.Cursor
import RfidReader.Detector
import RfidReader.Device.Basic
import RfidReader.Device.Bus
import RfidReader.Device.Memory
import RfidReader.Device.Simulated
import RfidReader.Event.Custom
import RfidReader.Event.Packet
import RfidReader.Fault
import RfidReader.Hopping.ActiveRegion
import RfidReader.Hopping.Shuffle
import RfidReader.Hopping.Synthesizer
import RfidReader.Interpolation
import RfidReader.Op
import RfidReader.Power.Settings
import RfidReader.Proofs.LittleEndian
import RfidReader.Region.Basic
import RfidReader.Region.Builtin
import RfidReader.Region.OffTime
import RfidReader.Register.Basic
import RfidReader.Register.Map
import RfidReader.Register.Settings
import RfidReader.RfMode
import RfidReader.Rssi.Standard
import RfidReader.Rssi.Table
import RfidReader.Transmit.AntennaGuard
import RfidReader.Transmit.Basic
import RfidReader.Transmit.Carrier
import RfidReader.Transmit.Ramp
import RfidReader.Transmit.Recorder
import RfidReader.Transmit.Timing
import RfidReader.Word
import RfidReader.Proofs.Aggregate.Decoding
import RfidReader.Proofs.Aggregate.Assembly
import RfidReader.Proofs.Aggregate.Room
import RfidReader.Proofs.Register
import RfidReader.Proofs.Transmit.RampBuffer
import RfidReader.Proofs.Device.Operation
import RfidReader.Proofs.Transmit.PowerLoop
import RfidReader.Proofs.Transmit.HookJournal
import RfidReader.Proofs.Transmit.RampContract
import RfidReader.Proofs.Region.OffTime
import RfidReader.Proofs.Region.OnAir
import RfidReader.Proofs.Region.Rollover
import RfidReader.Proofs.Calibration.SignalStrength
import RfidReader.Proofs.Binary32.Rounding
import RfidReader.Proofs.Binary32.Value
import RfidReader.Proofs.Binary32.Arithmetic
import RfidReader.Proofs.Calibration.DetectorReading
import RfidReader.Proofs.Hopping.Shuffle
import RfidReader.Proofs.Hopping.HopSequence
import RfidReader.Proofs.Transmit.Rounds
import RfidReader.Proofs.Cursor
import RfidReader.Proofs.Event.InBounds
import RfidReader.Proofs.FirstFault
import RfidReader.Proofs.Event.Grammar
import RfidReader.Proofs.Device.Instructions
import RfidReader.Proofs.Transmit.StepwiseRamp
import RfidReader.Proofs.Calibration.TableChanges
import RfidReader.Proofs.Calibration.Layout
import RfidReader.Proofs.Register.BitFields
import RfidReader.Proofs.Register.RoundTrip
import RfidReader.Proofs.Transmit.AntennaGuard
import RfidReader.Proofs.Device.Waiting
import RfidReader.Proofs.Device.Memory
import RfidReader.Proofs.Device.Refusals
import RfidReader.Proofs.Hopping.Switching
import RfidReader.Proofs.Transmit.RampProgram
import RfidReader.Proofs.Transmit.StaleBuffer
import RfidReader.Proofs.Transmit.AllOrNothing
import RfidReader.Proofs.Calibration.DetectorPriority
import RfidReader.Proofs.Calibration.ReverseFallback
import RfidReader.Proofs.Hopping.DwellLimits
import RfidReader.Proofs.Hopping.Overshoot
import RfidReader.Proofs.Binary32.Order
import RfidReader.Proofs.Transmit.BoostCap
import RfidReader.Proofs.Calibration.TableAccess
import RfidReader.Proofs.Calibration.Extrapolation
import RfidReader.Proofs.Calibration.CoarseAttenuation
import RfidReader.Proofs.Hopping.Dividers
import RfidReader.Proofs.Interpolation
import RfidReader.Proofs.Calibration.MeasuredOffsets
import RfidReader.Proofs.Calibration.Loading
import RfidReader.Proofs.Event.CustomPackets
import RfidReader.Proofs.Hopping.ShuffleBias
import RfidReader.Proofs.Hopping.AdjacentChannels
import RfidReader.Proofs.Register.PinDriving
import RfidReader.Proofs.Hopping.SingleFrequency
import RfidReader.Proofs.Aggregate.Reading
import RfidReader.Proofs.IntegerTables
import RfidReader.Proofs.Aggregate.JumpTargets
