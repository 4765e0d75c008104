import RfidReader.Device.Bus
import RfidReader.Calibration.Basic
import RfidReader.Cursor
import RfidReader.Detector
import RfidReader.Register.Map

/-!
# RfidReader.Device.Basic

Registers and operations of a reader chip.

`DeviceM` is the monad of host procedures on a chip: they exchange with it
over the bus, may fail, and keep what the host knows of the device when they
do.  An operation is started by writing its number, and `wait` polls its
status every 100 µs until it is done, has failed, or the time for it is up.
-/

namespace RfidReader

/-! ## Procedures -/

/-- Why a host procedure failed. -/
inductive HostError where
  /-- A transfer failed. -/
  | bus (error : BusError)
  /-- An operation finished with an error code. -/
  | op (status : OpStatus)
  /-- An operation was still running when its time was up. -/
  | timeout (status : OpStatus)
  /-- Something went wrong on the host. -/
  | host (fault : Fault)
  deriving DecidableEq, Repr

namespace HostError

def kindName : HostError → String
  | bus _ => "BusError"
  | op _ => "OpError"
  | timeout _ => "OpTimeout"
  | host fault => fault.kind.name

def message : HostError → String
  | bus error => "Bus Error: " ++ error.message
  | op status =>
    "Op 0x" ++ Bytes.hex [status.opCode] ++ " failed with error code 0x"
      ++ Bytes.hex [status.errorCode]
  | timeout status => "Timed out waiting for op 0x" ++ Bytes.hex [status.opCode]
  | host fault => "Library Error: " ++ fault.message

/-- Whether time ran out. -/
def isTimeout : HostError → Bool
  | timeout _ => true
  | _ => false

/-- Whether the chip itself reported the error. -/
def isDeviceError : HostError → Bool
  | op _ => true
  | _ => false

/-- The status that came with the error. -/
def status? : HostError → Option OpStatus
  | op status | timeout status => some status
  | _ => none

end HostError

/-- What the host knows of a chip. -/
structure Device where
  /-- How long `wait` waits for an operation. -/
  opTimeoutMs : UInt32 := 10000
  deriving DecidableEq, Repr

/-- Procedures on a chip. -/
abbrev DeviceM := ExceptT HostError (StateT Device BusProgram)

/-- Procedures on a chip that also keep a state of the host, whether they fail or not. -/
abbrev HostM (σ : Type) := ExceptT HostError (StateT σ (StateT Device BusProgram))

namespace HostM

variable {σ τ α : Type}

instance {m : Type → Type} [Monad m] : MonadLift (Except Fault) (ExceptT HostError m) where
  monadLift x := ExceptT.mk (pure (x.mapError .host))

instance (priority := low) : MonadLift DeviceM (HostM σ) where
  monadLift x := ExceptT.mk fun s => do
    let result ← x.run
    pure (result, s)

/-- A procedure on the first of two states. -/
def onFirst (x : HostM σ α) : HostM (σ × τ) α :=
  ExceptT.mk fun (s, t) => do
    let (result, s) ← x.run s
    pure (result, (s, t))

/-- A procedure on the second of two states. -/
def onSecond (x : HostM τ α) : HostM (σ × τ) α :=
  ExceptT.mk fun (s, t) => do
    let (result, t) ← x.run t
    pure (result, (s, t))

/-- The result of a procedure as a value, an error included. -/
def attempt (x : HostM σ α) : HostM σ (Except HostError α) :=
  ExceptT.mk (Except.ok <$> x.run)

end HostM

namespace Device

/-! ## Memory and registers -/

def read (address : UInt16) (length : Nat) : DeviceM (Vector UInt8 length) :=
  ExceptT.mk fun d => .read address length fun answer => .done (answer.mapError .bus, d)

def write (address : UInt16) (data : List UInt8) : DeviceM Unit :=
  ExceptT.mk fun d => .write address data fun answer => .done (answer.mapError .bus, d)

def delay (us : UInt32) : DeviceM Unit := ExceptT.mk fun d => .delay us (.done (.ok (), d))

/-- Write several spans, in order. -/
def writeAll (writes : List (UInt16 × List UInt8)) : DeviceM Unit :=
  writes.forM fun (address, data) => write address data

def readRegister {α : Type} (r : Register α) : DeviceM α := do
  let bytes ← read r.address r.length
  pure (r.decode bytes.toList)

def writeRegister {α : Type} (r : Register α) (value : α) : DeviceM Unit :=
  write r.address (r.encode value)

/-! ## Operations -/

/-- Change how long operations are waited for. -/
def setOpTimeoutMs (ms : UInt32) : DeviceM Unit := set ({ opTimeoutMs := ms } : Device)

/-- How often the status is polled while an operation runs. -/
def pollIntervalUs : UInt32 := 100

/-- Start an operation without waiting for it. -/
def startOp (op : Op) : DeviceM Unit := writeRegister Register.opsControl op.code

/-- Abort whatever is running by switching to the idle operation. -/
def stopOp : DeviceM Unit := startOp .idle

/-- Poll the status up to `delays` more times after the first. -/
def poll (delays : Nat) : DeviceM OpStatus := do
  let status ← readRegister Register.opsStatus
  if status.hasError then throw (.op status)
  if !status.busy then return status
  match delays with
  | 0 => throw (.timeout status)
  | delays + 1 =>
    delay pollIntervalUs
    poll delays

/-- The number of delays after which the time for an operation is up: the timeout in
microseconds, at most `2 ^ 32 - 1`, in poll intervals, rounded up. -/
def maxDelays (timeoutMs : UInt32) : Nat :=
  ((clampUInt32 (timeoutMs.toNat * 1000)).toNat + 99) / pollIntervalUs.toNat

/-- Wait for the running operation. -/
def wait : DeviceM OpStatus := do
  let device ← get
  poll (maxDelays device.opTimeoutMs)

/-- Start an operation and wait for it. -/
def runOp (op : Op) : DeviceM OpStatus := do
  startOp op
  wait

/-! ## Measurements -/

/-- Sample `count` converter slots from `start` on, as far as there are slots. -/
def measureAux (start : AuxChannel) (count : Nat) : DeviceM (List UInt16) := do
  writeRegister Register.auxControl (start.enableBits count)
  let _ ← runOp .measureAdc
  let available := start.available count
  let bytes ← read (Register.auxResultsAddress + UInt16.ofNat (2 * start.index)) (2 * available)
  pure (Cursor.runAt (Cursor.words UInt16 available) bytes.toList 0).toList

/-- Sample the temperature sensor. -/
def measureTemperature : DeviceM UInt16 := do
  match ← measureAux .temperature 1 with
  | [] => throw (.host .noTemperature)
  | reading :: _ => pure reading

/-- Microseconds since the chip booted. -/
def timestampUs : DeviceM UInt32 := readRegister Register.timestamp

/-- Milliseconds since the chip booted, by the microsecond counter. -/
def timestampMs : DeviceM UInt32 := do
  let us ← timestampUs
  pure (us / 1000)

/-- The calibration region of the chip. -/
def calibrationSource : Calibration.Source DeviceM where
  read offset n :=
    if Register.calibrationLength < offset + n then throw (.host .pastCalibrationRegion)
    else read (Register.calibrationAddress + UInt16.ofNat offset) n

end Device
end RfidReader
