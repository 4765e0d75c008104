import RfidReader.Aggregate.Buffer
import RfidReader.Device.Bus
import RfidReader.Device.Memory
import RfidReader.Detector
import RfidReader.Register.Map

/-!
# RfidReader.Device.Simulated

A simulated chip behind the register bus.

The chip is a byte memory.  Writing an operation's number runs the operation
at once; the status register then stays busy for a settable number of polls
before it shows the result.  Ramps switch the carrier flag, the converter
copies its inputs into the result slots, and the aggregate operation carries
out the instructions in its buffer.  Operations and transfers can be made to
fail, and the chip keeps a journal of what it was asked to do.
-/

namespace RfidReader

/-- A transfer over the bus. -/
inductive Transfer where
  | read (address : UInt16) (length : Nat)
  | write (address : UInt16) (data : List UInt8)
  deriving DecidableEq, Repr

namespace Transfer

/-- The text of a transfer: its address and the length or the data, in hexadecimal but for the
length. -/
def text : Transfer → String
  | read address length => "r " ++ addressText address ++ " " ++ toString length
  | write address data => "w " ++ addressText address ++ " " ++ Bytes.hex data
where
  addressText (address : UInt16) : String :=
    Bytes.hex [(address / 256).toUInt8, address.toUInt8]

end Transfer

/-- What a simulated chip was asked to do, newest first. -/
structure Journal where
  /-- The transfers, equal ones in a row counted together. -/
  transfers : List (Transfer × Nat) := []
  /-- The operations started over the bus. -/
  started : List Op := []
  /-- The operations run, those of the aggregate operation included. -/
  ran : List Op := []
  /-- The total time waited. -/
  delayedUs : Nat := 0

namespace Journal

def add (j : Journal) (t : Transfer) : Journal :=
  match j.transfers with
  | [] => { j with transfers := [(t, 1)] }
  | (last, n) :: rest =>
    { j with transfers := if last = t then (last, n + 1) :: rest else (t, 1) :: (last, n) :: rest }

/-- The transfers in order, a line for those that are equal, with their count if there are
several. -/
def lines (j : Journal) : List String :=
  j.transfers.reverse.map fun (t, n) =>
    if n = 1 then t.text else t.text ++ " x" ++ toString n

end Journal

structure SimulatedChip where
  memory : Memory := .blank
  /-- How many polls an operation is busy for. -/
  busyPolls : Nat := 0
  /-- How many of them are left. -/
  pollsLeft : Nat := 0
  /-- The status shown after that. -/
  finalStatus : OpStatus := ⟨Op.idle.code, false, 0⟩
  /-- The numbers of operations that do nothing but finish with a code, and that code. -/
  failures : List (UInt8 × UInt8) := []
  /-- The inputs of the converter. -/
  auxInputs : Vector UInt16 15 := .replicate 15 0
  /-- The address writes fail at. -/
  failWrite : Option UInt16 := none
  /-- The address reads fail at. -/
  failRead : Option UInt16 := none
  journal : Journal := {}

namespace SimulatedChip

/-- Put bytes into memory. -/
def store (s : SimulatedChip) (address : UInt16) (data : List UInt8) : SimulatedChip :=
  { s with memory := s.memory.store address data }

def storeRegister {α : Type} (s : SimulatedChip) (r : Register α) (value : α) : SimulatedChip :=
  s.store r.address (r.encode value)

def loadRegister {α : Type} (s : SimulatedChip) (r : Register α) : α :=
  r.decode (s.memory.load r.address r.length).toList

/-! ## Operations -/

/-- Copy the inputs of the converter that are enabled into their result slots. -/
def sampleInputs (s : SimulatedChip) : SimulatedChip :=
  let enabled := s.loadRegister Register.auxControl
  (List.finRange 15).foldl
    (fun s (i : Fin 15) =>
      if enabled.toNat.testBit i.val then
        s.store (Register.auxResultsAddress + UInt16.ofNat (2 * i.val))
          (Word.encode (s.auxInputs.get i))
      else s)
    s

/-- What an operation other than the aggregate operation does. -/
def effect (s : SimulatedChip) : Op → SimulatedChip
  | .txRampUp => s.storeRegister Register.cwIsOn true
  | .txRampDown => s.storeRegister Register.cwIsOn false
  | .measureAdc => s.sampleInputs
  | _ => s

/-- Note in the journal that an operation runs. -/
def noteRun (s : SimulatedChip) (op : Op) : SimulatedChip :=
  { s with journal := { s.journal with ran := op :: s.journal.ran } }

/-- The code an operation was made to finish with. -/
def failure? (s : SimulatedChip) (op : Op) : Option UInt8 :=
  s.failures.lookup op.code

/-- Run an operation; `body` is what it does unless it was made to fail. -/
def runOpWith (s : SimulatedChip) (op : Op) (body : SimulatedChip → SimulatedChip × UInt8) :
    SimulatedChip × UInt8 :=
  let s := s.noteRun op
  match s.failure? op with
  | some code => (s, code)
  | none => body s

/-- Carry out instructions, up to an exit or the first operation that fails.  The aggregate
operation cannot be nested, and jumps, events and locks do nothing here. -/
def carryOut : List Instruction → SimulatedChip → SimulatedChip × UInt8
  | [], s | .exit :: _, s => (s, OpResult.success.code)
  | .write address data :: rest, s => carryOut rest (s.store address data)
  | .runOp .aggregate :: _, s => (s, OpResult.aggregateInnerOpError.code)
  | .runOp op :: rest, s =>
    let (s, code) := s.runOpWith op fun s => (s.effect op, OpResult.success.code)
    if code = OpResult.success.code then carryOut rest s else (s, code)
  | _ :: rest, s => carryOut rest s

/-- The instructions in the aggregate buffer. -/
def aggregateInstructions (s : SimulatedChip) : List Instruction :=
  Instruction.decodeAll
    (s.memory.load Register.aggregateBufferAddress AggregateBuffer.capacity).toList

/-- Run an operation to its end, with its result code. -/
def runOp (s : SimulatedChip) (op : Op) : SimulatedChip × UInt8 :=
  s.runOpWith op fun s =>
    if op = .aggregate then carryOut s.aggregateInstructions s
    else (s.effect op, OpResult.success.code)

/-! ## Status -/

/-- Bring the status register up to date: busy while polls are left, the result after that. -/
def refresh (s : SimulatedChip) : SimulatedChip :=
  match s.pollsLeft with
  | 0 => s.storeRegister Register.opsStatus s.finalStatus
  | n + 1 =>
    { s with pollsLeft := n }.storeRegister Register.opsStatus
      ⟨s.finalStatus.opCode, true, OpResult.success.code⟩

/-- Start the operation with a number. -/
def start (s : SimulatedChip) (code : UInt8) : SimulatedChip :=
  let (s, result) :=
    match Op.ofCode? code with
    | none => (s, OpResult.unknownOp.code)
    | some op =>
      { s with journal := { s.journal with started := op :: s.journal.started } }.runOp op
  { s with finalStatus := ⟨code, false, result⟩, pollsLeft := s.busyPolls }.refresh

/-! ## Bus -/

/-- A read: empty ones and those at the failing address are refused. -/
def read (address : UInt16) (length : Nat) (s : SimulatedChip) :
    Except BusError (Vector UInt8 length) × SimulatedChip :=
  if length = 0 then (.error .illegalOperation, s)
  else if s.failRead = some address then (.error (.readFailed address), s)
  else
    let answer := s.memory.load address length
    let s := { s with journal := s.journal.add (.read address length) }
    (.ok answer, if address = Register.opsStatus.address then s.refresh else s)

/-- A write: empty ones and those at the failing address are refused. -/
def write (address : UInt16) (data : List UInt8) (s : SimulatedChip) :
    Except BusError Unit × SimulatedChip :=
  match data with
  | [] => (.error .illegalOperation, s)
  | code :: _ =>
    if s.failWrite = some address then (.error (.writeFailed address), s)
    else
      let s := { s with journal := s.journal.add (.write address data) }.store address data
      (.ok (), if address = Register.opsControl.address then s.start code else s)

/-- The simulated chip as the other side of the bus. -/
def bus : Bus SimulatedChip where
  read := read
  write := write
  delay us s :=
    { s with journal := { s.journal with delayedUs := s.journal.delayedUs + us.toNat } }

end SimulatedChip
end RfidReader
