import RfidReader.Aggregate.Instruction
import RfidReader.Fault

/-!
# RfidReader.Aggregate.Buffer

The buffer of the aggregate operation.

`append` checks one instruction and puts its bytes behind those that are
there.  The buffer always keeps one byte free, so that decoding finds a zero
behind the last instruction.  An event packet has to agree with its own length
byte, and a jump back has to hit the start of an instruction.  `appendAll`
adds a list of instructions, all of them or none.  Both say what becomes of a
buffer; how it is filled, piece by piece and with a way back, is the work of
a `Builder`.
-/

namespace RfidReader

/-- The instructions assembled so far, as bytes. -/
structure AggregateBuffer where
  bytes : List UInt8 := []
  deriving DecidableEq, Repr

namespace AggregateBuffer

/-- The size of the buffer in the chip. -/
def capacity : Nat := 512

/-- The shortest event packet, a header alone. -/
def minPacketLength : Nat := 8

/-- The longest event packet. -/
def maxPacketLength : Nat := 64

def length (b : AggregateBuffer) : Nat := b.bytes.length

def instructions (b : AggregateBuffer) : List Instruction := Instruction.decodeAll b.bytes

/-- Whether an offset is where an instruction starts or where the last one ends. -/
def isBoundary (b : AggregateBuffer) (offset : Nat) : Bool :=
  (Instruction.offsetsFrom 0 b.instructions).contains offset
    || offset == Instruction.extent b.instructions

/-- Whether an event packet is as long as its first byte says, and within limits. -/
def packetFits : List UInt8 → Bool
  | [] => false
  | words :: rest =>
    let length := rest.length + 1
    minPacketLength ≤ length && length ≤ maxPacketLength && length % 4 == 0
      && words.toNat * 4 == length

/-- What is wrong with the operands of an instruction, if anything. -/
def operandFault? (b : AggregateBuffer) : Instruction → Option Fault
  | .insertFifoEvent _ packet => if packetFits packet then none else some .fifoPacketLength
  | .goTo index _ =>
    if index.toNat < b.length && !b.isBoundary index.toNat then some .jumpTarget else none
  | _ => none

/-- Why an instruction cannot be added, if it cannot; the room for it is looked at first. -/
def fault? (b : AggregateBuffer) (i : Instruction) : Option Fault :=
  if capacity ≤ b.length + i.size then some .aggregateOverflow else b.operandFault? i

def append (b : AggregateBuffer) (i : Instruction) : Except Fault AggregateBuffer :=
  match b.fault? i with
  | some fault => .error fault
  | none => .ok { bytes := b.bytes ++ i.encode }

/-- Add instructions, all of them or none. -/
def appendAll (b : AggregateBuffer) (is : List Instruction) : Except Fault AggregateBuffer :=
  is.foldlM append b

/-- Keep the first bytes. -/
def truncate (b : AggregateBuffer) (length : Nat) : AggregateBuffer :=
  { bytes := b.bytes.take length }

end AggregateBuffer
end RfidReader
