import RfidReader.Op
import RfidReader.Word

/-!
# RfidReader.Aggregate.Instruction

The instructions of the aggregate operation.

The chip runs a list of instructions from a buffer without the host taking
part: memory writes, operations, event packets and jumps.  An instruction is a
code byte followed by its operands.  Two operands carry their own length: the
data of a write by a count in front of it, an event packet by its first byte,
which counts 32-bit words.

`encode` writes an instruction and `decode?` reads the one at the front of a
byte string.  `decodeAll` reads on until something is not an instruction, such
as the zeros behind the last one.
-/

namespace RfidReader

/-- An instruction of the aggregate operation. -/
inductive Instruction where
  /-- Write to memory. -/
  | write (address : UInt16) (data : List UInt8)
  | reset (destination : UInt8)
  /-- Put a complete event packet into the event FIFO, raising its interrupt if asked to. -/
  | insertFifoEvent (irq : Bool) (packet : List UInt8)
  /-- Run an operation to its end. -/
  | runOp (op : Op)
  /-- Jump to the instruction at a byte offset, a number of times. -/
  | goTo (index : UInt16) (times : UInt8)
  | exit
  /-- Name the instructions that follow in the summary. -/
  | identifier (id : UInt16)
  /-- Take or release the host lock. -/
  | hostMutex (on : Bool)
  deriving DecidableEq, Repr

namespace Instruction

/-! ## Kinds -/

inductive Kind where
  | write | reset | insertFifoEvent | runOp | goTo | exit | identifier | hostMutexOn | hostMutexOff
  deriving DecidableEq, Repr

namespace Kind

def all : List Kind :=
  [write, reset, insertFifoEvent, runOp, goTo, exit, identifier, hostMutexOn, hostMutexOff]

def code : Kind → UInt8
  | write => 0x02 | reset => 0x08 | insertFifoEvent => 0x0E | runOp => 0x30 | goTo => 0x31
  | exit => 0x32 | identifier => 0x33 | hostMutexOn => 0x34 | hostMutexOff => 0x35

/-- The kind with a code byte; zero is none, so cleared memory holds no instructions. -/
def ofCode? (c : UInt8) : Option Kind := all.find? (·.code == c)

def name : Kind → String
  | write => "Write" | reset => "Reset" | insertFifoEvent => "InsertFifoEvent" | runOp => "RunOp"
  | goTo => "GoToIndex" | exit => "ExitInstruction" | identifier => "Identifier"
  | hostMutexOn => "HostMutexOn" | hostMutexOff => "HostMutexOff"

theorem ofCode?_code (k : Kind) : ofCode? k.code = some k := by
  cases k <;> decide

end Kind

def kind : Instruction → Kind
  | .write _ _ => .write
  | .reset _ => .reset
  | .insertFifoEvent _ _ => .insertFifoEvent
  | .runOp _ => .runOp
  | .goTo _ _ => .goTo
  | .exit => .exit
  | .identifier _ => .identifier
  | .hostMutex true => .hostMutexOn
  | .hostMutex false => .hostMutexOff

/-! ## Encoding -/

/-- The operands, each as its bytes. -/
def operands : Instruction → List (List UInt8)
  | .write address data =>
    [Word.encode address, Word.encode (UInt16.ofNat data.length), data]
  | .reset destination => [[destination]]
  | .insertFifoEvent irq packet => [[UInt8.ofNat irq.toNat], packet]
  | .runOp op => [[op.code]]
  | .goTo index times => [Word.encode index, [times]]
  | .exit => []
  | .identifier id => [Word.encode id]
  | .hostMutex _ => []

def encode (i : Instruction) : List UInt8 := i.kind.code :: i.operands.flatten

def size : Instruction → Nat
  | .write _ data => 5 + data.length
  | .reset _ => 2
  | .insertFifoEvent _ packet => 2 + packet.length
  | .runOp _ => 2
  | .goTo _ _ => 4
  | .exit => 1
  | .identifier _ => 3
  | .hostMutex _ => 1

theorem length_encode (i : Instruction) : i.encode.length = i.size := by
  cases i with
  | write address data =>
    simp only [encode, operands, size, List.flatten_cons, List.flatten_nil, List.append_nil,
      List.length_cons, List.length_append, Word.length_encode]
    show 2 + (2 + data.length) + 1 = 5 + data.length
    omega
  | insertFifoEvent irq packet =>
    simp only [encode, operands, size, List.flatten_cons, List.flatten_nil, List.append_nil,
      List.length_cons, List.length_append, List.length_nil]
    omega
  | reset | runOp | goTo | exit | identifier | hostMutex => rfl

theorem size_pos (i : Instruction) : 0 < i.size := by
  cases i <;> simp only [size] <;> omega

/-! ## Decoding -/

/-- The instruction of a kind whose operands are at the front of a byte string. -/
def ofOperands? : Kind → List UInt8 → Option Instruction
  | .write, a₀ :: a₁ :: n₀ :: n₁ :: rest =>
    (Bytes.front? (Bytes.leNat [n₀, n₁]) rest).map (.write (Word.decode [a₀, a₁]))
  | .reset, destination :: _ => some (.reset destination)
  | .insertFifoEvent, irq :: words :: rest =>
    (Bytes.front? (4 * words.toNat) (words :: rest)).map (.insertFifoEvent (irq != 0))
  | .runOp, code :: _ => (Op.ofCode? code).map .runOp
  | .goTo, i₀ :: i₁ :: times :: _ => some (.goTo (Word.decode [i₀, i₁]) times)
  | .exit, _ => some .exit
  | .identifier, i₀ :: i₁ :: _ => some (.identifier (Word.decode [i₀, i₁]))
  | .hostMutexOn, _ => some (.hostMutex true)
  | .hostMutexOff, _ => some (.hostMutex false)
  | _, _ => none

/-- The instruction at the front of a byte string. -/
def decode? : List UInt8 → Option Instruction
  | [] => none
  | code :: rest => (Kind.ofCode? code).bind (ofOperands? · rest)

theorem ne_nil_of_decode? {bs : List UInt8} {i : Instruction} (h : decode? bs = some i) :
    bs ≠ [] := by
  rintro rfl
  cases h

/-- The instructions at the front of a byte string, up to the first byte that starts none. -/
def decodeAll (bs : List UInt8) : List Instruction :=
  match _h : decode? bs with
  | none => []
  | some i => i :: decodeAll (bs.drop i.size)
termination_by bs.length
decreasing_by
  have hlen := List.length_pos_iff.2 (ne_nil_of_decode? _h)
  have hsize := i.size_pos
  rw [List.length_drop]
  omega

/-! ## Offsets -/

/-- The offset of each instruction of a list whose first one is at `start`. -/
def offsetsFrom (start : Nat) : List Instruction → List Nat
  | [] => []
  | i :: rest => start :: offsetsFrom (start + i.size) rest

/-- The number of bytes of a list of instructions. -/
def extent : List Instruction → Nat
  | [] => 0
  | i :: rest => i.size + extent rest

end Instruction
end RfidReader
