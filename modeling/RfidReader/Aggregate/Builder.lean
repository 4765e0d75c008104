import RfidReader.Aggregate.Buffer

/-!
# RfidReader.Aggregate.Builder

Filling the buffer of the aggregate operation.

A `Builder` puts bytes behind those that are there and may fail on the way,
which leaves the buffer as it is at that point.  `atomic` cuts the buffer back
to where a procedure found it when the procedure fails.  A `Batch` is a tree
of instructions to add together: each of its levels is atomic, so a batch adds
all of its instructions or none.
-/

namespace RfidReader

/-- Procedures that fill a buffer. -/
abbrev Builder := EStateM Fault AggregateBuffer

namespace Builder

/-- Put bytes behind those that are there, as far as the buffer has room for them. -/
def extend (bytes : List UInt8) : Builder Unit := do
  let b ← get
  if AggregateBuffer.capacity < b.length + bytes.length then throw .aggregateOverflow
  set ({ bytes := b.bytes ++ bytes } : AggregateBuffer)

/-- Cut the buffer back to where it was if a procedure fails. -/
def atomic {α : Type} (p : Builder α) : Builder α := do
  let mark := (← get).length
  try p catch fault =>
    modify (·.truncate mark)
    throw fault

/-- Add an instruction: its code, then its operands one by one. -/
def append (i : Instruction) : Builder Unit := do
  let b ← get
  if let some fault := b.fault? i then throw fault
  atomic do
    extend [i.kind.code]
    i.operands.forM extend

/-- The result of a procedure as a value, and the buffer it leaves. -/
def attempt (p : Builder Unit) (b : AggregateBuffer) : Except Fault Unit × AggregateBuffer :=
  match p.run b with
  | .ok () b => (.ok (), b)
  | .error fault b => (.error fault, b)

/-- The buffer a procedure makes from an empty one. -/
def assemble (p : Builder Unit) : Except Fault AggregateBuffer :=
  let (result, b) := attempt p {}
  result.map fun _ => b

end Builder

/-- Instructions to add together. -/
inductive Batch where
  | one (i : Instruction)
  | all (parts : List Batch)

namespace Batch

instance : Coe Instruction Batch := ⟨one⟩

mutual

/-- The instructions of a batch, in order. -/
def instructions : Batch → List Instruction
  | one i => [i]
  | all parts => instructionsOf parts

/-- The instructions of some batches, in order. -/
def instructionsOf : List Batch → List Instruction
  | [] => []
  | part :: parts => part.instructions ++ instructionsOf parts

end

mutual

/-- Add the instructions of a batch, or none of them. -/
def append : Batch → Builder Unit
  | one i => Builder.append i
  | all parts => Builder.atomic (appendEach parts)

/-- Add batches one after the other, up to the first that fails. -/
def appendEach : List Batch → Builder Unit
  | [] => pure ()
  | part :: parts => do
    part.append
    appendEach parts

end

/-- Add batches one after the other, going on where one fails: the result of each, and the buffer
that is left. -/
def attemptEach : List Batch → AggregateBuffer → List (Except Fault Unit) × AggregateBuffer
  | [], b => ([], b)
  | batch :: rest, b =>
    let (result, b) := Builder.attempt batch.append b
    let (results, b) := attemptEach rest b
    (result :: results, b)

end Batch
end RfidReader
