import RfidReader.Aggregate.Sequence
import RfidReader.Proofs.Aggregate.Assembly

/-!
# RfidReader.Proofs.Aggregate.Room

Instructions that can be added to any buffer with room for them.

Jumps look at the instructions that are there and events at their packet; the
other instructions are `Plain` and need nothing but room.  Plain instructions
of a known extent are added without a fault (`appendAll_of_plain`), and so are
the batches they come from (`assemble_of_fits`, `assemble_append_of_fits`).
-/

namespace RfidReader
namespace Instruction

/-- Whether an instruction needs nothing but room. -/
def Plain : Instruction → Bool
  | .insertFifoEvent _ _ | .goTo _ _ => false
  | _ => true

/-- Plain instructions of at most `n` bytes. -/
structure Fits (is : List Instruction) (n : Nat) : Prop where
  plain : ∀ i ∈ is, i.Plain = true
  extent_le : extent is ≤ n

namespace Fits

variable {is js : List Instruction} {m n : Nat}

theorem nil : Fits [] 0 := ⟨by simp, Nat.le_refl 0⟩

theorem append (hi : Fits is m) (hj : Fits js n) : Fits (is ++ js) (m + n) := by
  refine ⟨?_, ?_⟩
  · intro i h
    rcases List.mem_append.mp h with h | h
    · exact hi.plain i h
    · exact hj.plain i h
  · rw [extent_append]
    exact Nat.add_le_add hi.extent_le hj.extent_le

theorem mono (h : Fits is m) (hmn : m ≤ n) : Fits is n :=
  ⟨h.plain, Nat.le_trans h.extent_le hmn⟩

/-- A register write takes five bytes more than the register. -/
theorem write {α : Type} (r : Register α) (v : α) : Fits [Sequence.write r v] (5 + r.length) := by
  refine ⟨?_, ?_⟩
  · intro i h
    rw [List.mem_singleton.mp h]
    rfl
  · rw [Sequence.write, extent, extent, size, Register.length_encode]
    omega

theorem runOp (op : Op) : Fits [.runOp op] 2 := by
  refine ⟨?_, Nat.le_refl 2⟩
  intro i h
  rw [List.mem_singleton.mp h]
  rfl

/-- A register write with the operation that takes it. -/
theorem writeThenRun {α : Type} (r : Register α) (v : α) (op : Op) :
    Fits (Sequence.writeThenRun r v op).instructions (5 + r.length + 2) :=
  (write r v).append (runOp op)

end Fits
end Instruction

open Instruction

namespace AggregateBuffer

/-- A plain instruction is added where there is room. -/
theorem append_of_plain {b : AggregateBuffer} {i : Instruction} (hi : i.Plain = true)
    (hroom : b.length + i.size < capacity) :
    b.append i = .ok { bytes := b.bytes ++ i.encode } := by
  have hfault : b.operandFault? i = none := by
    cases i with
    | insertFifoEvent | goTo => contradiction
    | write | reset | runOp | exit | identifier | hostMutex => rfl
  rw [append, fault?, if_neg (Nat.not_le_of_lt hroom), hfault]

/-- Plain instructions are added where there is room for all of them. -/
theorem appendAll_of_plain {is : List Instruction} {b : AggregateBuffer}
    (his : ∀ i ∈ is, i.Plain = true) (hroom : b.length + extent is < capacity) :
    b.appendAll is = .ok { bytes := b.bytes ++ encodeAll is } := by
  induction is generalizing b with
  | nil =>
      show Except.ok b = .ok { bytes := b.bytes ++ [] }
      rw [List.append_nil]
  | cons i is ih =>
      rw [extent] at hroom
      have hi : b.append i = .ok { bytes := b.bytes ++ i.encode } :=
        append_of_plain (his i List.mem_cons_self) (by omega)
      have hrest : ({ bytes := b.bytes ++ i.encode } : AggregateBuffer).length + extent is
          < capacity := by
        rw [length, List.length_append, length_encode]
        unfold length at hroom
        omega
      rw [appendAll, List.foldlM_cons, hi]
      show appendAll { bytes := b.bytes ++ i.encode } is = _
      rw [ih (fun j hj => his j (List.mem_cons_of_mem i hj)) hrest, encodeAll, encodeAll,
        List.flatMap_cons, List.append_assoc]

end AggregateBuffer

namespace Builder

/-- Batches of plain instructions that fit make a buffer that holds their instructions. -/
theorem assemble_of_fits {batches : List Batch} {n : Nat}
    (h : Fits (Batch.instructionsOf batches) n) (hn : n < AggregateBuffer.capacity) :
    ∃ b, assemble (Batch.appendEach batches) = .ok b
      ∧ b.Holds (Batch.instructionsOf batches) := by
  have hroom : ({} : AggregateBuffer).length + extent (Batch.instructionsOf batches)
      < AggregateBuffer.capacity := by
    have hextent := h.extent_le
    show 0 + extent (Batch.instructionsOf batches) < AggregateBuffer.capacity
    omega
  have hall := AggregateBuffer.appendAll_of_plain h.plain hroom
  refine ⟨_, ?_, AggregateBuffer.Holds.empty.appendAll hall⟩
  rw [assemble, attempt, Batch.run_appendEach_ok batches hall]
  rfl

/-- A batch of plain instructions that fits is added to an empty buffer. -/
theorem assemble_append_of_fits {batch : Batch} {n : Nat} (h : Fits batch.instructions n)
    (hn : n < AggregateBuffer.capacity) :
    ∃ b, assemble batch.append = .ok b ∧ b.Holds batch.instructions := by
  have hroom : ({} : AggregateBuffer).length + extent batch.instructions
      < AggregateBuffer.capacity := by
    have hextent := h.extent_le
    show 0 + extent batch.instructions < AggregateBuffer.capacity
    omega
  have hall := AggregateBuffer.appendAll_of_plain h.plain hroom
  refine ⟨_, ?_, AggregateBuffer.Holds.empty.appendAll hall⟩
  rw [assemble, Batch.attempt_append_ok hall]
  rfl

end Builder
end RfidReader
