import RfidReader.Aggregate.Builder
import RfidReader.Proofs.Aggregate.Decoding

/-!
# RfidReader.Proofs.Aggregate.Assembly

What becomes of an aggregate buffer that is filled batch by batch.

`AggregateBuffer.append` and `appendAll` say in one go what a `Builder` does
piece by piece: a batch leaves the buffer they give, or the buffer it found
(`Batch.run_append`).  A buffer `Holds` a list of instructions when its bytes
are theirs, each can be read back, and one byte is free; every successful
batch extends that list by its own instructions (`Holds.appendAll`).  Hence the
whole history of a buffer can be read from its bytes
(`instructions_attemptEach`).
-/

namespace RfidReader

open Instruction

/-! ## Buffers -/

namespace AggregateBuffer

/-- Cutting a buffer back takes away what was put behind it. -/
theorem truncate_append (b : AggregateBuffer) (more : List UInt8) :
    ({ bytes := b.bytes ++ more } : AggregateBuffer).truncate b.length = b := by
  rw [truncate, length, List.take_left]

theorem append_eq_ok {b b' : AggregateBuffer} {i : Instruction} (h : b.append i = .ok b') :
    b.fault? i = none ∧ b' = { bytes := b.bytes ++ i.encode } := by
  unfold append at h
  split at h
  · contradiction
  · next hnone => exact ⟨hnone, (Except.ok.inj h).symm⟩

/-- An instruction without a fault has room and leaves one byte free. -/
theorem length_lt_of_fault? {b : AggregateBuffer} {i : Instruction} (h : b.fault? i = none) :
    b.length + i.size < capacity := by
  unfold fault? at h
  split at h
  · contradiction
  · next hroom => exact Nat.lt_of_not_le hroom

/-- An event packet that fits is as long as its first byte says. -/
private theorem encodable_of_packetFits (irq : Bool) {packet : List UInt8}
    (h : packetFits packet = true) : Encodable (.insertFifoEvent irq packet) := by
  cases packet with
  | nil => contradiction
  | cons words rest =>
      simp only [packetFits, Bool.and_eq_true, beq_iff_eq] at h
      refine ⟨words, rest, rfl, ?_⟩
      rw [List.length_cons, ← h.2, Nat.mul_comm]

/-- An instruction without a fault can be read back. -/
theorem encodable_of_fault? {b : AggregateBuffer} {i : Instruction} (h : b.fault? i = none) :
    i.Encodable := by
  have hroom := length_lt_of_fault? h
  cases i with
  | write address data =>
      simp only [size, capacity] at hroom
      show data.length < 65536
      omega
  | insertFifoEvent irq packet =>
      apply encodable_of_packetFits irq
      by_cases hfits : packetFits packet = true
      · exact hfits
      · rw [fault?, if_neg (Nat.not_le_of_lt hroom), operandFault?, if_neg hfits] at h
        contradiction
  | reset | runOp | goTo | exit | identifier | hostMutex => exact trivial

/-- What holds of a buffer and its instructions, and is kept where an instruction is added, is kept
where several are. -/
theorem appendAll_induction {P : AggregateBuffer → List Instruction → Prop}
    (step : ∀ {b b' is i}, P b is → b.append i = .ok b' → P b' (is ++ [i]))
    {b b' : AggregateBuffer} {is js : List Instruction} (h : P b is)
    (ha : b.appendAll js = .ok b') : P b' (is ++ js) := by
  induction js generalizing b is with
  | nil =>
      rw [List.append_nil]
      rw [← Except.ok.inj (ha : Except.ok b = Except.ok b')]
      exact h
  | cons j js ih =>
      rw [AggregateBuffer.appendAll, List.foldlM_cons] at ha
      cases hj : b.append j with
      | error fault => rw [hj] at ha; contradiction
      | ok b₁ =>
          rw [hj] at ha
          have hjs := ih (step h hj) ha
          rwa [List.append_assoc, List.singleton_append] at hjs

/-- The bytes of a buffer are those of a list of instructions, each of which can be read back,
and there is a byte free behind them. -/
structure Holds (b : AggregateBuffer) (is : List Instruction) : Prop where
  bytes_eq : b.bytes = encodeAll is
  encodable : ∀ i ∈ is, i.Encodable
  length_lt : b.length < capacity

namespace Holds

theorem empty : ({} : AggregateBuffer).Holds [] where
  bytes_eq := rfl
  encodable := by simp
  length_lt := by decide

variable {b b' : AggregateBuffer} {is js : List Instruction}

theorem append {i : Instruction} (h : b.Holds is) (ha : b.append i = .ok b') :
    b'.Holds (is ++ [i]) := by
  obtain ⟨hfault, rfl⟩ := append_eq_ok ha
  refine ⟨?_, ?_, ?_⟩
  · show b.bytes ++ i.encode = encodeAll (is ++ [i])
    rw [h.bytes_eq, encodeAll, encodeAll, List.flatMap_append, List.flatMap_singleton]
  · intro j hj
    rcases List.mem_append.mp hj with hj | hj
    · exact h.encodable j hj
    · rw [List.mem_singleton.mp hj]
      exact encodable_of_fault? hfault
  · show (b.bytes ++ i.encode).length < capacity
    rw [List.length_append, length_encode]
    exact length_lt_of_fault? hfault

/-- Every instruction that was added is held behind those that were there. -/
theorem appendAll (h : b.Holds is) (ha : b.appendAll js = .ok b') : b'.Holds (is ++ js) :=
  appendAll_induction (fun h ha => h.append ha) h ha

/-- A buffer that holds instructions is read as them, to its last byte. -/
theorem instructions_eq (h : b.Holds is) : b.instructions = is := by
  rw [instructions, h.bytes_eq, decodeAll_encodeAll h.encodable]

theorem extent_eq (h : b.Holds is) : extent b.instructions = b.length := by
  rw [h.instructions_eq, extent_eq_length_encodeAll, ← h.bytes_eq, length]

end Holds
end AggregateBuffer

/-! ## Procedures -/

namespace Builder

open AggregateBuffer

/-- The outcome of a procedure that changes a buffer as asked, or not at all. -/
def allOrNone (result : Except Fault AggregateBuffer) (b : AggregateBuffer) :
    EStateM.Result Fault AggregateBuffer Unit :=
  match result with
  | .ok b' => .ok () b'
  | .error fault => .error fault b

theorem run_extend (bytes : List UInt8) (b : AggregateBuffer) :
    (extend bytes).run b =
      if capacity < b.length + bytes.length then .error .aggregateOverflow b
      else .ok () { bytes := b.bytes ++ bytes } := by
  rw [extend, EStateM.run_bind, EStateM.run_get]
  by_cases h : capacity < b.length + bytes.length
  · simp only [if_pos h, EStateM.run_bind, EStateM.run_throw]
  · simp only [if_neg h, EStateM.run_set]

theorem run_atomic {α : Type} (p : Builder α) (b : AggregateBuffer) :
    (atomic p).run b =
      match p.run b with
      | .ok a b' => .ok a b'
      | .error fault b' => .error fault (b'.truncate b.length) := by
  show EStateM.tryCatch p _ b = _
  unfold EStateM.tryCatch EStateM.run
  cases p b <;> rfl

/-- Pieces that fit together are put into the buffer one behind the other. -/
theorem run_forM_extend (pieces : List (List UInt8)) (b : AggregateBuffer)
    (h : b.length + pieces.flatten.length ≤ capacity) :
    (pieces.forM extend).run b = .ok () { bytes := b.bytes ++ pieces.flatten } := by
  induction pieces generalizing b with
  | nil =>
      rw [List.flatten_nil, List.append_nil]
      rfl
  | cons piece pieces ih =>
      rw [List.flatten_cons, List.length_append] at h
      have hpiece : ¬ capacity < b.length + piece.length := by omega
      have hrest : ({ bytes := b.bytes ++ piece } : AggregateBuffer).length
          + pieces.flatten.length ≤ capacity := by
        rw [AggregateBuffer.length, List.length_append]
        unfold AggregateBuffer.length at h
        omega
      show (extend piece >>= fun _ => pieces.forM extend).run b = _
      rw [EStateM.run_bind, run_extend, if_neg hpiece]
      show (pieces.forM extend).run { bytes := b.bytes ++ piece } = _
      rw [ih _ hrest, List.flatten_cons, List.append_assoc]

/-- Adding an instruction never needs the way back: its encoding is as long as its size says. -/
theorem run_append (i : Instruction) (b : AggregateBuffer) :
    (Builder.append i).run b = allOrNone (b.append i) b := by
  rw [Builder.append, EStateM.run_bind, EStateM.run_get]
  cases hfault : b.fault? i with
  | some fault =>
      simp only [hfault, EStateM.run_bind, EStateM.run_throw, AggregateBuffer.append, allOrNone]
  | none =>
      have hroom := length_lt_of_fault? hfault
      have hfits : b.length + ([i.kind.code] :: i.operands).flatten.length ≤ capacity := by
        have hlen := length_encode i
        rw [encode, List.length_cons] at hlen
        rw [List.flatten_cons, List.singleton_append, List.length_cons]
        omega
      have hbytes := run_forM_extend ([i.kind.code] :: i.operands) b hfits
      simp only [hfault, AggregateBuffer.append]
      show (atomic (([i.kind.code] :: i.operands).forM extend)).run b = _
      rw [run_atomic, hbytes]
      rfl

end Builder

/-! ## Batches -/

namespace AggregateBuffer

theorem appendAll_append (b : AggregateBuffer) (is js : List Instruction) :
    b.appendAll (is ++ js) = (b.appendAll is).bind (·.appendAll js) := by
  rw [appendAll, List.foldlM_append]
  rfl

/-- Adding instructions keeps the bytes that are there in front. -/
theorem exists_bytes_of_appendAll {b b' : AggregateBuffer} {is : List Instruction}
    (h : b.appendAll is = .ok b') : ∃ more, b' = { bytes := b.bytes ++ more } := by
  induction is generalizing b with
  | nil => exact ⟨[], by rw [List.append_nil, ← Except.ok.inj (h : Except.ok b = .ok b')]⟩
  | cons i is ih =>
      rw [appendAll, List.foldlM_cons] at h
      cases hi : b.append i with
      | error fault => rw [hi] at h; contradiction
      | ok b₁ =>
          rw [hi] at h
          obtain ⟨more, rfl⟩ := ih h
          obtain ⟨-, rfl⟩ := append_eq_ok hi
          exact ⟨i.encode ++ more, by rw [List.append_assoc]⟩

end AggregateBuffer

namespace Batch

open Builder

mutual

/-- **A batch adds all of its instructions or none**: it leaves the buffer that adding them in one
go gives, or the buffer it found. -/
theorem run_append : (batch : Batch) → (b : AggregateBuffer) →
    batch.append.run b = allOrNone (b.appendAll batch.instructions) b
  | one i, b => by
      rw [append, Builder.run_append, instructions, AggregateBuffer.appendAll, List.foldlM_cons]
      cases b.append i <;> rfl
  | all parts, b => by
      rw [append, run_atomic, instructions]
      cases hparts : b.appendAll (instructionsOf parts) with
      | ok b' => rw [run_appendEach_ok parts hparts]; rfl
      | error fault =>
          -- What the parts before the fault have put there is cut off again.
          obtain ⟨more, hrun⟩ := run_appendEach_error parts hparts
          rw [hrun]
          show EStateM.Result.error fault _ = _
          rw [AggregateBuffer.truncate_append]
          rfl

/-- Batches that can all be added are added one behind the other. -/
theorem run_appendEach_ok : (parts : List Batch) → {b b' : AggregateBuffer} →
    b.appendAll (instructionsOf parts) = .ok b' → (appendEach parts).run b = .ok () b'
  | [], b, b', h => by
      rw [← Except.ok.inj (h : Except.ok b = .ok b')]
      rfl
  | part :: parts, b, b', h => by
      rw [instructionsOf, AggregateBuffer.appendAll_append] at h
      rw [appendEach, EStateM.run_bind, run_append part b]
      cases hpart : b.appendAll part.instructions with
      | error fault => rw [hpart] at h; contradiction
      | ok b₁ =>
          rw [hpart] at h
          exact run_appendEach_ok parts h

/-- Where one of some batches cannot be added, those before it are left behind the bytes that were
there. -/
theorem run_appendEach_error : (parts : List Batch) → {b : AggregateBuffer} → {fault : Fault} →
    b.appendAll (instructionsOf parts) = .error fault →
    ∃ more, (appendEach parts).run b = .error fault { bytes := b.bytes ++ more }
  | [], b, fault, h => by
      have hok : b.appendAll [] = .ok b := rfl
      rw [instructionsOf, hok] at h
      contradiction
  | part :: parts, b, fault, h => by
      rw [instructionsOf, AggregateBuffer.appendAll_append] at h
      rw [appendEach, EStateM.run_bind, run_append part b]
      cases hpart : b.appendAll part.instructions with
      | error fault' =>
          rw [hpart] at h
          refine ⟨[], ?_⟩
          rw [List.append_nil, ← Except.error.inj (h : Except.error fault' = .error fault)]
          rfl
      | ok b₁ =>
          rw [hpart] at h
          obtain ⟨more, hrun⟩ := run_appendEach_error parts h
          obtain ⟨front, rfl⟩ := AggregateBuffer.exists_bytes_of_appendAll hpart
          refine ⟨front ++ more, ?_⟩
          rw [← List.append_assoc]
          exact hrun

end

/-! ## Histories -/

/-- The batches whose result is a success. -/
def succeeded (calls : List Batch) (results : List (Except Fault Unit)) : List Batch :=
  ((calls.zip results).filter (·.2.isOk)).map (·.1)

theorem attempt_append_ok {batch : Batch} {b b' : AggregateBuffer}
    (h : b.appendAll batch.instructions = .ok b') :
    Builder.attempt batch.append b = (.ok (), b') := by
  rw [attempt, run_append, h]
  rfl

theorem attempt_append_error {batch : Batch} {b : AggregateBuffer} {fault : Fault}
    (h : b.appendAll batch.instructions = .error fault) :
    Builder.attempt batch.append b = (.error fault, b) := by
  rw [attempt, run_append, h]
  rfl

/-- A batch that fails leaves the buffer as it was. -/
theorem snd_attempt_of_error {batch : Batch} {b : AggregateBuffer} {fault : Fault}
    (h : (Builder.attempt batch.append b).1 = .error fault) :
    (Builder.attempt batch.append b).2 = b := by
  cases hall : b.appendAll batch.instructions with
  | ok b' => rw [attempt_append_ok hall] at h; contradiction
  | error fault' => rw [attempt_append_error hall]

/-- What holds of a buffer and its instructions, and is kept where an instruction is added, is kept
by every history of batches, with the instructions of those that succeed. -/
theorem attemptEach_induction {P : AggregateBuffer → List Instruction → Prop}
    (step : ∀ {b b' is i}, P b is → b.append i = .ok b' → P b' (is ++ [i]))
    (calls : List Batch) {b : AggregateBuffer} {is : List Instruction} (h : P b is) :
    P (attemptEach calls b).2
      (is ++ instructionsOf (succeeded calls (attemptEach calls b).1)) := by
  induction calls generalizing b is with
  | nil =>
      show P b (is ++ [])
      rwa [List.append_nil]
  | cons call calls ih =>
      rw [attemptEach]
      cases hall : b.appendAll call.instructions with
      | ok b₁ =>
          rw [attempt_append_ok hall]
          have hrest := ih (AggregateBuffer.appendAll_induction step h hall)
          rwa [List.append_assoc] at hrest
      | error fault =>
          rw [attempt_append_error hall]
          exact ih h

/-- Adding batches, some of which may fail, extends what a buffer holds by the instructions of
those that succeed. -/
theorem holds_attemptEach (calls : List Batch) {b : AggregateBuffer} {is : List Instruction}
    (h : b.Holds is) :
    (attemptEach calls b).2.Holds
      (is ++ instructionsOf (succeeded calls (attemptEach calls b).1)) :=
  attemptEach_induction (fun h ha => h.append ha) calls h

/-- **Round trip of a history**: after any batches, added or refused in any order, the buffer is
read as the instructions of those that were added, in order and to its last byte; it never holds
more than 511 bytes, and a batch that was refused, at whichever of its instructions, left it as it
was. -/
theorem instructions_attemptEach (calls : List Batch) :
    let (results, b) := attemptEach calls {}
    b.instructions = instructionsOf (succeeded calls results) ∧
      extent b.instructions = b.length ∧ b.length ≤ 511 ∧
      ∀ done call rest, calls = done ++ call :: rest →
        let before := (attemptEach done {}).2
        ∀ fault after, Builder.attempt call.append before = (.error fault, after) →
          after = before := by
  have hholds := holds_attemptEach calls AggregateBuffer.Holds.empty
  refine ⟨hholds.instructions_eq, hholds.extent_eq, Nat.le_of_lt_succ hholds.length_lt, ?_⟩
  intro done call rest _ before fault after hrefused
  have hleft := snd_attempt_of_error (congrArg Prod.fst hrefused)
  rwa [hrefused] at hleft

end Batch

end RfidReader
