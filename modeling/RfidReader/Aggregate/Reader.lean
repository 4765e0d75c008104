import RfidReader.Aggregate.Instruction

/-!
# RfidReader.Aggregate.Reader

Reading the instructions of a byte string one at a time.

A reader stands at an offset.  `next?` gives the instruction there and the
reader behind it, which is as far on as the instruction says it is long, not as
far as its operands were looked at.  `comesTo` looks for an offset among those
where the reader stands on its way.
-/

namespace RfidReader

/-- A byte string, and the offset at which the next instruction is looked for. -/
structure InstructionReader where
  bytes : List UInt8
  offset : Nat := 0
  deriving DecidableEq, Repr

namespace InstructionReader

/-- The instruction at the offset, and the reader behind it. -/
def next? (r : InstructionReader) : Option (Instruction × InstructionReader) :=
  (Instruction.decode? (r.bytes.drop r.offset)).map fun i =>
    (i, { r with offset := r.offset + i.size })

theorem next?_eq_some_iff {r later : InstructionReader} {i : Instruction} :
    r.next? = some (i, later) ↔
      Instruction.decode? (r.bytes.drop r.offset) = some i ∧
        later = { r with offset := r.offset + i.size } := by
  rw [next?, Option.map_eq_some_iff]
  constructor
  · rintro ⟨j, hdecode, hpair⟩
    obtain ⟨rfl, rfl⟩ := Prod.mk.inj hpair
    exact ⟨hdecode, rfl⟩
  · rintro ⟨hdecode, rfl⟩
    exact ⟨i, hdecode, rfl⟩

/-- A reader moves on with every instruction. -/
theorem offset_lt_of_next? {r later : InstructionReader} {i : Instruction}
    (h : r.next? = some (i, later)) : r.offset < later.offset := by
  obtain ⟨-, rfl⟩ := next?_eq_some_iff.mp h
  exact Nat.lt_add_of_pos_right i.size_pos

/-- Whether the reader stands at an offset, now or later.  It is given up once it is passed, or
where there is no further instruction. -/
def comesTo (r : InstructionReader) (target : Nat) : Bool :=
  if r.offset = target then true
  else if target < r.offset then false
  else
    match _h : r.next? with
    | none => false
    | some (_, later) => later.comesTo target
termination_by target - r.offset
decreasing_by
  have hlt := offset_lt_of_next? _h
  omega

end InstructionReader
end RfidReader
