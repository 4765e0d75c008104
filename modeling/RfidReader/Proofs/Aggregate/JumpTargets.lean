import RfidReader.Proofs.Aggregate.Assembly
import RfidReader.Proofs.Aggregate.Reading

/-!
# RfidReader.Proofs.Aggregate.JumpTargets

Jumps back hit the start of an instruction.

A jump into the buffer is checked when it is added, by reading the buffer from
its front (`isBoundary_eq_comesTo`).  Instructions are only ever put behind
those that are there, so an offset where one starts stays one: the jumps of a
buffer hit their targets as long as each of them did when it was added
(`jumpsHit_append`).  A jump to its own offset is not checked, and hits itself.
-/

namespace RfidReader

/-! ## Where instructions start -/

namespace Instruction

theorem offsetsFrom_append (start : Nat) (is js : List Instruction) :
    offsetsFrom start (is ++ js) = offsetsFrom start is ++ offsetsFrom (start + extent is) js := by
  induction is generalizing start with
  | nil => rfl
  | cons i is ih => rw [List.cons_append, offsetsFrom, ih, offsetsFrom, extent, Nat.add_assoc,
      List.cons_append]

theorem mem_offsetsFrom_iff {start p : Nat} {is : List Instruction} :
    p ∈ offsetsFrom start is ↔
      ∃ front i back, is = front ++ i :: back ∧ p = start + extent front := by
  constructor
  · intro h
    induction is generalizing start with
    | nil => contradiction
    | cons i is ih =>
        rcases List.mem_cons.mp h with rfl | h
        · exact ⟨[], i, is, rfl, rfl⟩
        · obtain ⟨front, j, back, rfl, rfl⟩ := ih h
          exact ⟨i :: front, j, back, rfl, Nat.add_assoc _ _ _⟩
  · rintro ⟨front, i, back, rfl, rfl⟩
    rw [offsetsFrom_append]
    exact List.mem_append_right _ List.mem_cons_self

/-- The offsets of a list and its end are where one can come to in it. -/
theorem mem_offsetsFrom_or_eq_extent_iff {p : Nat} {is : List Instruction} :
    p ∈ offsetsFrom 0 is ∨ p = extent is ↔ ∃ front, front <+: is ∧ extent front = p := by
  constructor
  · rintro (h | rfl)
    · obtain ⟨front, i, back, rfl, rfl⟩ := mem_offsetsFrom_iff.mp h
      exact ⟨front, List.prefix_append _ _, (Nat.zero_add _).symm⟩
    · exact ⟨is, List.prefix_refl is, rfl⟩
  · rintro ⟨front, ⟨back, rfl⟩, rfl⟩
    cases back with
    | nil => exact .inr (by rw [List.append_nil])
    | cons i back =>
        exact .inl (mem_offsetsFrom_iff.mpr ⟨front, i, back, rfl, (Nat.zero_add _).symm⟩)

end Instruction

namespace InstructionReader

open Instruction

variable {r last : InstructionReader} {is js : List Instruction} {bs : List UInt8}

/-- A run can be stopped on its way. -/
theorem Reads.exists_split (h : r.Reads (is ++ js) last) :
    ∃ mid, r.Reads is mid ∧ mid.Reads js last := by
  induction is generalizing r with
  | nil => exact ⟨r, .stay r, h⟩
  | cons i is ih =>
      cases h with
      | step hnext hrest =>
          obtain ⟨mid, hfront, hback⟩ := ih hrest
          exact ⟨mid, .step hnext hfront, hback⟩

/-- The runs of a reader give the fronts of what can be read. -/
theorem exists_reads_iff_prefix :
    (∃ last, Reads ⟨bs, 0⟩ is last) ↔ is <+: decodeAll bs := by
  constructor
  · rintro ⟨last, hreads⟩
    exact ⟨_, hreads.decodeAll_eq.symm⟩
  · rintro ⟨back, hall⟩
    obtain ⟨last, hreads, -⟩ := exists_reads_decodeAll ⟨bs, 0⟩
    rw [List.drop_zero, ← hall] at hreads
    obtain ⟨mid, hfront, -⟩ := hreads.exists_split
    exact ⟨mid, hfront⟩

/-- An instruction is read at an offset of a byte string. -/
def StartsAt (bs : List UInt8) (offset : Nat) (i : Instruction) : Prop :=
  ∃ is later, Reads ⟨bs, 0⟩ is ⟨bs, offset⟩ ∧ next? ⟨bs, offset⟩ = some (i, later)

theorem startsAt_iff {offset : Nat} {i : Instruction} :
    StartsAt bs offset i ↔
      ∃ front back, decodeAll bs = front ++ i :: back ∧ offset = extent front := by
  constructor
  · rintro ⟨front, later, hreads, hnext⟩
    have hall := (Reads.step hnext (.stay later)).decodeAll_eq
    refine ⟨front, decodeAll (later.bytes.drop later.offset), ?_, ?_⟩
    · exact hreads.decodeAll_eq.trans (congrArg (front ++ ·) hall)
    · exact hreads.offset_eq.trans (Nat.zero_add _)
  · rintro ⟨front, back, hall, rfl⟩
    obtain ⟨last, hreads, -⟩ := exists_reads_decodeAll ⟨bs, 0⟩
    rw [List.drop_zero, hall] at hreads
    obtain ⟨mid, hfront, hback⟩ := hreads.exists_split
    obtain rfl : mid = ⟨bs, extent front⟩ := by rw [hfront.reencode.1, Nat.zero_add]
    cases hback with
    | step hnext _ => exact ⟨front, _, hfront, hnext⟩

theorem exists_startsAt_iff {offset : Nat} :
    (∃ i, StartsAt bs offset i) ↔ offset ∈ offsetsFrom 0 (decodeAll bs) := by
  rw [mem_offsetsFrom_iff]
  simp only [startsAt_iff, Nat.zero_add]
  constructor
  · rintro ⟨i, front, back, hall, hoffset⟩
    exact ⟨front, i, back, hall, hoffset⟩
  · rintro ⟨front, i, back, hall, hoffset⟩
    exact ⟨i, front, back, hall, hoffset⟩

/-- The search for an offset finds those where the reader stands on a run. -/
theorem comesTo_iff (r : InstructionReader) (target : Nat) :
    r.comesTo target = true ↔ ∃ is last, r.Reads is last ∧ last.offset = target := by
  fun_induction comesTo r target with
  | case1 r heq => exact iff_of_true rfl ⟨[], r, .stay r, heq⟩
  | case2 r hne hpassed =>
      refine iff_of_false Bool.false_ne_true ?_
      rintro ⟨is, last, hreads, rfl⟩
      rw [hreads.offset_eq] at hpassed
      omega
  | case3 r hne hpassed hnone =>
      refine iff_of_false Bool.false_ne_true ?_
      rintro ⟨is, last, hreads, hlast⟩
      cases hreads with
      | stay => exact hne hlast
      | step hnext _ => rw [hnext] at hnone; contradiction
  | case4 r hne hpassed i later hnext ih =>
      rw [ih]
      constructor
      · rintro ⟨is, last, hreads, hlast⟩
        exact ⟨i :: is, last, .step hnext hreads, hlast⟩
      · rintro ⟨is, last, hreads, hlast⟩
        cases hreads with
        | stay => exact absurd hlast hne
        | step hnext' hrest =>
            rw [hnext] at hnext'
            obtain ⟨rfl, rfl⟩ := Prod.mk.inj (Option.some.inj hnext')
            exact ⟨_, last, hrest, hlast⟩

end InstructionReader

open Instruction

/-! ## The check of a jump -/

namespace AggregateBuffer

/-- The check of a jump reads the buffer from its front. -/
theorem isBoundary_eq_comesTo (b : AggregateBuffer) (p : Nat) :
    b.isBoundary p = (InstructionReader.mk b.bytes 0).comesTo p := by
  rw [Bool.eq_iff_iff, InstructionReader.comesTo_iff, isBoundary, Bool.or_eq_true,
    List.contains_iff_mem, beq_iff_eq, mem_offsetsFrom_or_eq_extent_iff]
  constructor
  · rintro ⟨front, hfront, rfl⟩
    obtain ⟨last, hreads⟩ := InstructionReader.exists_reads_iff_prefix.mpr hfront
    exact ⟨front, last, hreads, hreads.offset_eq.trans (Nat.zero_add _)⟩
  · rintro ⟨front, last, hreads, rfl⟩
    exact ⟨front, InstructionReader.exists_reads_iff_prefix.mp ⟨last, hreads⟩,
      (hreads.offset_eq.trans (Nat.zero_add _)).symm⟩

variable {b b' : AggregateBuffer} {is : List Instruction} {index : UInt16} {times : UInt8}

/-- Inside a buffer that holds instructions the check finds where they start. -/
theorem Holds.isBoundary_iff (h : b.Holds is) {p : Nat} (hp : p < b.length) :
    b.isBoundary p = true ↔ p ∈ offsetsFrom 0 is := by
  rw [isBoundary, Bool.or_eq_true, List.contains_iff_mem, beq_iff_eq, h.extent_eq,
    h.instructions_eq, or_iff_left (Nat.ne_of_lt hp)]

/-- A jump into the buffer is added where it hits the start of an instruction, and refused
elsewhere. -/
theorem Holds.append_goTo (h : b.Holds is) (hroom : b.length + 4 < capacity)
    (hinside : index.toNat < b.length) :
    b.append (.goTo index times) =
      if index.toNat ∈ offsetsFrom 0 is then
        .ok { bytes := b.bytes ++ (Instruction.goTo index times).encode }
      else .error .jumpTarget := by
  rw [AggregateBuffer.append, fault?, Instruction.size, if_neg (Nat.not_le_of_lt hroom),
    operandFault?, decide_eq_true hinside, Bool.true_and]
  by_cases hhit : index.toNat ∈ offsetsFrom 0 is
  · rw [if_pos hhit, (h.isBoundary_iff hinside).mpr hhit]
    rfl
  · rw [if_neg hhit, Bool.not_eq_true _ |>.mp (mt (h.isBoundary_iff hinside).mp hhit)]
    rfl

end AggregateBuffer

/-! ## Jumps of a buffer -/

namespace Instruction

/-- The jumps of a list that do not lead beyond themselves hit the start of an instruction. -/
def JumpsHit (is : List Instruction) : Prop :=
  ∀ front index times back, is = front ++ .goTo index times :: back →
    index.toNat ≤ extent front → index.toNat ∈ offsetsFrom 0 is

end Instruction

namespace AggregateBuffer

open Instruction

variable {b b' : AggregateBuffer} {is : List Instruction} {i : Instruction}

/-- An instruction that is added leaves the jumps that are there as they are, and if it is a jump
back, it was checked. -/
theorem Holds.jumpsHit_append (h : b.Holds is) (hjumps : JumpsHit is)
    (ha : b.append i = .ok b') : JumpsHit (is ++ [i]) := by
  intro front index times back heq hback
  rw [offsetsFrom_append]
  rcases List.eq_nil_or_concat back with rfl | ⟨back, j, rfl⟩
  · -- The jump is the instruction that was added.
    obtain ⟨rfl, hi⟩ := List.append_inj' heq rfl
    obtain rfl := (List.cons.inj hi).1
    rcases Nat.lt_or_eq_of_le hback with hlt | hself
    · have hextent : extent is = b.length := h.instructions_eq ▸ h.extent_eq
      have hroom : b.length + 4 < capacity := length_lt_of_fault? (append_eq_ok ha).1
      refine List.mem_append_left _ (Decidable.byContradiction fun hmiss => ?_)
      rw [h.append_goTo hroom (hextent ▸ hlt), if_neg hmiss] at ha
      contradiction
    · rw [hself, Nat.zero_add]
      exact List.mem_append_right _ List.mem_cons_self
  · -- The jump was there before.
    rw [List.concat_eq_append, ← List.cons_append, ← List.append_assoc] at heq
    exact List.mem_append_left _
      (hjumps front index times back (List.append_inj' heq rfl).1 hback)

end AggregateBuffer

namespace Batch

open InstructionReader

/-- **Jumps hit instructions**: after any batches, added or refused, a jump of the buffer to its own
offset or back is a jump to where an instruction of the buffer starts; and a jump into the buffer
that there is room for is added if an instruction that was added before starts at its target, and
refused otherwise, which leaves the buffer as it was.  The check of its target reads the buffer
from its front. -/
theorem jumps_hit (calls : List Batch) :
    let b := (attemptEach calls {}).2
    let placed := instructionsOf (succeeded calls (attemptEach calls {}).1)
    (∀ offset index times, StartsAt b.bytes offset (.goTo index times) → index.toNat ≤ offset →
      ∃ target, StartsAt b.bytes index.toNat target) ∧
    (∀ index times, b.length + 4 < 512 → index.toNat < b.length →
      Builder.attempt (Builder.append (.goTo index times)) b =
        if index.toNat ∈ offsetsFrom 0 placed then
          (.ok (), { bytes := b.bytes ++ (Instruction.goTo index times).encode })
        else (.error .jumpTarget, b)) ∧
    ∀ offset, b.isBoundary offset = (InstructionReader.mk b.bytes 0).comesTo offset := by
  intro b placed
  have hinvariant := attemptEach_induction (P := fun b is => b.Holds is ∧ JumpsHit is)
    (fun h ha => ⟨h.1.append ha, h.1.jumpsHit_append h.2 ha⟩) calls
    ⟨AggregateBuffer.Holds.empty, fun front index times back heq => by simp at heq⟩
  rw [List.nil_append] at hinvariant
  obtain ⟨hholds, hjumps⟩ := hinvariant
  refine ⟨fun offset index times hstarts hback => ?_, fun index times hroom hinside => ?_,
    AggregateBuffer.isBoundary_eq_comesTo _⟩
  · obtain ⟨front, back, hall, rfl⟩ := startsAt_iff.mp hstarts
    have hread : decodeAll _ = _ := hholds.instructions_eq
    rw [exists_startsAt_iff, hread]
    exact hjumps front index times back (hread.symm.trans hall) hback
  · rw [Builder.attempt, Builder.run_append, hholds.append_goTo hroom hinside]
    by_cases hhit : index.toNat ∈ offsetsFrom 0 placed
    · rw [if_pos hhit, if_pos hhit]
      rfl
    · rw [if_neg hhit, if_neg hhit]
      rfl

/-- A jump into an operation is refused; one back to that operation, one to itself and one beyond
the buffer are added.  The next jump may hit the last of them, but not its operands. -/
theorem jumps_hit_four :
    let calls : List Batch := [.all [.one (.hostMutex true), .one (.runOp .txRampUp)],
      .one (.goTo 2 1), .one (.goTo 1 1), .one (.goTo 7 1), .one (.goTo 100 1)]
    let b := (attemptEach calls {}).2
    b.bytes = [0x34, 0x30, 0xA3, 0x31, 1, 0, 1, 0x31, 7, 0, 1, 0x31, 100, 0, 1] ∧
    (StartsAt b.bytes 3 (.goTo 1 1) ∧ ∃ target, StartsAt b.bytes 1 target) ∧
    (StartsAt b.bytes 7 (.goTo 7 1) ∧ ∃ target, StartsAt b.bytes 7 target) ∧
    Builder.attempt (Builder.append (.goTo 11 2)) b =
      (.ok (), { bytes := b.bytes ++ [0x31, 11, 0, 2] }) ∧
    Builder.attempt (Builder.append (.goTo 12 2)) b = (.error .jumpTarget, b) := by
  intro calls b
  have hbytes : b.bytes = [0x34, 0x30, 0xA3, 0x31, 1, 0, 1, 0x31, 7, 0, 1, 0x31, 100, 0, 1] := by
    decide +kernel
  have hoffsets : offsetsFrom 0 (instructionsOf (succeeded calls (attemptEach calls {}).1)) =
      [0, 1, 3, 7, 11] := by
    decide +kernel
  have hlength : (attemptEach calls {}).2.length = 15 := congrArg List.length hbytes
  have hroom : (attemptEach calls {}).2.length + 4 < 512 := by
    rw [hlength]
    decide
  have hback : StartsAt b.bytes 3 (.goTo 1 1) := by
    rw [hbytes]
    exact ⟨_, _, .step rfl (.step rfl (.stay _)), rfl⟩
  have hself : StartsAt b.bytes 7 (.goTo 7 1) := by
    rw [hbytes]
    exact ⟨_, _, .step rfl (.step rfl (.step rfl (.stay _))), rfl⟩
  obtain ⟨hjumps, hadd, -⟩ := jumps_hit calls
  refine ⟨hbytes, ⟨hback, hjumps 3 1 1 hback (by decide)⟩, ⟨hself, hjumps 7 7 1 hself (by decide)⟩,
    ?_, ?_⟩
  · refine (hadd 11 2 hroom (by rw [hlength]; decide)).trans (if_pos ?_)
    rw [hoffsets]
    decide
  · refine (hadd 12 2 hroom (by rw [hlength]; decide)).trans (if_neg ?_)
    rw [hoffsets]
    decide

end Batch

end RfidReader
