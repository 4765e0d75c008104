import RfidReader.Device.Simulated
import RfidReader.Proofs.Device.Memory
import RfidReader.Proofs.Device.Outcome
import RfidReader.Proofs.Transmit.PowerLoop

/-!
# RfidReader.Proofs.Transmit.StaleBuffer

What is left in the chip's aggregate buffer behind a shorter program.

Copying a program overwrites as many bytes as it has, so the rest of the 512
is what earlier programs left there, and may well be instructions.  The chip
reads the buffer from the front and stops at the first exit.  A buffer that was
`Assembled` holds whole instructions, so the first bytes of the chip's buffer
are read as them whatever comes behind (`exists_decodeAll_load`), and a program
that `ExitsLast` is all that is read up to the first exit
(`throughExit_load_write`).  The ramp is such a program, and the simulated chip
carries out no more of it than that (`carryOut_throughExit`).
-/

namespace RfidReader

/-! ## Up to the exit -/

namespace Instruction

/-- The instructions up to the first exit, which is one of them. -/
def throughExit : List Instruction → List Instruction
  | [] => []
  | .exit :: _ => [.exit]
  | i :: rest => i :: throughExit rest

/-- The last instruction is an exit, and no other is one. -/
def ExitsLast (is : List Instruction) : Prop := ∃ front, is = front ++ [.exit] ∧ .exit ∉ front

theorem throughExit_cons {i : Instruction} (h : i ≠ .exit) (rest : List Instruction) :
    throughExit (i :: rest) = i :: throughExit rest := by
  cases i with
  | exit => contradiction
  | write | reset | insertFifoEvent | runOp | goTo | identifier | hostMutex => rfl

/-- What comes behind the exit makes no difference. -/
theorem ExitsLast.throughExit_append {is : List Instruction} (h : ExitsLast is)
    (rest : List Instruction) : throughExit (is ++ rest) = is := by
  obtain ⟨front, rfl, hfront⟩ := h
  induction front with
  | nil => rfl
  | cons i front ih =>
      have hi : i ≠ .exit := fun heq => hfront (heq ▸ List.mem_cons_self)
      rw [List.cons_append, List.cons_append, throughExit_cons hi,
        ih fun hmem => hfront (List.mem_cons_of_mem i hmem)]

end Instruction

open Instruction

/-! ## Assembled buffers -/

namespace AggregateBuffer

/-- The buffers there can be: empty ones, as after clearing, and those that adding a batch leaves,
whether it is added or refused. -/
inductive Assembled : AggregateBuffer → Prop where
  | empty : Assembled {}
  | attempt {b : AggregateBuffer} (batch : Batch) :
      Assembled b → Assembled (Builder.attempt batch.append b).2

namespace Assembled

/-- An assembled buffer holds whole instructions. -/
theorem holds {b : AggregateBuffer} (h : b.Assembled) : b.Holds b.instructions := by
  obtain ⟨is, his⟩ : ∃ is, b.Holds is := by
    induction h with
    | empty => exact ⟨[], Holds.empty⟩
    | @attempt b batch _ ih =>
        obtain ⟨is, his⟩ := ih
        cases hadd : b.appendAll batch.instructions with
        | ok b' =>
            rw [Batch.attempt_append_ok hadd]
            exact ⟨_, his.appendAll hadd⟩
        | error fault =>
            rw [Batch.attempt_append_error hadd]
            exact ⟨is, his⟩
  rwa [his.instructions_eq]

/-- Batches that were all added leave an assembled buffer. -/
theorem appendEach {b b' : AggregateBuffer} (h : b.Assembled) {parts : List Batch}
    (hrun : (Batch.appendEach parts).run b = .ok () b') : b'.Assembled := by
  induction parts generalizing b with
  | nil =>
      cases hrun
      exact h
  | cons part parts ih =>
      rw [Batch.appendEach, EStateM.run_bind, Batch.run_append] at hrun
      cases hpart : b.appendAll part.instructions with
      | error fault =>
          rw [hpart] at hrun
          cases hrun
      | ok b₁ =>
          rw [hpart] at hrun
          have hfirst := h.attempt part
          rw [Batch.attempt_append_ok hpart] at hfirst
          exact ih hfirst hrun

end Assembled
end AggregateBuffer

namespace Builder

/-- A buffer that batches were put into from nothing is assembled. -/
theorem assembled_of_assemble {parts : List Batch} {b : AggregateBuffer}
    (h : assemble (Batch.appendEach parts) = .ok b) : b.Assembled := by
  unfold assemble attempt at h
  cases hrun : (Batch.appendEach parts).run {} with
  | error fault b' =>
      rw [hrun] at h
      cases h
  | ok u b' =>
      rw [hrun] at h
      cases h
      exact AggregateBuffer.Assembled.empty.appendEach hrun

end Builder

/-! ## The chip's buffer -/

/-- A bus before a byte memory: a write that succeeds changes the bytes it is about and no others,
except that one to the control register may do more. -/
def Bus.Stores {β : Type} (bus : Bus β) (memory : β → Memory) : Prop :=
  ∀ address data chip, address ≠ Register.opsControl.address →
    (bus.write address data chip).1 = .ok () →
      memory (bus.write address data chip).2 = (memory chip).store address data

/-- The simulated chip is such a memory. -/
theorem SimulatedChip.stores_bus : bus.Stores memory := by
  intro address data chip haddress hok
  cases data with
  | nil => rfl
  | cons code rest =>
      simp only [bus, write] at hok ⊢
      by_cases hfail : chip.failWrite = some address
      · rw [if_pos hfail] at hok
        contradiction
      · rw [if_neg hfail, if_neg haddress]
        rfl

/-- The instructions in the aggregate buffer of a memory. -/
def Memory.aggregateInstructions (m : Memory) : List Instruction :=
  decodeAll (m.load Register.aggregateBufferAddress AggregateBuffer.capacity).toList

namespace AggregateBuffer

/-- Whole instructions are read back whatever bytes come behind them. -/
theorem Holds.decodeAll_append {b : AggregateBuffer} {is : List Instruction} (h : b.Holds is)
    (stale : List UInt8) : decodeAll (b.bytes ++ stale) = is ++ decodeAll stale := by
  rw [h.bytes_eq, decodeAll_encodeAll_append h.encodable]

/-- Behind the instructions that were copied to the chip stands whatever can be read there. -/
theorem aggregateInstructions_store {b : AggregateBuffer} {is : List Instruction} (h : b.Holds is)
    (m : Memory) :
    (m.store Register.aggregateBufferAddress b.bytes).aggregateInstructions =
      is ++ decodeAll ((m.load Register.aggregateBufferAddress capacity).toList.drop b.length) := by
  have hroom : b.bytes.length ≤ capacity := Nat.le_of_lt h.length_lt
  rw [Memory.aggregateInstructions, Memory.toList_load_store m _ hroom (by decide),
    h.decodeAll_append, length]

end AggregateBuffer

/-! ## Ramps -/

namespace Sequence

theorem exit_notMem_loopSettingsFor (s : PowerSettings) (target : Option AdcTarget) :
    exit ∉ (loopSettingsFor s target).instructions := by
  rw [loopSettingsFor]
  cases PowerSettings.live? target with
  | none => simp [Batch.instructions, Batch.instructionsOf]
  | some target => simp [loopSettings, write, Batch.instructions, Batch.instructionsOf]

theorem exit_notMem_rampAndControl (s : PowerSettings) :
    exit ∉ (rampAndControl s).instructions := by
  have hsettings := exit_notMem_loopSettingsFor s s.adcTarget
  cases hclosed : s.isClosedLoop <;>
    simp [rampAndControl, write, Batch.instructions, Batch.instructionsOf, hsettings, hclosed]

theorem exit_notMem_boostedRamp (s : PowerSettings) : exit ∉ (boostedRamp s).instructions := by
  rw [boostedRamp]
  cases s.boostTarget.isNone with
  | true => exact exit_notMem_rampAndControl s
  | false =>
      simp [write, Batch.instructions, Batch.instructionsOf, exit_notMem_loopSettingsFor]

end Sequence

namespace Transmitter

/-- A ramp ends at its exit. -/
theorem exitsLast_rampBatches (t : Transmitter) (plan : RampPlan) :
    ExitsLast (Batch.instructionsOf (t.rampBatches plan)) := by
  have hsetUp : exit ∉ Batch.instructionsOf ((t.rampBatches plan).take 7) := by
    simp [rampBatches, Batch.instructions, Batch.instructionsOf, Sequence.changePins,
      Sequence.lockSynthesizer, Sequence.fineGain, Sequence.dwellTimers, Sequence.droop,
      Sequence.coarseGain, Sequence.writeThenRun, Sequence.write]
  have hramp : exit ∉ (if t.boosts plan.power then Sequence.boostedRamp plan.power
      else Sequence.rampAndControl plan.power).instructions := by
    cases t.boosts plan.power with
    | true => exact Sequence.exit_notMem_boostedRamp plan.power
    | false => exact Sequence.exit_notMem_rampAndControl plan.power
  refine ⟨Batch.instructionsOf ((t.rampBatches plan).take 7) ++ (if t.boosts plan.power
    then Sequence.boostedRamp plan.power else Sequence.rampAndControl plan.power).instructions ++
    [runOp .rxRunSjc], ?_, ?_⟩
  · rw [instructionsOf_rampBatches, List.append_cons]
  · simp [hsetUp, hramp]

/-- A ramp's buffer is assembled, and ends at its exit. -/
theorem exists_exitsLast_rampBuffer (t : Transmitter) (plan : RampPlan) :
    ∃ b, t.rampBuffer plan = .ok b ∧ b.Assembled ∧ ExitsLast b.instructions := by
  obtain ⟨b, hb, hholds⟩ := t.exists_rampBuffer plan
  refine ⟨b, hb, Builder.assembled_of_assemble hb, ?_⟩
  rw [hholds.instructions_eq]
  exact t.exitsLast_rampBatches plan

end Transmitter

/-! ## What is carried out -/

open AggregateBuffer in
/-- **Nothing stale is carried out**: whatever was in the chip's buffer, once a program that ends at
its only exit has been copied there, the instructions up to the first exit are the program.  Every
ramp is such a program. -/
theorem throughExit_copied {β : Type} {bus : Bus β} {memory : β → Memory}
    (hbus : bus.Stores memory) :
    (∀ b : AggregateBuffer, b.Assembled → ExitsLast b.instructions → ∀ d chip,
      let o := (Device.write Register.aggregateBufferAddress b.bytes).outcome bus d chip
      o.result = .ok () →
        throughExit (memory o.chip).aggregateInstructions = b.instructions) ∧
    ∀ (t : Transmitter) (plan : RampPlan),
      ∃ b, t.rampBuffer plan = .ok b ∧ b.Assembled ∧ ExitsLast b.instructions := by
  refine ⟨?_, Transmitter.exists_exitsLast_rampBuffer⟩
  intro b hassembled hexit d chip o hok
  have hwritten : (bus.write Register.aggregateBufferAddress b.bytes chip).1 = .ok () := by
    have hanswer : (bus.write Register.aggregateBufferAddress b.bytes chip).1.mapError HostError.bus
        = .ok () := hok
    cases h : (bus.write Register.aggregateBufferAddress b.bytes chip).1 with
    | ok _ => rfl
    | error error =>
        rw [h] at hanswer
        contradiction
  have hmemory : memory o.chip =
      (memory chip).store Register.aggregateBufferAddress b.bytes :=
    hbus _ _ _ (by decide) hwritten
  rw [hmemory, aggregateInstructions_store hassembled.holds, hexit.throughExit_append]

/-- A short program over a longer one, whose rest would ramp up and end at an exit of its own. -/
theorem throughExit_copied_over :
    let stale := [Instruction.runOp .idle, .hostMutex true, .runOp .txRampUp, .exit]
    let program := [Instruction.runOp .txRampDown, .exit]
    let chip := ({} : SimulatedChip).store Register.aggregateBufferAddress (encodeAll stale)
    let o := (Device.write Register.aggregateBufferAddress (encodeAll program)).outcome
      SimulatedChip.bus {} chip
    o.result = .ok () ∧ throughExit o.chip.memory.aggregateInstructions = program := by
  intro stale program chip o
  have hassembled : AggregateBuffer.Assembled { bytes := encodeAll program } :=
    (AggregateBuffer.Assembled.empty.attempt (Batch.one (.runOp .txRampDown))).attempt
      (Batch.one .exit)
  have hprogram : ({ bytes := encodeAll program } : AggregateBuffer).instructions = program :=
    decodeAll_encodeAll (by simp [program, Instruction.Encodable])
  have hexit : ExitsLast program := ⟨[.runOp .txRampDown], rfl, by decide⟩
  refine ⟨rfl, ?_⟩
  have hcopied := (throughExit_copied SimulatedChip.stores_bus).1 _ hassembled
    (by rw [hprogram]; exact hexit) {} chip rfl
  rwa [hprogram] at hcopied

/-! ## The simulated chip -/

namespace SimulatedChip

/-- The chip does nothing with what comes behind the first exit. -/
theorem carryOut_throughExit (is : List Instruction) (s : SimulatedChip) :
    carryOut (throughExit is) s = carryOut is s := by
  fun_induction carryOut is s with
  | case1 s => rfl
  | case2 rest s => rfl
  | case3 address data rest s ih => exact ih
  | case4 rest s => rfl
  | case5 op rest s hop s' hrun ih =>
      rw [throughExit_cons Instruction.noConfusion, carryOut, hrun]
      · exact ih
      · exact hop
  | case6 op rest s hop s' code hrun hcode =>
      rw [throughExit_cons Instruction.noConfusion, carryOut, hrun]
      · exact if_neg hcode
      · exact hop
  | case7 i rest s hexit hwrite haggregate hrun ih =>
      rw [throughExit_cons hexit]
      cases i with
      | exit => contradiction
      | write address data => exact absurd rfl (hwrite address data)
      | runOp op => exact absurd rfl (hrun op)
      | reset | insertFifoEvent | goTo | identifier | hostMutex => exact ih

theorem carryOut_append {is : List Instruction} (h : ExitsLast is) (stale : List Instruction) :
    carryOut (is ++ stale) = carryOut is := by
  funext s
  rw [← carryOut_throughExit, h.throughExit_append]

/-- The aggregate operation carries out the program that was copied, and nothing else. -/
theorem runOp_aggregate_store {b : AggregateBuffer} (h : b.Assembled)
    (hexit : ExitsLast b.instructions) (s : SimulatedChip) :
    let copied := s.store Register.aggregateBufferAddress b.bytes
    copied.runOp .aggregate = copied.runOpWith .aggregate (carryOut b.instructions) := by
  intro copied
  have hbuffer : (copied.noteRun .aggregate).aggregateInstructions = b.instructions ++ _ :=
    AggregateBuffer.aggregateInstructions_store h.holds s.memory
  rw [runOp, runOpWith, runOpWith]
  simp only [if_true, hbuffer, carryOut_append hexit]

end SimulatedChip

end RfidReader
