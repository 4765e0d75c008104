import RfidReader.Proofs.Device.Instructions
import RfidReader.Proofs.Transmit.RampBuffer

/-!
# RfidReader.Proofs.Transmit.StepwiseRamp

The ramp one operation at a time does what the ramp in one buffer does.

The instructions that the stepwise ramp issues are the `transmit` sequence,
whatever the chip does (`issues_rampStepwise`).  The sequence fits into an empty
buffer, and on a chip that completes its operations the stepwise ramp gets to
the end of it (`rampStepwise_instructions`).
-/

namespace RfidReader

open DeviceM Instruction

namespace Transmitter

open Device

theorem issues_applyRegister {β : Type} (r : Register β) (value : β) (op : Op)
    (h : r.address ≠ Register.opsControl.address) :
    Issues (Sequence.writeThenRun r value op).instructions (applyRegister r value op) := by
  have hwrite := issues_write r.address (r.encode value)
  rw [ofWrite_of_ne _ h] at hwrite
  exact hwrite.bind fun _ => (issues_runOp op).bind fun _ => .pure ()

theorem issues_setTimers (timers : DwellTimers) :
    Issues (Sequence.dwellTimers timers).instructions (setTimers timers) :=
  issues_writeAll _

/-- The power control loop that is run is the one that is set up for a target. -/
theorem issues_controlPower {power : PowerSettings} (h : power.isClosedLoop = true) :
    Issues (Sequence.powerControl power).instructions (controlPower power) := by
  obtain ⟨target, htarget⟩ := Option.isSome_iff_exists.mp h
  have hlive : PowerSettings.live? power.adcTarget = some target := htarget
  rw [Sequence.powerControl, if_pos h, Sequence.loopSettingsFor, hlive, controlPower, htarget]
  exact (issues_writeAll _).bind fun _ => issues_wait.bind fun _ => .pure ()

theorem instructions_transmit (power : PowerSettings) (timers : DwellTimers) :
    (Sequence.transmit power timers).instructions =
      (Sequence.coarseGain power.txAtten).instructions ++
        ((Sequence.fineGain power.txScalar).instructions ++
        ((Sequence.dwellTimers timers).instructions ++
        ((Sequence.rampUp power.dcOffset).instructions ++
        (Sequence.powerControl power).instructions))) := by
  simp only [Sequence.transmit, Batch.instructions, Batch.instructionsOf, List.append_nil]

/-- **Instructions of the stepwise ramp**: whatever the chip does, they are the `transmit`
sequence, up to where the ramp fails. -/
theorem issues_rampStepwise (power : PowerSettings) (timers : DwellTimers) :
    Issues (Sequence.transmit power timers).instructions (rampStepwise power timers) := by
  have hcontrol : Issues (Sequence.powerControl power).instructions
      (if power.isClosedLoop then controlPower power else pure ()) := by
    cases hclosed : power.isClosedLoop with
    | true => exact issues_controlPower hclosed
    | false =>
        rw [Sequence.powerControl, hclosed]
        exact .pure ()
  rw [instructions_transmit]
  exact (issues_applyRegister Register.coarseGain _ _ (by decide)).bind fun _ =>
    (issues_applyRegister Register.fineGain _ _ (by decide)).bind fun _ =>
    (issues_setTimers timers).bind fun _ =>
    (issues_applyRegister Register.dcOffset _ _ (by decide)).bind fun _ => hcontrol

variable {β : Type} {bus : Bus β} {d : Device} {good : β → Prop}

theorem succeeds_applyRegister {α : Type} (h : bus.CompletesOps d good) (r : Register α)
    (value : α) (op : Op) : Succeeds bus d good (applyRegister r value op) :=
  (succeeds_write h _ _).bind fun _ =>
    ((succeeds_write h _ _).bind fun _ => succeeds_wait h).bind fun _ => .pure ()

theorem succeeds_controlPower (h : bus.CompletesOps d good) {power : PowerSettings}
    (hclosed : power.isClosedLoop = true) : Succeeds bus d good (controlPower power) := by
  obtain ⟨target, htarget⟩ := Option.isSome_iff_exists.mp hclosed
  rw [controlPower, htarget]
  exact (succeeds_writeAll h _).bind fun _ => (succeeds_wait h).bind fun _ => .pure ()

theorem succeeds_rampStepwise (h : bus.CompletesOps d good) (power : PowerSettings)
    (timers : DwellTimers) : Succeeds bus d good (rampStepwise power timers) := by
  have hcontrol : Succeeds bus d good
      (if power.isClosedLoop then controlPower power else pure ()) := by
    cases hclosed : power.isClosedLoop with
    | true => exact succeeds_controlPower h hclosed
    | false => exact .pure ()
  exact (succeeds_applyRegister h _ _ _).bind fun _ =>
    (succeeds_applyRegister h _ _ _).bind fun _ =>
    (succeeds_writeAll h _).bind fun _ =>
    (succeeds_applyRegister h _ _ _).bind fun _ => hcontrol

/-- The `transmit` sequence takes at most 117 bytes. -/
theorem fits_transmit (power : PowerSettings) (timers : DwellTimers) :
    Fits (Sequence.transmit power timers).instructions 117 := by
  have hcontrol : Fits (Sequence.powerControl power).instructions 47 := by
    rw [Sequence.powerControl]
    cases power.isClosedLoop with
    | true => exact (Sequence.fits_loopSettingsFor power _).append (Fits.runOp .powerControlLoop)
    | false => exact Fits.nil.mono (by decide)
  rw [instructions_transmit]
  exact (Fits.writeThenRun Register.coarseGain _ _).append <|
    (Fits.writeThenRun Register.fineGain _ _).append <|
      (Sequence.fits_dwellTimers timers).append <|
        (Fits.writeThenRun Register.dcOffset _ _).append hcontrol

private theorem eq_ok_of_isOk {x : Except HostError Unit} (h : x.isOk = true) : x = .ok () := by
  cases x with
  | error error => contradiction
  | ok _ => rfl

/-- **The two ramps are equivalent**: the `transmit` sequence can always be added to an empty
buffer; what the ramp one operation at a time puts on the bus is what the buffer holds, in the same
order and up to where the ramp fails; and it does not fail on a chip that completes its
operations. -/
theorem rampStepwise_instructions (power : PowerSettings) (timers : DwellTimers) :
    ∃ b, Builder.assemble (Sequence.transmit power timers).append = .ok b ∧
      Issues b.instructions (rampStepwise power timers) ∧
      ∀ (β : Type) (bus : Bus β) (d : Device) (good : β → Prop), bus.CompletesOps d good →
        ∀ chip, good chip →
          let o := (rampStepwise power timers).outcome bus d chip
          o.result = .ok () ∧ ofEvents o.events = b.instructions := by
  obtain ⟨b, hb, hholds⟩ :=
    Builder.assemble_append_of_fits (fits_transmit power timers) (by decide)
  have hissues : Issues b.instructions (rampStepwise power timers) := by
    rw [hholds.instructions_eq]
    exact issues_rampStepwise power timers
  refine ⟨b, hb, hissues, ?_⟩
  intro β bus d good hcompletes chip hchip
  obtain ⟨hok, -, -⟩ := succeeds_rampStepwise hcompletes power timers chip hchip
  exact ⟨eq_ok_of_isOk hok, (hissues β bus d chip).2 hok⟩

/-- A chip that is busy for two polls after the start of an operation, and a ramp with a target: of
its seventeen instructions the last one starts the power control loop. -/
theorem rampStepwise_instructions_busy :
    let status (busy : Bool) : List UInt8 :=
      Register.opsStatus.encode ⟨Op.txRampUp.code, busy, 0⟩
    let bus : Bus Nat :=
      { read := fun _ _ polls =>
          (.ok (Vector.ofFn fun i => (status (polls != 0))[i]?.getD 0), polls - 1)
        write := fun address _ polls =>
          (.ok (), if address = Register.opsControl.address then 2 else polls)
        delay := fun _ polls => polls }
    let power := { PowerSettings.openLoop 2500 with adcTarget := some ⟨1000, .lo1⟩ }
    let o := (rampStepwise power Region.fcc.timers).outcome bus {} 0
    ∃ b, Builder.assemble (Sequence.transmit power Region.fcc.timers).append = .ok b ∧
      o.result = .ok () ∧ ofEvents o.events = b.instructions ∧
      b.instructions.length = 17 ∧ b.instructions.getLast? = some (.runOp .powerControlLoop) := by
  intro status bus power o
  have hcompletes : bus.CompletesOps {} (· ≤ 2) := by
    constructor
    · intro address data polls hpolls
      refine ⟨rfl, ?_⟩
      show (if _ then 2 else polls) ≤ 2
      split
      · exact Nat.le_refl 2
      · exact hpolls
    · intro polls hpolls
      rw [outcome_wait]
      have hpolls : polls = 0 ∨ polls = 1 ∨ polls = 2 := by omega
      rcases hpolls with rfl | rfl | rfl
      · exact ⟨(poll_isOk_iff bus _ {} 0).mp (by decide +kernel), by decide⟩
      · exact ⟨(poll_isOk_iff bus _ {} 1).mp (by decide +kernel), by decide⟩
      · exact ⟨(poll_isOk_iff bus _ {} 2).mp (by decide +kernel), by decide⟩
  obtain ⟨b, hb, -, hramp⟩ := rampStepwise_instructions power Region.fcc.timers
  obtain ⟨hok, hevents⟩ := hramp Nat bus {} (· ≤ 2) hcompletes 0 (Nat.zero_le 2)
  refine ⟨b, hb, hok, hevents, ?_⟩
  rw [← hevents]
  decide +kernel

end Transmitter
end RfidReader
