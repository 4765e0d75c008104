import RfidReader.Proofs.Register
import RfidReader.Proofs.Transmit.RampBuffer

/-!
# RfidReader.Proofs.Transmit.PowerLoop

What the power control loop finds in its registers each time a ramp runs it.

`LoopsConfigured` says that every run of the loop has settings of its own: all
five registers are written between the run before it and this one, with a
target that is not zero.  `SettlesAt` says which target the last run regulates
to.  Ramps that are not boosted satisfy both, and so do boosted ramps of a
plan with a target to settle at.  A boosted ramp without one runs its second
loop on the settings of the first (`rampBuffer_loops_iff`).
-/

namespace RfidReader

/-! ## Values written -/

namespace Instruction

variable {α : Type} (r : Register α)

/-- The value an instruction writes to a register, if it does. -/
def written? : Instruction → Option α
  | .write address data => if address = r.address then r.decode? data else none
  | _ => none

/-- The value that a list of instructions writes to a register last. -/
def lastWritten? (is : List Instruction) : Option α := is.reverse.findSome? (written? r)

theorem lastWritten?_append (is js : List Instruction) :
    lastWritten? r (is ++ js) = (lastWritten? r js).or (lastWritten? r is) := by
  rw [lastWritten?, List.reverse_append, List.findSome?_append, lastWritten?, lastWritten?]

theorem lastWritten?_cons (i : Instruction) (is : List Instruction) :
    lastWritten? r (i :: is) = (lastWritten? r is).or (written? r i) := by
  rw [← List.singleton_append, lastWritten?_append]
  cases h : written? r i <;> simp [lastWritten?, h]

@[simp] theorem lastWritten?_nil : lastWritten? r [] = none := rfl

/-- A register write runs no operation. -/
@[simp] theorem runOp_ne_write (op : Op) (v : α) : .runOp op ≠ Sequence.write r v :=
  fun h => nomatch h

/-- A register write writes what the register makes of it. -/
theorem written?_write (v : α) : written? r (Sequence.write r v) = r.decode? (r.encode v) := by
  rw [Sequence.write, written?, if_pos rfl]

/-- A write to another register is none to this one. -/
theorem written?_write_of_ne {β : Type} {s : Register β} (h : s.address ≠ r.address) (v : β) :
    written? r (Sequence.write s v) = none := by
  rw [Sequence.write, written?, if_neg h]

end Instruction

/-! ## Settings of the loop -/

/-- The five settings of a run of the power control loop. -/
structure LoopSetup where
  detectors : UInt16
  gainDivisor : UInt16
  maxIterations : UInt32
  adcTarget : UInt16
  thresholds : LoopThresholds
  deriving DecidableEq, Repr

namespace LoopSetup

open Instruction (lastWritten? lastWritten?_append lastWritten?_cons lastWritten?_nil
  written?_write written?_write_of_ne)

/-- The settings that instructions write, if they write all five. -/
def written? (is : List Instruction) : Option LoopSetup := do
  let detectors ← lastWritten? Register.loopDetectors is
  let gainDivisor ← lastWritten? Register.loopGainDivisor is
  let maxIterations ← lastWritten? Register.loopMaxIterations is
  let adcTarget ← lastWritten? Register.loopAdcTarget is
  let thresholds ← lastWritten? Register.loopThresholds is
  pure { detectors, gainDivisor, maxIterations, adcTarget, thresholds }

/-- The settings for a target. -/
def of (s : PowerSettings) (target : AdcTarget) : LoopSetup where
  detectors := target.detector.enableBits
  gainDivisor := s.gainDivisor
  maxIterations := s.maxIterations
  adcTarget := target.adc
  thresholds := ⟨s.stopThreshold, s.errorThreshold⟩

/-- Whether an instruction writes to a register of the loop, or runs it. -/
def isTouchedBy : Instruction → Bool
  | .write address _ =>
    [Register.loopDetectors.address, Register.loopGainDivisor.address,
      Register.loopMaxIterations.address, Register.loopAdcTarget.address,
      Register.loopThresholds.address].contains address
  | .runOp op => op == .powerControlLoop
  | _ => false

/-- Instructions that leave the loop alone write none of its settings. -/
private theorem lastWritten?_of_silent {α : Type} {r : Register α} {is : List Instruction}
    (hr : ∀ data, isTouchedBy (.write r.address data) = true)
    (h : ∀ i ∈ is, isTouchedBy i = false) : lastWritten? r is = none := by
  rw [lastWritten?, List.findSome?_eq_none_iff]
  intro i hi
  have hsilent := h i (List.mem_reverse.mp hi)
  cases i with
  | write address data =>
      by_cases haddress : address = r.address
      · rw [haddress, hr data] at hsilent
        contradiction
      · rw [Instruction.written?, if_neg haddress]
  | reset | insertFifoEvent | runOp | goTo | exit | identifier | hostMutex => rfl

/-- Settings stay as they are while instructions leave the loop alone. -/
theorem written?_append_of_silent {is js : List Instruction}
    (h : ∀ j ∈ js, isTouchedBy j = false) : written? (is ++ js) = written? is := by
  have hnone {α : Type} {r : Register α} (hr : ∀ data, isTouchedBy (.write r.address data) = true) :
      lastWritten? r (is ++ js) = lastWritten? r is := by
    rw [lastWritten?_append, lastWritten?_of_silent hr h, Option.none_or]
  have hdetectors := hnone (r := Register.loopDetectors) fun _ => rfl
  have hgain := hnone (r := Register.loopGainDivisor) fun _ => rfl
  have hiterations := hnone (r := Register.loopMaxIterations) fun _ => rfl
  have htarget := hnone (r := Register.loopAdcTarget) fun _ => rfl
  have hthresholds := hnone (r := Register.loopThresholds) fun _ => rfl
  rw [written?, hdetectors, hgain, hiterations, htarget, hthresholds, written?]

/-- Thresholds are read back from their register. -/
private theorem decode?_encode_thresholds (t : LoopThresholds) :
    Register.loopThresholds.decode? (Register.loopThresholds.encode t) = some t := by
  have hstop := t.stop.toNat_lt
  have herror := t.opError.toNat_lt
  have hpack : Register.loopThresholds.pack t = t.stop.toNat + t.opError.toNat * 65536 := by
    show t.stop.toNat + t.opError.toNat <<< 16 = _
    rw [Nat.shiftLeft_eq]
  have hfits : Register.loopThresholds.pack t < 256 ^ Register.loopThresholds.width := by
    rw [hpack]
    show _ < 4294967296
    omega
  rw [Register.decode?_encode (by decide), Register.decode_encode Nat.one_pos hfits, hpack]
  show some (LoopThresholds.mk (UInt16.ofNat _) (UInt16.ofNat (_ >>> 16))) = some t
  have hlow : UInt16.ofNat (t.stop.toNat + t.opError.toNat * 65536) = t.stop := by
    apply UInt16.toNat_inj.mp
    rw [UInt16.toNat_ofNat']
    omega
  have hhigh : UInt16.ofNat ((t.stop.toNat + t.opError.toNat * 65536) >>> 16) = t.opError := by
    apply UInt16.toNat_inj.mp
    rw [UInt16.toNat_ofNat', Nat.shiftRight_eq_div_pow]
    omega
  rw [hlow, hhigh]

/-- The settings sequence writes all five settings. -/
theorem written?_loopSettings (s : PowerSettings) (target : AdcTarget) :
    written? (Sequence.loopSettings s target).instructions = some (of s target) := by
  have hlist : (Sequence.loopSettings s target).instructions =
      [Sequence.write Register.loopDetectors target.detector.enableBits,
        Sequence.write Register.loopGainDivisor s.gainDivisor,
        Sequence.write Register.loopMaxIterations s.maxIterations,
        Sequence.write Register.loopAdcTarget target.adc,
        Sequence.write Register.loopThresholds ⟨s.stopThreshold, s.errorThreshold⟩] := rfl
  have hdetectors : Register.loopDetectors.decode? (Register.loopDetectors.encode _) =
      some target.detector.enableBits := Register.decode?_encode_ofWord (by decide) _
  have hgain : Register.loopGainDivisor.decode? (Register.loopGainDivisor.encode _) =
      some s.gainDivisor := Register.decode?_encode_ofWord (by decide) _
  have hiterations : Register.loopMaxIterations.decode? (Register.loopMaxIterations.encode _) =
      some s.maxIterations := Register.decode?_encode_ofWord (by decide) _
  have htarget : Register.loopAdcTarget.decode? (Register.loopAdcTarget.encode _) =
      some target.adc := Register.decode?_encode_ofWord (by decide) _
  have hthresholds := decode?_encode_thresholds ⟨s.stopThreshold, s.errorThreshold⟩
  simp (disch := decide) only [written?, hlist, lastWritten?_cons, lastWritten?_nil,
    written?_write, written?_write_of_ne, hdetectors, hgain, hiterations, htarget, hthresholds,
    Option.none_or, Option.or_none]
  rfl

/-- Settings that are all written count, whatever was written before them. -/
theorem written?_append {is js : List Instruction} {setup : LoopSetup}
    (h : written? js = some setup) : written? (is ++ js) = some setup := by
  simp only [written?, Option.bind_eq_bind, Option.bind_eq_some_iff] at h ⊢
  obtain ⟨d, hd, g, hg, m, hm, a, ha, t, ht, hsetup⟩ := h
  refine ⟨d, ?_, g, ?_, m, ?_, a, ?_, t, ?_, hsetup⟩
  · rw [lastWritten?_append, hd, Option.some_or]
  · rw [lastWritten?_append, hg, Option.some_or]
  · rw [lastWritten?_append, hm, Option.some_or]
  · rw [lastWritten?_append, ha, Option.some_or]
  · rw [lastWritten?_append, ht, Option.some_or]

end LoopSetup

/-! ## Runs of the loop -/

open Instruction (runOp exit)

/-- Every run of the loop has settings of its own: all five are written after the run before it,
with a target that is not zero. -/
def LoopsConfigured (is : List Instruction) : Prop :=
  ∀ before after, is = before ++ runOp .powerControlLoop :: after →
    ∃ earlier recent setup, before = earlier ++ recent ∧
      runOp .powerControlLoop ∉ recent ∧
      LoopSetup.written? recent = some setup ∧ setup.adcTarget ≠ 0

/-- The last run of the loop regulates to a target. -/
def SettlesAt (target : Option AdcTarget) (is : List Instruction) : Prop :=
  ∀ before after, is = before ++ runOp .powerControlLoop :: after →
    runOp .powerControlLoop ∉ after →
    ∃ goal setup, target = some goal ∧ LoopSetup.written? before = some setup ∧
      setup.adcTarget = goal.adc ∧ setup.detectors = goal.detector.enableBits

/-- Where a member of two lists in a row stands. -/
private theorem mem_split {α : Type} {x : α} {xs ys before after : List α}
    (h : xs ++ ys = before ++ x :: after) :
    (∃ mid, xs = before ++ x :: mid ∧ after = mid ++ ys) ∨
      ∃ mid, before = xs ++ mid ∧ ys = mid ++ x :: after := by
  rcases List.append_eq_append_iff.mp h with ⟨mid, hbefore, hys⟩ | ⟨mid, hxs, hafter⟩
  · exact .inr ⟨mid, hbefore, hys⟩
  · cases mid with
    | nil =>
        rw [List.append_nil] at hxs
        exact .inr ⟨[], by rw [List.append_nil, hxs], hafter.symm⟩
    | cons y mid =>
        obtain ⟨rfl, rfl⟩ := List.cons.inj hafter
        exact .inl ⟨mid, hxs, rfl⟩

namespace LoopsConfigured

variable {is js recent : List Instruction}

/-- Without a run of the loop there is nothing to set up. -/
theorem of_notMem (h : runOp .powerControlLoop ∉ is) : LoopsConfigured is := by
  intro before after heq
  exact absurd (heq ▸ List.mem_append_right before List.mem_cons_self) h

theorem append_of_notMem (h : LoopsConfigured is) (hjs : runOp .powerControlLoop ∉ js) :
    LoopsConfigured (is ++ js) := by
  intro before after heq
  rcases mem_split heq with ⟨mid, his, -⟩ | ⟨mid, -, hmid⟩
  · exact h before mid his
  · exact absurd (hmid ▸ List.mem_append_right mid List.mem_cons_self) hjs

/-- One more run of the loop, behind settings of its own. -/
theorem run {setup : LoopSetup} (h : LoopsConfigured is)
    (hrecent : runOp .powerControlLoop ∉ recent)
    (hsetup : LoopSetup.written? recent = some setup) (htarget : setup.adcTarget ≠ 0) :
    LoopsConfigured (is ++ recent ++ [runOp .powerControlLoop]) := by
  intro before after heq
  rcases mem_split heq with ⟨mid, his, -⟩ | ⟨mid, hbefore, hmid⟩
  · exact h.append_of_notMem hrecent before mid his
  · cases mid with
    | nil =>
        rw [List.append_nil] at hbefore
        exact ⟨is, recent, setup, hbefore, hrecent, hsetup, htarget⟩
    | cons i mid =>
        have hlength := congrArg List.length hmid
        simp only [List.cons_append, List.length_cons, List.length_append, List.length_nil]
          at hlength
        omega

end LoopsConfigured

/-- A run of the loop right behind another, with nothing set up in between, has no settings of its
own. -/
theorem not_loopsConfigured (is : List Instruction) {recent : List Instruction}
    (after : List Instruction)
    (hsilent : ∀ i ∈ recent, LoopSetup.isTouchedBy i = false) :
    ¬ LoopsConfigured (is ++ runOp .powerControlLoop :: recent
      ++ runOp .powerControlLoop :: after) := by
  intro h
  obtain ⟨earlier, own, setup, hbefore, hown, hsetup, -⟩ := h _ _ rfl
  -- Settings of its own would have to stand behind the first run, where nothing is written.
  have hsub : ∀ i ∈ own, i ∈ recent := by
    rcases List.append_eq_append_iff.mp hbefore with ⟨mid, -, htail⟩ | ⟨mid, -, rfl⟩
    · cases mid with
      | nil =>
          rw [List.nil_append] at htail
          exact absurd (htail ▸ List.mem_cons_self) hown
      | cons i mid =>
          obtain ⟨-, rfl⟩ := List.cons.inj htail
          exact fun i hi => List.mem_append_right mid hi
    · exact absurd (List.mem_append_right mid List.mem_cons_self) hown
  have hnone : LoopSetup.written? own = none := by
    have hempty : LoopSetup.written? ([] ++ own) = LoopSetup.written? [] :=
      LoopSetup.written?_append_of_silent fun i hi => hsilent i (hsub i hi)
    rw [List.nil_append] at hempty
    rw [hempty]
    rfl
  rw [hnone] at hsetup
  contradiction

/-- Without a run of the loop there is none to settle. -/
theorem SettlesAt.of_notMem {is : List Instruction} (target : Option AdcTarget)
    (h : runOp .powerControlLoop ∉ is) : SettlesAt target is := by
  intro before after heq
  exact absurd (heq ▸ List.mem_append_right before List.mem_cons_self) h

/-- The last run of the loop regulates to the target that was set up for it. -/
theorem SettlesAt.run {is js recent : List Instruction} {setup : LoopSetup} {goal : AdcTarget}
    (hjs : runOp .powerControlLoop ∉ js) (hsetup : LoopSetup.written? recent = some setup)
    (hadc : setup.adcTarget = goal.adc) (hdetectors : setup.detectors = goal.detector.enableBits) :
    SettlesAt (some goal) (is ++ recent ++ runOp .powerControlLoop :: js) := by
  intro before after heq hafter
  rcases mem_split heq with ⟨mid, -, hmid⟩ | ⟨mid, hbefore, hmid⟩
  · exact absurd (hmid ▸ List.mem_append_right mid List.mem_cons_self) hafter
  · cases mid with
    | nil =>
        rw [List.append_nil] at hbefore
        exact ⟨goal, setup, rfl, hbefore ▸ LoopSetup.written?_append hsetup, hadc, hdetectors⟩
    | cons i mid =>
        obtain ⟨-, hrest⟩ := List.cons.inj hmid
        exact absurd (hrest ▸ List.mem_append_right mid List.mem_cons_self) hjs

/-! ## Ramps -/

namespace PowerSettings

theorem live?_eq_some {target : Option AdcTarget} {goal : AdcTarget}
    (h : live? target = some goal) : target = some goal ∧ goal.adc ≠ 0 := by
  rw [live?, Option.filter_eq_some_iff] at h
  exact ⟨h.1, by simpa using h.2⟩

/-- The loop runs after a ramp exactly when there is a target to settle at. -/
theorem isClosedLoop_iff (s : PowerSettings) :
    s.isClosedLoop = true ↔ ∃ goal, live? s.adcTarget = some goal :=
  Option.isSome_iff_exists

end PowerSettings

namespace Sequence

open PowerSettings

variable {s : PowerSettings} {goal boost : AdcTarget}

theorem loopSettingsFor_of_live {target : Option AdcTarget} (h : live? target = some goal) :
    loopSettingsFor s target = loopSettings s goal := by
  rw [loopSettingsFor, h]

theorem loopSettingsFor_of_none {target : Option AdcTarget} (h : live? target = none) :
    loopSettingsFor s target = .all [] := by
  rw [loopSettingsFor, h]

/-- A ramp without a target. -/
theorem instructions_rampAndControl_of_none (h : live? s.adcTarget = none) :
    (rampAndControl s).instructions = [write Register.dcOffset s.dcOffset, runOp .txRampUp] := by
  have hopen : s.isClosedLoop = false := by rw [isClosedLoop, settleTarget?, h]; rfl
  rw [rampAndControl, loopSettingsFor_of_none h, hopen]
  rfl

/-- A ramp to a target. -/
theorem instructions_rampAndControl (h : live? s.adcTarget = some goal) :
    (rampAndControl s).instructions =
      write Register.dcOffset s.dcOffset ::
        ((loopSettings s goal).instructions ++ [runOp .txRampUp]) ++
          [runOp .powerControlLoop] := by
  have hclosed : s.isClosedLoop = true := s.isClosedLoop_iff.mpr ⟨goal, h⟩
  rw [rampAndControl, loopSettingsFor_of_live h, hclosed]
  rfl

/-- A boosted ramp, with the settings of its second run left open. -/
theorem instructions_boostedRamp (h : live? s.boostTarget = some boost) :
    (boostedRamp s).instructions =
      write Register.dcOffset s.dcOffset ::
        ((loopSettings s boost).instructions ++
          [write Register.delayUs boostHoldUs, runOp .txRampUp, runOp .usTimerStart]) ++
        runOp .powerControlLoop ::
          ((loopSettingsFor s s.adcTarget).instructions ++ [runOp .usTimerWait]) ++
        [runOp .powerControlLoop] := by
  have hboost : s.boostTarget.isNone = false := by rw [(live?_eq_some h).1]; rfl
  rw [boostedRamp, hboost, loopSettingsFor_of_live h]
  simp only [Bool.false_eq_true, if_false, Batch.instructions, Batch.instructionsOf,
    List.append_assoc, List.cons_append, List.nil_append]

theorem loop_notMem_loopSettings (s : PowerSettings) (goal : AdcTarget) :
    runOp .powerControlLoop ∉ (loopSettings s goal).instructions := by
  simp [loopSettings, Batch.instructions, Batch.instructionsOf]

/-- Settings for a live target set up a run of the loop and say what it regulates to, whatever
else is done before it. -/
theorem loops_run {is : List Instruction} (h : LoopsConfigured is) (s : PowerSettings)
    (hgoal : goal.adc ≠ 0) (js after : List Instruction)
    (hsilent : ∀ j ∈ js, LoopSetup.isTouchedBy j = false)
    (hafter : runOp .powerControlLoop ∉ after) :
    let all := is ++ ((loopSettings s goal).instructions ++ js) ++ runOp .powerControlLoop :: after
    LoopsConfigured all ∧ SettlesAt (some goal) all := by
  have hsetup : LoopSetup.written? ((loopSettings s goal).instructions ++ js) =
      some (.of s goal) := by
    rw [LoopSetup.written?_append_of_silent hsilent, LoopSetup.written?_loopSettings]
  have hrecent : runOp .powerControlLoop ∉ (loopSettings s goal).instructions ++ js := by
    rw [List.mem_append]
    rintro (hmem | hmem)
    · exact loop_notMem_loopSettings s goal hmem
    · exact absurd (hsilent _ hmem) (by decide)
  have hconfigured := (h.run hrecent hsetup hgoal).append_of_notMem hafter
  rw [List.append_assoc, List.singleton_append] at hconfigured
  exact ⟨hconfigured, .run hafter hsetup rfl rfl⟩

end Sequence

namespace Transmitter

open PowerSettings Sequence

/-- A ramp is set up by its first seven batches, and ends with two instructions. -/
theorem instructionsOf_rampBatches (t : Transmitter) (plan : RampPlan) :
    Batch.instructionsOf (t.rampBatches plan) =
      Batch.instructionsOf ((t.rampBatches plan).take 7) ++
        (if t.boosts plan.power then boostedRamp plan.power
          else rampAndControl plan.power).instructions ++ [runOp .rxRunSjc, exit] := by
  simp only [rampBatches, Batch.instructions, Batch.instructionsOf, List.take_succ_cons,
    List.take_zero, List.append_assoc, List.append_nil, List.cons_append, List.nil_append,
    cancelSelfJam]

/-- Setting up a ramp and ending it do not run the loop. -/
theorem exists_instructionsOf_rampBatches (t : Transmitter) (plan : RampPlan) :
    ∃ setUp, runOp .powerControlLoop ∉ setUp ∧
      Batch.instructionsOf (t.rampBatches plan) =
        setUp ++ (if t.boosts plan.power then boostedRamp plan.power
          else rampAndControl plan.power).instructions ++ [runOp .rxRunSjc, exit] := by
  refine ⟨_, ?_, t.instructionsOf_rampBatches plan⟩
  simp [rampBatches, Batch.instructions, Batch.instructionsOf, changePins, lockSynthesizer,
    fineGain, dwellTimers, Sequence.droop, coarseGain, writeThenRun]

/-- A ramp that is not boosted sets up its loop, if it runs one. -/
theorem loops_rampAndControl (s : PowerSettings) {setUp : List Instruction}
    (hsetUp : runOp .powerControlLoop ∉ setUp) :
    let is := setUp ++ (rampAndControl s).instructions ++ [runOp .rxRunSjc, exit]
    LoopsConfigured is ∧ SettlesAt s.adcTarget is := by
  intro is
  cases hgoal : live? s.adcTarget with
  | none =>
      have hnone : runOp .powerControlLoop ∉ is := by
        simp [is, instructions_rampAndControl_of_none hgoal, hsetUp]
      exact ⟨.of_notMem hnone, .of_notMem _ hnone⟩
  | some goal =>
      have his : is = setUp ++ [Sequence.write Register.dcOffset s.dcOffset] ++
          ((loopSettings s goal).instructions ++ [runOp .txRampUp]) ++
          runOp .powerControlLoop :: [runOp .rxRunSjc, exit] := by
        simp only [is, instructions_rampAndControl hgoal, List.append_assoc, List.cons_append,
          List.nil_append]
      have hstart : LoopsConfigured (setUp ++ [Sequence.write Register.dcOffset s.dcOffset]) := by
        apply LoopsConfigured.of_notMem
        simp [hsetUp]
      rw [his, (live?_eq_some hgoal).1]
      exact loops_run hstart s (live?_eq_some hgoal).2 _ _ (by simp [LoopSetup.isTouchedBy])
        (by simp)

/-- A boosted ramp sets up both of its loops if there is a target to settle at. -/
theorem loops_boostedRamp {s : PowerSettings} {boost goal : AdcTarget} {setUp : List Instruction}
    (hsetUp : runOp .powerControlLoop ∉ setUp) (hboost : live? s.boostTarget = some boost)
    (hgoal : live? s.adcTarget = some goal) :
    let is := setUp ++ (boostedRamp s).instructions ++ [runOp .rxRunSjc, exit]
    LoopsConfigured is ∧ SettlesAt s.adcTarget is := by
  intro is
  let hold := [Sequence.write Register.delayUs boostHoldUs, runOp .txRampUp, runOp .usTimerStart]
  let first := setUp ++ [Sequence.write Register.dcOffset s.dcOffset] ++
    ((loopSettings s boost).instructions ++ hold) ++ [runOp .powerControlLoop]
  have his : is = first ++ ((loopSettings s goal).instructions ++ [runOp .usTimerWait]) ++
      runOp .powerControlLoop :: [runOp .rxRunSjc, exit] := by
    simp only [is, first, hold, instructions_boostedRamp hboost, loopSettingsFor_of_live hgoal,
      List.append_assoc, List.cons_append, List.nil_append]
  have hstart : LoopsConfigured (setUp ++ [Sequence.write Register.dcOffset s.dcOffset]) := by
    apply LoopsConfigured.of_notMem
    simp [hsetUp]
  have hfirst : LoopsConfigured first :=
    (loops_run hstart s (live?_eq_some hboost).2 hold [] (by decide) (by simp)).1
  rw [his, (live?_eq_some hgoal).1]
  exact loops_run hfirst s (live?_eq_some hgoal).2 _ _ (by simp [LoopSetup.isTouchedBy]) (by simp)

/-- A boosted ramp without a target to settle at runs its second loop on the settings of the
first. -/
theorem not_loopsConfigured_boostedRamp {s : PowerSettings} {boost : AdcTarget}
    (hboost : live? s.boostTarget = some boost) (hnone : live? s.adcTarget = none)
    (setUp rest : List Instruction) :
    ¬ LoopsConfigured (setUp ++ (boostedRamp s).instructions ++ rest) := by
  have hsilent : ∀ i ∈ [runOp .usTimerWait], LoopSetup.isTouchedBy i = false := by decide
  have h := not_loopsConfigured (setUp ++ Sequence.write Register.dcOffset s.dcOffset ::
    ((loopSettings s boost).instructions ++
      [Sequence.write Register.delayUs boostHoldUs, runOp .txRampUp, runOp .usTimerStart]))
    rest hsilent
  rw [instructions_boostedRamp hboost, loopSettingsFor_of_none hnone]
  simpa only [Batch.instructions, Batch.instructionsOf, List.append_assoc, List.cons_append,
    List.nil_append] using h

/-- **Loops of a ramp**: every run of the power control loop has settings of its own and the last
one regulates to the plan's target, unless the ramp is boosted and the plan has no target to
settle at. -/
theorem rampBuffer_loops_iff (t : Transmitter) (plan : RampPlan) :
    ∃ b, t.rampBuffer plan = .ok b ∧
      ((LoopsConfigured b.instructions ∧ SettlesAt plan.power.adcTarget b.instructions) ↔
        (t.boosts plan.power → plan.power.isClosedLoop)) := by
  obtain ⟨b, hb, hholds⟩ := t.exists_rampBuffer plan
  obtain ⟨setUp, hsetUp, hlist⟩ := t.exists_instructionsOf_rampBatches plan
  refine ⟨b, hb, ?_⟩
  rw [hholds.instructions_eq, hlist]
  cases hboosts : t.boosts plan.power with
  | false =>
      have h := loops_rampAndControl plan.power hsetUp
      exact ⟨fun _ hfalse => (Bool.false_ne_true hfalse).elim, fun _ => h⟩
  | true =>
      obtain ⟨boost, hboost⟩ : ∃ boost, live? plan.power.boostTarget = some boost := by
        rw [boosts, Bool.and_eq_true] at hboosts
        exact Option.isSome_iff_exists.mp hboosts.2
      rw [if_pos rfl, isClosedLoop_iff]
      constructor
      · intro ⟨hconfigured, _⟩ _
        cases hgoal : live? plan.power.adcTarget with
        | none => exact absurd hconfigured (not_loopsConfigured_boostedRamp hboost hgoal _ _)
        | some goal => exact ⟨goal, rfl⟩
      · intro h
        obtain ⟨goal, hgoal⟩ := h rfl
        exact loops_boostedRamp hsetUp hboost hgoal

/-- An uncalibrated transmitter and a plan with a boost target alone: the second loop of the ramp
has no settings of its own. -/
theorem not_loopsConfigured_boost_alone :
    let t : Transmitter :=
      { calibration :=
          { version := .notFound, customerVersion := 0xFF, params := .uncalibrated,
            tables := .standard, filter := {}, drmOffsets := [], otherOffsets := [] }
        region := .start .plain [] 24000 [1]
        board := {} }
    let plan : RampPlan :=
      { antenna := 1, mode := 103, cdbm := 2500, temperatureAdc := none, band := .upperBand
        khz := 902750, synthesizer := ⟨902750, 0, 3611⟩, pins := {}, timers := .disabled
        power := { PowerSettings.openLoop 2500 with boostTarget := some ⟨1000, .lo1⟩ } }
    ∃ b, t.rampBuffer plan = .ok b ∧ ¬ LoopsConfigured b.instructions := by
  intro t plan
  obtain ⟨b, hb, hholds⟩ := t.exists_rampBuffer plan
  obtain ⟨setUp, -, hlist⟩ := t.exists_instructionsOf_rampBatches plan
  have hboosts : t.boosts plan.power = true := rfl
  refine ⟨b, hb, ?_⟩
  rw [hholds.instructions_eq, hlist, hboosts, if_pos rfl]
  have hboost : PowerSettings.live? plan.power.boostTarget = some ⟨1000, .lo1⟩ := rfl
  exact not_loopsConfigured_boostedRamp hboost rfl setUp _

end Transmitter
end RfidReader
