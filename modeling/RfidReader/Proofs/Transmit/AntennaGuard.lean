import RfidReader.Calibration.Sample
import RfidReader.Proofs.Cursor
import RfidReader.Proofs.Transmit.RampContract
import RfidReader.Transmit.AntennaGuard

/-!
# RfidReader.Proofs.Transmit.AntennaGuard

What the guard for a missing antenna does on the bus.

A measurement that succeeds was completed by the chip and read from the slot of
its detector (`Measures`).  The check passes exactly for a measurement below the
threshold; after anything else the transmitter is shut down.  Shutting down
waits for what is running to be aborted before it turns the carrier off, so where
that wait fails the carrier is left as it is (`ShutsDown`).
-/

namespace RfidReader

/-! ## Transfers -/

namespace BusEvent

/-- A write that the bus refuses. -/
def RefusesWrite : BusEvent → Prop
  | .write _ _ (.error _) => True
  | _ => False

instance : DecidablePred RefusesWrite
  | .write _ _ (.error _) => isTrue trivial
  | .write _ _ (.ok _) | .read _ _ _ | .delay _ => isFalse id

instance (op : Op) : DecidablePred (Starts op)
  | .write _ _ _ => inferInstanceAs (Decidable (_ ∧ _))
  | .read _ _ _ | .delay _ => isFalse id

/-- The write that starts an operation, taken by the bus. -/
def start (op : Op) : BusEvent :=
  .write Register.opsControl.address (Register.opsControl.encode op.code) (.ok ())

theorem starts_start (op : Op) : (start op).Starts op := by
  cases op <;> exact ⟨rfl, rfl⟩

theorem not_starts_of_waits {op : Op} {e : BusEvent} (h : Device.Waits e) : ¬ e.Starts op := by
  cases h <;> exact id

end BusEvent

/-- Nothing is refused on a bus that takes every write. -/
theorem BusProgram.not_refusesWrite {α β : Type} {bus : Bus β}
    (h : ∀ address data chip, (bus.write address data chip).1 = .ok ()) (p : BusProgram α)
    (chip : β) : ∀ e ∈ p.events bus chip, ¬ e.RefusesWrite := by
  induction p generalizing chip with
  | done => simp [events]
  | read address length next ih => exact List.forall_mem_cons.mpr ⟨id, ih _ _⟩
  | write address data next ih =>
      have htaken : ¬ (BusEvent.write address data (.ok ())).RefusesWrite := id
      rw [← h address data chip] at htaken
      exact List.forall_mem_cons.mpr ⟨htaken, ih _ _⟩
  | delay us next ih => exact List.forall_mem_cons.mpr ⟨id, ih _⟩

/-! ## Measuring -/

namespace Device

variable {β : Type}

/-- Transfers that sample a converter slot and read it. -/
def Measures (channel : AuxChannel) (reading : UInt16) (events : List BusEvent) : Prop :=
  ∃ run bytes,
    events = .write Register.auxControl.address
        (Register.auxControl.encode (channel.enableBits 1)) (.ok ()) ::
      (run ++ [.read (Register.auxResultsAddress + UInt16.ofNat (2 * channel.index)) 2
        (.ok bytes)]) ∧
    Completes .measureAdc run ∧ Word.decode bytes = reading

theorem events_write {address : UInt16} {data : List UInt8} {bus : Bus β} {d : Device} {chip : β}
    {u : Unit} (h : ((write address data).outcome bus d chip).result = .ok u) :
    ((write address data).outcome bus d chip).events = [.write address data (.ok ())] := by
  rw [DeviceM.outcome_write] at h ⊢
  cases hanswer : (bus.write address data chip).1 with
  | error error =>
      rw [hanswer] at h
      contradiction
  | ok _ => rfl

theorem events_read {address : UInt16} {length : Nat} {bus : Bus β} {d : Device} {chip : β}
    {bytes : Vector UInt8 length}
    (h : ((read address length).outcome bus d chip).result = .ok bytes) :
    ((read address length).outcome bus d chip).events =
      [.read address length (.ok bytes.toList)] := by
  rw [DeviceM.outcome_read] at h ⊢
  cases hanswer : (bus.read address length chip).1 with
  | error error =>
      rw [hanswer] at h
      contradiction
  | ok answer =>
      rw [hanswer] at h
      obtain rfl : answer = bytes := Except.ok.inj h
      rfl

/-- Sampling one slot reads one word. -/
theorem measureAux_one (channel : AuxChannel) :
    measureAux channel 1 = (do
      writeRegister Register.auxControl (channel.enableBits 1)
      let _ ← runOp .measureAdc
      let bytes ← read (Register.auxResultsAddress + UInt16.ofNat (2 * channel.index)) 2
      pure [Word.decode bytes.toList]) := by
  have hone : channel.available 1 = 1 := by cases channel <;> rfl
  have hword (bs : List UInt8) :
      (Cursor.runAt (Cursor.words UInt16 1) bs 0).toList = [Word.decode bs] := by
    simp [Cursor.runAt, Vector.toList_ofFn]
  unfold measureAux
  rw [hone]
  simp only [hword]

/-- A measurement of one slot that succeeds was completed and read. -/
theorem exists_reading {channel : AuxChannel} {readings : List UInt16} {bus : Bus β} {d : Device}
    {chip : β} (h : ((measureAux channel 1).outcome bus d chip).result = .ok readings) :
    ∃ m, readings = [m] ∧
      Measures channel m ((measureAux channel 1).outcome bus d chip).events := by
  rw [measureAux_one] at h ⊢
  obtain ⟨_, d₁, chip₁, hselect, h, hevents⟩ := DeviceM.exists_of_bind_ok h
  obtain ⟨_, d₂, chip₂, hrun, h, hevents₁⟩ := DeviceM.exists_of_bind_ok h
  obtain ⟨bytes, d₃, chip₃, hread, h, hevents₂⟩ := DeviceM.exists_of_bind_ok h
  have hcompletes : Completes .measureAdc ((runOp .measureAdc).outcome bus d₁ chip₁).events :=
    (runOp_isOk_iff bus .measureAdc d₁ chip₁).mp (by rw [hrun]; rfl)
  refine ⟨_, (Except.ok.inj h).symm, _, bytes.toList, ?_, hcompletes, rfl⟩
  rw [hevents, hevents₁, hevents₂, events_read hread]
  have hwrite := events_write hselect
  exact congrArg (· ++ _) hwrite

/-- An operation that is started without a refusal is started before anything else. -/
theorem exists_startOp {op : Op} {γ : Type} {f : Unit → DeviceM γ} {bus : Bus β} {d : Device}
    {chip : β}
    (h : ∀ e ∈ ((startOp op >>= f).outcome bus d chip).events, ¬ e.RefusesWrite) :
    ∃ chip', (startOp op >>= f).outcome bus d chip =
      ((f ()).outcome bus d chip').behind [.start op] := by
  rw [DeviceM.outcome_bind] at h ⊢
  have hstart : (startOp op).outcome bus d chip = _ := DeviceM.outcome_write bus d chip _ _
  rw [hstart] at h ⊢
  generalize bus.write _ _ chip = answer at h ⊢
  obtain ⟨answer, after⟩ := answer
  cases answer with
  | error error => exact absurd trivial (h _ (List.mem_singleton_self _))
  | ok _ =>
      rw [Outcome.andThen_ok rfl]
      exact ⟨_, rfl⟩

end Device

/-! ## Shutting down -/

/-- What goes over the bus when the transmitter is shut down. -/
inductive ShutsDown : List BusEvent → Prop where
  /-- What was running is not seen to be aborted, and the carrier is left as it is. -/
  | stuck {waits : List BusEvent} (hwaits : ∀ e ∈ waits, Device.Waits e)
      (hstuck : ¬ Device.Finishes waits) : ShutsDown (.start .idle :: waits)
  /-- What was running is aborted, and then the carrier is turned off. -/
  | down {waits after : List BusEvent} (hwaits : ∀ e ∈ waits, Device.Waits e)
      (hfinishes : Device.Finishes waits) (hafter : ∀ e ∈ after, Device.Waits e) :
      ShutsDown (.start .idle :: (waits ++ .start .txRampDown :: after))

/-- The carrier is turned off exactly where what was running is seen to be aborted. -/
theorem ShutsDown.starts_txRampDown_iff {down : List BusEvent} (h : ShutsDown down) :
    (∃ e ∈ down, e.Starts .txRampDown) ↔ ∃ waits after,
      down = .start .idle :: (waits ++ .start .txRampDown :: after) ∧ Device.Finishes waits := by
  constructor
  · rintro ⟨e, he, hstarts⟩
    cases h with
    | down _ hfinishes _ => exact ⟨_, _, rfl, hfinishes⟩
    | stuck hwaits _ =>
        rcases List.mem_cons.mp he with rfl | he
        · exact absurd hstarts (by decide)
        · exact absurd hstarts (BusEvent.not_starts_of_waits (hwaits e he))
  · rintro ⟨waits, after, rfl, -⟩
    exact ⟨_, by simp, BusEvent.starts_start .txRampDown⟩

namespace Transmitter

variable {β : Type} {bus : Bus β} {d : Device} {chip : β}

/-- Turning the carrier off and waiting for it. -/
theorem exists_rampDown
    (h : ∀ e ∈ ((rampDown >>= fun _ => Device.wait >>= fun _ => pure ()).outcome bus d chip).events,
      ¬ e.RefusesWrite) :
    ∃ after, (∀ e ∈ after, Device.Waits e) ∧
      ((rampDown >>= fun _ => Device.wait >>= fun _ => pure ()).outcome bus d chip).events =
        .start .txRampDown :: after := by
  obtain ⟨chip', hdown⟩ := Device.exists_startOp h
  have hafter : DeviceM.Puts Device.Waits (Device.wait >>= fun _ => Pure.pure ()) :=
    .bind Device.puts_wait fun _ => .pure ()
  exact ⟨_, hafter β bus d chip', congrArg Outcome.events hdown⟩

/-- Shutting down goes one of two ways, unless a write is refused. -/
theorem shutsDown (h : ∀ e ∈ (shutDown.outcome bus d chip).events, ¬ e.RefusesWrite) :
    ShutsDown (shutDown.outcome bus d chip).events := by
  obtain ⟨chip₁, hidle⟩ := Device.exists_startOp h
  have hshut : shutDown.outcome bus d chip = _ := hidle
  rw [hshut, DeviceM.outcome_bind] at h ⊢
  have hwaits := Device.puts_wait β bus d chip₁
  have hfinishes := Device.wait_isOk_iff bus d chip₁
  generalize Device.wait.outcome bus d chip₁ = waited at h hwaits hfinishes ⊢
  cases hresult : waited.result with
  | error error =>
      rw [Outcome.andThen_error hresult]
      have hstuck : ¬ Device.Finishes waited.events := by
        rw [← hfinishes, hresult]
        exact Bool.false_ne_true
      exact .stuck hwaits hstuck
  | ok _ =>
      rw [Outcome.andThen_ok hresult] at h ⊢
      rw [hresult] at hfinishes
      obtain ⟨after, hafter, hevents⟩ := exists_rampDown fun e he =>
        h e (List.mem_cons_of_mem _ (List.mem_append_right waited.events he))
      show ShutsDown (.start .idle :: (waited.events ++ _))
      rw [hevents]
      exact .down hwaits (hfinishes.mp rfl) hafter

end Transmitter

namespace AntennaGuard

variable {β : Type} {bus : Bus β} {g : AntennaGuard} {context : RampContext} {target : AdcTarget}
  {d : Device} {chip : β}

/-! ## Checking -/

/-- What is put on the bus to measure the power of a target's detector. -/
abbrev measurement (target : AdcTarget) (bus : Bus β) (d : Device) (chip : β) :
    Outcome Unit β (List UInt16) :=
  (Device.measureAux target.detector.channel 1).outcome bus d chip

/-- The target for the reflected power that counts as a missing antenna. -/
def target? (g : AntennaGuard) (context : RampContext) : Option AdcTarget :=
  context.calibration.reversePowerToAdc (g.thresholdCdbm context.plan.cdbm)
    context.plan.conditions

/-- A supported calibration has one. -/
theorem exists_target (g : AntennaGuard) (h : context.calibration.isSupported = true) :
    ∃ target, g.target? context = some target := by
  simp [target?, Calibration.reversePowerToAdc, Calibration.band?, h]

theorem outcome_check (h : g.target? context = some target) :
    (check context).outcome bus g d chip =
      (measurement target bus d chip).resume g fun readings d chip =>
        match readings with
        | [] => ⟨.error (.host .noReversePower), g, d, chip, []⟩
        | m :: _ => ⟨.ok (decide (target.adc ≤ m)),
            { g with lastThreshold := target.adc, lastMeasurement := m }, d, chip, []⟩ := by
  unfold check
  rw [HostM.outcome_getThen]
  unfold target? at h
  simp only [h]
  rw [HostM.outcome_liftThen]
  refine Outcome.resume_congr fun readings d chip => ?_
  cases readings <;> rfl

/-- Nothing follows a check that passes. -/
theorem outcome_afterRamp_of_passed {checked : Outcome AntennaGuard β Bool}
    (hchecked : (check context).outcome bus g d chip = checked)
    (hpassed : checked.result = .ok false) :
    (afterRamp context).outcome bus g d chip =
      ⟨.ok (), checked.host, checked.device, checked.chip, checked.events⟩ := by
  unfold afterRamp
  rw [HostM.outcome_bind, HostM.outcome_attempt, Outcome.andThen_ok rfl, hchecked, hpassed]
  exact Outcome.behind_nil ..

/-- Shutting down follows any other, and the end is an error: that of the check if there is one. -/
theorem exists_outcome_afterRamp {checked : Outcome AntennaGuard β Bool}
    (hchecked : (check context).outcome bus g d chip = checked)
    (hfailed : checked.result ≠ .ok false) :
    ∃ error device chip', (∀ e, checked.result = .error e → error = e) ∧
      (afterRamp context).outcome bus g d chip =
        ⟨.error error, checked.host, device, chip', checked.events ++
          (Transmitter.shutDown.outcome bus checked.device checked.chip).events⟩ := by
  unfold afterRamp
  rw [HostM.outcome_bind, HostM.outcome_attempt, Outcome.andThen_ok rfl, hchecked]
  cases hresult : checked.result with
  | error error =>
      show ∃ error device chip', _ ∧
        Outcome.behind (HostM.outcome (_ >>= _) bus _ _ _) _ = _
      rw [HostM.outcome_bind, HostM.outcome_attempt, HostM.outcome_lift, Outcome.andThen_ok rfl]
      exact ⟨error, _, _, fun e he => Except.error.inj he,
        congrArg (Outcome.behind · checked.events) (Outcome.behind_nil ..)⟩
  | ok above =>
      obtain rfl : above = true := by
        cases above
        · exact absurd hresult hfailed
        · rfl
      show ∃ error device chip', _ ∧
        Outcome.behind (HostM.outcome (_ >>= _) bus _ _ _) _ = _
      rw [HostM.outcome_liftThen]
      generalize Transmitter.shutDown.outcome bus checked.device checked.chip = down
      cases hdown : down.result with
      | error error =>
          rw [Outcome.resume_error hdown]
          exact ⟨error, _, _, nofun, rfl⟩
      | ok _ =>
          rw [Outcome.resume_ok hdown]
          exact ⟨_, _, _, nofun,
            congrArg (Outcome.behind · checked.events) (Outcome.behind_nil ..)⟩

/-- What the guard does after a ramp, in terms of how the measurement went. -/
structure Contract {β : Type} (g : AntennaGuard) (target : AdcTarget)
    (measured : Outcome Unit β (List UInt16)) (o : Outcome AntennaGuard β Unit) : Prop where
  /-- The check passes exactly for a measurement below the threshold. -/
  passes_iff : o.result = .ok () ↔ ∃ m, measured.result = .ok [m] ∧ m < target.adc
  /-- A measurement was completed by the chip and read from the target's detector. -/
  measures : ∀ readings, measured.result = .ok readings →
    ∃ m, readings = [m] ∧ Device.Measures target.detector.channel m measured.events ∧
      o.host = { g with lastThreshold := target.adc, lastMeasurement := m }
  /-- A failed measurement is reported, whatever shutting down comes to. -/
  reports : ∀ error, measured.result = .error error → o.result = .error error
  /-- A check that passes is the measurement. -/
  quiet : o.result = .ok () → o.events = measured.events
  /-- After any other the transmitter is shut down. -/
  shutsDown : ∀ error, o.result = .error error →
    ∃ down, o.events = measured.events ++ down ∧ ShutsDown down

namespace Contract

variable {measured : Outcome Unit β (List UInt16)} {m : UInt16} {error : HostError}
  {down : List BusEvent}

/-- The measurement fails. -/
theorem of_failed (hmeasured : measured.result = .error error) (hdown : ShutsDown down) :
    Contract g target measured ⟨.error error, g, d, chip, measured.events ++ down⟩ where
  passes_iff := by simp [hmeasured]
  measures := by simp [hmeasured]
  reports := by simp [hmeasured]
  quiet h := nomatch h
  shutsDown _ _ := ⟨down, rfl, hdown⟩

/-- The threshold is not reached. -/
theorem of_below (hmeasured : measured.result = .ok [m])
    (hmeasures : Device.Measures target.detector.channel m measured.events)
    (hbelow : m < target.adc) :
    Contract g target measured
      ⟨.ok (), { g with lastThreshold := target.adc, lastMeasurement := m }, d, chip,
        measured.events⟩ where
  passes_iff := by simp [hmeasured, hbelow]
  measures := by simp [hmeasured, hmeasures]
  reports := by simp [hmeasured]
  quiet _ := rfl
  shutsDown _ h := nomatch h

/-- The threshold is reached. -/
theorem of_reached (hmeasured : measured.result = .ok [m])
    (hmeasures : Device.Measures target.detector.channel m measured.events)
    (hreached : ¬ m < target.adc) (hdown : ShutsDown down) :
    Contract g target measured
      ⟨.error error, { g with lastThreshold := target.adc, lastMeasurement := m }, d, chip,
        measured.events ++ down⟩ where
  passes_iff := by simp [hmeasured, hreached]
  measures := by simp [hmeasured, hmeasures]
  reports := by simp [hmeasured]
  quiet h := nomatch h
  shutsDown _ _ := ⟨down, rfl, hdown⟩

end Contract

/-- **Contract of the guard**: with a supported calibration it is kept unless a write is refused. -/
theorem afterRamp_contract (bus : Bus β) (g : AntennaGuard) (context : RampContext) (d : Device)
    (chip : β) (hsupported : context.calibration.isSupported = true)
    (hwrites : ∀ e ∈ ((afterRamp context).outcome bus g d chip).events, ¬ e.RefusesWrite) :
    ∃ target, g.target? context = some target ∧
      Contract g target (measurement target bus d chip)
        ((afterRamp context).outcome bus g d chip) := by
  obtain ⟨target, htarget⟩ := exists_target g hsupported
  refine ⟨target, htarget, ?_⟩
  have hchecked : (check context).outcome bus g d chip = _ := outcome_check htarget
  cases hresult : (measurement target bus d chip).result with
  | error error =>
      rw [Outcome.resume_error hresult] at hchecked
      obtain ⟨_, _, _, herror, hguard⟩ := exists_outcome_afterRamp hchecked nofun
      rw [hguard] at hwrites ⊢
      obtain rfl := herror error rfl
      exact .of_failed hresult (Transmitter.shutsDown fun e he =>
        hwrites e (List.mem_append_right _ he))
  | ok readings =>
      obtain ⟨m, rfl, hmeasures⟩ := Device.exists_reading hresult
      rw [Outcome.resume_ok hresult, Outcome.behind_nil] at hchecked
      by_cases hbelow : m < target.adc
      · have hpassed : decide (target.adc ≤ m) = false := by simpa using hbelow
        rw [outcome_afterRamp_of_passed hchecked (congrArg Except.ok hpassed)]
        exact .of_below hresult hmeasures hbelow
      · have hfailed : decide (target.adc ≤ m) = true := by simpa using hbelow
        obtain ⟨_, _, _, -, hguard⟩ := exists_outcome_afterRamp hchecked (by simp [hfailed])
        rw [hguard] at hwrites ⊢
        exact .of_reached hresult hmeasures hbelow (Transmitter.shutsDown fun e he =>
          hwrites e (List.mem_append_right _ he))

/-! ## Samples -/

/-- A ramp at 25 dBm. -/
def sampleRamp (calibration : Calibration) : RampContext where
  plan :=
    { antenna := 1, mode := 103, cdbm := 2500, temperatureAdc := none, band := .upperBand,
      khz := 915000, synthesizer := ⟨915000, 1, 7320⟩, pins := {}, power := .openLoop 2500,
      timers := {} }
  calibration
  index := 0
  khz := 915000

/-- A bus that takes every write, and answers a read with one byte, by its address. -/
def sampleBus (byte : UInt16 → UInt8) : Bus Unit where
  read address length chip := (.ok (.replicate length (byte address)), chip)
  write _ _ chip := (.ok (), chip)
  delay _ chip := chip

set_option maxRecDepth 20000 in
/-- At 25 dBm the sample calibration puts the threshold at 1449.  A full-scale reading is not below
it, and the transmitter is shut down. -/
theorem afterRamp_contract_disconnected :
    ∃ c ∈ Calibration.ofBytes? Calibration.Sample.image, c.isSupported = true ∧
      let statusOk address := if address = Register.opsStatus.address then 0 else 0xFF
      let o := (afterRamp (sampleRamp c)).outcome (sampleBus statusOk) (.ofBoard {}) {} ()
      ∃ error measuring down, o.result = .error error ∧ o.events = measuring ++ down ∧
        Device.Measures PowerDetector.rx2.channel 0xFFFF measuring ∧ ShutsDown down := by
  have h : (Calibration.ofBytes? Calibration.Sample.image).any (fun c => c.isSupported = true ∧
      target? (.ofBoard {}) (sampleRamp c) = some ⟨1449, .rx2⟩) = true := by
    decide +kernel
  simp only [Option.any_eq_true, decide_eq_true_eq] at h
  obtain ⟨c, hc, hsupported, hthreshold⟩ := h
  refine ⟨c, hc, hsupported, ?_⟩
  intro statusOk o
  have hwrites : ∀ e ∈ o.events, ¬ e.RefusesWrite :=
    BusProgram.not_refusesWrite (fun _ _ _ => rfl) _ ()
  obtain ⟨target, htarget, hcontract⟩ :=
    afterRamp_contract _ (.ofBoard {}) (sampleRamp c) {} () hsupported hwrites
  obtain rfl : ⟨1449, .rx2⟩ = target := Option.some.inj (hthreshold.symm.trans htarget)
  have hreadings : (measurement ⟨1449, .rx2⟩ (sampleBus statusOk) {} ()).result.toOption =
      some [0xFFFF] := by decide +kernel
  generalize measurement ⟨1449, .rx2⟩ (sampleBus statusOk) {} () = measured at hreadings hcontract
  have hmeasured : measured.result = .ok [0xFFFF] := by
    cases hresult : measured.result <;> simp_all [Except.toOption]
  obtain ⟨m, hm, hmeasures, -⟩ := hcontract.measures _ hmeasured
  obtain rfl : 0xFFFF = m := (List.cons.inj hm).1
  have hfails : ¬ o.result = .ok () := by
    simp [o, hcontract.passes_iff, hmeasured]
  cases hresult : o.result with
  | ok _ => exact absurd hresult hfails
  | error error =>
      obtain ⟨down, hevents, hdown⟩ := hcontract.shutsDown error hresult
      exact ⟨error, _, down, rfl, hevents, hmeasures, hdown⟩

set_option maxRecDepth 20000 in
/-- Every operation fails: the guard reports an error and never turns the carrier off. -/
theorem afterRamp_stuck :
    ∃ c ∈ Calibration.ofBytes? Calibration.Sample.image, c.isSupported = true ∧
      let o := (afterRamp (sampleRamp c)).outcome (sampleBus fun _ => 2) (.ofBoard {}) {} ()
      (∀ e ∈ o.events, ¬ e.RefusesWrite) ∧ o.result.isOk = false ∧
        ∀ e ∈ o.events, ¬ e.Starts .txRampDown := by
  have h : (Calibration.ofBytes? Calibration.Sample.image).any (fun c => c.isSupported = true ∧
      let o := (afterRamp (sampleRamp c)).outcome (sampleBus fun _ => 2) (.ofBoard {}) {} ()
      (∀ e ∈ o.events, ¬ e.RefusesWrite) ∧ o.result.isOk = false ∧
        ∀ e ∈ o.events, ¬ e.Starts .txRampDown) = true := by
    decide +kernel
  simp only [Option.any_eq_true, decide_eq_true_eq] at h
  exact h

end AntennaGuard
end RfidReader
