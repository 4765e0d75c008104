import RfidReader.Proofs.Device.Refusals
import RfidReader.Proofs.Hopping.Switching
import RfidReader.Proofs.Register.RoundTrip
import RfidReader.Proofs.Transmit.Rounds
import RfidReader.Transmit.Timing

/-!
# RfidReader.Proofs.Transmit.AllOrNothing

What the host remembers when a call fails.

A procedure of a transmitter is `AllOrNothing` if it leaves the transmitter as
it was where it fails, has written nothing where it refuses a parameter, and
remembers the droop compensation that the chip took last.  The calls that change
what the host remembers, or prepare a ramp from it, are all of this kind
(`allOrNothing_perform`), so a series of them, failed ones included, leaves the
droop compensation that the chip took last in it (`droop_performAll`).
-/

namespace RfidReader

open DeviceM

/-! ## Transfers -/

/-- Whether a transfer is a write. -/
def BusEvent.isWrite : BusEvent → Bool
  | .write _ _ _ => true
  | _ => false

/-- The droop compensation that a transfer gives the chip, if it is such a write and succeeds. -/
def BusEvent.droop? : BusEvent → Option DroopCompensation
  | .write address data (.ok ()) =>
    if address = Register.droop.address then Register.droop.decode? data else none
  | _ => none

/-- The droop compensation that the chip was given last. -/
def lastDroop? (events : List BusEvent) : Option DroopCompensation :=
  (events.filterMap BusEvent.droop?).getLast?

theorem BusEvent.droop?_of_not_isWrite {e : BusEvent} (h : e.isWrite = false) : e.droop? = none := by
  cases e with
  | write => contradiction
  | read | delay => rfl

theorem BusEvent.droop?_write_of_ne {address : UInt16} (h : address ≠ Register.droop.address)
    (data : List UInt8) (answer : Except BusError Unit) :
    (BusEvent.write address data answer).droop? = none := by
  cases answer with
  | error => rfl
  | ok _ => exact if_neg h

/-- Droop compensation that was written is read back. -/
theorem BusEvent.droop?_write (droop : DroopCompensation) :
    (BusEvent.write Register.droop.address (Register.droop.encode droop) (.ok ())).droop? =
      some droop := by
  rw [droop?, if_pos rfl]
  exact Register.droopLayout.decode?_encode DroopCompensation.exact_fields droop

theorem lastDroop?_of_forall {events : List BusEvent} (h : ∀ e ∈ events, e.droop? = none) :
    lastDroop? events = none := by
  rw [lastDroop?, List.filterMap_eq_nil_iff.mpr h]
  rfl

theorem lastDroop?_singleton (e : BusEvent) : lastDroop? [e] = e.droop? := by
  rw [lastDroop?, List.filterMap_cons]
  cases e.droop? <;> rfl

/-- What was given later counts. -/
theorem getD_lastDroop?_append (before after : List BusEvent) (droop : DroopCompensation) :
    (lastDroop? (before ++ after)).getD droop =
      (lastDroop? after).getD ((lastDroop? before).getD droop) := by
  rw [lastDroop?, lastDroop?, lastDroop?, List.filterMap_append, List.getLast?_append]
  cases (after.filterMap BusEvent.droop?).getLast? <;> rfl

/-! ## Procedures on the chip -/

namespace Device

theorem putsNoDroop_wait : Puts (·.droop? = none) wait :=
  puts_wait.mono fun e he => by cases he <;> rfl

theorem putsNoDroop_runOp (op : Op) : Puts (·.droop? = none) (runOp op) :=
  (puts_write fun _ => BusEvent.droop?_write_of_ne (by decide) _ _).bind fun _ => putsNoDroop_wait

theorem putsNoDroop_measureTemperature : Puts (·.droop? = none) measureTemperature := by
  have hmeasure : Puts (·.droop? = none) (measureAux .temperature 1) :=
    (puts_write fun _ => BusEvent.droop?_write_of_ne (by decide) _ _).bind fun _ =>
      (putsNoDroop_runOp _).bind fun _ => (puts_read fun _ => rfl).bind fun _ => .pure _
  refine hmeasure.bind fun readings => ?_
  cases readings with
  | nil => exact .throw _
  | cons reading _ => exact .pure reading

end Device

/-! ## Procedures of a transmitter -/

/-- What is left of a transmitter where a procedure has come to its end. -/
structure Outcome.AllOrNothing {β α : Type} (t : Transmitter) (o : Outcome Transmitter β α) :
    Prop where
  unchanged {error : HostError} (h : o.result = .error error) : o.host = t
  silent {error : HostError} (h : o.result = .error error) (hrefusal : error.IsRefusal) :
    ∀ e ∈ o.events, e.isWrite = false
  droop_eq : o.host.droop = (lastDroop? o.events).getD t.droop

namespace Transmitter

variable {α γ : Type}

/-- A procedure leaves the transmitter as it was where it fails, writes nothing where it refuses a
parameter, and remembers the droop compensation that the chip took last. -/
def AllOrNothing (x : TransmitterM α) : Prop :=
  ∀ (β : Type) (bus : Bus β) (t : Transmitter) (d : Device) (chip : β),
    (x.outcome bus t d chip).AllOrNothing t

/-- A procedure that does its work on the host, does not fail, and leaves droop compensation
alone. -/
def Notes (x : TransmitterM α) : Prop :=
  ∀ (β : Type) (bus : Bus β) (t : Transmitter) (d : Device) (chip : β),
    let o := x.outcome bus t d chip
    o.result.isOk = true ∧ o.events = [] ∧ o.host.droop = t.droop

theorem Notes.ne_error {x : TransmitterM α} (hx : Notes x) {β : Type} {bus : Bus β}
    {t : Transmitter} {d : Device} {chip : β} {error : HostError} :
    (x.outcome bus t d chip).result ≠ .error error := by
  intro h
  have hok := (hx β bus t d chip).1
  rw [h] at hok
  contradiction

namespace AllOrNothing

theorem pure (a : α) : AllOrNothing (Pure.pure a : TransmitterM α) :=
  fun _ _ _ _ _ => ⟨nofun, nofun, rfl⟩

theorem throw (error : HostError) : AllOrNothing (MonadExcept.throw error : TransmitterM α) :=
  fun _ _ _ _ _ => ⟨fun _ => rfl, fun _ _ => nofun, rfl⟩

theorem of_notes {x : TransmitterM α} (hx : Notes x) : AllOrNothing x := by
  intro β bus t d chip
  obtain ⟨-, hevents, hdroop⟩ := hx β bus t d chip
  refine ⟨fun h => absurd h hx.ne_error, fun h => absurd h hx.ne_error, ?_⟩
  rw [hevents]
  exact hdroop

theorem get {f : Transmitter → TransmitterM α} (hf : ∀ t, AllOrNothing (f t)) :
    AllOrNothing (MonadState.get >>= f) := by
  intro β bus t d chip
  rw [HostM.outcome_getThen]
  exact hf t β bus t d chip

/-- Reading from the chip comes before the rest. -/
theorem read {x : DeviceM γ} {f : γ → TransmitterM α} (hx : Puts (·.isWrite = false) x)
    (hf : ∀ c, AllOrNothing (f c)) : AllOrNothing (liftM x >>= f) := by
  intro β bus t d chip
  have hreads := hx β bus d chip
  have hdroop : lastDroop? (x.outcome bus d chip).events = none :=
    lastDroop?_of_forall fun e he => BusEvent.droop?_of_not_isWrite (hreads e he)
  rw [HostM.outcome_liftThen]
  cases h : (x.outcome bus d chip).result with
  | error error =>
      rw [Outcome.resume_error h]
      refine ⟨fun _ => rfl, fun _ _ => hreads, ?_⟩
      rw [hdroop]
      rfl
  | ok c =>
      rw [Outcome.resume_ok h]
      have hrest := hf c β bus t (x.outcome bus d chip).device (x.outcome bus d chip).chip
      refine ⟨hrest.unchanged, fun herror hrefusal e he => ?_, ?_⟩
      · rcases List.mem_append.mp he with he | he
        · exact hreads e he
        · exact hrest.silent herror hrefusal e he
      · rw [Outcome.behind, getD_lastDroop?_append, hdroop]
        exact hrest.droop_eq

/-- Work on the chip that has nothing to do with droop compensation. -/
theorem lift {x : DeviceM α} (hx : Puts (·.droop? = none) x) (hrefuses : NeverRefuses x) :
    AllOrNothing (liftM x) := by
  intro β bus t d chip
  rw [HostM.outcome_lift]
  refine ⟨fun _ => rfl, fun h hrefusal => absurd hrefusal (hrefuses β bus d chip _ h), ?_⟩
  have hdroop := lastDroop?_of_forall (hx β bus d chip)
  show t.droop = (lastDroop? (x.outcome bus d chip).events).getD t.droop
  rw [hdroop]
  rfl

/-- Notes come behind what has succeeded. -/
theorem andThen {x : TransmitterM γ} {f : γ → TransmitterM α} (hx : AllOrNothing x)
    (hf : ∀ c, Notes (f c)) : AllOrNothing (x >>= f) := by
  intro β bus t d chip
  have hfirst := hx β bus t d chip
  rw [HostM.outcome_bind]
  cases h : (x.outcome bus t d chip).result with
  | error error =>
      rw [Outcome.andThen_error h]
      refine ⟨fun _ => hfirst.unchanged h, fun herror => ?_, hfirst.droop_eq⟩
      cases herror
      exact hfirst.silent h
  | ok c =>
      rw [Outcome.andThen_ok h]
      obtain ⟨-, hevents, hdroop⟩ := hf c β bus (x.outcome bus t d chip).host
        (x.outcome bus t d chip).device (x.outcome bus t d chip).chip
      refine ⟨fun herror => absurd herror (hf c).ne_error,
        fun herror => absurd herror (hf c).ne_error, ?_⟩
      rw [Outcome.behind, hevents, List.append_nil]
      exact hdroop.trans hfirst.droop_eq

/-- Droop compensation is remembered once the chip has taken it. -/
theorem applyDroop (droop : DroopCompensation) : AllOrNothing (Transmitter.applyDroop droop) := by
  intro β bus t d chip
  rw [Transmitter.applyDroop, HostM.outcome_liftThen, Device.writeRegister, outcome_write]
  cases bus.write Register.droop.address (Register.droop.encode droop) chip with
  | mk answer chip =>
      cases answer with
      | error error =>
          refine ⟨fun _ => rfl, fun h hrefusal => ?_, rfl⟩
          cases (h : Except.error (HostError.bus error) = .error _)
          exact hrefusal.elim
      | ok _ =>
          refine ⟨nofun, nofun, ?_⟩
          show droop = (lastDroop? [_]).getD t.droop
          rw [lastDroop?_singleton, BusEvent.droop?_write]
          rfl

end AllOrNothing

/-! ## The calls -/

theorem allOrNothing_enableDroop (intervalMs stepCdb : UInt8) :
    AllOrNothing (enableDroop intervalMs stepCdb) := by
  unfold enableDroop
  by_cases hinterval : intervalMs < 10 ∨ 40 < intervalMs
  · rw [if_pos hinterval]
    exact .throw _
  · rw [if_neg hinterval]
    by_cases hstep : stepCdb < 5 ∨ 15 < stepCdb
    · rw [if_pos hstep]
      exact .throw _
    · rw [if_neg hstep]
      exact .applyDroop _

theorem allOrNothing_disableDroop : AllOrNothing disableDroop :=
  .read (Device.puts_readRegister fun _ => rfl) fun _ => .applyDroop _

theorem notes_modifyRegion (f : ActiveRegion → ActiveRegion) : Notes (modifyRegion f) :=
  fun _ _ _ _ _ => ⟨rfl, rfl, rfl⟩

theorem allOrNothing_learnOvershoot : AllOrNothing learnOvershoot :=
  .read (Device.puts_readRegister fun _ => rfl) fun _ =>
    .read (Device.puts_readRegister fun _ => rfl) fun _ =>
      .read (Device.puts_readRegister fun _ => rfl) fun _ => .of_notes (notes_modifyRegion _)

theorem allOrNothing_trackLastRamp : AllOrNothing trackLastRamp :=
  .read (Device.puts_readRegister fun _ => rfl) fun _ =>
    .read (Device.puts_readRegister fun _ => rfl) fun _ =>
      .read (Device.puts_readRegister fun _ => rfl) fun _ =>
        .read (Device.puts_readRegister fun _ => rfl) fun _ => .of_notes (notes_modifyRegion _)

theorem allOrNothing_measureTemperature : AllOrNothing measureTemperature :=
  .andThen (.lift Device.putsNoDroop_measureTemperature Device.neverRefuses_measureTemperature)
    fun _ _ _ _ _ _ => ⟨rfl, rfl, rfl⟩

/-- Planning a ramp only looks at the clock. -/
theorem puts_plan (t : Transmitter) (antenna : UInt8) (mode : RfMode) (cdbm : Int16)
    (temperatureAdc : Option UInt16) (compensate : Bool) :
    Puts (·.isWrite = false) (t.plan antenna mode cdbm temperatureAdc compensate) :=
  (Puts.lift _).bind fun _ =>
    ((Device.puts_readRegister fun _ => rfl).bind fun _ => .pure _).bind fun _ =>
      (Puts.lift _).bind fun _ => .pure _

theorem allOrNothing_plan (request : RampRequest) :
    AllOrNothing (do
      let t ← MonadState.get
      let _ ← (request.plan t : DeviceM RampPlan)) :=
  .get fun t => .read (t.puts_plan _ _ _ _ _) fun _ => .pure ()

theorem allOrNothing_controlPower (power : PowerSettings) :
    AllOrNothing (liftM (controlPower power)) := by
  unfold controlPower
  cases power.settleTarget? with
  | none => exact .throw _
  | some target =>
      have hdroop : Register.droop.address ∉
          [Register.loopDetectors.address, Register.loopGainDivisor.address,
            Register.loopMaxIterations.address, Register.loopAdcTarget.address,
            Register.loopThresholds.address, Register.opsControl.address] := by
        decide
      refine .lift ?_ ?_
      · refine Puts.bind (Device.puts_writeAll fun write hwrite answer => ?_) fun _ =>
          Device.putsNoDroop_wait.bind fun _ => .pure _
        refine BusEvent.droop?_write_of_ne (fun haddress => hdroop ?_) _ _
        exact haddress ▸ List.mem_map_of_mem (f := Prod.fst) hwrite
      · exact (Device.neverRefuses_writeAll _).bind fun _ =>
          Device.neverRefuses_wait.bind fun _ => .pure _

/-- Switch to a built-in region, whose hop order is drawn from a source. -/
def switchRegion {ρ : Type} [RandomSource ρ] (source : ρ) (id : RegionId) (referenceKhz : UInt32) :
    TransmitterM Unit :=
  ExceptT.mk fun t =>
    let ((result, region), _) :=
      StateT.run (m := Id) ((ActiveRegion.switchTo id referenceKhz).run.run t.region) source
    pure (result.mapError .host, { t with region })

theorem outcome_switchRegion {ρ β : Type} [RandomSource ρ] (source : ρ) (id : RegionId)
    (referenceKhz : UInt32) (bus : Bus β) (t : Transmitter) (d : Device) (chip : β) :
    (switchRegion source id referenceKhz).outcome bus t d chip =
      match (StateT.run (m := Id) (ActiveRegion.ofId id referenceKhz).run source).1 with
      | .ok region => ⟨.ok (), { t with region }, d, chip, []⟩
      | .error fault => ⟨.error (.host fault), t, d, chip, []⟩ := by
  unfold switchRegion
  simp only [ActiveRegion.run_switchTo]
  rcases StateT.run (m := Id) (ActiveRegion.ofId id referenceKhz).run source with ⟨result, rest⟩
  cases result <;> rfl

theorem allOrNothing_switchRegion {ρ : Type} [RandomSource ρ] (source : ρ) (id : RegionId)
    (referenceKhz : UInt32) : AllOrNothing (switchRegion source id referenceKhz) := by
  intro β bus t d chip
  rw [outcome_switchRegion]
  cases (StateT.run (m := Id) (ActiveRegion.ofId id referenceKhz).run source).1 with
  | ok region => exact ⟨nofun, nofun, rfl⟩
  | error fault => exact ⟨fun _ => rfl, fun _ _ => nofun, rfl⟩

end Transmitter

/-- A call that changes what the host remembers, or prepares a ramp from it. -/
inductive HostCall : Type 1 where
  | enableDroop (intervalMs stepCdb : UInt8)
  | disableDroop
  | measureTemperature
  | learnOvershoot
  | trackLastRamp
  | switchRegion {ρ : Type} [RandomSource ρ] (source : ρ) (id : RegionId) (referenceKhz : UInt32)
  | plan (request : RampRequest)
  | controlPower (power : PowerSettings)

namespace HostCall

open Transmitter

/-- What a call does. -/
def perform : HostCall → TransmitterM Unit
  | enableDroop intervalMs stepCdb => Transmitter.enableDroop intervalMs stepCdb
  | disableDroop => Transmitter.disableDroop
  | measureTemperature => do let _ ← Transmitter.measureTemperature
  | learnOvershoot => Transmitter.learnOvershoot
  | trackLastRamp => Transmitter.trackLastRamp
  | switchRegion source id referenceKhz => Transmitter.switchRegion source id referenceKhz
  | plan request => do
    let t ← get
    let _ ← (request.plan t : DeviceM RampPlan)
  | controlPower power => liftM (Transmitter.controlPower power)

/-- One call after the other, going on where one fails. -/
def performAll : List HostCall → TransmitterM Unit
  | [] => pure ()
  | call :: calls => do
    let _ ← call.perform.attempt
    performAll calls

theorem allOrNothing_perform (call : HostCall) : AllOrNothing call.perform := by
  cases call with
  | enableDroop intervalMs stepCdb => exact allOrNothing_enableDroop intervalMs stepCdb
  | disableDroop => exact allOrNothing_disableDroop
  | measureTemperature =>
      exact allOrNothing_measureTemperature.andThen fun _ _ _ _ _ _ => ⟨rfl, rfl, rfl⟩
  | learnOvershoot => exact allOrNothing_learnOvershoot
  | trackLastRamp => exact allOrNothing_trackLastRamp
  | switchRegion source id referenceKhz => exact allOrNothing_switchRegion source id referenceKhz
  | plan request => exact allOrNothing_plan request
  | controlPower power => exact allOrNothing_controlPower power

/-- After any calls, the droop compensation that is remembered is the one the chip took last. -/
theorem droop_performAll {β : Type} (calls : List HostCall) (bus : Bus β) (t : Transmitter)
    (d : Device) (chip : β) :
    let o := (performAll calls).outcome bus t d chip
    o.host.droop = (lastDroop? o.events).getD t.droop := by
  induction calls generalizing t d chip with
  | nil => rfl
  | cons call calls ih =>
      let first := call.perform.outcome bus t d chip
      have hrest := ih first.host first.device first.chip
      have hfirst := (call.allOrNothing_perform β bus t d chip).droop_eq
      rw [performAll, HostM.outcome_bind, HostM.outcome_attempt, Outcome.andThen_ok rfl]
      show _ = (lastDroop? (first.events ++ _)).getD t.droop
      rw [getD_lastDroop?_append, ← hfirst]
      exact hrest

/-- **All or nothing**: a call that fails leaves the transmitter as it was, and has written nothing
if it refused a parameter.  After any calls, failed ones among them, the droop compensation that is
remembered is the one the chip took last, or the one from before. -/
theorem all_or_nothing :
    (∀ (call : HostCall) (β : Type) (bus : Bus β) (t : Transmitter) (d : Device) (chip : β),
      let o := call.perform.outcome bus t d chip
      ∀ error, o.result = .error error →
        o.host = t ∧ (error.IsRefusal → ∀ e ∈ o.events, e.isWrite = false)) ∧
    ∀ (calls : List HostCall) (β : Type) (bus : Bus β) (t : Transmitter) (d : Device) (chip : β),
      let o := (performAll calls).outcome bus t d chip
      o.host.droop = (lastDroop? o.events).getD t.droop := by
  refine ⟨?_, fun calls β => droop_performAll calls⟩
  intro call β bus t d chip o error h
  have hcall := call.allOrNothing_perform β bus t d chip
  exact ⟨hcall.unchanged h, hcall.silent h⟩

/-- What a new transmitter remembers, which the chip has not been given. -/
example (calibration : Calibration) (region : ActiveRegion) (board : Board) :
    ({ calibration, region, board } : Transmitter).droop =
      { enable := true, intervalMs := 25, stepCdb := 10 } := rfl

end HostCall
end RfidReader
