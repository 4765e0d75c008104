import RfidReader.Proofs.Device.Outcome
import RfidReader.Transmit.Carrier

/-!
# RfidReader.Proofs.Transmit.HookJournal

Hooks that note when they are called.

`rampUpNoted` is `rampUp` with hooks that write each of their calls into a
journal: at which point of the ramp it was, what the hook was given, how it
ended and what it put on the bus.  Taking the journal away gives the ramp of
the plain hooks (`forget_rampUpNoted`), so what the journal shows is what
happens there, too.
-/

namespace RfidReader

/-! ## Recording -/

namespace BusProgram

variable {α β : Type}

/-- A program that gives back what it put on the bus, beside its result. -/
def recorded : BusProgram α → BusProgram (α × List BusEvent)
  | done result => done (result, [])
  | read address length next =>
    read address length fun answer =>
      (recorded (next answer)).bind fun (result, events) =>
        done (result, .read address length (answer.map Vector.toList) :: events)
  | write address data next =>
    write address data fun answer =>
      (recorded (next answer)).bind fun (result, events) =>
        done (result, .write address data answer :: events)
  | delay us next =>
    delay us ((recorded next).bind fun (result, events) => done (result, .delay us :: events))

/-- Recording changes nothing but the result. -/
theorem run_recorded (bus : Bus β) (p : BusProgram α) (chip : β) :
    p.recorded.run bus chip =
      (((p.run bus chip).1, p.events bus chip), (p.run bus chip).2) := by
  induction p generalizing chip with
  | done => rfl
  | read _ _ _ ih | write _ _ _ ih => simp only [recorded, run, run_bind, ih, events]
  | delay _ _ ih => simp only [recorded, run, run_bind, ih, events]

theorem events_recorded (bus : Bus β) (p : BusProgram α) (chip : β) :
    p.recorded.events bus chip = p.events bus chip := by
  induction p generalizing chip with
  | done => rfl
  | read _ _ _ ih | write _ _ _ ih =>
      simp only [recorded, events, events_bind, ih, List.append_nil]
  | delay _ _ ih => simp only [recorded, events, events_bind, ih, List.append_nil]

end BusProgram

/-! ## Calls -/

/-- A call of a hook. -/
structure HookCall where
  /-- Whether it was the hook before the ramp. -/
  isBefore : Bool
  context : RampContext
  /-- The index that was active at the call. -/
  activeIndex : Nat
  result : Except HostError Unit
  /-- What the hook put on the bus. -/
  events : List BusEvent

/-- What a call of a hook comes to when it is noted. -/
def Outcome.noting {κ β : Type} (o : Outcome κ β Unit) (isBefore : Bool) (context : RampContext)
    (t : Transmitter) (calls : List HookCall) : Outcome (Transmitter × List HookCall × κ) β Unit :=
  o.mapHost fun k =>
    (t, calls ++ [⟨isBefore, context, t.region.activeIndex, o.result, o.events⟩], k)

namespace Transmitter

variable {κ κ' β : Type}

/-- A hook that notes its calls. -/
def noted (isBefore : Bool) (hook : RampContext → HostM κ Unit) (context : RampContext) :
    HostM (Transmitter × List HookCall × κ) Unit :=
  ExceptT.mk fun (t, calls, k) d => do
    let (((result, k), d), events) ← (((hook context).run.run k).run d).recorded
    let call : HookCall :=
      { isBefore, context, activeIndex := t.region.activeIndex, result, events }
    pure ((result, (t, calls ++ [call], k)), d)

/-- Turn the carrier on, noting the calls of the hooks. -/
def rampUpNoted (plan : RampPlan) (hooks : RampHooks κ) :
    HostM (Transmitter × List HookCall × κ) Unit :=
  rampUpAround plan (noted true hooks.before) (noted false hooks.after)

theorem outcome_noted (isBefore : Bool) (hook : RampContext → HostM κ Unit)
    (context : RampContext) (bus : Bus β) (t : Transmitter) (calls : List HookCall) (k : κ)
    (d : Device) (chip : β) :
    (noted isBefore hook context).outcome bus (t, calls, k) d chip =
      ((hook context).outcome bus k d chip).noting isBefore context t calls := by
  have hprogram : ((noted isBefore hook context).run.run (t, calls, k)).run d =
      (((hook context).run.run k).run d).recorded.bind fun (((result, k), d), events) =>
        .done ((result, (t, calls ++
          [⟨isBefore, context, t.region.activeIndex, result, events⟩], k)), d) := rfl
  simp only [HostM.outcome, hprogram, BusProgram.run_bind, BusProgram.events_bind,
    BusProgram.run_recorded, BusProgram.events_recorded, BusProgram.run, BusProgram.events,
    List.append_nil, Outcome.noting, Outcome.mapHost]

/-- The outcome of a ramp, stage by stage. -/
theorem outcome_rampUpAround {t : Transmitter} {plan : RampPlan} {buffer : AggregateBuffer}
    (hbuffer : t.rampBuffer plan = .ok buffer)
    (before after : RampContext → HostM (Transmitter × κ) Unit) (bus : Bus β) (k : κ) (d : Device)
    (chip : β) :
    (rampUpAround plan before after).outcome bus (t, k) d chip =
      (isCarrierOn.outcome bus d chip).resume (t, k) fun isOn d chip =>
        if isOn then ⟨.ok (), (t, k), d, chip, []⟩
        else
          ((waitOffTime plan.timers).outcome bus d chip).resume (t, k) fun _ d chip =>
          ((before (t.rampContext plan)).outcome bus (t, k) d chip).andThen fun _ s d chip =>
          ((runAggregate buffer).outcome bus d chip).resume s fun _ d chip =>
          (after (t.rampContext plan)).outcome bus
            ({ s.1 with region := s.1.region.advance }, s.2) d chip := by
  rw [rampUpAround, HostM.outcome_liftThen]
  apply Outcome.resume_congr
  intro isOn d chip
  cases isOn with
  | true => rfl
  | false =>
      simp only [Bool.false_eq_true, if_false]
      rw [HostM.outcome_getThen]
      simp only
      rw [HostM.outcome_okThen hbuffer, HostM.outcome_liftThen]
      apply Outcome.resume_congr
      intro _ d chip
      rw [HostM.outcome_bind]
      apply Outcome.andThen_congr
      intro _ s d chip
      rw [HostM.outcome_liftThen]
      apply Outcome.resume_congr
      intro _ d chip
      rw [HostM.outcome_modifyThen]

/-- Hooks that agree in another view of their own state make ramps that agree in it. -/
theorem mapHost_rampUpAround {before after : RampContext → HostM (Transmitter × κ) Unit}
    {before' after' : RampContext → HostM (Transmitter × κ') Unit} (view : κ → κ') {bus : Bus β}
    (hbefore : ∀ context t k d chip, ((before context).outcome bus (t, k) d chip).mapHost
      (Prod.map id view) = (before' context).outcome bus (t, view k) d chip)
    (hafter : ∀ context t k d chip, ((after context).outcome bus (t, k) d chip).mapHost
      (Prod.map id view) = (after' context).outcome bus (t, view k) d chip)
    {t : Transmitter} {plan : RampPlan} {buffer : AggregateBuffer}
    (hbuffer : t.rampBuffer plan = .ok buffer) (k : κ) (d : Device) (chip : β) :
    ((rampUpAround plan before after).outcome bus (t, k) d chip).mapHost (Prod.map id view) =
      (rampUpAround plan before' after').outcome bus (t, view k) d chip := by
  rw [outcome_rampUpAround hbuffer, outcome_rampUpAround hbuffer]
  apply Outcome.mapHost_resume
  intro isOn d chip
  cases isOn with
  | true => rfl
  | false =>
      simp only [Bool.false_eq_true, if_false]
      apply Outcome.mapHost_resume
      intro _ d chip
      apply Outcome.mapHost_andThen _ (hbefore _ t k d chip)
      intro _ s d chip
      apply Outcome.mapHost_resume
      intro _ d chip
      exact hafter _ _ s.2 d chip

/-- **Without its journal** a noted ramp is the ramp of the plain hooks. -/
theorem forget_rampUpNoted {t : Transmitter} {plan : RampPlan} {buffer : AggregateBuffer}
    (hbuffer : t.rampBuffer plan = .ok buffer) (hooks : RampHooks κ) (bus : Bus β)
    (calls : List HookCall) (k : κ) (d : Device) (chip : β) :
    ((rampUpNoted plan hooks).outcome bus (t, calls, k) d chip).mapHost (Prod.map id Prod.snd) =
      (rampUp plan { hooks? := some hooks }).outcome bus (t, k) d chip := by
  apply mapHost_rampUpAround Prod.snd _ _ hbuffer
  · intro context t s d chip
    rw [outcome_noted, HostM.outcome_onSecond]
    rfl
  · intro context t s d chip
    rw [outcome_noted, HostM.outcome_onSecond]
    rfl

end Transmitter
end RfidReader
