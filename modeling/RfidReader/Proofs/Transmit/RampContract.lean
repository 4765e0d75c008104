import RfidReader.Proofs.Device.Operation
import RfidReader.Proofs.Transmit.HookJournal
import RfidReader.Proofs.Transmit.RampBuffer

/-!
# RfidReader.Proofs.Transmit.RampContract

What a ramp may have done, whichever way it ends.

A `RampCourse` cuts what goes over the bus in a ramp into four parts: what
`rampUp` does before the first hook, what that hook does, what `rampUp` does
after it, and what the second hook does.  `RampContract` says how these parts,
the calls of the hooks, the result and the transmitter belong together.  Every
ramp keeps it, whatever the bus answers and whatever the hooks do
(`rampUp_contract`).
-/

namespace RfidReader

/-! ## Transfers -/

namespace BusEvent

/-- A write into the buffer of the aggregate operation. -/
def TouchesBuffer : BusEvent → Prop
  | .write address data _ =>
    address.toNat < Register.aggregateBufferAddress.toNat + AggregateBuffer.capacity ∧
      Register.aggregateBufferAddress.toNat < address.toNat + data.length
  | _ => False

/-- A write that starts an operation. -/
def Starts (op : Op) : BusEvent → Prop
  | .write address data _ =>
    address = Register.opsControl.address ∧ data.head? = some op.code
  | _ => False

/-- A transfer that has nothing to do with the aggregate operation. -/
structure Quiet (e : BusEvent) : Prop where
  buffer : ¬ e.TouchesBuffer
  start : ¬ e.Starts .aggregate

/-- The transfer that asks whether the carrier is on. -/
def carrierRead (answer : Except BusError (List UInt8)) : BusEvent :=
  .read Register.cwIsOn.address Register.cwIsOn.length answer

theorem quiet_read (address : UInt16) (length : Nat) (answer : Except BusError (List UInt8)) :
    Quiet (.read address length answer) :=
  ⟨id, id⟩

theorem quiet_delay (us : UInt32) : Quiet (.delay us) := ⟨id, id⟩

/-- Writes below the buffer are quiet unless they start the aggregate operation. -/
theorem quiet_write {address : UInt16} {data : List UInt8} (answer : Except BusError Unit)
    (hbelow : address.toNat + data.length ≤ Register.aggregateBufferAddress.toNat)
    (hop : address = Register.opsControl.address → data.head? ≠ some Op.aggregate.code) :
    Quiet (.write address data answer) :=
  ⟨fun h => Nat.not_lt_of_le hbelow h.2, fun h => hop h.1 h.2⟩

/-- Running another operation is quiet. -/
theorem quiet_of_runs {op : Op} (hop : op ≠ .aggregate) {e : BusEvent} (h : Device.Runs op e) :
    e.Quiet := by
  cases h with
  | start answer =>
      apply quiet_write answer
      · rw [Register.length_encode]
        decide
      · intro _
        revert hop
        cases op <;> decide
  | wait h =>
      cases h with
      | status answer => exact quiet_read _ _ _
      | delay => exact quiet_delay _

end BusEvent

/-- Transfers that copy a buffer to the chip and run the aggregate operation until it is done
without an error. -/
def AggregateCompleted (buffer : AggregateBuffer) (events : List BusEvent) : Prop :=
  ∃ rest, events = .write Register.aggregateBufferAddress buffer.bytes (.ok ()) :: rest ∧
    Device.Completes .aggregate rest

namespace Transmitter

variable {κ β : Type}

/-- Copying and running succeeds exactly when it completes. -/
theorem runAggregate_isOk_iff (bus : Bus β) (buffer : AggregateBuffer) (d : Device) (chip : β) :
    ((runAggregate buffer).outcome bus d chip).result.isOk = true ↔
      AggregateCompleted buffer ((runAggregate buffer).outcome bus d chip).events :=
  Device.writeThen_isOk_iff (Device.runOp_isOk_iff bus .aggregate) _ _ d chip

/-- Waiting out the off time has nothing to do with the aggregate operation. -/
theorem puts_waitOffTime (timers : DwellTimers) :
    DeviceM.Puts BusEvent.Quiet (waitOffTime timers) := by
  have hdelay (us : UInt32) : DeviceM.Puts BusEvent.Quiet
      (Device.writeRegister Register.delayUs us) := by
    apply Device.puts_write
    intro answer
    apply BusEvent.quiet_write answer
    · rw [Register.length_encode]
      decide
    · exact fun h => absurd h (by decide)
  have hop {op : Op} (h : op ≠ .aggregate) : DeviceM.Puts BusEvent.Quiet (Device.runOp op) :=
    DeviceM.Puts.mono (Device.puts_runOp op) fun _ => BusEvent.quiet_of_runs h
  rw [waitOffTime]
  split
  · refine DeviceM.Puts.bind (hdelay _) fun _ => ?_
    refine DeviceM.Puts.bind (hop (by decide)) fun _ => ?_
    exact DeviceM.Puts.bind (hop (by decide)) fun _ => DeviceM.Puts.pure ()
  · exact DeviceM.Puts.pure ()

end Transmitter

/-! ## The course of a ramp -/

/-- What happens in a ramp, in order. -/
structure RampCourse where
  /-- What goes over the bus before the first hook. -/
  prepared : List BusEvent
  /-- The call of the hook before the ramp. -/
  before? : Option HookCall := none
  /-- What goes over the bus between the hooks. -/
  carried : List BusEvent := []
  /-- The call of the hook after the ramp. -/
  after? : Option HookCall := none

namespace RampCourse

/-- The calls of hooks, in order. -/
def calls (r : RampCourse) : List HookCall := r.before?.toList ++ r.after?.toList

/-- What goes over the bus, in order. -/
def events (r : RampCourse) : List BusEvent :=
  r.prepared ++ ((r.before?.map (·.events)).getD [] ++
    (r.carried ++ (r.after?.map (·.events)).getD []))

end RampCourse

/-- The transmitter after a ramp. -/
def Transmitter.moved (t : Transmitter) : Transmitter :=
  { t with region := { t.region with activeIndex := t.region.nextIndex } }

/-- The contract of a ramp. -/
structure RampContract {κ β : Type} (t : Transmitter) (plan : RampPlan) (k : κ)
    (buffer : AggregateBuffer) (r : RampCourse)
    (o : Outcome (Transmitter × List HookCall × κ) β Unit) : Prop where
  events_eq : o.events = r.events
  calls_eq : o.host.2.1 = r.calls
  /-- The first transfer asks whether the carrier is on. -/
  asks : ∃ answer rest, r.prepared = .carrierRead answer :: rest
  /-- Nothing before the first hook has to do with the aggregate operation. -/
  quiet : ∀ e ∈ r.prepared, e.Quiet
  before_eq : ∀ call ∈ r.before?, call.isBefore = true ∧ call.context = t.rampContext plan ∧
    call.activeIndex = t.region.activeIndex
  after_eq : ∀ call ∈ r.after?, call.isBefore = false ∧ call.context = t.rampContext plan ∧
    call.activeIndex = t.region.nextIndex
  /-- Nothing else happens if the carrier is on. -/
  on : ∀ bytes rest, o.events = .carrierRead (.ok bytes) :: rest →
    Register.cwIsOn.decode bytes = true → o.result = .ok () ∧ rest = [] ∧ o.host = (t, [], k)
  /-- Nothing is carried out before the first hook agrees to it. -/
  agreed : r.carried ≠ [] → ∃ call, r.before? = some call ∧ call.result = .ok ()
  /-- A hook that fails before the ramp cancels it. -/
  refused : ∀ call ∈ r.before?, ∀ error, call.result = .error error →
    o.result = .error error ∧ r.carried = [] ∧ r.after? = none ∧ o.host.1 = t
  /-- A ramp that is complete moves the transmitter on, and ends as the hook after it does. -/
  complete : AggregateCompleted buffer r.carried →
    o.host.1 = t.moved ∧ ∃ call, r.after? = some call ∧ o.result = call.result
  /-- Any other ramp leaves the transmitter alone. -/
  incomplete : ¬ AggregateCompleted buffer r.carried → o.host.1 = t ∧ r.after? = none
  /-- A ramp that ends well is complete, unless the carrier was on. -/
  ended : o.result = .ok () → AggregateCompleted buffer r.carried ∨
    ∃ bytes, o.events = [.carrierRead (.ok bytes)] ∧ Register.cwIsOn.decode bytes = true

theorem not_aggregateCompleted_nil (buffer : AggregateBuffer) : ¬ AggregateCompleted buffer [] :=
  fun ⟨_, h, _⟩ => nomatch h

namespace RampContract

variable {κ β : Type} {t : Transmitter} {plan : RampPlan} {k k' : κ} {buffer : AggregateBuffer}
  {d : Device} {chip : β} {error : HostError} {answer : Except BusError (List UInt8)}
  {waited carried : List BusEvent} {before after : HookCall}

/-! ### The ways a ramp ends -/

/-- Asking for the carrier and waiting are quiet. -/
private theorem quiet_prepared (hwaited : ∀ e ∈ waited, e.Quiet) :
    ∀ e ∈ BusEvent.carrierRead answer :: waited, e.Quiet := by
  intro e he
  rcases List.mem_cons.mp he with rfl | he
  · exact BusEvent.quiet_read _ _ _
  · exact hwaited e he

/-- The carrier is on only if the first answer says so. -/
private theorem not_on {bytes : List UInt8} {rest rest' : List BusEvent}
    (hoff : ∀ bytes, answer = .ok bytes → Register.cwIsOn.decode bytes = false)
    (h : BusEvent.carrierRead answer :: rest = .carrierRead (.ok bytes) :: rest') :
    ¬ Register.cwIsOn.decode bytes = true := by
  have hanswer : answer = .ok bytes := by
    injection (List.cons.inj h).1
  rw [hoff bytes hanswer]
  exact Bool.false_ne_true

/-- The carrier is on. -/
theorem of_on {bytes : List UInt8} (hon : Register.cwIsOn.decode bytes = true) :
    RampContract t plan k buffer { prepared := [.carrierRead (.ok bytes)] }
      ⟨.ok (), (t, [], k), d, chip, [.carrierRead (.ok bytes)]⟩ where
  events_eq := rfl
  calls_eq := rfl
  asks := ⟨_, _, rfl⟩
  quiet := quiet_prepared fun _ h => nomatch h
  before_eq _ h := nomatch h
  after_eq _ h := nomatch h
  on _ _ h _ := ⟨rfl, (List.cons.inj h).2.symm, rfl⟩
  agreed h := absurd rfl h
  refused _ h := nomatch h
  complete h := absurd h (not_aggregateCompleted_nil buffer)
  incomplete _ := ⟨rfl, rfl⟩
  ended _ := .inr ⟨bytes, rfl, hon⟩

/-- The ramp fails before the first hook. -/
theorem of_unready (hoff : ∀ bytes, answer = .ok bytes → Register.cwIsOn.decode bytes = false)
    (hwaited : ∀ e ∈ waited, e.Quiet) :
    RampContract t plan k buffer { prepared := .carrierRead answer :: waited }
      ⟨.error error, (t, [], k), d, chip, .carrierRead answer :: waited⟩ where
  events_eq := by simp [RampCourse.events]
  calls_eq := rfl
  asks := ⟨_, _, rfl⟩
  quiet := quiet_prepared hwaited
  before_eq _ h := nomatch h
  after_eq _ h := nomatch h
  on _ _ h hon := absurd hon (not_on hoff h)
  agreed h := absurd rfl h
  refused _ h := nomatch h
  complete h := absurd h (not_aggregateCompleted_nil buffer)
  incomplete _ := ⟨rfl, rfl⟩
  ended h := nomatch h

/-- The first hook cancels the ramp. -/
theorem of_refused (hoff : ∀ bytes, answer = .ok bytes → Register.cwIsOn.decode bytes = false)
    (hwaited : ∀ e ∈ waited, e.Quiet)
    (hbefore : before.isBefore = true ∧ before.context = t.rampContext plan ∧
      before.activeIndex = t.region.activeIndex)
    (hresult : before.result = .error error) :
    RampContract t plan k buffer
      { prepared := .carrierRead answer :: waited, before? := some before }
      ⟨.error error, (t, [before], k'), d, chip,
        .carrierRead answer :: (waited ++ before.events)⟩ where
  events_eq := by simp [RampCourse.events]
  calls_eq := rfl
  asks := ⟨_, _, rfl⟩
  quiet := quiet_prepared hwaited
  before_eq _ h := Option.some.inj h ▸ hbefore
  after_eq _ h := nomatch h
  on _ _ h hon := absurd hon (not_on hoff h)
  agreed h := absurd rfl h
  refused call h error' herror := by
    obtain rfl := Option.some.inj h
    obtain rfl : error = error' := Except.error.inj (hresult.symm.trans herror)
    exact ⟨rfl, rfl, rfl, rfl⟩
  complete h := absurd h (not_aggregateCompleted_nil buffer)
  incomplete _ := ⟨rfl, rfl⟩
  ended h := nomatch h

/-- The aggregate operation does not complete. -/
theorem of_incomplete
    (hoff : ∀ bytes, answer = .ok bytes → Register.cwIsOn.decode bytes = false)
    (hwaited : ∀ e ∈ waited, e.Quiet)
    (hbefore : before.isBefore = true ∧ before.context = t.rampContext plan ∧
      before.activeIndex = t.region.activeIndex)
    (hresult : before.result = .ok ()) (hcarried : ¬ AggregateCompleted buffer carried) :
    RampContract t plan k buffer
      { prepared := .carrierRead answer :: waited, before? := some before, carried }
      ⟨.error error, (t, [before], k'), d, chip,
        .carrierRead answer :: (waited ++ (before.events ++ carried))⟩ where
  events_eq := by simp [RampCourse.events]
  calls_eq := rfl
  asks := ⟨_, _, rfl⟩
  quiet := quiet_prepared hwaited
  before_eq _ h := Option.some.inj h ▸ hbefore
  after_eq _ h := nomatch h
  on _ _ h hon := absurd hon (not_on hoff h)
  agreed _ := ⟨before, rfl, hresult⟩
  refused call h error' herror := by
    obtain rfl := Option.some.inj h
    rw [hresult] at herror
    contradiction
  complete h := absurd h hcarried
  incomplete _ := ⟨rfl, rfl⟩
  ended h := nomatch h

/-- The aggregate operation completes. -/
theorem of_complete
    (hoff : ∀ bytes, answer = .ok bytes → Register.cwIsOn.decode bytes = false)
    (hwaited : ∀ e ∈ waited, e.Quiet)
    (hbefore : before.isBefore = true ∧ before.context = t.rampContext plan ∧
      before.activeIndex = t.region.activeIndex)
    (hresult : before.result = .ok ()) (hcarried : AggregateCompleted buffer carried)
    (hafter : after.isBefore = false ∧ after.context = t.rampContext plan ∧
      after.activeIndex = t.region.nextIndex) :
    RampContract t plan k buffer
      { prepared := .carrierRead answer :: waited, before? := some before, carried,
        after? := some after }
      ⟨after.result, (t.moved, [before, after], k'), d, chip,
        .carrierRead answer :: (waited ++ (before.events ++ (carried ++ after.events)))⟩ where
  events_eq := rfl
  calls_eq := rfl
  asks := ⟨_, _, rfl⟩
  quiet := quiet_prepared hwaited
  before_eq _ h := Option.some.inj h ▸ hbefore
  after_eq _ h := Option.some.inj h ▸ hafter
  on _ _ h hon := absurd hon (not_on hoff h)
  agreed _ := ⟨before, rfl, hresult⟩
  refused call h error' herror := by
    obtain rfl := Option.some.inj h
    rw [hresult] at herror
    contradiction
  complete _ := ⟨rfl, after, rfl, rfl⟩
  incomplete h := absurd hcarried h
  ended _ := .inl hcarried

end RampContract

namespace Transmitter

variable {κ β : Type}

/-- The contract is kept once the carrier is found to be off. -/
theorem contract_of_off {t : Transmitter} {plan : RampPlan} {buffer : AggregateBuffer}
    {bytes : List UInt8} (hoff : Register.cwIsOn.decode bytes = false) (hooks : RampHooks κ)
    (bus : Bus β) (k : κ) (d : Device) (chip : β) :
    ∃ course, RampContract t plan k buffer course <| Outcome.behind
      (((waitOffTime plan.timers).outcome bus d chip).resume (t, [], k) fun _ d chip =>
        ((noted true hooks.before (t.rampContext plan)).outcome bus (t, [], k) d chip).andThen
          fun _ s d chip =>
        ((runAggregate buffer).outcome bus d chip).resume s fun _ d chip =>
        (noted false hooks.after (t.rampContext plan)).outcome bus
          ({ s.1 with region := s.1.region.advance }, s.2) d chip)
      [.carrierRead (.ok bytes)] := by
  have hanswer : ∀ bytes', (.ok bytes : Except BusError (List UInt8)) = .ok bytes' →
      Register.cwIsOn.decode bytes' = false := by
    rintro _ ⟨⟩
    exact hoff
  have hquiet := puts_waitOffTime plan.timers β bus d chip
  -- Of each stage only its result and its transfers matter from here on.
  generalize (waitOffTime plan.timers).outcome bus d chip = waited at hquiet
  cases hwaited : waited.result with
  | error error =>
      rw [Outcome.resume_error hwaited]
      exact ⟨_, RampContract.of_unready hanswer hquiet⟩
  | ok _ =>
      rw [Outcome.resume_ok hwaited, outcome_noted]
      generalize (hooks.before (t.rampContext plan)).outcome bus k _ _ = before
      cases hbefore : before.result with
      | error error =>
          have hnoted : (before.noting true (t.rampContext plan) t []).result = .error error :=
            hbefore
          rw [Outcome.andThen_error hnoted]
          exact ⟨_, RampContract.of_refused hanswer hquiet ⟨rfl, rfl, rfl⟩ hbefore⟩
      | ok _ =>
          let called := before.noting true (t.rampContext plan) t []
          have hnoted : called.result = .ok () := hbefore
          have hcompleted := runAggregate_isOk_iff bus buffer called.device called.chip
          rw [Outcome.andThen_ok hnoted]
          generalize (runAggregate buffer).outcome bus called.device called.chip = carried
            at hcompleted ⊢
          cases hresult : carried.result with
          | error error =>
              rw [Outcome.resume_error hresult]
              have hincomplete : ¬ AggregateCompleted buffer carried.events := by
                rw [← hcompleted, hresult]
                exact Bool.false_ne_true
              exact ⟨_, RampContract.of_incomplete hanswer hquiet ⟨rfl, rfl, rfl⟩ hbefore
                hincomplete⟩
          | ok _ =>
              rw [Outcome.resume_ok hresult, outcome_noted]
              rw [hresult] at hcompleted
              generalize (hooks.after (t.rampContext plan)).outcome bus _ _ _ = after
              let call : HookCall :=
                ⟨false, t.rampContext plan, t.region.nextIndex, after.result, after.events⟩
              have hcall : call.isBefore = false ∧ call.context = t.rampContext plan ∧
                  call.activeIndex = t.region.nextIndex := ⟨rfl, rfl, rfl⟩
              exact ⟨_, RampContract.of_complete hanswer hquiet ⟨rfl, rfl, rfl⟩ hbefore
                (hcompleted.mp rfl) hcall⟩

/-- **Contract of a ramp**: it is kept whatever the bus answers, wherever it fails, and whatever
the hooks do. -/
theorem rampUp_contract (bus : Bus β) (t : Transmitter) (plan : RampPlan) (hooks : RampHooks κ)
    (k : κ) (d : Device) (chip : β) :
    let o := (rampUpNoted plan hooks).outcome bus (t, [], k) d chip
    o.mapHost (Prod.map id Prod.snd) =
        (rampUp plan { hooks? := some hooks }).outcome bus (t, k) d chip ∧
      ∃ buffer course, t.rampBuffer plan = .ok buffer ∧
        RampContract t plan k buffer course o := by
  obtain ⟨buffer, hbuffer, -⟩ := t.exists_rampBuffer plan
  refine ⟨forget_rampUpNoted hbuffer hooks bus [] k d chip, buffer, ?_⟩
  simp only [hbuffer, true_and]
  rw [rampUpNoted, outcome_rampUpAround hbuffer, isCarrierOn, Device.outcome_readRegister]
  cases bus.read Register.cwIsOn.address Register.cwIsOn.length chip with
  | mk answer chip =>
      cases answer with
      | error error =>
          exact ⟨_, RampContract.of_unready (fun _ h => nomatch h) fun _ h => nomatch h⟩
      | ok bytes =>
          cases hon : Register.cwIsOn.decode bytes.toList with
          | true =>
              rw [Outcome.resume_ok (a := true) (congrArg Except.ok hon)]
              exact ⟨_, RampContract.of_on hon⟩
          | false =>
              rw [Outcome.resume_ok (a := false) (congrArg Except.ok hon)]
              exact contract_of_off hon hooks bus k d chip

end Transmitter
end RfidReader
