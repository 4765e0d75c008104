import RfidReader.Proofs.Device.Outcome

/-!
# RfidReader.Proofs.Device.Operation

What operations do on the bus.

`Puts` says that a procedure puts nothing on the bus but what is allowed.  It
goes through sequencing, so it is read off the transfers a procedure is made
of.  Waiting for an operation succeeds exactly when what went over the bus
shows the operation busy for a while and then done without an error
(`poll_isOk_iff`), and running one when it was started before that
(`runOp_isOk_iff`).
-/

namespace RfidReader

/-! ## What a procedure puts on the bus -/

namespace DeviceM

variable {α γ : Type} {allowed allowed' : BusEvent → Prop}

/-- A procedure puts nothing but what is allowed on the bus. -/
def Puts (allowed : BusEvent → Prop) (x : DeviceM α) : Prop :=
  ∀ (β : Type) (bus : Bus β) (d : Device) (chip : β),
    ∀ e ∈ (x.outcome bus d chip).events, allowed e

namespace Puts

theorem pure (a : α) : Puts allowed (Pure.pure a : DeviceM α) :=
  fun _ _ _ _ _ h => nomatch h

theorem throw (error : HostError) : Puts allowed (MonadExcept.throw error : DeviceM α) :=
  fun _ _ _ _ _ h => nomatch h

theorem get : Puts allowed (MonadState.get : DeviceM Device) :=
  fun _ _ _ _ _ h => nomatch h

theorem bind {x : DeviceM α} {f : α → DeviceM γ} (hx : Puts allowed x)
    (hf : ∀ a, Puts allowed (f a)) : Puts allowed (x >>= f) := by
  intro β bus d chip e he
  rw [outcome_bind] at he
  cases h : (x.outcome bus d chip).result with
  | error error =>
      rw [Outcome.andThen_error h] at he
      exact hx β bus d chip e he
  | ok a =>
      rw [Outcome.andThen_ok h] at he
      rcases List.mem_append.mp he with he | he
      · exact hx β bus d chip e he
      · exact hf a β bus _ _ e he

/-- Work of the host puts nothing on the bus. -/
theorem lift (x : Except Fault α) : Puts allowed (liftM x : DeviceM α) :=
  fun _ _ _ _ _ h => nomatch h

theorem mono {x : DeviceM α} (hx : Puts allowed x) (h : ∀ e, allowed e → allowed' e) :
    Puts allowed' x :=
  fun β bus d chip e he => h e (hx β bus d chip e he)

end Puts
end DeviceM

namespace Device

open DeviceM

variable {allowed : BusEvent → Prop}

theorem puts_read {address : UInt16} {length : Nat}
    (h : ∀ answer, allowed (.read address length answer)) :
    Puts allowed (read address length) := by
  intro β bus d chip e he
  rw [List.mem_singleton.mp he]
  exact h _

theorem puts_write {address : UInt16} {data : List UInt8}
    (h : ∀ answer, allowed (.write address data answer)) : Puts allowed (write address data) := by
  intro β bus d chip e he
  rw [List.mem_singleton.mp he]
  exact h _

theorem puts_delay {us : UInt32} (h : allowed (.delay us)) : Puts allowed (delay us) := by
  intro β bus d chip e he
  rw [List.mem_singleton.mp he]
  exact h

theorem puts_readRegister {α : Type} {r : Register α}
    (h : ∀ answer, allowed (.read r.address r.length answer)) :
    Puts allowed (readRegister r) :=
  Puts.bind (puts_read h) fun _ => Puts.pure _

theorem puts_writeAll {writes : List (UInt16 × List UInt8)}
    (h : ∀ write ∈ writes, ∀ answer, allowed (.write write.1 write.2 answer)) :
    Puts allowed (writeAll writes) := by
  induction writes with
  | nil => exact .pure ()
  | cons write writes ih =>
      exact (puts_write (h write List.mem_cons_self)).bind fun _ =>
        ih fun w hw => h w (List.mem_cons_of_mem write hw)

/-! ## Operations -/

/-- What waiting for an operation puts on the bus. -/
inductive Waits : BusEvent → Prop where
  | status (answer : Except BusError (List UInt8)) :
      Waits (.read Register.opsStatus.address Register.opsStatus.length answer)
  | delay : Waits (.delay pollIntervalUs)

/-- What running an operation puts on the bus. -/
inductive Runs (op : Op) : BusEvent → Prop where
  | start (answer : Except BusError Unit) :
      Runs op (.write Register.opsControl.address (Register.opsControl.encode op.code) answer)
  | wait {e : BusEvent} (h : Waits e) : Runs op e

/-- What polling does with a status it has read. -/
def heed (delays : Nat) (status : OpStatus) : DeviceM OpStatus :=
  if status.hasError then throw (.op status)
  else if status.busy then
    match delays with
    | 0 => throw (.timeout status)
    | delays + 1 => delay pollIntervalUs >>= fun _ => poll delays
  else pure status

theorem poll_eq (delays : Nat) : poll delays = readRegister Register.opsStatus >>= heed delays := by
  rw [poll.eq_def]
  congr 1
  funext status
  unfold heed
  cases status.hasError <;> cases status.busy <;> rfl

theorem puts_poll (delays : Nat) : Puts Waits (poll delays) := by
  induction delays with
  | zero =>
      rw [poll_eq]
      refine Puts.bind (puts_readRegister .status) fun status => ?_
      unfold heed
      cases status.hasError with
      | true => exact Puts.throw _
      | false =>
          cases status.busy with
          | true => exact Puts.throw _
          | false => exact Puts.pure _
  | succ delays ih =>
      rw [poll_eq]
      refine Puts.bind (puts_readRegister .status) fun status => ?_
      unfold heed
      cases status.hasError with
      | true => exact Puts.throw _
      | false =>
          cases status.busy with
          | true => exact Puts.bind (puts_delay .delay) fun _ => ih
          | false => exact Puts.pure _

theorem puts_wait : Puts Waits wait :=
  Puts.bind Puts.get fun device => puts_poll (maxDelays device.opTimeoutMs)

theorem puts_runOp (op : Op) : Puts (Runs op) (runOp op) :=
  Puts.bind (puts_write .start) fun _ => Puts.mono puts_wait fun _ => .wait

/-! ## Operations that are done -/

/-- The status a read shows, if it is a read of the status that succeeds. -/
def statusShown? : BusEvent → Option OpStatus
  | .read address length (.ok bytes) =>
    if address = Register.opsStatus.address ∧ length = Register.opsStatus.length then
      some (Register.opsStatus.decode bytes)
    else none
  | _ => none

/-- Transfers that wait for an operation until it is done without an error: the status is busy,
again and again after a delay, and then it is not. -/
inductive Finishes : List BusEvent → Prop where
  | done {e : BusEvent} {status : OpStatus} (hshown : statusShown? e = some status)
      (herror : status.hasError = false) (hidle : status.busy = false) : Finishes [e]
  | busy {e : BusEvent} {status : OpStatus} {rest : List BusEvent}
      (hshown : statusShown? e = some status) (herror : status.hasError = false)
      (hbusy : status.busy = true) (hrest : Finishes rest) :
      Finishes (e :: .delay pollIntervalUs :: rest)

/-- Nothing finishes where the status cannot be read. -/
theorem not_finishes_cons {e : BusEvent} (h : statusShown? e = none) (rest : List BusEvent) :
    ¬ Finishes (e :: rest) := by
  intro hfinishes
  cases hfinishes with
  | done hshown _ _ | busy hshown _ _ _ => rw [h] at hshown; contradiction

/-- Where the status can be read, what follows has to fit it. -/
theorem finishes_cons_iff {e : BusEvent} {status : OpStatus} (h : statusShown? e = some status)
    (rest : List BusEvent) :
    Finishes (e :: rest) ↔ status.hasError = false ∧
      if status.busy then ∃ more, rest = .delay pollIntervalUs :: more ∧ Finishes more
      else rest = [] := by
  constructor
  · intro hfinishes
    cases hfinishes with
    | done hshown herror hidle =>
        obtain rfl := Option.some.inj (h.symm.trans hshown)
        rw [hidle]
        exact ⟨herror, rfl⟩
    | busy hshown herror hbusy hrest =>
        obtain rfl := Option.some.inj (h.symm.trans hshown)
        rw [hbusy]
        exact ⟨herror, _, rfl, hrest⟩
  · rintro ⟨herror, hrest⟩
    cases hbusy : status.busy with
    | false =>
        rw [hbusy] at hrest
        obtain rfl : rest = [] := hrest
        exact .done h herror hbusy
    | true =>
        rw [hbusy] at hrest
        obtain ⟨more, rfl, hmore⟩ := hrest
        exact .busy h herror hbusy hmore

/-- A register is read as the value its bytes stand for. -/
theorem outcome_readRegister {α β : Type} (r : Register α) (bus : Bus β) (d : Device) (chip : β) :
    (readRegister r).outcome bus d chip =
      ⟨((bus.read r.address r.length chip).1.mapError .bus).map fun bytes =>
          r.decode bytes.toList,
        (), d, (bus.read r.address r.length chip).2,
        [.read r.address r.length ((bus.read r.address r.length chip).1.map Vector.toList)]⟩ := by
  rw [readRegister, outcome_bind, outcome_read]
  cases (bus.read r.address r.length chip).1 <;> rfl

/-- Polling goes on in a way that finishes exactly when the status that was read is taken without
an error. -/
private theorem heed_isOk_iff {β : Type} (bus : Bus β) (delays : Nat)
    (hpoll : ∀ n, delays = n + 1 → ∀ d chip, ((poll n).outcome bus d chip).result.isOk = true ↔
      Finishes ((poll n).outcome bus d chip).events)
    (status : OpStatus) (d : Device) (chip : β) :
    ((heed delays status).outcome bus d chip).result.isOk = true ↔ status.hasError = false ∧
      if status.busy then
        ∃ more, ((heed delays status).outcome bus d chip).events = .delay pollIntervalUs :: more ∧
          Finishes more
      else ((heed delays status).outcome bus d chip).events = [] := by
  unfold heed
  cases status.hasError with
  | true => exact iff_of_false Bool.false_ne_true fun h => nomatch h.1
  | false =>
      cases status.busy with
      | false => exact iff_of_true rfl ⟨rfl, rfl⟩
      | true =>
          cases delays with
          | zero => exact iff_of_false Bool.false_ne_true fun ⟨_, _, h, _⟩ => nomatch h
          | succ n =>
              have hrest := hpoll n rfl d (bus.delay pollIntervalUs chip)
              simp only [Bool.false_eq_true, if_false, if_true, outcome_bind, outcome_delay,
                Outcome.andThen, Outcome.behind]
              rw [hrest]
              constructor
              · intro h
                exact ⟨trivial, _, rfl, h⟩
              · rintro ⟨-, more, hmore, h⟩
                rw [List.singleton_append] at hmore
                rwa [(List.cons.inj hmore).2]

/-- **Waiting for an operation**: it succeeds exactly when what went over the bus shows the
operation busy and at last done without an error. -/
theorem poll_isOk_iff {β : Type} (bus : Bus β) (delays : Nat) (d : Device) (chip : β) :
    ((poll delays).outcome bus d chip).result.isOk = true ↔
      Finishes ((poll delays).outcome bus d chip).events := by
  induction delays using Nat.strongRecOn generalizing d chip with
  | ind delays ih =>
      have hheed := heed_isOk_iff bus delays fun n hn d chip => ih n (by omega) d chip
      rw [poll_eq, outcome_bind, outcome_readRegister]
      cases bus.read Register.opsStatus.address Register.opsStatus.length chip with
      | mk answer chip =>
          cases answer with
          | error error => exact iff_of_false Bool.false_ne_true (not_finishes_cons rfl [])
          | ok bytes =>
              rw [Outcome.andThen_ok rfl]
              have hshown : statusShown? (.read Register.opsStatus.address
                  Register.opsStatus.length (.ok bytes.toList)) =
                    some (Register.opsStatus.decode bytes.toList) := rfl
              exact (hheed _ d chip).trans (finishes_cons_iff hshown _).symm

theorem outcome_wait {β : Type} (bus : Bus β) (d : Device) (chip : β) :
    wait.outcome bus d chip = (poll (maxDelays d.opTimeoutMs)).outcome bus d chip := by
  rw [wait, outcome_bind]
  rfl

theorem wait_isOk_iff {β : Type} (bus : Bus β) (d : Device) (chip : β) :
    (wait.outcome bus d chip).result.isOk = true ↔ Finishes (wait.outcome bus d chip).events := by
  rw [outcome_wait, poll_isOk_iff]

/-- A write and what follows it succeed exactly when the write does and what follows does. -/
theorem writeThen_isOk_iff {α β : Type} {bus : Bus β} {x : DeviceM α} {P : List BusEvent → Prop}
    (hx : ∀ d chip, (x.outcome bus d chip).result.isOk = true ↔ P (x.outcome bus d chip).events)
    (address : UInt16) (data : List UInt8) (d : Device) (chip : β) :
    ((write address data >>= fun _ => x).outcome bus d chip).result.isOk = true ↔
      ∃ rest, ((write address data >>= fun _ => x).outcome bus d chip).events =
        .write address data (.ok ()) :: rest ∧ P rest := by
  rw [outcome_bind, outcome_write]
  cases bus.write address data chip with
  | mk answer chip =>
      cases answer with
      | error error =>
          refine iff_of_false Bool.false_ne_true ?_
          rintro ⟨rest, hevents, -⟩
          cases hevents
      | ok _ =>
          rw [Outcome.andThen_ok rfl]
          simp only [Outcome.behind, hx, List.singleton_append]
          constructor
          · intro h
            exact ⟨_, rfl, h⟩
          · rintro ⟨rest, hevents, h⟩
            rwa [(List.cons.inj hevents).2]

/-- Transfers that start an operation and wait for it until it is done without an error. -/
def Completes (op : Op) (events : List BusEvent) : Prop :=
  ∃ waits, events = .write Register.opsControl.address (Register.opsControl.encode op.code)
    (.ok ()) :: waits ∧ Finishes waits

/-- **Running an operation**: it succeeds exactly when what went over the bus shows the operation
started and completed. -/
theorem runOp_isOk_iff {β : Type} (bus : Bus β) (op : Op) (d : Device) (chip : β) :
    ((runOp op).outcome bus d chip).result.isOk = true ↔
      Completes op ((runOp op).outcome bus d chip).events :=
  writeThen_isOk_iff (wait_isOk_iff bus) _ _ d chip

end Device
end RfidReader
