import RfidReader.Device.Basic

/-!
# RfidReader.Proofs.Device.Outcome

What a host procedure comes to when it meets a bus.

The outcome of a procedure holds its result, what the host keeps, where the
chip ends up, and what went over the bus.  Outcomes go through sequencing: a
procedure that follows another starts where that one ended (`outcome_bind`),
and one that runs on the chip alone leaves the state of the host as it was
(`outcome_liftThen`).
-/

namespace RfidReader

/-! ## Outcomes -/

/-- What a procedure comes to. -/
structure Outcome (σ β α : Type) where
  result : Except HostError α
  /-- The state of the host. -/
  host : σ
  device : Device
  /-- The state of the chip and its bus. -/
  chip : β
  /-- What went over the bus, in order. -/
  events : List BusEvent

namespace Outcome

variable {σ τ β α γ : Type}

/-- The same outcome behind what went over the bus before. -/
def behind (o : Outcome σ β α) (before : List BusEvent) : Outcome σ β α :=
  { o with events := before ++ o.events }

/-- Go on from an outcome, unless it is a failure. -/
def andThen (o : Outcome σ β α) (f : α → σ → Device → β → Outcome σ β γ) : Outcome σ β γ :=
  match o.result with
  | .error error => { o with result := .error error }
  | .ok a => (f a o.host o.device o.chip).behind o.events

/-- The same outcome, as far as another state of the host goes. -/
def mapHost (o : Outcome σ β α) (f : σ → τ) : Outcome τ β α := { o with host := f o.host }

theorem behind_nil (result : Except HostError α) (s : σ) (d : Device) (chip : β)
    (before : List BusEvent) :
    (⟨result, s, d, chip, []⟩ : Outcome σ β α).behind before = ⟨result, s, d, chip, before⟩ := by
  rw [behind, List.append_nil]

theorem andThen_error {o : Outcome σ β α} {error : HostError} (h : o.result = .error error)
    (f : α → σ → Device → β → Outcome σ β γ) :
    o.andThen f = { o with result := .error error } := by
  rw [andThen, h]

theorem andThen_ok {o : Outcome σ β α} {a : α} (h : o.result = .ok a)
    (f : α → σ → Device → β → Outcome σ β γ) :
    o.andThen f = (f a o.host o.device o.chip).behind o.events := by
  rw [andThen, h]

theorem andThen_congr {o : Outcome σ β α} {f g : α → σ → Device → β → Outcome σ β γ}
    (h : ∀ a s d chip, f a s d chip = g a s d chip) : o.andThen f = o.andThen g := by
  have hfg : f = g := by
    funext a s d chip
    exact h a s d chip
  rw [hfg]

/-- Another view of the host's state goes through sequencing. -/
theorem mapHost_andThen {o : Outcome σ β α} {o' : Outcome τ β α} (view : σ → τ)
    {f : α → σ → Device → β → Outcome σ β γ} {f' : α → τ → Device → β → Outcome τ β γ}
    (ho : o.mapHost view = o')
    (h : ∀ a s d chip, (f a s d chip).mapHost view = f' a (view s) d chip) :
    (o.andThen f).mapHost view = o'.andThen f' := by
  subst ho
  rcases o with ⟨result, host, device, chip, events⟩
  cases result with
  | error error => rfl
  | ok a =>
      show _ = (f' a (view host) device chip).behind events
      rw [← h a host device chip]
      rfl

/-- Go on from what a procedure on the chip comes to, with the state of the host as it was. -/
def resume (o : Outcome Unit β α) (s : σ) (f : α → Device → β → Outcome σ β γ) :
    Outcome σ β γ :=
  (o.mapHost fun _ => s).andThen fun a _ => f a

theorem resume_error {o : Outcome Unit β α} {error : HostError} (h : o.result = .error error)
    (s : σ) (f : α → Device → β → Outcome σ β γ) :
    o.resume s f = ⟨.error error, s, o.device, o.chip, o.events⟩ := by
  have hlifted : (o.mapHost fun _ => s).result = .error error := h
  rw [resume, andThen_error hlifted]
  rfl

theorem resume_ok {o : Outcome Unit β α} {a : α} (h : o.result = .ok a) (s : σ)
    (f : α → Device → β → Outcome σ β γ) :
    o.resume s f = (f a o.device o.chip).behind o.events := by
  have hlifted : (o.mapHost fun _ => s).result = .ok a := h
  rw [resume, andThen_ok hlifted]
  rfl

theorem resume_congr {o : Outcome Unit β α} {s : σ} {f g : α → Device → β → Outcome σ β γ}
    (h : ∀ a d chip, f a d chip = g a d chip) : o.resume s f = o.resume s g :=
  andThen_congr fun a _ => h a

theorem mapHost_resume {o : Outcome Unit β α} {s : σ} (view : σ → τ)
    {f : α → Device → β → Outcome σ β γ} {f' : α → Device → β → Outcome τ β γ}
    (h : ∀ a d chip, (f a d chip).mapHost view = f' a d chip) :
    (o.resume s f).mapHost view = o.resume (view s) f' :=
  mapHost_andThen view rfl fun a _ => h a

end Outcome

variable {σ τ β α γ : Type}

/-- What a procedure on a chip comes to. -/
def DeviceM.outcome (x : DeviceM α) (bus : Bus β) (d : Device) (chip : β) : Outcome Unit β α :=
  let program := x.run.run d
  let ((result, device), after) := program.run bus chip
  { result, host := (), device, chip := after, events := program.events bus chip }

/-- What a procedure with a state of the host comes to. -/
def HostM.outcome (x : HostM σ α) (bus : Bus β) (s : σ) (d : Device) (chip : β) :
    Outcome σ β α :=
  let program := (x.run.run s).run d
  let (((result, host), device), after) := program.run bus chip
  { result, host, device, chip := after, events := program.events bus chip }

namespace DeviceM

variable (bus : Bus β) (d : Device) (chip : β)

theorem outcome_bind (x : DeviceM α) (f : α → DeviceM γ) :
    (x >>= f).outcome bus d chip =
      (x.outcome bus d chip).andThen fun a _ => (f a).outcome bus := by
  let rest : Except HostError α × Device → BusProgram (Except HostError γ × Device) :=
    fun (result, d) =>
      match result with
      | .ok a => (f a).run.run d
      | .error error => .done (.error error, d)
  have hprogram : (x >>= f).run.run d = (x.run.run d).bind rest := by
    show (x.run.run d).bind _ = _
    congr 1
    funext ⟨result, d⟩
    cases result <;> rfl
  simp only [outcome, hprogram, BusProgram.run_bind, BusProgram.events_bind]
  cases h : ((x.run.run d).run bus chip).1.1 with
  | error error =>
      simp only [Outcome.andThen, rest, h, BusProgram.run, BusProgram.events, List.append_nil]
  | ok a =>
      simp only [Outcome.andThen, rest, h]
      rfl

variable {bus d chip} in
/-- A procedure that succeeds does so part by part. -/
theorem exists_of_bind_ok {x : DeviceM α} {f : α → DeviceM γ} {c : γ}
    (h : ((x >>= f).outcome bus d chip).result = .ok c) :
    ∃ a d' chip', (x.outcome bus d chip).result = .ok a ∧
      ((f a).outcome bus d' chip').result = .ok c ∧
      ((x >>= f).outcome bus d chip).events =
        (x.outcome bus d chip).events ++ ((f a).outcome bus d' chip').events := by
  rw [outcome_bind] at h ⊢
  cases hx : (x.outcome bus d chip).result with
  | error error =>
      rw [Outcome.andThen_error hx] at h
      contradiction
  | ok a =>
      rw [Outcome.andThen_ok hx] at h ⊢
      exact ⟨a, _, _, rfl, h, rfl⟩

theorem outcome_read (address : UInt16) (length : Nat) :
    (Device.read address length).outcome bus d chip =
      ⟨(bus.read address length chip).1.mapError .bus, (), d, (bus.read address length chip).2,
        [.read address length ((bus.read address length chip).1.map Vector.toList)]⟩ := rfl

theorem outcome_write (address : UInt16) (data : List UInt8) :
    (Device.write address data).outcome bus d chip =
      ⟨(bus.write address data chip).1.mapError .bus, (), d, (bus.write address data chip).2,
        [.write address data (bus.write address data chip).1]⟩ := rfl

theorem outcome_delay (us : UInt32) :
    (Device.delay us).outcome bus d chip = ⟨.ok (), (), d, bus.delay us chip, [.delay us]⟩ := rfl

end DeviceM

namespace HostM

/-- Work of the host that succeeds changes nothing. -/
theorem outcome_okThen {x : Except Fault α} {a : α} (h : x = .ok a) (f : α → HostM σ γ)
    (bus : Bus β) (s : σ) (d : Device) (chip : β) :
    ((liftM x : HostM σ α) >>= f).outcome bus s d chip = (f a).outcome bus s d chip := by
  subst h
  rfl

variable (bus : Bus β) (s : σ) (d : Device) (chip : β)

theorem outcome_bind (x : HostM σ α) (f : α → HostM σ γ) :
    (x >>= f).outcome bus s d chip =
      (x.outcome bus s d chip).andThen fun a => (f a).outcome bus := by
  let rest : (Except HostError α × σ) × Device →
      BusProgram ((Except HostError γ × σ) × Device) :=
    fun ((result, s), d) =>
      match result with
      | .ok a => ((f a).run.run s).run d
      | .error error => .done ((.error error, s), d)
  have hprogram : ((x >>= f).run.run s).run d = ((x.run.run s).run d).bind rest := by
    show ((x.run.run s).run d).bind _ = _
    congr 1
    funext ⟨⟨result, s⟩, d⟩
    cases result <;> rfl
  simp only [outcome, hprogram, BusProgram.run_bind, BusProgram.events_bind]
  cases h : (((x.run.run s).run d).run bus chip).1.1.1 with
  | error error =>
      simp only [Outcome.andThen, rest, h, BusProgram.run, BusProgram.events, List.append_nil]
  | ok a =>
      simp only [Outcome.andThen, rest, h]
      rfl

theorem outcome_getThen (f : σ → HostM σ γ) :
    (get >>= f).outcome bus s d chip = (f s).outcome bus s d chip := by
  rw [outcome_bind]
  rfl

theorem outcome_modifyThen (g : σ → σ) (f : Unit → HostM σ γ) :
    (modify g >>= f).outcome bus s d chip = (f ()).outcome bus (g s) d chip := by
  rw [outcome_bind]
  rfl

/-- A procedure on the chip leaves the state of the host alone. -/
theorem outcome_lift (x : DeviceM α) :
    (liftM x : HostM σ α).outcome bus s d chip = (x.outcome bus d chip).mapHost fun _ => s := by
  have hprogram : (((liftM x : HostM σ α).run.run s).run d) =
      (x.run.run d).bind fun (result, d) => .done ((result, s), d) := rfl
  simp only [outcome, DeviceM.outcome, hprogram, BusProgram.run_bind, BusProgram.events_bind,
    BusProgram.run, BusProgram.events, List.append_nil, Outcome.mapHost]

/-- What follows a procedure on the chip finds the state of the host as it was. -/
theorem outcome_liftThen (x : DeviceM α) (f : α → HostM σ γ) :
    ((liftM x : HostM σ α) >>= f).outcome bus s d chip =
      (x.outcome bus d chip).resume s fun a => (f a).outcome bus s := by
  rw [outcome_bind, outcome_lift]
  unfold Outcome.resume Outcome.andThen Outcome.mapHost
  cases (x.outcome bus d chip).result <;> rfl

/-- A procedure that is attempted succeeds with what it comes to. -/
theorem outcome_attempt (x : HostM σ α) :
    x.attempt.outcome bus s d chip =
      { x.outcome bus s d chip with result := .ok (x.outcome bus s d chip).result } := by
  have hprogram : ((x.attempt.run.run s).run d) =
      ((x.run.run s).run d).bind fun ((result, s), d) => .done ((.ok result, s), d) := rfl
  simp only [outcome, hprogram, BusProgram.run_bind, BusProgram.events_bind, BusProgram.run,
    BusProgram.events, List.append_nil]

theorem outcome_onSecond (x : HostM τ α) (t : τ) :
    x.onSecond.outcome bus (s, t) d chip = (x.outcome bus t d chip).mapHost fun t => (s, t) := by
  have hprogram : ((x.onSecond (σ := σ)).run.run (s, t)).run d =
      ((x.run.run t).run d).bind fun ((result, t), d) => .done ((result, (s, t)), d) := rfl
  simp only [outcome, hprogram, BusProgram.run_bind, BusProgram.events_bind,
    BusProgram.run, BusProgram.events, List.append_nil, Outcome.mapHost]

end HostM
end RfidReader
