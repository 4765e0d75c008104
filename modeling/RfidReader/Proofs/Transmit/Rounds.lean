import RfidReader.Proofs.Hopping.HopSequence
import RfidReader.Proofs.Transmit.RampContract

/-!
# RfidReader.Proofs.Transmit.Rounds

Hopping while rounds fail.

A round plans a ramp on the next channel and follows the plan.  Planning, the
bus, the hooks and the operations of the chip may fail in any round and in any
way; a `Round` says how they behave in one.  The transmitter moves on by one
channel in the rounds whose ramp is complete and stays where it is in the
others (`after_eq`).  So the complete rounds use the entries of the hop table
one after the other, and every round tells its hooks the entry it stands at,
which is the one its ramp locks the synthesizer to (`rounds_hop`).
-/

namespace RfidReader

/-! ## Planning -/

namespace DeviceM

variable {α β γ : Type} {bus : Bus β} {d : Device} {chip : β}

/-- A procedure that succeeds has come through its first part. -/
theorem exists_of_bind_eq_ok {x : DeviceM α} {f : α → DeviceM γ} {c : γ}
    (h : ((x >>= f).outcome bus d chip).result = .ok c) :
    ∃ a, (x.outcome bus d chip).result = .ok a ∧
      ((f a).outcome bus (x.outcome bus d chip).device (x.outcome bus d chip).chip).result
        = .ok c := by
  rw [outcome_bind] at h
  cases ha : (x.outcome bus d chip).result with
  | error error =>
      rw [Outcome.andThen_error ha] at h
      contradiction
  | ok a =>
      rw [Outcome.andThen_ok ha] at h
      exact ⟨a, rfl, h⟩

/-- Work of the host succeeds in a procedure as it does by itself. -/
theorem eq_ok_of_lift {x : Except Fault α} {a : α}
    (h : ((liftM x : DeviceM α).outcome bus d chip).result = .ok a) : x = .ok a := by
  cases x with
  | error fault => contradiction
  | ok b => exact congrArg Except.ok (Except.ok.inj h)

end DeviceM

namespace Transmitter

/-- A plan is made for the next channel, and its synthesizer settings for the same frequency. -/
theorem plan_eq_ok {β : Type} {bus : Bus β} {d : Device} {chip : β} {t : Transmitter}
    {antenna : UInt8} {mode : RfMode} {cdbm : Int16} {temperatureAdc : Option UInt16}
    {compensate : Bool} {plan : RampPlan}
    (h : ((t.plan antenna mode cdbm temperatureAdc compensate).outcome bus d chip).result
      = .ok plan) :
    plan.khz = t.region.nextKhz ∧
      t.region.synthesizerParams t.region.nextKhz = .ok plan.synthesizer := by
  unfold Transmitter.plan at h
  obtain ⟨synthesizer, hsynthesizer, h⟩ := DeviceM.exists_of_bind_eq_ok h
  obtain ⟨timeMs, -, h⟩ := DeviceM.exists_of_bind_eq_ok h
  obtain ⟨pins, -, h⟩ := DeviceM.exists_of_bind_eq_ok h
  obtain rfl := Except.ok.inj h
  exact ⟨rfl, DeviceM.eq_ok_of_lift hsynthesizer⟩

end Transmitter

/-! ## Rounds -/

/-- A request for a ramp on the next channel. -/
structure RampRequest where
  antenna : UInt8
  mode : RfMode
  cdbm : Int16
  temperatureAdc : Option UInt16
  compensate : Bool

namespace RampRequest

variable {κ : Type}

/-- The plan of a ramp as requested. -/
def plan (q : RampRequest) (t : Transmitter) : DeviceM RampPlan :=
  t.plan q.antenna q.mode q.cdbm q.temperatureAdc q.compensate

/-- Plan a ramp and follow the plan. -/
def carryOut (q : RampRequest) (slot : HookSlot κ) : HostM (Transmitter × κ) Unit := do
  let (t, _) ← get
  let plan ← (q.plan t : DeviceM RampPlan)
  Transmitter.rampUp plan slot

/-- The same, noting the calls of the hooks. -/
def carryOutNoted (q : RampRequest) (slot : HookSlot κ) :
    HostM (Transmitter × List HookCall × κ) Unit := do
  let (t, _) ← get
  let plan ← (q.plan t : DeviceM RampPlan)
  Transmitter.rampUpNoted plan { before := slot.before, after := slot.after }

end RampRequest

/-- A round: what is asked for, and how the hooks and the bus behave in it. -/
structure Round (κ β : Type) where
  request : RampRequest
  slot : HookSlot κ
  /-- The state of the hooks. -/
  hookState : κ
  bus : Bus β
  device : Device
  /-- The state of the chip and its bus. -/
  chip : β

namespace Round

variable {κ β : Type} (r : Round κ β) (t : Transmitter)

/-- What the round comes to. -/
def outcome : Outcome (Transmitter × κ) β Unit :=
  (r.request.carryOut r.slot).outcome r.bus (t, r.hookState) r.device r.chip

/-- What the round comes to, with the calls of the hooks noted. -/
def noted : Outcome (Transmitter × List HookCall × κ) β Unit :=
  (r.request.carryOutNoted r.slot).outcome r.bus (t, [], r.hookState) r.device r.chip

/-- What planning comes to. -/
def planned : Outcome Unit β RampPlan := (r.request.plan t).outcome r.bus r.device r.chip

/-- What following a plan comes to after planning. -/
def followed (plan : RampPlan) : Outcome (Transmitter × List HookCall × κ) β Unit :=
  (Transmitter.rampUpNoted plan { before := r.slot.before, after := r.slot.after }).outcome r.bus
    (t, [], r.hookState) (r.planned t).device (r.planned t).chip

/-- The calls of the hooks. -/
def calls : List HookCall := (r.noted t).host.2.1

/-- Whether the ramp of the round is complete, so that the hook after it is called. -/
def completed : Bool := (r.calls t).any fun call => !call.isBefore

variable {r t}

theorem noted_of_error {error : HostError} (h : (r.planned t).result = .error error) :
    r.noted t = ⟨.error error, (t, [], r.hookState), (r.planned t).device, (r.planned t).chip,
      (r.planned t).events⟩ := by
  rw [noted, RampRequest.carryOutNoted, HostM.outcome_getThen]
  simp only
  rw [HostM.outcome_liftThen]
  exact Outcome.resume_error h _ _

theorem noted_of_ok {plan : RampPlan} (h : (r.planned t).result = .ok plan) :
    r.noted t = (r.followed t plan).behind (r.planned t).events := by
  rw [noted, RampRequest.carryOutNoted, HostM.outcome_getThen]
  simp only
  rw [HostM.outcome_liftThen]
  exact Outcome.resume_ok h _ _

/-- Without the calls of its hooks, a noted round is the plain one. -/
theorem forget_noted (r : Round κ β) (t : Transmitter) :
    (r.noted t).mapHost (Prod.map id Prod.snd) = r.outcome t := by
  rw [noted, RampRequest.carryOutNoted, HostM.outcome_getThen, outcome, RampRequest.carryOut,
    HostM.outcome_getThen]
  simp only
  rw [HostM.outcome_liftThen, HostM.outcome_liftThen]
  apply Outcome.mapHost_resume
  intro plan d chip
  obtain ⟨buffer, hbuffer, -⟩ := t.exists_rampBuffer plan
  exact Transmitter.forget_rampUpNoted hbuffer _ r.bus [] r.hookState d chip

/-- Following a plan keeps the contract of its ramp. -/
theorem exists_contract {plan : RampPlan} {buffer : AggregateBuffer}
    (hbuffer : t.rampBuffer plan = .ok buffer) :
    ∃ course, RampContract t plan r.hookState buffer course (r.followed t plan) := by
  rw [followed, Transmitter.rampUpNoted, Transmitter.outcome_rampUpAround hbuffer,
    Transmitter.isCarrierOn, Device.outcome_readRegister]
  cases r.bus.read Register.cwIsOn.address Register.cwIsOn.length (r.planned t).chip with
  | mk answer chip =>
      cases answer with
      | error error =>
          exact ⟨_, RampContract.of_unready (fun _ h => by cases h) fun _ h => by cases h⟩
      | ok bytes =>
          cases hon : Register.cwIsOn.decode bytes.toList with
          | true =>
              rw [Outcome.resume_ok (a := true) (congrArg Except.ok hon)]
              exact ⟨_, RampContract.of_on hon⟩
          | false =>
              rw [Outcome.resume_ok (a := false) (congrArg Except.ok hon)]
              exact Transmitter.contract_of_off hon _ r.bus r.hookState _ chip

end Round

/-! ## Synthesizer settings -/

namespace Instruction

/-- Whether an instruction writes to a register. -/
def isWriteTo {α : Type} (r : Register α) : Instruction → Bool
  | .write address _ => address == r.address
  | _ => false

end Instruction

namespace Sequence

theorem filter_loopSettingsFor (s : PowerSettings) (target : Option AdcTarget) :
    (loopSettingsFor s target).instructions.filter (Instruction.isWriteTo Register.synthesizer)
      = [] := by
  unfold loopSettingsFor
  cases PowerSettings.live? target <;> rfl

theorem filter_rampAndControl (s : PowerSettings) :
    (rampAndControl s).instructions.filter (Instruction.isWriteTo Register.synthesizer) = [] := by
  have hsettings := filter_loopSettingsFor s s.adcTarget
  unfold rampAndControl
  simp only [Batch.instructions, Batch.instructionsOf, List.filter_append, hsettings]
  cases s.isClosedLoop <;> rfl

theorem filter_boostedRamp (s : PowerSettings) :
    (boostedRamp s).instructions.filter (Instruction.isWriteTo Register.synthesizer) = [] := by
  have hboost := filter_loopSettingsFor s s.boostTarget
  have hsettle := filter_loopSettingsFor s s.adcTarget
  unfold boostedRamp
  split
  · exact filter_rampAndControl s
  · simp only [Batch.instructions, Batch.instructionsOf, List.filter_append, hboost, hsettle]
    rfl

end Sequence

namespace Transmitter

/-- A ramp writes to the synthesizer once, the settings of its plan. -/
theorem filter_rampBatches (t : Transmitter) (plan : RampPlan) :
    (Batch.instructionsOf (t.rampBatches plan)).filter
        (Instruction.isWriteTo Register.synthesizer) =
      [Sequence.write Register.synthesizer
        (.ofIndex plan.synthesizer.nDivider plan.synthesizer.rIndex true)] := by
  have hramp : (if t.boosts plan.power then Sequence.boostedRamp plan.power
      else Sequence.rampAndControl plan.power).instructions.filter
        (Instruction.isWriteTo Register.synthesizer) = [] := by
    split
    · exact Sequence.filter_boostedRamp plan.power
    · exact Sequence.filter_rampAndControl plan.power
  unfold rampBatches
  simp only [Batch.instructionsOf, List.filter_append, hramp]
  rfl

end Transmitter

/-! ## What a round does -/

namespace RampContract

variable {κ β : Type} {t : Transmitter} {plan : RampPlan} {k : κ} {buffer : AggregateBuffer}
  {course : RampCourse} {o : Outcome (Transmitter × List HookCall × κ) β Unit}

/-- Both hooks are told of the same ramp. -/
theorem context_eq (h : RampContract t plan k buffer course o) :
    ∀ call ∈ o.host.2.1, call.context = t.rampContext plan := by
  intro call hcall
  rw [h.calls_eq] at hcall
  rcases List.mem_append.mp hcall with hbefore | hafter
  · exact (h.before_eq call (Option.mem_toList.mp hbefore)).2.1
  · exact (h.after_eq call (Option.mem_toList.mp hafter)).2.1

/-- The hook after a ramp is called exactly when the ramp is complete. -/
theorem any_after_iff (h : RampContract t plan k buffer course o) :
    (o.host.2.1.any fun call => !call.isBefore) = true ↔
      AggregateCompleted buffer course.carried := by
  rw [h.calls_eq, List.any_eq_true]
  constructor
  · rintro ⟨call, hcall, hnot⟩
    by_contra hincomplete
    have hafter := (h.incomplete hincomplete).2
    rw [RampCourse.calls, hafter, Option.toList_none, List.append_nil] at hcall
    rw [(h.before_eq call (Option.mem_toList.mp hcall)).1] at hnot
    contradiction
  · intro hcomplete
    obtain ⟨-, call, hafter, -⟩ := h.complete hcomplete
    refine ⟨call, ?_, ?_⟩
    · rw [RampCourse.calls, hafter]
      exact List.mem_append_right _ (List.mem_singleton_self call)
    · rw [(h.after_eq call hafter).1]
      rfl

end RampContract

namespace Round

variable {κ β : Type} {r : Round κ β} {t : Transmitter}

/-- A round that is not planned does nothing. -/
theorem calls_of_error {error : HostError} (h : (r.planned t).result = .error error) :
    r.calls t = [] := by
  rw [calls, noted_of_error h]

theorem calls_of_ok {plan : RampPlan} (h : (r.planned t).result = .ok plan) :
    r.calls t = (r.followed t plan).host.2.1 := by
  rw [calls, noted_of_ok h]
  rfl

/-- **Step**: a complete round moves the transmitter on, any other leaves it alone. -/
theorem host_outcome (r : Round κ β) (t : Transmitter) :
    (r.outcome t).host.1 = if r.completed t then t.moved else t := by
  rw [← forget_noted]
  show (r.noted t).host.1 = _
  cases hplan : (r.planned t).result with
  | error error =>
      rw [completed, calls_of_error hplan, noted_of_error hplan]
      rfl
  | ok plan =>
      obtain ⟨buffer, hbuffer, -⟩ := t.exists_rampBuffer plan
      obtain ⟨course, hcontract⟩ := exists_contract (r := r) hbuffer
      have hiff := hcontract.any_after_iff
      rw [completed, calls_of_ok hplan, noted_of_ok hplan]
      show (r.followed t plan).host.1 = _
      split
      · next hcompleted => exact (hcontract.complete (hiff.mp hcompleted)).1
      · next hcompleted => exact (hcontract.incomplete (mt hiff.mpr hcompleted)).1

end Round

/-! ## Runs of rounds -/

namespace Transmitter

variable {κ β : Type}

/-- The transmitter after some rounds. -/
def after (t : Transmitter) (rounds : List (Round κ β)) : Transmitter :=
  rounds.foldl (fun t r => (r.outcome t).host.1) t

/-- How many of some rounds are complete. -/
def completions (t : Transmitter) : List (Round κ β) → Nat
  | [] => 0
  | r :: rounds => (r.completed t).toNat + completions (r.outcome t).host.1 rounds

/-- **Run**: rounds change nothing but the active channel, which moves on by one for each round
that is complete. -/
theorem after_eq (t : Transmitter) (rounds : List (Round κ β)) :
    t.after rounds =
      { t with region := ActiveRegion.advance^[t.completions rounds] t.region } := by
  induction rounds generalizing t with
  | nil => rfl
  | cons r rounds ih =>
      show (r.outcome t).host.1.after rounds = _
      rw [ih, completions, r.host_outcome t]
      cases r.completed t with
      | false => rw [Bool.toNat_false, Nat.zero_add, if_neg Bool.false_ne_true]
      | true =>
          rw [Bool.toNat_true, Nat.add_comm, Function.iterate_succ_apply, if_pos rfl]
          rfl

/-- The entries of the hop table that the complete rounds among some rounds use, in order. -/
def entriesUsed (t : Transmitter) : List (Round κ β) → List Nat
  | [] => []
  | r :: rounds =>
    if r.completed t then t.region.nextIndex :: entriesUsed (r.outcome t).host.1 rounds
    else entriesUsed (r.outcome t).host.1 rounds

/-- The complete rounds use one entry after the other, from the next one on. -/
theorem entriesUsed_eq (t : Transmitter) (h : t.region.activeIndex < t.region.hopTable.length)
    (rounds : List (Round κ β)) :
    t.entriesUsed rounds = (List.range (t.completions rounds)).map fun hops =>
      (t.region.nextIndex + hops) % t.region.hopTable.length := by
  induction rounds generalizing t with
  | nil => rfl
  | cons r rounds ih =>
      rw [entriesUsed, completions]
      cases hcompleted : r.completed t with
      | false =>
          have hstays : (r.outcome t).host.1 = t := by
            rw [r.host_outcome, hcompleted, if_neg Bool.false_ne_true]
          rw [if_neg Bool.false_ne_true, hstays, ih t h, Bool.toNat_false, Nat.zero_add]
      | true =>
          have hmoves : (r.outcome t).host.1 = t.moved := by
            rw [r.host_outcome, hcompleted, if_pos rfl]
          have hnext : t.region.nextIndex < t.region.hopTable.length :=
            ActiveRegion.nextIndex_lt (List.ne_nil_of_length_pos (Nat.zero_lt_of_lt h))
          rw [if_pos rfl, hmoves, ih t.moved hnext, Bool.toNat_true, Nat.add_comm 1,
            List.range_succ_eq_map, List.map_cons, List.map_map, Nat.add_zero,
            Nat.mod_eq_of_lt hnext]
          congr 1
          apply List.map_congr_left
          intro hops _
          have hagain : t.moved.region.nextIndex
              = (t.region.nextIndex + 1) % t.region.hopTable.length :=
            ActiveRegion.nextIndex_iterate_advance h 1
          rw [hagain, Function.comp_apply]
          show _ % t.region.hopTable.length = _
          rw [Nat.mod_add_mod, Nat.succ_eq_add_one, Nat.add_assoc, Nat.add_comm 1]

end Transmitter

/-- What a round does with an entry of the hop table: its hooks are told the entry and its
frequency, and its ramp locks the synthesizer to that frequency.  Its aggregate operation is
complete exactly when the round counts as `completed`. -/
structure Round.StandsAt {κ β : Type} (r : Round κ β) (t : Transmitter) (index : Nat)
    (khz : UInt32) : Prop where
  told : ∀ call ∈ r.calls t, call.context.index = index ∧ call.context.khz = khz
  /-- A round that cannot be planned ends there. -/
  unplanned : ∀ error, (r.planned t).result = .error error →
    (r.noted t).result = .error error ∧ (r.noted t).events = (r.planned t).events ∧
      r.calls t = [] ∧ r.completed t = false
  planned : ∀ plan, (r.planned t).result = .ok plan → ∃ buffer course params,
    r.noted t = (r.followed t plan).behind (r.planned t).events ∧
      t.rampBuffer plan = .ok buffer ∧
      RampContract t plan r.hookState buffer course (r.followed t plan) ∧
      (r.completed t = true ↔ AggregateCompleted buffer course.carried) ∧
      t.region.synthesizerParams khz = .ok params ∧ params.rIndex < 8 ∧
      buffer.instructions.filter (Instruction.isWriteTo Register.synthesizer) =
        [Sequence.write Register.synthesizer (.ofIndex params.nDivider params.rIndex true)]

/-- A round stands at the next channel of the transmitter. -/
theorem Round.standsAt_next {κ β : Type} (r : Round κ β) (t : Transmitter) :
    r.StandsAt t t.region.nextIndex t.region.nextKhz where
  told := by
    cases hplan : (r.planned t).result with
    | error error =>
        rw [calls_of_error hplan]
        intro call hcall
        contradiction
    | ok plan =>
        obtain ⟨buffer, hbuffer, -⟩ := t.exists_rampBuffer plan
        obtain ⟨course, hcontract⟩ := exists_contract (r := r) hbuffer
        rw [calls_of_ok hplan]
        intro call hcall
        rw [hcontract.context_eq call hcall]
        exact ⟨rfl, (Transmitter.plan_eq_ok hplan).1⟩
  unplanned error hplan := by
    rw [completed, calls_of_error hplan, noted_of_error hplan]
    exact ⟨rfl, rfl, rfl, rfl⟩
  planned plan hplan := by
    obtain ⟨buffer, hbuffer, hholds⟩ := t.exists_rampBuffer plan
    obtain ⟨course, hcontract⟩ := exists_contract (r := r) hbuffer
    refine ⟨buffer, course, plan.synthesizer, noted_of_ok hplan, hbuffer, hcontract, ?_,
      (Transmitter.plan_eq_ok hplan).2,
      ActiveRegion.rIndex_lt (Transmitter.plan_eq_ok hplan).2, ?_⟩
    · rw [completed, calls_of_ok hplan]
      exact hcontract.any_after_iff
    · rw [hholds.instructions_eq]
      exact t.filter_rampBatches plan

/-- **Hopping across failures**: in a run of rounds that may each fail anywhere, the complete ones
use the entries of the hop table one after the other, and every round, complete or not, stands at
the entry behind those used before it. -/
theorem Transmitter.rounds_hop {κ β : Type} {t : Transmitter} (hselected : t.region.Selected)
    (hchannels : t.region.hopTable ≠ []) (rounds : List (Round κ β)) :
    let entry (hops : Nat) := (t.region.nextIndex + hops) % t.region.hopTable.length
    t.entriesUsed rounds = (List.range (t.completions rounds)).map entry ∧
      ∀ earlier r later, rounds = earlier ++ r :: later →
        let now := t.after earlier
        let index := entry (t.completions earlier)
        (r.noted now).mapHost (Prod.map id Prod.snd) = r.outcome now ∧
          ∃ channel, t.region.hopTable[index]? = some channel ∧
            r.StandsAt now index (t.region.region.channels.channelKhz channel) := by
  have hfollows := hselected.followsPlan
  have hlt := hfollows.activeIndex_lt.resolve_right fun hempty => hchannels hempty.1
  intro entry
  refine ⟨t.entriesUsed_eq hlt rounds, ?_⟩
  intro earlier r _ _ now index
  refine ⟨r.forget_noted now, ?_⟩
  let hops := t.completions earlier
  have hregion : now.region = ActiveRegion.advance^[hops] t.region := by
    rw [show now = _ from t.after_eq earlier]
  have hnow : now.region.FollowsPlan := hregion ▸ hfollows.iterate_advance hops
  have hnext : now.region.nextIndex = index := by
    rw [hregion, ActiveRegion.nextIndex_iterate_advance hlt]
  -- Hops leave the hop table and the channel plan alone.
  have htable : now.region.hopTable = t.region.hopTable := by
    rw [hregion, ActiveRegion.iterate_advance hlt]
  have hplan : now.region.region = t.region.region := by
    rw [hregion, ActiveRegion.iterate_advance hlt]
  obtain ⟨channel, hchannel, hkhz⟩ := hnow.exists_next (htable ▸ hchannels)
  rw [htable, hnext] at hchannel
  have hstands := r.standsAt_next now
  rw [hnext, hkhz, hplan] at hstands
  exact ⟨channel, hchannel, hstands⟩

/-- Three rounds of an uncalibrated transmitter on four channels in order.  The second is refused
by its hook, so the third stands at the same entry and completes there. -/
theorem Transmitter.rounds_hop_refused :
    let t : Transmitter :=
      { calibration :=
          { version := .notFound, customerVersion := 0xFF, params := .uncalibrated,
            tables := .standard, filter := {}, drmOffsets := [], otherOffsets := [] }
        region := .start .plain [] 24000 [1, 2, 3, 4]
        board := {} }
    let bus : Bus Unit :=
      { read := fun _ length chip => (.ok (.replicate length 0), chip)
        write := fun _ _ chip => (.ok (), chip)
        delay := fun _ chip => chip }
    let complete : Round Unit Unit := ⟨⟨1, 103, 2500, none, false⟩, {}, (), bus, {}, ()⟩
    let veto : RampHooks Unit := { before := fun _ => throw (.host (.refused "channel busy")) }
    let refused : Round Unit Unit := { complete with slot := { hooks? := some veto } }
    t.entriesUsed [complete, refused, complete] = [1, 2] ∧
      complete.StandsAt (t.after [complete, refused]) 2 903750 := by
  intro t bus complete veto refused
  have hselected : t.region.Selected := by
    apply @ActiveRegion.Selected.ofRegion CyclicSource _ .plain 24000 ⟨[], []⟩
    rw [ActiveRegion.fst_run_ofRegion, if_neg (by decide)]
    rfl
  have htwice : t.completions [complete, refused, complete] = 2 := by decide +kernel
  have honce : t.completions [complete, refused] = 1 := by decide +kernel
  obtain ⟨hused, hrounds⟩ :=
    t.rounds_hop hselected (by decide) [complete, refused, complete]
  obtain ⟨-, channel, hchannel, hstands⟩ := hrounds [complete, refused] complete [] rfl
  rw [htwice] at hused
  rw [honce] at hchannel hstands
  obtain rfl : 3 = channel := Option.some.inj hchannel
  exact ⟨hused, hstands⟩

end RfidReader
