import RfidReader.Proofs.Device.Operation
import RfidReader.Proofs.Word

/-!
# RfidReader.Proofs.Device.Waiting

How long an operation is waited for, and with which verdict.

`pollUntil` is waiting by the clock: it adds up the time that has passed, stopping at the
largest number of microseconds, and gives up when that has reached the timeout.  It is what
`wait` does (`wait_eq_pollUntil`), since the clock reaches every timeout, the largest one
included, after the delays that `wait` counts down.

Every answer to a status read has a verdict at the index it is read at, or none if polling goes
on (`verdict?`).  Waiting ends at the first index with a verdict, whatever the chip answers, and
no later than the timeout allows (`wait_verdict`).
-/

namespace RfidReader
namespace Device

open DeviceM

/-! ## Waiting by the clock -/

/-- Addition that stops at the largest word. -/
def saturatingAdd (a b : UInt32) : UInt32 := clampUInt32 (a.toNat + b.toNat)

/-- The time an operation is waited for, in microseconds. -/
def timeoutUs (timeoutMs : UInt32) : UInt32 := clampUInt32 (timeoutMs.toNat * 1000)

/-- The delays until a clock that has run for some time reaches the timeout. -/
def delaysLeft (timeoutUs elapsedUs : UInt32) : Nat :=
  (timeoutUs.toNat - elapsedUs.toNat + 99) / pollIntervalUs.toNat

/-- The clock keeps moving until it has reached the timeout. -/
theorem lt_saturatingAdd {timeoutUs elapsedUs : UInt32} (h : elapsedUs < timeoutUs) :
    elapsedUs.toNat < (saturatingAdd elapsedUs pollIntervalUs).toNat := by
  have hlt : elapsedUs.toNat < timeoutUs.toNat := h
  have htimeout := timeoutUs.toNat_lt
  have hinterval : pollIntervalUs.toNat = 100 := rfl
  rw [saturatingAdd, toNat_clampUInt32]
  omega

/-- Where the clock stops short of a whole interval, one delay is left. -/
theorem delaysLeft_eq_succ {timeoutUs elapsedUs : UInt32} (h : elapsedUs < timeoutUs) :
    delaysLeft timeoutUs elapsedUs =
      delaysLeft timeoutUs (saturatingAdd elapsedUs pollIntervalUs) + 1 := by
  have hlt : elapsedUs.toNat < timeoutUs.toNat := h
  have htimeout := timeoutUs.toNat_lt
  have hinterval : pollIntervalUs.toNat = 100 := rfl
  rw [delaysLeft, delaysLeft, saturatingAdd, toNat_clampUInt32, hinterval]
  omega

theorem delaysLeft_of_le {timeoutUs elapsedUs : UInt32} (h : timeoutUs ≤ elapsedUs) :
    delaysLeft timeoutUs elapsedUs = 0 := by
  have hle : timeoutUs.toNat ≤ elapsedUs.toNat := h
  rw [delaysLeft, Nat.sub_eq_zero_of_le hle]
  rfl

/-- Poll the status until the time that has passed reaches the timeout. -/
def pollUntil (timeoutUs elapsedUs : UInt32) : DeviceM OpStatus := do
  let status ← readRegister Register.opsStatus
  if status.hasError then throw (.op status)
  if !status.busy then return status
  if _h : timeoutUs ≤ elapsedUs then throw (.timeout status)
  else
    delay pollIntervalUs
    pollUntil timeoutUs (saturatingAdd elapsedUs pollIntervalUs)
termination_by timeoutUs.toNat - elapsedUs.toNat
decreasing_by
  have hlt : elapsedUs.toNat < timeoutUs.toNat := Nat.lt_of_not_le _h
  have hmoves := lt_saturatingAdd (UInt32.lt_iff_toNat_lt.mpr hlt)
  omega

/-- Polling by the clock counts down the delays that are left. -/
theorem pollUntil_eq_poll (timeoutUs elapsedUs : UInt32) :
    pollUntil timeoutUs elapsedUs = poll (delaysLeft timeoutUs elapsedUs) := by
  induction hleft : delaysLeft timeoutUs elapsedUs generalizing elapsedUs with
  | zero =>
      have hup : timeoutUs ≤ elapsedUs := by
        refine UInt32.not_lt.mp fun h => ?_
        rw [delaysLeft_eq_succ h] at hleft
        contradiction
      rw [pollUntil, poll_eq]
      congr 1
      funext status
      unfold heed
      rw [dif_pos hup]
      cases status.hasError <;> cases status.busy <;> rfl
  | succ n ih =>
      have hlt : elapsedUs < timeoutUs := by
        refine UInt32.not_le.mp fun h => ?_
        rw [delaysLeft_of_le h] at hleft
        contradiction
      rw [delaysLeft_eq_succ hlt] at hleft
      rw [pollUntil, poll_eq]
      congr 1
      funext status
      unfold heed
      rw [dif_neg (UInt32.not_le.mpr hlt), ih _ (Nat.succ.inj hleft)]
      cases status.hasError <;> cases status.busy <;> rfl

/-- Waiting for an operation goes by the clock. -/
theorem wait_eq_pollUntil :
    wait = (do
      let device ← get
      pollUntil (timeoutUs device.opTimeoutMs) 0) := by
  rw [wait]
  congr 1
  funext device
  rw [pollUntil_eq_poll]
  rfl

/-! ## Verdicts -/

/-- The verdict on what a status read is answered with, by whether the time is up; there is none
while polling goes on.  A transfer that failed comes first, then an error code of the operation, be
it busy or not, then its end, and the time last. -/
def judge? (timeUp : Bool) : Except BusError OpStatus → Option (Except HostError OpStatus)
  | .error error => some (.error (.bus error))
  | .ok status =>
    if status.errorCode ≠ 0 then some (.error (.op status))
    else if !status.busy then some (.ok status)
    else if timeUp then some (.error (.timeout status))
    else none

/-- The verdict on what the status read at an index is answered with. -/
def verdict? (timeoutUs : UInt32) (i : Nat) (answer : Except BusError OpStatus) :
    Option (Except HostError OpStatus) :=
  judge? (timeoutUs.toNat ≤ i * pollIntervalUs.toNat) answer

theorem judge?_ok (timeUp : Bool) (status : OpStatus) :
    judge? timeUp (.ok status) =
      if status.hasError then some (.error (.op status))
      else if !status.busy then some (.ok status)
      else if timeUp then some (.error (.timeout status))
      else none := by
  simp only [judge?, status.hasError_iff]

/-- Once the time is up there is a verdict. -/
theorem judge?_of_timeUp (answer : Except BusError OpStatus) : judge? true answer ≠ none := by
  cases answer with
  | error error => exact Option.some_ne_none _
  | ok status =>
      rw [judge?_ok]
      cases status.hasError <;> cases status.busy <;> simp

section Polled

variable {β : Type} (bus : Bus β)

/-- The state of a chip after some polls, each followed by a delay. -/
def polled : β → Nat → β
  | chip, 0 => chip
  | chip, i + 1 =>
    polled (bus.delay pollIntervalUs
      (bus.read Register.opsStatus.address Register.opsStatus.length chip).2) i

variable (chip : β)

/-- What the status read at an index is answered with, if polling gets that far. -/
def answerAt (i : Nat) : Except BusError (Vector UInt8 Register.opsStatus.length) :=
  (bus.read Register.opsStatus.address Register.opsStatus.length (polled bus chip i)).1

/-- The status read at an index. -/
def statusAt (i : Nat) : Except BusError OpStatus :=
  (answerAt bus chip i).map fun bytes => Register.opsStatus.decode bytes.toList

/-- The status read at an index, as it goes over the bus. -/
def statusRead (i : Nat) : BusEvent :=
  .read Register.opsStatus.address Register.opsStatus.length
    ((answerAt bus chip i).map Vector.toList)

/-- What goes over the bus up to the status read at an index: that many delays, each of them
behind a read. -/
def pollsTo (i : Nat) : List BusEvent :=
  (List.range i).flatMap (fun j => [statusRead bus chip j, .delay pollIntervalUs]) ++
    [statusRead bus chip i]

theorem pollsTo_succ (i : Nat) :
    pollsTo bus chip (i + 1) =
      statusRead bus chip 0 :: .delay pollIntervalUs ::
        pollsTo bus (polled bus chip 1) i := by
  rw [pollsTo, pollsTo, List.range_succ_eq_map, List.flatMap_cons, List.flatMap_map]
  rfl

/-- One poll: it ends with the verdict on the answer it gets, and goes on after a delay where there
is none. -/
theorem outcome_poll (delays : Nat) (d : Device) :
    (poll delays).outcome bus d chip =
      match judge? (delays ≤ 0) (statusAt bus chip 0) with
      | some result =>
        ⟨result, (), d, (bus.read Register.opsStatus.address Register.opsStatus.length chip).2,
          [statusRead bus chip 0]⟩
      | none =>
        ((poll (delays - 1)).outcome bus d (polled bus chip 1)).behind
          [statusRead bus chip 0, .delay pollIntervalUs] := by
  rw [poll_eq, outcome_bind, outcome_readRegister]
  simp only [statusAt, statusRead, answerAt, polled]
  cases bus.read Register.opsStatus.address Register.opsStatus.length chip with
  | mk answer chip' =>
      cases answer with
      | error error => rfl
      | ok bytes =>
          rw [Outcome.andThen_ok rfl]
          simp only [Except.map, judge?_ok, heed]
          cases (Register.opsStatus.decode bytes.toList).hasError with
          | true => rfl
          | false =>
              cases (Register.opsStatus.decode bytes.toList).busy with
              | false => rfl
              | true => cases delays <;> rfl

/-- What polling comes to: the verdict on the answer to the first read that has one, with the time
up after a number of delays. -/
structure EndsAt (delays : Nat) (o : Outcome Unit β OpStatus) (i : Nat) : Prop where
  le : i ≤ delays
  goes_on : ∀ j < i, judge? (delays ≤ j) (statusAt bus chip j) = none
  verdict : judge? (delays ≤ i) (statusAt bus chip i) = some o.result
  events_eq : o.events = pollsTo bus chip i

variable {bus chip} in
/-- Where the first read has no verdict, polling ends as it does from the next one on. -/
theorem EndsAt.succ {delays i : Nat} {o : Outcome Unit β OpStatus}
    (hnone : judge? (delays + 1 ≤ 0) (statusAt bus chip 0) = none)
    (h : EndsAt bus (polled bus chip 1) delays o i) :
    EndsAt bus chip (delays + 1)
      (o.behind [statusRead bus chip 0, .delay pollIntervalUs]) (i + 1) := by
  have hshift (j : Nat) : decide (delays + 1 ≤ j + 1) = decide (delays ≤ j) := by
    simp only [Nat.add_le_add_iff_right]
  refine ⟨Nat.succ_le_succ h.le, fun j hj => ?_, ?_, ?_⟩
  · cases j with
    | zero => exact hnone
    | succ j =>
        rw [hshift]
        exact h.goes_on j (Nat.lt_of_succ_lt_succ hj)
  · rw [hshift]
    exact h.verdict
  · rw [pollsTo_succ, ← h.events_eq]
    rfl

/-- Polling ends at the first read whose answer has a verdict. -/
theorem exists_endsAt_poll (delays : Nat) (d : Device) :
    ∃ i, EndsAt bus chip delays ((poll delays).outcome bus d chip) i := by
  induction delays generalizing chip with
  | zero =>
      rw [outcome_poll]
      cases h : judge? (0 ≤ 0) (statusAt bus chip 0) with
      | some result => exact ⟨0, Nat.le_refl 0, fun j hj => absurd hj (Nat.not_lt_zero j), h, rfl⟩
      | none => exact absurd h (judge?_of_timeUp _)
  | succ n ih =>
      rw [outcome_poll]
      cases h : judge? (n + 1 ≤ 0) (statusAt bus chip 0) with
      | some result =>
          exact ⟨0, Nat.zero_le _, fun j hj => absurd hj (Nat.not_lt_zero j), h, rfl⟩
      | none =>
          obtain ⟨i, hi⟩ := ih (polled bus chip 1)
          exact ⟨i + 1, hi.succ h⟩

end Polled

/-- The time is up at an index once no delay is left. -/
theorem timeUp_iff (timeoutUs : UInt32) (i : Nat) :
    timeoutUs.toNat ≤ i * pollIntervalUs.toNat ↔ delaysLeft timeoutUs 0 ≤ i := by
  have hinterval : pollIntervalUs.toNat = 100 := rfl
  rw [delaysLeft, hinterval, UInt32.toNat_zero]
  omega

/-- **Waiting for an operation**: it counts the time that has passed, and whatever the chip
answers it ends at the first status read with a verdict, having read no more statuses than fit
the timeout, with one delay behind each read but the last. -/
theorem wait_verdict {β : Type} (bus : Bus β) (d : Device) (chip : β) :
    (wait = do
      let device ← get
      pollUntil (timeoutUs device.opTimeoutMs) 0) ∧
    let timeout := timeoutUs d.opTimeoutMs
    let o := wait.outcome bus d chip
    ∃ i, i ≤ (timeout.toNat + 99) / 100 ∧
      (∀ j < i, verdict? timeout j (statusAt bus chip j) = none) ∧
      verdict? timeout i (statusAt bus chip i) = some o.result ∧
      o.events = pollsTo bus chip i := by
  refine ⟨wait_eq_pollUntil, ?_⟩
  obtain ⟨i, h⟩ := exists_endsAt_poll bus chip (delaysLeft (timeoutUs d.opTimeoutMs) 0) d
  have houtcome : wait.outcome bus d chip =
      (poll (delaysLeft (timeoutUs d.opTimeoutMs) 0)).outcome bus d chip := outcome_wait bus d chip
  refine ⟨i, h.le, fun j hj => ?_, ?_, ?_⟩
  · rw [verdict?, decide_eq_decide.mpr (timeUp_iff _ j)]
    exact h.goes_on j hj
  · rw [verdict?, decide_eq_decide.mpr (timeUp_iff _ i), houtcome]
    exact h.verdict
  · rw [houtcome]
    exact h.events_eq

end Device
end RfidReader
