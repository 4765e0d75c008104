import RfidReader.Proofs.Device.Waiting

/-!
# RfidReader.Proofs.Device.Refusals

Which procedures never refuse a parameter.

A procedure fails because a transfer does, because the chip reports an error or
takes too long, or because the host refuses what it was asked for.  Transfers and
operations know only the first three (`neverRefuses_wait`, `neverRefuses_runOp`),
and what is made of them alone does so, too.
-/

namespace RfidReader

/-- Whether a procedure failed because a parameter was refused. -/
def HostError.IsRefusal : HostError → Prop
  | .host fault => fault.kind = .badParameter
  | _ => False

namespace DeviceM

variable {α γ : Type}

/-- A procedure that fails for other reasons than its parameters. -/
def NeverRefuses (x : DeviceM α) : Prop :=
  ∀ (β : Type) (bus : Bus β) (d : Device) (chip : β) error,
    (x.outcome bus d chip).result = .error error → ¬ error.IsRefusal

namespace NeverRefuses

theorem pure (a : α) : NeverRefuses (Pure.pure a : DeviceM α) :=
  fun _ _ _ _ _ h => nomatch h

theorem throw {error : HostError} (h : ¬ error.IsRefusal) :
    NeverRefuses (MonadExcept.throw error : DeviceM α) := by
  intro β bus d chip error' herror
  rwa [← Except.error.inj (herror : Except.error error = Except.error error')]

theorem bind {x : DeviceM α} {f : α → DeviceM γ} (hx : NeverRefuses x)
    (hf : ∀ a, NeverRefuses (f a)) : NeverRefuses (x >>= f) := by
  intro β bus d chip error herror
  rw [outcome_bind] at herror
  cases h : (x.outcome bus d chip).result with
  | error error' =>
      rw [Outcome.andThen_error h] at herror
      cases herror
      exact hx β bus d chip error h
  | ok a =>
      rw [Outcome.andThen_ok h] at herror
      exact hf a β bus _ _ error herror

end NeverRefuses
end DeviceM

namespace Device

open DeviceM

theorem not_isRefusal_of_mapError {α : Type} {x : Except BusError α} {error : HostError}
    (h : x.mapError HostError.bus = .error error) : ¬ error.IsRefusal := by
  cases x with
  | error e =>
      cases h
      exact id
  | ok a => contradiction

theorem neverRefuses_read (address : UInt16) (length : Nat) : NeverRefuses (read address length) :=
  fun _ _ _ _ _ h => not_isRefusal_of_mapError h

theorem neverRefuses_write (address : UInt16) (data : List UInt8) :
    NeverRefuses (write address data) :=
  fun _ _ _ _ _ h => not_isRefusal_of_mapError h

theorem neverRefuses_writeAll (writes : List (UInt16 × List UInt8)) :
    NeverRefuses (writeAll writes) := by
  induction writes with
  | nil => exact .pure ()
  | cons write writes ih => exact (neverRefuses_write write.1 write.2).bind fun _ => ih

/-- No verdict on a status is about a parameter. -/
theorem not_isRefusal_of_judge? {timeUp : Bool} {answer : Except BusError OpStatus}
    {error : HostError} (h : judge? timeUp answer = some (.error error)) : ¬ error.IsRefusal := by
  cases answer with
  | error e =>
      cases h
      exact id
  | ok status =>
      simp only [judge?] at h
      split at h
      · cases h
        exact id
      · split at h
        · cases h
        · split at h
          · cases h
            exact id
          · cases h

theorem neverRefuses_wait : NeverRefuses wait := by
  intro β bus d chip error h
  rw [outcome_wait] at h
  obtain ⟨i, hends⟩ := exists_endsAt_poll bus chip (maxDelays d.opTimeoutMs) d
  have hverdict := hends.verdict
  rw [h] at hverdict
  exact not_isRefusal_of_judge? hverdict

theorem neverRefuses_runOp (op : Op) : NeverRefuses (runOp op) :=
  (neverRefuses_write _ _).bind fun _ => neverRefuses_wait

theorem neverRefuses_measureAux (start : AuxChannel) (count : Nat) :
    NeverRefuses (measureAux start count) :=
  (neverRefuses_write _ _).bind fun _ => (neverRefuses_runOp _).bind fun _ =>
    (neverRefuses_read _ _).bind fun _ => .pure _

theorem neverRefuses_measureTemperature : NeverRefuses measureTemperature := by
  refine (neverRefuses_measureAux _ _).bind fun readings => ?_
  cases readings with
  | nil => exact .throw (fun h => nomatch (h : FaultKind.invalidData = FaultKind.badParameter))
  | cons reading _ => exact .pure reading

end Device
end RfidReader
