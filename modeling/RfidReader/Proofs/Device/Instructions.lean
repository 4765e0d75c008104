import RfidReader.Aggregate.Instruction
import RfidReader.Proofs.Device.Operation

/-!
# RfidReader.Proofs.Device.Instructions

What procedures tell a chip to do, in the words of aggregate instructions.

A write over the bus does what an instruction does: one to the operation
control register starts an operation, any other is a register write.  A
procedure `Issues` instructions if it puts them on the bus in this order and
goes on until one fails, and it `Succeeds` on a chip that takes every write and
completes every operation.  Both go through sequencing, so they are read off
the parts a procedure is made of.
-/

namespace RfidReader

/-! ## Transfers as instructions -/

namespace Instruction

/-- What a write over the bus does. -/
def ofWrite (address : UInt16) (data : List UInt8) : Instruction :=
  if address = Register.opsControl.address then
    match Op.ofCode? (Register.opsControl.decode data) with
    | some op => .runOp op
    | none => .write address data
  else .write address data

/-- What a transfer does; reading and waiting do nothing. -/
def ofEvent? : BusEvent → Option Instruction
  | .write address data _ => some (ofWrite address data)
  | _ => none

/-- What transfers do, in order. -/
def ofEvents (events : List BusEvent) : List Instruction := events.filterMap ofEvent?

theorem ofWrite_of_ne {address : UInt16} (data : List UInt8)
    (h : address ≠ Register.opsControl.address) : ofWrite address data = .write address data :=
  if_neg h

theorem ofWrite_opsControl (op : Op) :
    ofWrite Register.opsControl.address (Register.opsControl.encode op.code) = .runOp op := by
  cases op <;> decide

end Instruction

open Instruction

/-! ## Procedures that issue instructions -/

namespace DeviceM

variable {α γ : Type} {is js : List Instruction}

/-- A procedure puts instructions on the bus: all of them if it succeeds, and otherwise the first
ones. -/
def Issues (is : List Instruction) (x : DeviceM α) : Prop :=
  ∀ (β : Type) (bus : Bus β) (d : Device) (chip : β),
    let o := x.outcome bus d chip
    ofEvents o.events <+: is ∧ (o.result.isOk = true → ofEvents o.events = is)

namespace Issues

theorem pure (a : α) : Issues [] (Pure.pure a : DeviceM α) :=
  fun _ _ _ _ => ⟨List.prefix_refl [], fun _ => rfl⟩

/-- Procedures in a row issue the instructions of one behind those of the other. -/
theorem bind {x : DeviceM α} {f : α → DeviceM γ} (hx : Issues is x) (hf : ∀ a, Issues js (f a)) :
    Issues (is ++ js) (x >>= f) := by
  intro β bus d chip
  obtain ⟨hfirst, hall⟩ := hx β bus d chip
  simp only
  rw [outcome_bind]
  cases h : (x.outcome bus d chip).result with
  | error error =>
      rw [Outcome.andThen_error h]
      exact ⟨hfirst.trans (List.prefix_append is js), fun hok => nomatch hok⟩
  | ok a =>
      obtain ⟨hnext, hallNext⟩ :=
        hf a β bus (x.outcome bus d chip).device (x.outcome bus d chip).chip
      rw [h] at hall
      rw [Outcome.andThen_ok h]
      simp only [Outcome.behind, ofEvents, List.filterMap_append] at *
      rw [hall rfl]
      exact ⟨(List.prefix_append_right_inj is).mpr hnext, fun hok => by rw [hallNext hok]⟩

/-- A procedure whose transfers do nothing issues nothing. -/
theorem of_puts {x : DeviceM α} {allowed : BusEvent → Prop} (hx : Puts allowed x)
    (h : ∀ e, allowed e → ofEvent? e = none) : Issues [] x := by
  intro β bus d chip
  have hnone : ofEvents (x.outcome bus d chip).events = [] :=
    List.filterMap_eq_nil_iff.mpr fun e he => h e (hx β bus d chip e he)
  exact ⟨hnone ▸ List.nil_prefix, fun _ => hnone⟩

end Issues

/-! ## Procedures that succeed -/

variable {β : Type} {bus : Bus β} {d : Device} {good : β → Prop}

/-- A procedure succeeds in the good states of a chip, and leaves such. -/
def Succeeds (bus : Bus β) (d : Device) (good : β → Prop) (x : DeviceM α) : Prop :=
  ∀ chip, good chip →
    let o := x.outcome bus d chip
    o.result.isOk = true ∧ o.device = d ∧ good o.chip

namespace Succeeds

theorem pure (a : α) : Succeeds bus d good (Pure.pure a : DeviceM α) :=
  fun _ h => ⟨rfl, rfl, h⟩

theorem bind {x : DeviceM α} {f : α → DeviceM γ} (hx : Succeeds bus d good x)
    (hf : ∀ a, Succeeds bus d good (f a)) : Succeeds bus d good (x >>= f) := by
  intro chip hchip
  obtain ⟨hok, hdevice, hgood⟩ := hx chip hchip
  simp only
  rw [outcome_bind]
  cases h : (x.outcome bus d chip).result with
  | error error =>
      rw [h] at hok
      contradiction
  | ok a =>
      rw [Outcome.andThen_ok h, hdevice]
      exact hf a _ hgood

end Succeeds
end DeviceM

open DeviceM

/-- A chip takes every write and completes every operation that is waited for, from any of its
good states and again to such. -/
structure Bus.CompletesOps {β : Type} (bus : Bus β) (d : Device) (good : β → Prop) : Prop where
  write (address : UInt16) (data : List UInt8) {chip : β} (h : good chip) :
    (bus.write address data chip).1 = .ok () ∧ good (bus.write address data chip).2
  wait {chip : β} (h : good chip) :
    Device.Finishes (Device.wait.outcome bus d chip).events ∧
      good (Device.wait.outcome bus d chip).chip

namespace Device

/-! ## Registers and operations -/

theorem issues_write (address : UInt16) (data : List UInt8) :
    Issues [ofWrite address data] (write address data) :=
  fun _ _ _ _ => ⟨List.prefix_refl _, fun _ => rfl⟩

theorem issues_writeAll (writes : List (UInt16 × List UInt8)) :
    Issues (writes.map fun (address, data) => ofWrite address data) (writeAll writes) := by
  induction writes with
  | nil => exact .pure ()
  | cons write writes ih => exact (issues_write write.1 write.2).bind fun _ => ih

theorem issues_wait : Issues [] wait := by
  apply Issues.of_puts puts_wait
  intro e he
  cases he <;> rfl

theorem issues_runOp (op : Op) : Issues [.runOp op] (runOp op) := by
  rw [← ofWrite_opsControl op]
  exact (issues_write _ _).bind fun _ => issues_wait

variable {β : Type} {bus : Bus β} {d : Device} {good : β → Prop}

/-- Heeding a status keeps what the host knows of the chip, if polling again does. -/
private theorem device_heed (bus : Bus β) (d : Device) {delays : Nat}
    (hpoll : ∀ n, delays = n + 1 → ∀ chip, ((poll n).outcome bus d chip).device = d)
    (status : OpStatus) (chip : β) : ((heed delays status).outcome bus d chip).device = d := by
  unfold heed
  cases status.hasError with
  | true => rfl
  | false =>
      cases status.busy with
      | false => rfl
      | true =>
          cases delays with
          | zero => rfl
          | succ n => exact hpoll n rfl _

/-- Polling keeps what the host knows of the chip. -/
theorem device_poll (bus : Bus β) (d : Device) (delays : Nat) (chip : β) :
    ((poll delays).outcome bus d chip).device = d := by
  induction delays using Nat.strongRecOn generalizing chip with
  | ind delays ih =>
      rw [poll_eq, outcome_bind, outcome_readRegister]
      cases bus.read Register.opsStatus.address Register.opsStatus.length chip with
      | mk answer chip =>
          cases answer with
          | error error => rfl
          | ok bytes => exact device_heed bus d (fun n hn => ih n (by omega)) _ chip

theorem succeeds_write (h : bus.CompletesOps d good) (address : UInt16) (data : List UInt8) :
    Succeeds bus d good (write address data) := by
  intro chip hchip
  obtain ⟨hok, hgood⟩ := h.write address data hchip
  rw [outcome_write, hok]
  exact ⟨rfl, rfl, hgood⟩

theorem succeeds_writeAll (h : bus.CompletesOps d good) (writes : List (UInt16 × List UInt8)) :
    Succeeds bus d good (writeAll writes) := by
  induction writes with
  | nil => exact .pure ()
  | cons write writes ih => exact (succeeds_write h write.1 write.2).bind fun _ => ih

theorem succeeds_wait (h : bus.CompletesOps d good) : Succeeds bus d good wait := by
  intro chip hchip
  obtain ⟨hfinishes, hgood⟩ := h.wait hchip
  rw [outcome_wait] at *
  exact ⟨(poll_isOk_iff bus _ d chip).mpr hfinishes, device_poll bus d _ chip, hgood⟩

end Device

end RfidReader
