import Mathlib.Data.List.Nodup
import RfidReader.Board

/-!
# RfidReader.Proofs.Register.PinDriving

What calls that drive pins leave behind in the pin changes.

Each call drives the pins of a mask to levels of its own, and the changes gather
the calls: they ask for a level of a pin if some call drives the pin to it
(`asks_driveAll`).  A call does not take back what an earlier one has asked for,
so the last call for a pin decides exactly where no pin is driven to both levels
(`driveAll_lastWriteWins_iff`).  The reference board drives every pin once, and
never asks for both levels of one (`Board.transmitPins_apart`).
-/

namespace RfidReader

/-! ## Pins of a word -/

/-- Whether a word has the bit of a pin. -/
def hasPin (w : UInt32) (pin : Fin 32) : Bool := w.toBitVec.getLsbD pin

@[simp] theorem hasPin_zero (pin : Fin 32) : hasPin 0 pin = false := by simp [hasPin]

@[simp] theorem hasPin_or (v w : UInt32) (pin : Fin 32) :
    hasPin (v ||| w) pin = (hasPin v pin || hasPin w pin) := by
  simp [hasPin]

@[simp] theorem hasPin_and (v w : UInt32) (pin : Fin 32) :
    hasPin (v &&& w) pin = (hasPin v pin && hasPin w pin) := by
  simp [hasPin]

@[simp] theorem hasPin_not (w : UInt32) (pin : Fin 32) : hasPin (~~~w) pin = !hasPin w pin := by
  simp [hasPin]

@[simp] theorem hasPin_ofNat (n : Nat) (pin : Fin 32) :
    hasPin (UInt32.ofNat n) pin = n.testBit pin := by
  rw [hasPin, UInt32.toBitVec_ofNat', BitVec.getLsbD_ofNat]
  simp

/-! ## Calls -/

/-- A call that drives the pins of `mask` to the matching bits of `levels`. -/
structure PinCall where
  levels : UInt32
  mask : UInt32
  deriving DecidableEq

namespace PinCall

/-- The level a call drives a pin to, if it drives the pin. -/
def level? (c : PinCall) (pin : Fin 32) : Option Bool :=
  if hasPin c.mask pin then some (hasPin c.levels pin) else none

/-- The level of the last call that drives a pin. -/
def lastLevel? (calls : List PinCall) (pin : Fin 32) : Option Bool :=
  calls.reverse.findSome? (·.level? pin)

/-- No pin is driven to both levels. -/
def Agree (calls : List PinCall) : Prop :=
  ∀ pin, ∀ c ∈ calls, ∀ d ∈ calls, ∀ level level' : Bool,
    c.level? pin = some level → d.level? pin = some level' → level = level'

theorem isSome_level? (c : PinCall) (pin : Fin 32) : (c.level? pin).isSome = hasPin c.mask pin := by
  unfold level?
  split <;> simp_all

/-- The last level is the level of some call. -/
theorem exists_of_lastLevel? {calls : List PinCall} {pin : Fin 32} {level : Bool}
    (h : lastLevel? calls pin = some level) : ∃ c ∈ calls, c.level? pin = some level := by
  obtain ⟨c, hc, hlevel⟩ := List.exists_of_findSome?_eq_some h
  exact ⟨c, List.mem_reverse.mp hc, hlevel⟩

/-- A pin that is driven has a last level. -/
theorem exists_lastLevel? {calls : List PinCall} {pin : Fin 32} {c : PinCall} (hc : c ∈ calls)
    (h : hasPin c.mask pin) : ∃ level, lastLevel? calls pin = some level := by
  rw [← Option.isSome_iff_exists, lastLevel?, List.findSome?_isSome_iff]
  exact ⟨c, List.mem_reverse.mpr hc, by rw [isSome_level?, h]⟩

/-- Where the calls agree, the level of any call is the last one. -/
theorem Agree.lastLevel?_eq_some_iff {calls : List PinCall} (h : Agree calls) (pin : Fin 32)
    (level : Bool) :
    lastLevel? calls pin = some level ↔ ∃ c ∈ calls, c.level? pin = some level := by
  refine ⟨exists_of_lastLevel?, ?_⟩
  rintro ⟨c, hc, hlevel⟩
  have hmask : hasPin c.mask pin := by rw [← isSome_level?, hlevel, Option.isSome_some]
  obtain ⟨last, hlast⟩ := exists_lastLevel? hc hmask
  obtain ⟨d, hd, hlevel'⟩ := exists_of_lastLevel? hlast
  rw [hlast, h pin d hd c hc last level hlevel' hlevel]

end PinCall

/-! ## What the changes ask for -/

namespace PinChanges

open PinCall

/-- Whether the changes ask for a level of a pin. -/
def asks (p : PinChanges) (pin : Fin 32) (level : Bool) : Bool :=
  hasPin (if level then p.levelSet else p.levelClear) pin

/-- The changes after some calls, in order. -/
def driveAll (p : PinChanges) (calls : List PinCall) : PinChanges :=
  calls.foldl (fun p c => p.drive c.levels c.mask) p

@[simp] theorem driveAll_nil (p : PinChanges) : p.driveAll [] = p := rfl

@[simp] theorem driveAll_cons (p : PinChanges) (c : PinCall) (calls : List PinCall) :
    p.driveAll (c :: calls) = (p.drive c.levels c.mask).driveAll calls := rfl

@[simp] theorem asks_default (pin : Fin 32) (level : Bool) :
    ({} : PinChanges).asks pin level = false := by
  simp [asks]

/-- **Step**: a call adds what it drives, and takes nothing back. -/
theorem asks_drive (p : PinChanges) (c : PinCall) (pin : Fin 32) (level : Bool) :
    (p.drive c.levels c.mask).asks pin level =
      (p.asks pin level || c.level? pin == some level) := by
  cases level <;> cases hmask : hasPin c.mask pin <;> simp [asks, drive, level?, hmask]

/-- **Run**: the changes ask for what they asked for before and for what any of the calls drives. -/
theorem asks_driveAll (p : PinChanges) (calls : List PinCall) (pin : Fin 32) (level : Bool) :
    (p.driveAll calls).asks pin level = true ↔
      p.asks pin level = true ∨ ∃ c ∈ calls, c.level? pin = some level := by
  induction calls generalizing p with
  | nil => simp
  | cons c calls ih =>
      rw [driveAll_cons, ih, asks_drive]
      simp [or_assoc]

theorem asks_driveAll_default (calls : List PinCall) (pin : Fin 32) (level : Bool) :
    (({} : PinChanges).driveAll calls).asks pin level = true ↔
      ∃ c ∈ calls, c.level? pin = some level := by
  simp [asks_driveAll]

theorem hasPin_enableSet_driveAll (p : PinChanges) (calls : List PinCall) (pin : Fin 32) :
    hasPin (p.driveAll calls).enableSet pin = true ↔
      hasPin p.enableSet pin = true ∨ ∃ c ∈ calls, hasPin c.mask pin = true := by
  induction calls generalizing p with
  | nil => simp
  | cons c calls ih =>
      rw [driveAll_cons, ih]
      simp [drive, or_assoc]

theorem hasPin_enableSet_driveAll_default (calls : List PinCall) (pin : Fin 32) :
    hasPin (({} : PinChanges).driveAll calls).enableSet pin = true ↔
      ∃ c ∈ calls, hasPin c.mask pin = true := by
  simp [hasPin_enableSet_driveAll]

theorem enableClear_driveAll (p : PinChanges) (calls : List PinCall) :
    (p.driveAll calls).enableClear = p.enableClear := by
  induction calls generalizing p with
  | nil => rfl
  | cons c calls ih => exact ih (p.drive c.levels c.mask)

/-! ## The last call -/

/-- Every pin is left to the last call that drives it: the changes ask for its level there and for
no other, and enable the pins that are driven. -/
structure LastWriteWins (calls : List PinCall) (p : PinChanges) : Prop where
  apart : ∀ pin, ¬ (hasPin p.levelSet pin ∧ hasPin p.levelClear pin)
  levelSet_iff : ∀ pin, hasPin p.levelSet pin ↔ lastLevel? calls pin = some true
  levelClear_iff : ∀ pin, hasPin p.levelClear pin ↔ lastLevel? calls pin = some false
  enableSet_iff : ∀ pin, hasPin p.enableSet pin ↔ ∃ c ∈ calls, hasPin c.mask pin

theorem LastWriteWins.of_agree {calls : List PinCall} (h : Agree calls) :
    LastWriteWins calls (({} : PinChanges).driveAll calls) := by
  have hasks : ∀ pin level, (({} : PinChanges).driveAll calls).asks pin level = true ↔
      lastLevel? calls pin = some level := by
    intro pin level
    rw [asks_driveAll_default, h.lastLevel?_eq_some_iff]
  refine ⟨?_, (hasks · true), (hasks · false), hasPin_enableSet_driveAll_default calls⟩
  rintro pin ⟨hset, hclear⟩
  have htrue := (hasks pin true).mp hset
  have hfalse := (hasks pin false).mp hclear
  simp [htrue] at hfalse

theorem LastWriteWins.agree {calls : List PinCall}
    (h : LastWriteWins calls (({} : PinChanges).driveAll calls)) : Agree calls := by
  have hlast : ∀ pin, ∀ c ∈ calls, ∀ level, c.level? pin = some level →
      lastLevel? calls pin = some level := by
    intro pin c hc level hlevel
    have hasks : (({} : PinChanges).driveAll calls).asks pin level = true :=
      (asks_driveAll_default ..).mpr ⟨c, hc, hlevel⟩
    cases level with
    | true => exact (h.levelSet_iff pin).mp hasks
    | false => exact (h.levelClear_iff pin).mp hasks
  intro pin c hc d hd level level' hlevel hlevel'
  have hsame := (hlast pin c hc level hlevel).symm.trans (hlast pin d hd level' hlevel')
  exact Option.some.inj hsame

/-- **Driving pins**: after any calls the changes ask for each level that some call drives a pin to,
so for that of the last one too, and they enable the pins of all masks and disable none.  The last
call wins for every pin exactly if no pin is driven to both levels. -/
theorem driveAll_lastWriteWins_iff (calls : List PinCall) :
    (∀ pin, hasPin (({} : PinChanges).driveAll calls).levelSet pin ↔
      ∃ c ∈ calls, c.level? pin = some true) ∧
    (∀ pin, hasPin (({} : PinChanges).driveAll calls).levelClear pin ↔
      ∃ c ∈ calls, c.level? pin = some false) ∧
    (∀ pin, hasPin (({} : PinChanges).driveAll calls).enableSet pin ↔
      ∃ c ∈ calls, hasPin c.mask pin) ∧
    (({} : PinChanges).driveAll calls).enableClear = 0 ∧
    (LastWriteWins calls (({} : PinChanges).driveAll calls) ↔ Agree calls) := by
  have hlast : LastWriteWins calls (({} : PinChanges).driveAll calls) ↔ Agree calls :=
    ⟨LastWriteWins.agree, .of_agree⟩
  exact ⟨(asks_driveAll_default calls · true), (asks_driveAll_default calls · false),
    hasPin_enableSet_driveAll_default calls, enableClear_driveAll {} calls, hlast⟩

/-- A pin that is driven high and then low is asked to do both. -/
theorem not_lastWriteWins_toggled :
    ¬ LastWriteWins [⟨1, 1⟩, ⟨0, 1⟩] (({} : PinChanges).driveAll [⟨1, 1⟩, ⟨0, 1⟩]) := by
  intro h
  have hset : hasPin (({} : PinChanges).driveAll [⟨1, 1⟩, ⟨0, 1⟩]).levelSet 0 := by decide
  have hclear : hasPin (({} : PinChanges).driveAll [⟨1, 1⟩, ⟨0, 1⟩]).levelClear 0 := by decide
  exact h.apart 0 ⟨hset, hclear⟩

end PinChanges

/-! ## The board -/

namespace PinCall

/-- The call that drives one pin. -/
def single (pin : Fin 32) (high : Bool) : PinCall where
  levels := UInt32.ofNat (high.toNat <<< pin.val)
  mask := UInt32.ofNat (1 <<< pin.val)

theorem level?_single (pin : Fin 32) (high : Bool) (other : Fin 32) :
    (single pin high).level? other = if pin = other then some high else none := by
  have hmask : hasPin (single pin high).mask other = decide (pin = other) := by
    simp [single, Nat.one_shiftLeft, Nat.testBit_two_pow, Fin.ext_iff]
  by_cases heq : pin = other
  · subst heq
    cases high <;> simp [level?, single, Nat.one_shiftLeft]
  · simp [level?, hmask, heq]

/-- Calls for one pin each agree if no pin comes twice. -/
theorem agree_single {drives : List (Fin 32 × Bool)} (h : (drives.map Prod.fst).Nodup) :
    Agree (drives.map fun d => single d.1 d.2) := by
  intro pin c hc d hd level level' hlevel hlevel'
  obtain ⟨x, hx, rfl⟩ := List.mem_map.mp hc
  obtain ⟨y, hy, rfl⟩ := List.mem_map.mp hd
  rw [level?_single, Option.ite_none_right_eq_some] at hlevel hlevel'
  obtain rfl : x = y := List.inj_on_of_nodup_map h hx hy (hlevel.1.trans hlevel'.1.symm)
  exact Option.some.inj (hlevel.2.symm.trans hlevel'.2)

end PinCall

/-- The pin changes for a ramp never ask for both levels of a pin. -/
theorem Board.transmitPins_apart {antenna : UInt8} {cdbm : Int16} {filter : FilterType}
    {band : RfFilter} {pins : PinChanges}
    (h : reference.transmitPins antenna cdbm filter band = .ok pins) (pin : Fin 32) :
    ¬ (hasPin pins.levelSet pin ∧ hasPin pins.levelClear pin) := by
  unfold transmitPins at h
  split at h
  · contradiction
  · split at h
    · contradiction
    · let drives : List (Fin 32 × Bool) := [(19, antenna == 1),
        (15, reference.lowRangeMaxCdbm < cdbm), (7, filter == .bandpass), (18, band == .lowerBand)]
      have hpins : ([19, 15, 7, 18] : List (Fin 32)).Nodup := by decide
      have hagree : PinCall.Agree (drives.map fun d => .single d.1 d.2) :=
        PinCall.agree_single hpins
      rw [← Except.ok.inj h]
      exact (PinChanges.LastWriteWins.of_agree hagree).apart pin

end RfidReader
