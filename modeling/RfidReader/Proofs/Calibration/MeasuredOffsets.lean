import Mathlib.Order.Bounds.Defs
import RfidReader.Calibration.Rssi
import RfidReader.Proofs.Calibration.TableChanges
import RfidReader.Proofs.Interpolation

/-!
# RfidReader.Proofs.Calibration.MeasuredOffsets

Calibration modes have the offset that was measured.

An image stores the whole offset of a mode.  Building the analog offsets takes
the digital correction of the mode off, and looking a mode up puts it back on,
each time keeping 16 bits, so the two cancel out (`Settled.modeOffset_of_mem`).
In between stands an interpolation, which at the BLF of the mode itself hits a
sample of the ascending table.  Which entry of the image counts for a mode is
said by `measured?_eq_some_iff`: the first whose number stands for it.
-/

namespace RfidReader

open Rssi (CalibrationMode Tables)

/-! ## Entries of an image -/

/-- The entries of an image that stand for a mode, some of them by its number in older firmware. -/
def Calibration.RssiParams.entries (rssi : RssiParams) (mode : RfMode) : Set (Fin 32) :=
  {i | RfMode.ofLegacy rssi.rfModes[i] = mode}

namespace AnalogOffsets

variable {rssi : Calibration.RssiParams} {tables : Tables} {modes : List CalibrationMode}
  {mode : RfMode}

/-- The first entry for a mode is the one that counts. -/
theorem measured?_eq_some_iff {offset : Int16} :
    measured? rssi mode = some offset ↔
      ∃ i, IsLeast (rssi.entries mode) i ∧ rssi.rfModeOffsets[i] = offset := by
  have hlength : (rssi.rfModes.toList.zip rssi.rfModeOffsets.toList).length = 32 := by simp
  simp only [measured?, Option.map_eq_some_iff, List.find?_eq_some_iff_getElem, beq_iff_eq,
    Bool.not_eq_true', beq_eq_false_iff_ne, List.getElem_zip, Vector.getElem_toList]
  constructor
  · rintro ⟨_, ⟨hmode, i, hi, rfl, hbefore⟩, rfl⟩
    refine ⟨⟨i, hlength ▸ hi⟩, ⟨hmode, fun j hj => ?_⟩, rfl⟩
    exact Nat.le_of_not_lt fun hlt => hbefore j hlt hj
  · rintro ⟨i, ⟨hmode, hleast⟩, rfl⟩
    refine ⟨(rssi.rfModes[i], rssi.rfModeOffsets[i]),
      ⟨hmode, i, hlength.symm ▸ i.isLt, rfl, fun j hj hother => ?_⟩, rfl⟩
    exact Nat.not_le_of_lt hj (hleast (a := ⟨j, Nat.lt_trans hj i.isLt⟩) hother)

theorem isSome_measured?_iff :
    (measured? rssi mode).isSome = true ↔ (rssi.entries mode).Nonempty := by
  have hlength : (rssi.rfModes.toList.zip rssi.rfModeOffsets.toList).length = 32 := by simp
  simp only [measured?, Option.isSome_map, List.find?_isSome, List.mem_iff_getElem, beq_iff_eq,
    List.getElem_zip, Vector.getElem_toList]
  constructor
  · rintro ⟨_, ⟨i, hi, rfl⟩, hmode⟩
    exact ⟨⟨i, hlength ▸ hi⟩, hmode⟩
  · rintro ⟨i, hmode⟩
    exact ⟨(rssi.rfModes[i], rssi.rfModeOffsets[i]), ⟨i, hlength.symm ▸ i.isLt, rfl⟩, hmode⟩

/-- The table of a filter has a sample for each mode that is known. -/
theorem mem_ofModes {m : CalibrationMode} (hm : m ∈ modes) {analog : Int16}
    (hanalog : analog? rssi tables m.mode = some analog) :
    (m.blfKhz, analog) ∈ ofModes rssi tables modes := by
  refine List.mem_map.mpr ⟨m, hm, ?_⟩
  rw [hanalog, Option.getD_some]

theorem pairwise_ofModes (h : sorted modes = true) :
    (ofModes rssi tables modes).Pairwise (·.1 < ·.1) := by
  rw [ofModes, List.pairwise_map, ← List.pairwise_map (f := CalibrationMode.blfKhz)]
  exact (sorted_iff modes).mp h

end AnalogOffsets

namespace Calibration

open AnalogOffsets

/-! ## Baseband frequencies -/

theorem toInt_toInt16 {khz : UInt16} (h : khz ≤ 32767) : khz.toInt16.toInt = khz.toNat := by
  have hle : khz.toNat ≤ 32767 := UInt16.le_iff_toNat_le.mp h
  have hword : khz.toInt16 = Int16.ofNat khz.toNat := by
    rw [← UInt16.toInt16_ofNat', UInt16.ofNat_toNat]
  rw [hword, Int16.toInt_ofNat_of_lt (by omega)]

theorem toInt_saturatingAbs (v : Int16) :
    (saturatingAbs v).toInt = min 32767 (v.toInt.natAbs : Int) := by
  rw [saturatingAbs, clampInt16, Int16.toInt_ofInt_of_le (by omega) (by omega)]
  omega

theorem toInt_saturatingAbs_toInt16 {khz : UInt16} (h : khz ≤ 32767) :
    (saturatingAbs khz.toInt16).toInt = khz.toNat := by
  have hle : khz.toNat ≤ 32767 := UInt16.le_iff_toNat_le.mp h
  rw [toInt_saturatingAbs, toInt_toInt16 h]
  omega

/-- A frequency of 15 bits is the same on either side of the carrier. -/
theorem toInt_saturatingAbs_neg {khz : UInt16} (h : khz ≤ 32767) :
    (saturatingAbs (-khz.toInt16)).toInt = khz.toNat := by
  have hle : khz.toNat ≤ 32767 := UInt16.le_iff_toNat_le.mp h
  rw [toInt_saturatingAbs, Int16.toInt_neg, toInt_toInt16 h, Int.bmod_eq_of_le (by omega) (by omega)]
  omega

/-! ## Mode offsets -/

variable {c : Calibration} {m : CalibrationMode}

/-- The table of a filter is built from the modes of that filter, which ascend. -/
theorem Settled.offsets_eq (h : c.Settled) (hsupported : c.isSupported = true) (dense : Bool) :
    let modes := if dense then c.tables.drmModes else c.tables.otherModes
    (if dense then c.drmOffsets else c.otherOffsets) = ofModes c.params.rssi c.tables modes ∧
      sorted modes = true := by
  have hoffsets (modes : List CalibrationMode) :
      c.offsetsFor modes = ofModes c.params.rssi c.tables modes := if_pos hsupported
  cases dense with
  | true => exact ⟨h.drmOffsets_eq.trans (hoffsets _), h.accepts.drm_sorted⟩
  | false => exact ⟨h.otherOffsets_eq.trans (hoffsets _), h.accepts.other_sorted⟩

/-- A mode measured through its filter has the whole of what was measured, at its own BLF: the
digital correction is taken off and put back on. -/
theorem Settled.modeOffset_of_mem (h : c.Settled) (hsupported : c.isSupported = true)
    (hm : m ∈ if c.filter.isDense m.mode then c.tables.drmModes else c.tables.otherModes)
    {correction : Rssi.Correction} (hcorrection : c.tables.modeCorrection? m.mode = some correction)
    {offset : Int16} (hmeasured : measured? c.params.rssi m.mode = some offset) {khz : Int16}
    (hkhz : (saturatingAbs khz).toInt = m.blfKhz.toNat) : c.modeOffset m.mode khz = offset := by
  have hanalog : analog? c.params.rssi c.tables m.mode = some (offset - correction.digital) := by
    rw [analog?, hmeasured, hcorrection]
  obtain ⟨hoffsets, hsorted⟩ := h.offsets_eq hsupported (c.filter.isDense m.mode)
  have hsample := Interpolation.integer_of_mem (pairwise_ofModes hsorted) (mem_ofModes hm hanalog)
    hkhz
  simp only [modeOffset, hcorrection]
  rw [analogOffset, hoffsets, hsample, Int16.sub_add_cancel]

/-- **Measured offsets**: in a supported calibration, however it came about, a mode that is listed
for the filter it is received through has the offset of its first entry in the image, at its own
BLF and on either side of the carrier, whatever its digital correction is. -/
theorem Reachable.modeOffset_measured {ε : Type} {wrap : Fault → ε} {source : Source (Except ε)}
    (h : Reachable wrap source c) (hsupported : c.isSupported = true)
    (hm : m ∈ if c.filter.isDense m.mode then c.tables.drmModes else c.tables.otherModes)
    (hblf : m.blfKhz ≤ 32767) (hcorrection : (c.tables.modeCorrection? m.mode).isSome)
    (hentry : ∃ i : Fin 32, RfMode.ofLegacy c.params.rssi.rfModes[i] = m.mode) :
    ∃ i : Fin 32, IsLeast {i | RfMode.ofLegacy c.params.rssi.rfModes[i] = m.mode} i ∧
      c.modeOffset m.mode m.blfKhz.toInt16 = c.params.rssi.rfModeOffsets[i] ∧
      c.modeOffset m.mode (-m.blfKhz.toInt16) = c.params.rssi.rfModeOffsets[i] := by
  obtain ⟨-, hsettled⟩ := h.settled
  obtain ⟨correction, hcorrection⟩ := Option.isSome_iff_exists.mp hcorrection
  obtain ⟨offset, hmeasured⟩ := Option.isSome_iff_exists.mp (isSome_measured?_iff.mpr hentry)
  obtain ⟨i, hleast, rfl⟩ := measured?_eq_some_iff.mp hmeasured
  have hmode {khz : Int16} (hkhz : (saturatingAbs khz).toInt = m.blfKhz.toNat) :=
    hsettled.modeOffset_of_mem hsupported hm hcorrection hmeasured hkhz
  exact ⟨i, hleast, hmode (toInt_saturatingAbs_toInt16 hblf), hmode (toInt_saturatingAbs_neg hblf)⟩

/-- The standard tables with the largest correction there is in every configuration. -/
def Sample.farCorrections : Tables :=
  { Tables.standard with rxModes := Tables.standardRxModes.map ({ · with digital := -32768 }) }

set_option maxRecDepth 20000 in
/-- Mode 146 is measured at 250 kHz, as mode 7 of older firmware.  It has the 1000 units of the
sample image also with a correction that neither the analog offset nor the sum has room for. -/
theorem Reachable.modeOffset_measured_far :
    ∃ c, Reachable id (Source.ofBytes Sample.image) c ∧ c.isSupported = true ∧
      c.drmOffsets = [(250, -31768), (320, -31668)] ∧
      c.modeOffset 146 250 = 1000 ∧ c.modeOffset 146 (-250) = 1000 := by
  have hload : (loadFrom id (Source.ofBytes Sample.image) Sample.farCorrections {}).toOption.any
      (fun c => c.isSupported = true ∧ c.drmOffsets = [(250, -31768), (320, -31668)] ∧
        c.tables = Sample.farCorrections ∧ c.filter = {} ∧
        c.params.rssi.rfModes[(0 : Fin 32)] = 7 ∧
        c.params.rssi.rfModeOffsets[(0 : Fin 32)] = 1000) = true := by
    decide +kernel
  obtain ⟨c, hreachable, hsupported, hoffsets, htables, hfilter, hnumber, hoffset⟩ :=
    exists_reachable_of_any hload
  have hfirst : RfMode.ofLegacy c.params.rssi.rfModes[(0 : Fin 32)] = 146 := by
    rw [hnumber]
    rfl
  have hlisted : (⟨146, 250⟩ : CalibrationMode) ∈
      if c.filter.isDense 146 then c.tables.drmModes else c.tables.otherModes := by
    rw [htables, hfilter]
    decide
  have hcorrection : (c.tables.modeCorrection? 146).isSome := by
    rw [htables]
    decide
  obtain ⟨i, ⟨-, hleast⟩, hplus, hminus⟩ := hreachable.modeOffset_measured hsupported hlisted
    (by decide) hcorrection ⟨0, hfirst⟩
  obtain rfl : i = 0 := Fin.le_zero_iff.mp (hleast hfirst)
  exact ⟨c, hreachable, hsupported, hoffsets, hplus.trans hoffset, hminus.trans hoffset⟩

end Calibration
end RfidReader
