import RfidReader.Fault

/-!
# RfidReader.Hopping.Synthesizer

The divider arithmetic of the frequency synthesizer.

The carrier is the reference frequency times `n / (4 r)`.  The reference
divider `r` is one of eight values, named by its index in a register field;
`nDivider` rounds to the nearest `n` and `carrierKhz` drops the fraction of a
kilohertz.
-/

namespace RfidReader
namespace Synthesizer

/-- The reference dividers, by register index. -/
def rDividers : List UInt32 := [24, 48, 96, 192, 30, 60, 120, 240]

/-- The register index of a reference divider. -/
def rIndex? (r : UInt32) : Option UInt8 := (rDividers.findIdx? (· == r)).map UInt8.ofNat

theorem lt_of_rIndex? {r : UInt32} {k : UInt8} (h : rIndex? r = some k) : k < 8 := by
  obtain ⟨position, hposition, rfl⟩ := Option.map_eq_some_iff.mp h
  obtain ⟨hlt, -⟩ := List.findIdx?_eq_some_iff_getElem.mp hposition
  have hlength : position < 8 := hlt
  rw [UInt8.lt_iff_toNat_lt, UInt8.toNat_ofNat']
  exact Nat.lt_of_le_of_lt (Nat.mod_le _ _) hlength

/-- The divider whose carrier is nearest to a frequency, 0 without a reference. -/
def nDivider (referenceKhz khz r : UInt32) : UInt16 :=
  if referenceKhz = 0 then 0
  else UInt16.ofNat ((4 * khz.toNat * r.toNat + referenceKhz.toNat / 2) / referenceKhz.toNat)

/-- The carrier a pair of dividers gives. -/
def carrierKhz (referenceKhz : UInt32) (rIndex : UInt8) (n : UInt16) : Except Fault UInt32 :=
  match rDividers[rIndex.toNat]? with
  | none => .error .rDividerIndexOutOfRange
  | some r => .ok (UInt32.ofNat (referenceKhz.toNat * n.toNat / (4 * r.toNat)))

end Synthesizer

/-- Synthesizer settings for a carrier. -/
structure SynthesizerParams where
  khz : UInt32
  /-- The register index of the reference divider, if it is below 8. -/
  rIndex : UInt8
  nDivider : UInt16
  deriving DecidableEq, Repr

end RfidReader
