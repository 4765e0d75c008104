import RfidReader.Region.Basic

/-!
# RfidReader.Region.Builtin

The regions whose plans are built in, and the look-up by identifier.
-/

namespace RfidReader
namespace Region

/-- United States: fifty channels, shuffled. -/
def fcc : Region where
  id := .fcc
  timers := ⟨380, 395, 400, 0⟩
  channels := ⟨902750, 500, 50, [], true⟩
  rDivider := 48
  filter := .upperBand
  maxPowerCdbm := 3000
  tracksOffTime := false

/-- European lower band: four channels with tracked off time. -/
def etsiLower : Region where
  id := .etsiLower
  timers := ⟨3800, 3980, 4000, 100⟩
  channels := ⟨865100, 200, 4, [4, 7, 10, 13], false⟩
  rDivider := 120
  filter := .lowerBand
  maxPowerCdbm := 3000
  tracksOffTime := true

/-- Brazil: the United States plan without the channels 11 to 25. -/
def brazil : Region where
  id := .brazil
  timers := ⟨200, 380, 400, 0⟩
  channels :=
    ⟨902750, 500, 35,
      [1, 2, 3, 4, 5, 6, 7, 8, 9, 10, 26, 27, 28, 29, 30, 31, 32, 33, 34, 35, 36, 37, 38, 39, 40,
        41, 42, 43, 44, 45, 46, 47, 48, 49, 50], true⟩
  rDivider := 24
  filter := .upperBand
  maxPowerCdbm := 3000
  tracksOffTime := false

/-- Philippines: four channels in order. -/
def philippines : Region where
  id := .philippines
  timers := ⟨3800, 3980, 4000, 0⟩
  channels := ⟨918250, 500, 4, [], false⟩
  rDivider := 24
  filter := .upperBand
  maxPowerCdbm := 3000
  tracksOffTime := false

/-- Russia: four channels in order, with a full off time before every ramp. -/
def russia : Region where
  id := .russia
  timers := ⟨3800, 3980, 4000, 100⟩
  channels := ⟨916200, 1200, 4, [1, 2, 3, 4], false⟩
  rDivider := 60
  filter := .upperBand
  maxPowerCdbm := 3000
  tracksOffTime := false

/-- A plain region to derive custom ones from: four channels of the upper band, and no limits on
how long they are used. -/
def plain : Region where
  id := .custom
  timers := .disabled
  channels := ⟨902750, 500, 4, [], false⟩
  rDivider := 24
  filter := .upperBand
  maxPowerCdbm := 3000
  tracksOffTime := false

def builtin : List Region := [fcc, etsiLower, brazil, philippines, russia]

/-- The built-in region with an identifier. -/
def byId? (id : RegionId) : Option Region := builtin.find? (·.id == id)

end Region
end RfidReader
