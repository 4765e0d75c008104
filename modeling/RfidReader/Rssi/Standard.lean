import RfidReader.Rssi.Table

/-!
# RfidReader.Rssi.Standard

The signal strength tables of the reference design, and the same tables
extended by the modes of boards that support more of them.
-/

namespace RfidReader
namespace Rssi
namespace Tables

open RxMode

/-- The constants of each receiver configuration. -/
def standardRxModes : List Correction :=
  [⟨-149, 50⟩, ⟨49, 320⟩, ⟨10, 426⟩, ⟨131, 640⟩, ⟨1, 320⟩, ⟨84, 640⟩, ⟨-33, 250⟩, ⟨20, 320⟩,
    ⟨108, 640⟩, ⟨1, 160⟩, ⟨58, 320⟩, ⟨20, 320⟩, ⟨83, 640⟩, ⟨1, 320⟩, ⟨-32, 250⟩, ⟨1, 160⟩,
    ⟨108, 640⟩, ⟨48, 426⟩, ⟨48, 426⟩]

/-- The modes of the reference design. -/
def standardRfModes : List (RfMode × RxMode) :=
  [(102, mode6), (103, mode6), (104, mode4), (120, mode12), (123, mode11), (124, mode12),
    (125, mode11), (126, mode11), (141, mode17), (146, mode16), (147, mode18), (148, mode18),
    (185, mode21), (202, mode5), (203, mode5), (205, mode0), (222, mode11), (223, mode11),
    (224, mode11), (225, mode51), (226, mode51), (241, mode17), (244, mode16), (285, mode21),
    (302, mode6), (323, mode12), (324, mode11), (325, mode11), (326, mode11), (342, mode17),
    (343, mode16), (344, mode18), (345, mode18), (382, mode21)]

/-- The modes that only boards with extended modes have. -/
def extendedRfModes : List (RfMode × RxMode) :=
  [(4123, mode47), (4124, mode46), (4141, mode44), (4146, mode48), (4148, mode50),
    (4185, mode49), (4222, mode47), (4241, mode44), (4244, mode48), (4285, mode49),
    (4323, mode46), (4324, mode47), (4342, mode44), (4343, mode48), (4345, mode50),
    (4382, mode49)]

/-- The tables of the reference design. -/
def standard : Tables where
  rfModes := standardRfModes
  rxModes := standardRxModes
  drmModes := [⟨146, 250⟩, ⟨141, 320⟩]
  otherModes := [⟨185, 160⟩, ⟨123, 320⟩, ⟨124, 640⟩]
  lbtDigital := -37
  lbtShiftKhz := 200

/-- The tables of the reference design with the extended modes. -/
def gen2x : Tables := { standard with rfModes := standardRfModes ++ extendedRfModes }

end Tables
end Rssi
end RfidReader
