/-!
# RfidReader.Region.Basic

Regulatory regions: a channel plan, dwell limits and the synthesizer and
filter settings that go with them.

Channels are numbered from 1 and evenly spaced.  `ChannelPlan.channelKhz` and
`ChannelPlan.channelNumber` go from number to frequency and back.
-/

namespace RfidReader

/-! ## Identifiers -/

/-- The regions a reader can be asked to work in. -/
inductive RegionId where
  | fcc | hk | taiwan | etsiLower | korea | malaysia | china | southAfrica | brazil | thailand
  | singapore | australia | india | uruguay | vietnam | israel | philippines | indonesia
  | newZealand | japan916921Mhz | peru | etsiUpper | russia | custom | notDefined
  deriving DecidableEq, Repr

namespace RegionId

def all : List RegionId :=
  [fcc, hk, taiwan, etsiLower, korea, malaysia, china, southAfrica, brazil, thailand, singapore,
    australia, india, uruguay, vietnam, israel, philippines, indonesia, newZealand,
    japan916921Mhz, peru, etsiUpper, russia, custom, notDefined]

def code : RegionId → Nat
  | fcc => 0 | hk => 3 | taiwan => 4 | etsiLower => 7 | korea => 8 | malaysia => 9
  | china => 10 | southAfrica => 12 | brazil => 13 | thailand => 14 | singapore => 15
  | australia => 16 | india => 17 | uruguay => 18 | vietnam => 19 | israel => 20
  | philippines => 21 | indonesia => 23 | newZealand => 24 | japan916921Mhz => 25 | peru => 27
  | etsiUpper => 29 | russia => 100 | custom => 254 | notDefined => 255

def ofCode? (n : Nat) : Option RegionId := all.find? (·.code == n)

def name : RegionId → String
  | fcc => "Fcc" | hk => "Hk" | taiwan => "Taiwan" | etsiLower => "EtsiLower"
  | korea => "Korea" | malaysia => "Malaysia" | china => "China" | southAfrica => "SouthAfrica"
  | brazil => "Brazil" | thailand => "Thailand" | singapore => "Singapore"
  | australia => "Australia" | india => "India" | uruguay => "Uruguay" | vietnam => "Vietnam"
  | israel => "Israel" | philippines => "Philippines" | indonesia => "Indonesia"
  | newZealand => "NewZealand" | japan916921Mhz => "Japan916921Mhz" | peru => "Peru"
  | etsiUpper => "EtsiUpper" | russia => "Russia" | custom => "Custom"
  | notDefined => "NotDefined"

theorem ofCode?_code (id : RegionId) : ofCode? id.code = some id := by
  cases id <;> decide

end RegionId

/-! ## Filters and timers -/

/-- The transmit filter a region's channels pass through. -/
inductive RfFilter where
  | undefined
  /-- 865 to 868 MHz. -/
  | lowerBand
  /-- 900 to 930 MHz. -/
  | upperBand
  deriving DecidableEq, Repr

namespace RfFilter

def code : RfFilter → Nat
  | undefined => 0
  | lowerBand => 1
  | upperBand => 2

def ofCode? (n : Nat) : Option RfFilter := [undefined, lowerBand, upperBand].find? (·.code == n)

def name : RfFilter → String
  | undefined => "Undefined"
  | lowerBand => "LowerBand"
  | upperBand => "UpperBand"

end RfFilter

/-- Dwell limits of one transmission, in milliseconds.  A nominal time of zero turns the chip's
dwell timers off. -/
structure DwellTimers where
  /-- When the chip starts ramping down. -/
  nominalMs : UInt16 := 0
  /-- When it ramps down while an inventory round is still finishing. -/
  extendedMs : UInt16 := 0
  /-- The hard limit. -/
  regulatoryMs : UInt16 := 0
  /-- How long the transmitter stays off before it reuses the channel. -/
  offSameChannelMs : UInt16 := 0
  deriving DecidableEq, Repr

namespace DwellTimers

/-- Timers that let the transmitter stay on without limit. -/
def disabled : DwellTimers := {}

end DwellTimers

/-! ## Channel plans -/

/-- The channels of a region. -/
structure ChannelPlan where
  /-- The frequency of channel 1. -/
  startKhz : UInt32
  spacingKhz : UInt32
  /-- The number of channels. -/
  count : UInt16
  /-- The channels that may be used; empty when all of 1 through `count` may. -/
  usable : List UInt16
  /-- Whether the hop order is shuffled. -/
  randomHop : Bool
  deriving DecidableEq, Repr

namespace ChannelPlan

/-- The frequency of a channel number. -/
def channelKhz (p : ChannelPlan) (channel : UInt16) : UInt32 :=
  p.startKhz + UInt32.ofNat (channel.toNat - 1) * p.spacingKhz

/-- The number of the channel a frequency falls in, 0 when the plan has no spacing. -/
def channelNumber (p : ChannelPlan) (khz : UInt32) : UInt16 :=
  if p.spacingKhz = 0 then 0
  else UInt16.ofNat ((khz.toNat - p.startKhz.toNat) / p.spacingKhz.toNat + 1)

end ChannelPlan

/-! ## Regions -/

/-- What is needed to transmit within a region. -/
structure Region where
  id : RegionId
  timers : DwellTimers
  channels : ChannelPlan
  /-- The synthesizer's reference divider. -/
  rDivider : UInt32
  filter : RfFilter
  maxPowerCdbm : Int16
  /-- Whether the on time of each channel is tracked to work out the off time it owes; regions
  that do not track ask for the full off time before every ramp. -/
  tracksOffTime : Bool
  deriving DecidableEq, Repr

end RfidReader
