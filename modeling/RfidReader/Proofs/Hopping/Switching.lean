import RfidReader.Hopping.ActiveRegion

/-!
# RfidReader.Proofs.Hopping.Switching

Switching to another region, step by step.

`switchTo` changes an active region as it goes: first the reference frequency,
then the region with its channels in channel order, and at last the hop order.
A region whose plan is too long would be refused in between, with the
reference changed already.  No built-in region is, so switching replaces the
region by the one that is selected, or leaves it as it was (`run_switchTo`).
-/

namespace RfidReader

/-- The plans of the built-in regions fit the hop table. -/
theorem Region.length_le_builtin : ∀ region ∈ Region.builtin,
    region.channels.usable.length ≤ maxChannels ∧ region.channels.count.toNat ≤ maxChannels := by
  decide

namespace ActiveRegion

variable {ρ : Type} [RandomSource ρ]

/-- Procedures that change an active region and draw random numbers. -/
abbrev SwitchM (ρ : Type) := ExceptT Fault (StateT ActiveRegion (StateM ρ))

/-- Load a region: its channels in channel order, and then shuffled if it hops at random. -/
def load (region : Region) : SwitchM ρ Unit := do
  if maxChannels < region.channels.usable.length ∨ maxChannels < region.channels.count.toNat then
    throw .hopTableTooLong
  let plan := planChannels region.channels.usable region.channels.count
  modify fun a => start region region.channels.usable a.referenceKhz plan
  if region.channels.randomHop then
    let hopTable ← (Hopping.shuffle plan : StateM ρ (List UInt16))
    modify fun a => { a with hopTable, channelsKhz := hopTable.map region.channels.channelKhz }

/-- Switch to a built-in region. -/
def switchTo (id : RegionId) (referenceKhz : UInt32) : SwitchM ρ Unit :=
  match Region.byId? id with
  | none => throw .unknownRegion
  | some region => do
    modify fun a => { a with referenceKhz }
    load region

/-- A region that is not too long is selected at the start of a hop order. -/
theorem run_ofRegion {region : Region} (h : ¬ (maxChannels < region.channels.usable.length ∨
      maxChannels < region.channels.count.toNat)) (referenceKhz : UInt32) (source : ρ) :
    StateT.run (m := Id) (ofRegion region referenceKhz).run source =
      let (hopTable, rest) := StateT.run (m := Id) (Hopping.order region.channels.randomHop
        (planChannels region.channels.usable region.channels.count)) source
      (.ok (start region region.channels.usable referenceKhz hopTable), rest) := by
  unfold ofRegion
  rw [if_neg h]
  rfl

/-- Loading a region that is not too long leaves it at the start of a hop order. -/
theorem run_load {region : Region} (h : ¬ (maxChannels < region.channels.usable.length ∨
      maxChannels < region.channels.count.toNat)) (a : ActiveRegion) (source : ρ) :
    StateT.run (m := Id) ((load region).run.run a) source =
      let (hopTable, rest) := StateT.run (m := Id) (Hopping.order region.channels.randomHop
        (planChannels region.channels.usable region.channels.count)) source
      ((.ok (), start region region.channels.usable a.referenceKhz hopTable), rest) := by
  unfold load Hopping.order
  rw [if_neg h]
  cases region.channels.randomHop <;> rfl

/-- **Switching a region**: it is replaced by the one that is selected, or stays as it was. -/
theorem run_switchTo (id : RegionId) (referenceKhz : UInt32) (a : ActiveRegion) (source : ρ) :
    StateT.run (m := Id) ((switchTo id referenceKhz).run.run a) source =
      match StateT.run (m := Id) (ofId id referenceKhz).run source with
      | (.ok b, rest) => ((.ok (), b), rest)
      | (.error fault, rest) => ((.error fault, a), rest) := by
  unfold switchTo ofId
  cases hregion : Region.byId? id with
  | none => rfl
  | some region =>
      have hfits := Region.length_le_builtin region (List.mem_of_find?_eq_some hregion)
      have hshort : ¬ (maxChannels < region.channels.usable.length ∨
          maxChannels < region.channels.count.toNat) := by omega
      simp only [run_ofRegion hshort]
      exact run_load hshort { a with referenceKhz } source

end ActiveRegion
end RfidReader
