import RfidReader.Binary32

/-!
# RfidReader.Interpolation

Piecewise linear look-up in a table of samples with ascending `x`.

Integer and single precision tables follow the same rules: below the first
sample the first `y` is returned, above the last sample the last `y`, at a
sample its `y` exactly, and in between the line through the two samples
around it.  An empty table gives zero.
-/

namespace RfidReader
namespace Interpolation

/-! ## Integer tables -/

/-- The value at `x` on the line from `lo` to `hi`: each end contributes its `y` weighted by the
distance to the other end, truncated toward zero. -/
def blend (lo hi : UInt16 × Int16) (x : Int) : Int :=
  let x₀ : Int := lo.1.toNat
  let x₁ : Int := hi.1.toNat
  ((x₁ - x) * lo.2.toInt).tdiv (x₁ - x₀) + ((x - x₀) * hi.2.toInt).tdiv (x₁ - x₀)

/-- The value at `x`, which is above `lo`, among the samples that follow `lo`. -/
def integerAbove (lo : UInt16 × Int16) (x : Int) : List (UInt16 × Int16) → Int16
  | [] => lo.2
  | hi :: rest =>
    if (hi.1.toNat : Int) = x then hi.2
    else if x < hi.1.toNat then Int16.ofInt (blend lo hi x)
    else integerAbove hi x rest

/-- Integer interpolation. -/
def integer (samples : List (UInt16 × Int16)) (x : Int16) : Int16 :=
  match samples with
  | [] => 0
  | first :: rest =>
    let last := rest.getLast?.getD first
    if x.toInt < first.1.toNat then first.2
    else if (last.1.toNat : Int) < x.toInt then last.2
    else if x.toInt = first.1.toNat then first.2
    else integerAbove first x.toInt rest

/-! ## Single precision tables -/

/-- The value at `x` among the samples that follow `lo`. -/
def singleAbove (lo : Float32 × Float32) (x : Float32) : List (Float32 × Float32) → Float32
  | [] => lo.2
  | hi :: rest =>
    if x == hi.1 then hi.2
    else if x < hi.1 then
      let fraction := (x - lo.1) / (hi.1 - lo.1)
      lo.2 + fraction * (hi.2 - lo.2)
    else singleAbove hi x rest

/-- Single precision interpolation. -/
def single (samples : List (Float32 × Float32)) (x : Float32) : Float32 :=
  match samples with
  | [] => 0
  | first :: rest =>
    let last := rest.getLast?.getD first
    if x ≤ first.1 then first.2
    else if last.1 ≤ x then last.2
    else singleAbove first x rest

end Interpolation
end RfidReader
