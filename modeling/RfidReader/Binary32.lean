/-!
# RfidReader.Binary32

Single precision numbers and integers.

Arithmetic on powers and frequencies is single precision, one rounding per
operation; readings and settings are integers.  `ofInt` gives the number
nearest to an integer below `2 ^ 32` in size, and `saturate` goes back: it
drops the fraction and stops at the ends of the given range.  Both are
computed from the stored bits, so they can be evaluated and reasoned about.
-/

namespace RfidReader
namespace Binary32

/-- The single precision number nearest to `n`, for `|n| < 2 ^ 32`. -/
def ofInt (n : Int) : Float32 :=
  if n < 0 then -(UInt32.ofNat n.natAbs).toFloat32 else (UInt32.ofNat n.natAbs).toFloat32

def largest : Float32 := Float32.ofBits 0x7f7fffff

/-- The whole part of a number's size, given its exponent and fraction bits. -/
def magnitude (exponent fraction : Nat) : Nat :=
  let significand := if exponent = 0 then fraction else 0x800000 + fraction
  if 150 ≤ exponent then significand <<< (exponent - 150) else significand >>> (150 - exponent)

/-- The integer part of `x`, limited to `lo` through `hi`.

A number beyond the range gives the nearer end, and what is not a number gives 0. -/
def saturate (lo hi : Int) (x : Float32) : Int :=
  let bits := x.toBits.toNat
  let negative := bits.testBit 31
  let exponent := (bits >>> 23) % 256
  let fraction := bits % 0x800000
  if exponent = 255 then
    if fraction ≠ 0 then 0 else if negative then lo else hi
  else
    let whole : Int := magnitude exponent fraction
    max lo (min hi (if negative then -whole else whole))

end Binary32
end RfidReader
