import Mathlib.Algebra.Group.Nat.Defs
import RfidReader.Bytes

/-!
# RfidReader.Proofs.LittleEndian

The numbers that byte strings spell.  A byte string of length `n` spells a
number below `256 ^ n` (`leNat_lt`), and writing a number in `n` bytes keeps
it modulo `256 ^ n` (`leNat_ofNatLE`).
-/

namespace RfidReader
namespace Bytes

theorem leNat_lt (bs : List UInt8) : leNat bs < 256 ^ bs.length := by
  induction bs with
  | nil => simp [leNat]
  | cons b rest ih =>
    have hb : b.toNat < 256 := b.toNat_lt
    simp only [leNat, List.length_cons, Nat.pow_succ]
    omega

/-- Writing `n` bytes keeps the number modulo `256 ^ n`. -/
theorem leNat_ofNatLE (n v : Nat) : leNat (ofNatLE n v) = v % 256 ^ n := by
  induction n generalizing v with
  | zero => simp [ofNatLE, leNat, Nat.mod_one]
  | succ n ih =>
    have hb : (UInt8.ofNat v).toNat = v % 256 := by simp
    rw [ofNatLE, leNat, ih, hb, Nat.pow_succ, Nat.mul_comm (256 ^ n) 256, Nat.mod_mul]

end Bytes
end RfidReader
