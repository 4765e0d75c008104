import RfidReader.Proofs.LittleEndian
import RfidReader.Word

/-!
# RfidReader.Proofs.Word

Words read back from memory.  A word is lawful when its bits fit its size and
stand for it alone; a lawful word at the front of a byte string is read back
from its bytes (`decode_encode_append`).  An exact word has every number that
fits for its bits, so bytes that were read are written back (`encode_decode`).
Clamping to a width takes the largest word for whatever is beyond it.
-/

namespace RfidReader
namespace Bytes

/-- A number of at most `n` bytes is read back from the front of a byte string. -/
theorem leNat_take_ofNatLE_append {n v : Nat} (h : v < 256 ^ n) (rest : List UInt8) :
    leNat ((ofNatLE n v ++ rest).take n) = v := by
  rw [List.take_left' (length_ofNatLE n v), leNat_ofNatLE, Nat.mod_eq_of_lt h]

end Bytes

/-- Words whose bits fit their size and stand for no other word. -/
class LawfulWord (α : Type) [Word α] : Prop where
  toBits_lt (x : α) : Word.toBits x < 256 ^ Word.size α
  ofBits_toBits (x : α) : Word.ofBits (Word.toBits x) = x

instance : LawfulWord UInt8 where
  toBits_lt x := x.toNat_lt
  ofBits_toBits _ := UInt8.ofNat_toNat

instance : LawfulWord UInt16 where
  toBits_lt x := x.toNat_lt
  ofBits_toBits _ := UInt16.ofNat_toNat

instance : LawfulWord UInt32 where
  toBits_lt x := x.toNat_lt
  ofBits_toBits _ := UInt32.ofNat_toNat

instance : LawfulWord Int16 where
  toBits_lt x := x.toUInt16.toNat_lt
  ofBits_toBits _ := congrArg UInt16.toInt16 UInt16.ofNat_toNat

/-- Words that keep the lowest bits of a number, as many as fit their size. -/
class ExactWord (α : Type) [Word α] : Prop where
  toBits_ofBits (n : Nat) : Word.toBits (Word.ofBits n : α) = n % 256 ^ Word.size α

instance : ExactWord UInt8 where
  toBits_ofBits _ := UInt8.toNat_ofNat'

instance : ExactWord UInt16 where
  toBits_ofBits _ := UInt16.toNat_ofNat'

instance : ExactWord UInt32 where
  toBits_ofBits _ := UInt32.toNat_ofNat'

instance : ExactWord Int16 where
  toBits_ofBits _ := UInt16.toNat_ofNat'

namespace Word

/-- A lawful word is read back from the front of a byte string. -/
theorem decode_encode_append {α : Type} [Word α] [LawfulWord α] (x : α) (rest : List UInt8) :
    decode (encode x ++ rest) = x := by
  rw [decode, encode, Bytes.leNat_take_ofNatLE_append (LawfulWord.toBits_lt x),
    LawfulWord.ofBits_toBits]

/-- A lawful word is read back from its own bytes. -/
theorem decode_encode {α : Type} [Word α] [LawfulWord α] (x : α) : decode (encode x) = x := by
  have h := decode_encode_append x []
  rwa [List.append_nil] at h

/-- A word looks at no more than its own bytes. -/
@[simp] theorem decode_take {α : Type} [Word α] (bs : List UInt8) :
    (decode (bs.take (size α)) : α) = decode bs := by
  rw [decode, decode, List.take_take, Nat.min_self]

/-- The bytes of an exact word that was read are those it was read from. -/
theorem encode_decode {α : Type} [Word α] [ExactWord α] {bs : List UInt8}
    (h : size α ≤ bs.length) : encode (decode bs : α) = bs.take (size α) := by
  have hlength : (bs.take (size α)).length = size α := List.length_take_of_le h
  have hlt := Bytes.leNat_lt (bs.take (size α))
  have hbytes := Bytes.ofNatLE_leNat (bs.take (size α))
  rw [hlength] at hlt hbytes
  rw [encode, decode, ExactWord.toBits_ofBits, Nat.mod_eq_of_lt hlt, hbytes]

end Word

/-! ## Clamping -/

theorem toNat_clampUInt16 (n : Nat) : (clampUInt16 n).toNat = min 65535 n := by
  rw [clampUInt16, UInt16.toNat_ofNat']
  omega

theorem toNat_clampUInt32 (n : Nat) : (clampUInt32 n).toNat = min 4294967295 n := by
  rw [clampUInt32, UInt32.toNat_ofNat']
  omega

end RfidReader
