import RfidReader.Proofs.Word
import RfidReader.Register.Basic

/-!
# RfidReader.Proofs.Register

Register values read back from the bytes that are written for them.  A
register that holds one lawful word gives the word back (`decode?_encode_ofWord`).
-/

namespace RfidReader
namespace Register

variable {α : Type}

/-- A value that fits the entry is read back as what its packed form stands for. -/
theorem decode_encode {r : Register α} (h : 0 < r.copies) {v : α}
    (hfits : r.pack v < 256 ^ r.width) : r.decode (r.encode v) = r.unpack (r.pack v) := by
  obtain ⟨copies, hcopies⟩ := Nat.exists_eq_succ_of_ne_zero (Nat.ne_of_gt h)
  rw [encode, hcopies, List.replicate_succ, List.flatten_cons, decode,
    Bytes.leNat_take_ofNatLE_append hfits]

/-- A word is read back from the register that holds it, however many zeros follow it there. -/
theorem decode_encode_ofWord [Word α] [LawfulWord α] {address : UInt16} {width : Nat}
    (h : Word.size α ≤ width) (x : α) :
    (ofWord α address width).decode ((ofWord α address width).encode x) = x := by
  have hfits : Word.toBits x < 256 ^ width :=
    Nat.lt_of_lt_of_le (LawfulWord.toBits_lt x) (Nat.pow_le_pow_right (by decide) h)
  rw [decode_encode Nat.one_pos hfits]
  exact LawfulWord.ofBits_toBits x

/-- A register that needs no more bytes than it takes up accepts what is written for it. -/
theorem decode?_encode {r : Register α} (h : r.needed ≤ r.length) (v : α) :
    r.decode? (r.encode v) = some (r.decode (r.encode v)) := by
  rw [decode?, length_encode, if_neg (Nat.not_lt_of_le h)]

theorem decode?_encode_ofWord [Word α] [LawfulWord α] {address : UInt16} {width : Nat}
    (h : Word.size α ≤ width) (x : α) :
    (ofWord α address width).decode? ((ofWord α address width).encode x) = some x := by
  have hneeded : (ofWord α address width).needed ≤ (ofWord α address width).length := by
    show Word.size α ≤ width * 1
    omega
  rw [decode?_encode hneeded, decode_encode_ofWord h]

end Register
end RfidReader
