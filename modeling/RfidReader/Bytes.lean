/-!
# RfidReader.Bytes

Little-endian numbers over byte lists.  Everything the reader chip stores is
little-endian, so `leNat` reads a byte string as a number and `ofNatLE`
writes the lowest bytes of one; writing back what was read gives the same
bytes (`ofNatLE_leNat`).  `slice?` cuts a counted piece out of a byte string, and
`hex` shows one as text.
-/

namespace RfidReader
namespace Bytes

/-! ## Numbers -/

/-- The number a byte string spells, lowest byte first. -/
def leNat : List UInt8 → Nat
  | [] => 0
  | b :: rest => b.toNat + 256 * leNat rest

/-- The `n` lowest bytes of `v`, lowest byte first. -/
def ofNatLE : (n : Nat) → (v : Nat) → List UInt8
  | 0, _ => []
  | n + 1, v => UInt8.ofNat v :: ofNatLE n (v / 256)

@[simp] theorem length_ofNatLE (n v : Nat) : (ofNatLE n v).length = n := by
  induction n generalizing v with
  | zero => rfl
  | succ n ih => simp [ofNatLE, ih]

/-- Reading a byte string and writing it back at its own length gives it back. -/
theorem ofNatLE_leNat (bs : List UInt8) : ofNatLE bs.length (leNat bs) = bs := by
  induction bs with
  | nil => rfl
  | cons b rest ih =>
    have hb : b.toNat < 256 := b.toNat_lt
    have hdiv : (b.toNat + 256 * leNat rest) / 256 = leNat rest := by omega
    have hmod : UInt8.ofNat (b.toNat + 256 * leNat rest) = b := by
      apply UInt8.toNat_inj.mp
      simp only [UInt8.toNat_ofNat']
      omega
    simp only [List.length_cons, leNat, ofNatLE, hdiv, hmod, ih]

/-! ## Slices -/

/-- The `n` bytes starting at `offset`, if the byte string reaches that far; even an empty piece
has to start inside it or at its end. -/
def slice? (bs : List UInt8) (offset n : Nat) : Option (Vector UInt8 n) :=
  if h : offset + n ≤ bs.length then some ⟨((bs.drop offset).take n).toArray, by simp; omega⟩
  else none

/-- The first `n` bytes, if there are that many; only those bytes are walked. -/
def front? (n : Nat) (bs : List UInt8) : Option (List UInt8) :=
  let front := bs.take n
  if front.length = n then some front else none

/-- Put `piece` in place of the bytes from `offset` on, keeping those behind it. -/
def overwrite (bs : List UInt8) (offset : Nat) (piece : List UInt8) : List UInt8 :=
  bs.take offset ++ piece ++ bs.drop (offset + piece.length)

section Overwrite

variable {bs piece : List UInt8} {offset : Nat}

@[simp] theorem length_overwrite (h : offset + piece.length ≤ bs.length) :
    (overwrite bs offset piece).length = bs.length := by
  simp [overwrite]
  omega

/-- What was put in place is there. -/
theorem take_drop_overwrite (h : offset ≤ bs.length) :
    ((overwrite bs offset piece).drop offset).take piece.length = piece := by
  simp [overwrite, Nat.min_eq_left h]

/-- What lies in front of the piece is as before. -/
theorem take_drop_overwrite_before {start n : Nat} (h : offset ≤ bs.length)
    (hbefore : start + n ≤ offset) :
    ((overwrite bs offset piece).drop start).take n = (bs.drop start).take n := by
  rw [List.take_drop, List.take_drop, overwrite, List.append_assoc,
    List.take_append_of_le_length (by simp; omega), List.take_take,
    Nat.min_eq_left hbefore]

/-- What lies behind the piece is as before. -/
theorem drop_overwrite_after {start : Nat} (h : offset ≤ bs.length)
    (hafter : offset + piece.length ≤ start) :
    (overwrite bs offset piece).drop start = bs.drop start := by
  have hfront : (bs.take offset ++ piece).length = offset + piece.length := by simp [h]
  rw [overwrite, List.drop_append, List.drop_eq_nil_of_le (by omega), hfront, List.drop_drop,
    List.nil_append]
  congr 1
  omega

end Overwrite

/-! ## Text -/

/-- The two lowercase hexadecimal digits of a byte. -/
def hexDigits (b : UInt8) : List Char :=
  [Nat.digitChar (b.toNat / 16), Nat.digitChar (b.toNat % 16)]

/-- The hexadecimal text of a byte string, two digits a byte. -/
def hex (bs : List UInt8) : String := String.ofList (bs.flatMap hexDigits)

/-- The value of a lowercase hexadecimal digit. -/
def digitValue? (c : Char) : Option Nat := "0123456789abcdef".toList.findIdx? (· == c)

/-- The byte string a list of hexadecimal digits spells. -/
def ofHexDigits? : List Char → Option (List UInt8)
  | [] => some []
  | [_] => none
  | high :: low :: rest => do
    let high ← digitValue? high
    let low ← digitValue? low
    let bytes ← ofHexDigits? rest
    pure (UInt8.ofNat (16 * high + low) :: bytes)

/-- The byte string a hexadecimal text spells. -/
def ofHex? (text : String) : Option (List UInt8) := ofHexDigits? text.toList

end Bytes
end RfidReader
