import RfidReader.Word

/-!
# RfidReader.Register.Basic

A register is an address together with the layout of a value in the bytes
found there.

The layout packs the value into one number of `width` bytes, stored lowest
byte first and, for a few registers, repeated in `copies` equal entries.
`Register.encode` gives the bytes written to the chip and `Register.decode`
reads the first entry back.  `decode?` refuses byte strings that end before
the last field.
-/

namespace RfidReader

/-- Where a value lives in the chip's memory and how it is laid out there. -/
structure Register (α : Type) where
  /-- The address of the first byte. -/
  address : UInt16
  /-- The number of bytes of one entry. -/
  width : Nat
  /-- The number of equal entries. -/
  copies : Nat := 1
  /-- How many bytes the fields reach into. -/
  needed : Nat := width
  /-- The entry as a number. -/
  pack : α → Nat
  /-- The value an entry stands for; bits outside the fields are ignored. -/
  unpack : Nat → α

namespace Register

variable {α : Type}

/-- The number of bytes the register takes up. -/
def length (r : Register α) : Nat := r.width * r.copies

/-- The bytes written to the chip. -/
def encode (r : Register α) (v : α) : List UInt8 :=
  (List.replicate r.copies (Bytes.ofNatLE r.width (r.pack v))).flatten

/-- The value at the front of a byte string; bytes that are missing count as zero. -/
def decode (r : Register α) (bs : List UInt8) : α :=
  r.unpack (Bytes.leNat (bs.take r.width))

/-- The value at the front of a byte string that holds every field. -/
def decode? (r : Register α) (bs : List UInt8) : Option α :=
  if bs.length < r.needed then none else some (r.decode bs)

/-- A register that holds one word in its lowest bytes, followed by zeros. -/
def ofWord (α : Type) [Word α] (address : UInt16) (width : Nat) : Register α where
  address
  width
  needed := Word.size α
  pack := Word.toBits
  unpack := Word.ofBits

/-- A register whose lowest bit says yes or no. -/
def ofFlag (address : UInt16) : Register Bool where
  address
  width := 4
  needed := 1
  pack := Bool.toNat
  unpack := fun n => n.testBit 0

theorem length_encode (r : Register α) (v : α) : (r.encode v).length = r.length := by
  have entries (k : Nat) :
      (List.replicate k (Bytes.ofNatLE r.width (r.pack v))).flatten.length = r.width * k := by
    induction k with
    | zero => rfl
    | succ k ih =>
      rw [List.replicate_succ, List.flatten_cons, List.length_append, ih,
        Bytes.length_ofNatLE, Nat.mul_succ, Nat.add_comm]
  exact entries r.copies

end Register
end RfidReader
