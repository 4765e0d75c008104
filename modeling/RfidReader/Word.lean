import RfidReader.Bytes

/-!
# RfidReader.Word

Fixed-width values and how they sit in memory.

`Word` gives each width its little-endian bytes: `Word.encode` writes exactly
`Word.size` of them and `Word.decode` reads that many back, missing bytes
counting as zero.  Integers are told apart by their bits; all single precision
patterns that stand for no number are read as the same value, so only a word of
bits keeps them apart.  The rest is arithmetic on widths: the short bit fields of
a register word, and clamping to the range of a narrower type.
-/

namespace RfidReader

/-- A value that is stored as `size` little-endian bytes. -/
class Word (α : Type) where
  /-- The number of bytes. -/
  size : Nat
  /-- The stored bits as a number. -/
  toBits : α → Nat
  /-- The value of the lowest `8 * size` bits of a number. -/
  ofBits : Nat → α

namespace Word

instance : Word UInt8 := ⟨1, UInt8.toNat, UInt8.ofNat⟩
instance : Word UInt16 := ⟨2, UInt16.toNat, UInt16.ofNat⟩
instance : Word UInt32 := ⟨4, UInt32.toNat, UInt32.ofNat⟩
instance : Word Int8 := ⟨1, fun x => x.toUInt8.toNat, fun n => (UInt8.ofNat n).toInt8⟩
instance : Word Int16 := ⟨2, fun x => x.toUInt16.toNat, fun n => (UInt16.ofNat n).toInt16⟩
instance : Word Int32 := ⟨4, fun x => x.toUInt32.toNat, fun n => (UInt32.ofNat n).toInt32⟩
instance : Word Float32 :=
  ⟨4, fun x => x.toBits.toNat, fun n => Float32.ofBits (UInt32.ofNat n)⟩

/-- The bytes of a value, lowest first. -/
def encode {α : Type} [Word α] (x : α) : List UInt8 := Bytes.ofNatLE (size α) (toBits x)

/-- The value at the front of a byte string; bytes that are missing count as zero. -/
def decode {α : Type} [Word α] (bs : List UInt8) : α :=
  ofBits (Bytes.leNat (bs.take (size α)))

@[simp] theorem length_encode {α : Type} [Word α] (x : α) : (encode x).length = size α := by
  simp [encode]

end Word

/-! ## Bit fields -/

/-- The two lowest bits of a number. -/
def lowTwo (w : Nat) : Fin 4 := ⟨w % 4, Nat.mod_lt w (by decide)⟩

def lowThree (w : Nat) : Fin 8 := ⟨w % 8, Nat.mod_lt w (by decide)⟩

def lowFive (w : Nat) : Fin 32 := ⟨w % 32, Nat.mod_lt w (by decide)⟩

/-! ## Clamping -/

/-- The 16-bit signed value nearest to `v`. -/
def clampInt16 (v : Int) : Int16 := Int16.ofInt (max (-32768) (min 32767 v))

/-- The 16-bit unsigned value nearest to `v`. -/
def clampUInt16 (v : Int) : UInt16 := UInt16.ofNat (max 0 (min 65535 v)).toNat

def clampUInt32 (v : Nat) : UInt32 := UInt32.ofNat (min 4294967295 v)

end RfidReader
