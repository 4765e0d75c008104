import RfidReader.Bytes

/-!
# RfidReader.Device.Memory

The byte memory behind the register bus: 65536 bytes whose addresses wrap.

`store` writes a byte string and `load` reads a counted one; both go on at
address 0 after the last byte.
-/

namespace RfidReader

/-- A byte for each address of the chip. -/
structure Memory where
  bytes : Vector UInt8 65536

namespace Memory

def blank : Memory := ⟨.replicate 65536 0⟩

def byteAt (m : Memory) (address : UInt16) : UInt8 :=
  m.bytes.get ⟨address.toNat, address.toNat_lt⟩

def setByte (m : Memory) (address : UInt16) (b : UInt8) : Memory :=
  ⟨m.bytes.set address.toNat b address.toNat_lt⟩

/-- Write a byte string from an address on. -/
def store (m : Memory) (address : UInt16) : List UInt8 → Memory
  | [] => m
  | b :: rest => (m.setByte address b).store (address + 1) rest

/-- The `n` bytes from an address on. -/
def load (m : Memory) (address : UInt16) (n : Nat) : Vector UInt8 n :=
  .ofFn fun i => m.byteAt (address + UInt16.ofNat i)

theorem byteAt_setByte (m : Memory) (a a' : UInt16) (b : UInt8) :
    (m.setByte a b).byteAt a' = if a = a' then b else m.byteAt a' := by
  have h : a'.toNat < 65536 := a'.toNat_lt
  show (m.bytes.set a.toNat b a.toNat_lt)[a'.toNat] = if a = a' then b else m.bytes[a'.toNat]
  simp only [Vector.getElem_set, UInt16.toNat_inj]

end Memory
end RfidReader
