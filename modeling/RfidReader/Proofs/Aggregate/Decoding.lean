import RfidReader.Aggregate.Instruction
import RfidReader.Proofs.Word

/-!
# RfidReader.Proofs.Aggregate.Decoding

Instructions read back from their bytes.

An instruction is `Encodable` when the operands that carry their own length
agree with it.  Such an instruction is read back from the front of a byte
string (`decode?_encode_append`), and so is a list of them
(`decodeAll_encodeAll_append`), whose extent is the number of its bytes
(`extent_eq_length_encodeAll`).
-/

namespace RfidReader
namespace Bytes

/-- A counted piece is cut from the front of a byte string. -/
theorem front?_append {n : Nat} {bs : List UInt8} (h : bs.length = n) (rest : List UInt8) :
    front? n (bs ++ rest) = some bs := by
  subst h
  simp only [front?, List.take_left, if_true]

end Bytes

namespace Instruction

/-- The operands that carry their own length agree with it: the data of a write can be counted in
16 bits, and an event packet is as long as its first byte says. -/
def Encodable : Instruction → Prop
  | .write _ data => data.length < 65536
  | .insertFifoEvent _ packet =>
    ∃ words rest, packet = words :: rest ∧ 4 * words.toNat = packet.length
  | _ => True

/-- The bytes of a list of instructions. -/
def encodeAll (is : List Instruction) : List UInt8 := is.flatMap encode

/-! ## One instruction -/

/-- The two bytes of a 16-bit word. -/
private theorem encode_uInt16 (x : UInt16) :
    Word.encode x = [UInt8.ofNat x.toNat, UInt8.ofNat (x.toNat / 256)] := rfl

/-- A code byte selects the kind it belongs to. -/
theorem decode?_code_cons (k : Kind) (bs : List UInt8) :
    decode? (k.code :: bs) = ofOperands? k bs := by
  rw [decode?, Kind.ofCode?_code, Option.bind_some]

/-- The operands of a write are read back, the count of its data first. -/
private theorem ofOperands?_write (address : UInt16) {data : List UInt8}
    (h : data.length < 65536) (rest : List UInt8) :
    ofOperands? .write ((operands (.write address data)).flatten ++ rest)
      = some (.write address data) := by
  have hcount : Bytes.leNat (Word.encode (UInt16.ofNat data.length)) = data.length := by
    rw [Word.encode, Bytes.leNat_ofNatLE]
    show (UInt16.ofNat data.length).toNat % 65536 = data.length
    rw [UInt16.toNat_ofNat']
    omega
  have haddress := Word.decode_encode address
  rw [encode_uInt16] at hcount haddress
  simp only [operands, encode_uInt16, List.flatten_cons, List.flatten_nil, List.append_nil,
    List.cons_append, List.nil_append, ofOperands?, hcount, haddress,
    Bytes.front?_append rfl, Option.map_some]

/-- The operands of an event are read back, the count in its packet's first byte. -/
private theorem ofOperands?_insertFifoEvent (irq : Bool) {packet : List UInt8}
    (h : Encodable (.insertFifoEvent irq packet)) (rest : List UInt8) :
    ofOperands? .insertFifoEvent ((operands (.insertFifoEvent irq packet)).flatten ++ rest)
      = some (.insertFifoEvent irq packet) := by
  obtain ⟨words, tail, rfl, hlen⟩ := h
  have hflag : (UInt8.ofNat irq.toNat != 0) = irq := by cases irq <;> rfl
  have hfront : Bytes.front? (4 * words.toNat) (words :: tail ++ rest) = some (words :: tail) :=
    Bytes.front?_append hlen.symm rest
  rw [List.cons_append] at hfront
  simp only [operands, List.flatten_cons, List.flatten_nil, List.append_nil, List.cons_append,
    List.nil_append, ofOperands?, hfront, hflag, Option.map_some]

/-- **One instruction, prefix form**: an encodable instruction is read back from the front of a
byte string. -/
theorem decode?_encode_append {i : Instruction} (h : i.Encodable) (rest : List UInt8) :
    decode? (i.encode ++ rest) = some i := by
  rw [encode, List.cons_append, decode?_code_cons]
  cases i with
  | write address data => exact ofOperands?_write address h rest
  | insertFifoEvent irq packet => exact ofOperands?_insertFifoEvent irq h rest
  | runOp op =>
      show (Op.ofCode? op.code).map Instruction.runOp = some (.runOp op)
      rw [Op.ofCode?_code, Option.map_some]
  | goTo index times =>
      show some (Instruction.goTo (Word.decode (Word.encode index)) times) = _
      rw [Word.decode_encode]
  | identifier id =>
      show some (Instruction.identifier (Word.decode (Word.encode id))) = _
      rw [Word.decode_encode]
  | hostMutex on => cases on <;> rfl
  | reset | exit => rfl

/-! ## Lists of instructions -/

theorem decodeAll_cons {bs : List UInt8} {i : Instruction} (h : decode? bs = some i) :
    decodeAll bs = i :: decodeAll (bs.drop i.size) := by
  rw [decodeAll]
  split
  · next hnone => rw [hnone] at h; contradiction
  · next j hsome =>
      rw [hsome] at h
      rw [Option.some.inj h]

theorem decodeAll_of_none {bs : List UInt8} (h : decode? bs = none) : decodeAll bs = [] := by
  rw [decodeAll]
  split
  · rfl
  · next i hsome => rw [hsome] at h; contradiction

@[simp] theorem decodeAll_nil : decodeAll [] = [] := decodeAll_of_none rfl

/-- **Lists, prefix form**: encodable instructions are read back from the front of a byte string,
and what follows them is read after them. -/
theorem decodeAll_encodeAll_append {is : List Instruction} (h : ∀ i ∈ is, i.Encodable)
    (rest : List UInt8) : decodeAll (encodeAll is ++ rest) = is ++ decodeAll rest := by
  induction is with
  | nil => rfl
  | cons i is ih =>
      have hi := h i List.mem_cons_self
      have his := ih fun j hj => h j (List.mem_cons_of_mem i hj)
      have hbytes : encodeAll (i :: is) ++ rest = i.encode ++ (encodeAll is ++ rest) := by
        rw [encodeAll, List.flatMap_cons, List.append_assoc, encodeAll]
      rw [hbytes, decodeAll_cons (decode?_encode_append hi _), ← length_encode, List.drop_left,
        his, List.cons_append]

/-- Encodable instructions are read back from their bytes. -/
theorem decodeAll_encodeAll {is : List Instruction} (h : ∀ i ∈ is, i.Encodable) :
    decodeAll (encodeAll is) = is := by
  have hdecode := decodeAll_encodeAll_append h []
  rwa [List.append_nil, decodeAll_nil, List.append_nil] at hdecode

/-- The extent of a list of instructions is the number of its bytes. -/
theorem extent_eq_length_encodeAll (is : List Instruction) :
    extent is = (encodeAll is).length := by
  induction is with
  | nil => rfl
  | cons i is ih =>
      rw [extent, ih, encodeAll, encodeAll, List.flatMap_cons, List.length_append, length_encode]

theorem extent_append (is js : List Instruction) : extent (is ++ js) = extent is + extent js := by
  rw [extent_eq_length_encodeAll, extent_eq_length_encodeAll, extent_eq_length_encodeAll,
    encodeAll, List.flatMap_append, List.length_append, encodeAll, encodeAll]

end Instruction
end RfidReader
