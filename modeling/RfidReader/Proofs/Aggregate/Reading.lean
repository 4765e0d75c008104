import RfidReader.Aggregate.Reader
import RfidReader.Proofs.Aggregate.Decoding

/-!
# RfidReader.Proofs.Aggregate.Reading

Arbitrary bytes read as instructions and written again.

A byte string says the same thing in one way only, but for the interrupt flag of
an event, which is any byte but zero where it is set and is written as one.  So
the bytes of an instruction that was read are those it was read from, with its
flag `settled` (`encode_of_decode?`), and the reader moves on by exactly as many
bytes as are written.  This also holds of an event whose packet is empty: its
length byte is looked at and then read again, as the code of what follows.

A reader that starts at the front therefore stays inside the byte string, comes
to an end, and has passed the bytes of the instructions it gave
(`reads_reencode`).
-/

namespace RfidReader

theorem Bytes.front?_eq_some_iff {n : Nat} {bs front : List UInt8} :
    front? n bs = some front ↔ n ≤ bs.length ∧ front = bs.take n := by
  rw [front?, Option.ite_none_right_eq_some, Option.some.injEq, List.length_take]
  exact and_congr (by omega) eq_comm

theorem Op.code_of_ofCode? {c : UInt8} {op : Op} (h : ofCode? c = some op) : op.code = c := by
  have hfound := List.find?_some h
  exact beq_iff_eq.mp hfound

namespace Instruction

theorem Kind.code_of_ofCode? {c : UInt8} {k : Kind} (h : ofCode? c = some k) : k.code = c := by
  have hfound := List.find?_some h
  exact beq_iff_eq.mp hfound

/-! ## Interrupt flags -/

/-- Whether a byte of an instruction is an interrupt flag. -/
def isFlag : Instruction → Nat → Bool
  | .insertFifoEvent _ _, 1 => true
  | _, _ => false

/-- Whether a byte of a list of instructions is an interrupt flag. -/
def isFlagIn : List Instruction → Nat → Bool
  | [], _ => false
  | i :: rest, p => if p < i.size then i.isFlag p else isFlagIn rest (p - i.size)

/-- A byte as it is written: a flag that is set is one, all other bytes stay as they are. -/
def settled (flag : Bool) (b : UInt8) : UInt8 := if flag && b != 0 then 1 else b

/-- Bytes without a flag stay as they are. -/
theorem mapIdx_settled {flags : Nat → Bool} {bs : List UInt8}
    (h : ∀ p < bs.length, flags p = false) : bs.mapIdx (fun p => settled (flags p)) = bs := by
  apply List.ext_getElem
  · rw [List.length_mapIdx]
  · intro p hp hp'
    rw [List.getElem_mapIdx, h p hp', settled, Bool.false_and, if_neg Bool.false_ne_true]

/-! ## One instruction -/

/-- Two bytes that were read as a word are its bytes. -/
private theorem encode_decode_pair (low high : UInt8) :
    Word.encode (Word.decode [low, high] : UInt16) = [low, high] :=
  Word.encode_decode (show 2 ≤ [low, high].length from Nat.le_refl 2)

/-- What is read of a write is written again, the count of its data from their number. -/
private theorem encode_write_of_read {a₀ a₁ n₀ n₁ : UInt8} {rest data : List UInt8}
    (h : Bytes.front? (Bytes.leNat [n₀, n₁]) rest = some data) :
    let i := Instruction.write (Word.decode [a₀, a₁]) data
    i.encode = (Kind.write.code :: a₀ :: a₁ :: n₀ :: n₁ :: rest).take i.size := by
  obtain ⟨hcount, rfl⟩ := Bytes.front?_eq_some_iff.mp h
  have hlength : (rest.take (Bytes.leNat [n₀, n₁])).length = Bytes.leNat [n₀, n₁] :=
    List.length_take_of_le hcount
  have haddress := encode_decode_pair a₀ a₁
  have hword : Word.encode (UInt16.ofNat (Bytes.leNat [n₀, n₁])) = [n₀, n₁] :=
    encode_decode_pair n₀ n₁
  simp only [encode, kind, operands, size, hlength, haddress, hword, Nat.add_comm 5,
    List.flatten_cons, List.flatten_nil, List.append_nil, List.cons_append, List.nil_append,
    List.take_succ_cons]

/-- What is read of an event is written again, its flag settled. -/
private theorem encode_insertFifoEvent_of_read {irq words : UInt8} {rest packet : List UInt8}
    (h : Bytes.front? (4 * words.toNat) (words :: rest) = some packet) :
    let i := Instruction.insertFifoEvent (irq != 0) packet
    i.encode = ((Kind.insertFifoEvent.code :: irq :: words :: rest).take i.size).mapIdx
      fun p => settled (i.isFlag p) := by
  intro i
  obtain ⟨hcount, hpacket⟩ := Bytes.front?_eq_some_iff.mp h
  have hlength : packet.length = 4 * words.toNat := by
    rw [hpacket, List.length_take_of_le hcount]
  have htaken : (Kind.insertFifoEvent.code :: irq :: words :: rest).take i.size =
      Kind.insertFifoEvent.code :: irq :: packet := by
    rw [size, hlength, Nat.add_comm 2, List.take_succ_cons, List.take_succ_cons, ← hpacket]
  have hflag : UInt8.ofNat (irq != 0).toNat = settled true irq := by
    rw [settled, Bool.true_and]
    by_cases hirq : irq = 0
    · rw [hirq]
      rfl
    · rw [bne_iff_ne.mpr hirq]
      rfl
  have hencode : i.encode = Kind.insertFifoEvent.code :: settled true irq :: packet := by
    rw [← hflag, encode, operands, List.flatten_cons, List.flatten_cons, List.flatten_nil,
      List.append_nil]
    rfl
  rw [htaken, List.mapIdx_cons, List.mapIdx_cons, mapIdx_settled, hencode]
  · rfl
  · exact fun p _ => rfl

/-- Whatever is read of operands is written again, behind their code. -/
theorem encode_of_ofOperands? (k : Kind) (rest : List UInt8) {i : Instruction} :
    ofOperands? k rest = some i →
      i.encode = ((k.code :: rest).take i.size).mapIdx fun p => settled (i.isFlag p) := by
  fun_cases ofOperands? k rest with
  | case1 a₀ a₁ n₀ n₁ rest =>
      intro hwrite
      obtain ⟨data, hdata, rfl⟩ := Option.map_eq_some_iff.mp hwrite
      rw [encode_write_of_read hdata]
      exact (mapIdx_settled fun _ _ => rfl).symm
  | case3 irq words rest =>
      intro hevent
      obtain ⟨packet, hpacket, rfl⟩ := Option.map_eq_some_iff.mp hevent
      exact encode_insertFifoEvent_of_read hpacket
  | case4 code rest =>
      intro hop
      obtain ⟨op, hcode, rfl⟩ := Option.map_eq_some_iff.mp hop
      obtain rfl := Op.code_of_ofCode? hcode
      rfl
  | case5 i₀ i₁ times rest =>
      rintro ⟨⟩
      show Kind.goTo.code :: (Word.encode (Word.decode [i₀, i₁] : UInt16) ++ [times]) = _
      rw [encode_decode_pair]
      rfl
  | case7 i₀ i₁ rest =>
      rintro ⟨⟩
      show Kind.identifier.code :: (Word.encode (Word.decode [i₀, i₁] : UInt16) ++ []) = _
      rw [encode_decode_pair]
      rfl
  | case2 | case6 | case8 | case9 =>
      rintro ⟨⟩
      rfl
  | case10 =>
      -- The operands are cut off.
      rintro ⟨⟩

/-- **One instruction**: the bytes of an instruction that was read are those it was read from,
with its flag settled. -/
theorem encode_of_decode? {bs : List UInt8} {i : Instruction} (h : decode? bs = some i) :
    i.encode = (bs.take i.size).mapIdx fun p => settled (i.isFlag p) := by
  cases bs with
  | nil => cases h
  | cons code rest =>
      obtain ⟨k, hk, hoperands⟩ := Option.bind_eq_some_iff.mp h
      obtain rfl := Kind.code_of_ofCode? hk
      exact encode_of_ofOperands? k rest hoperands

/-! ## Lists of instructions -/

theorem length_le_extent (is : List Instruction) : is.length ≤ extent is := by
  induction is with
  | nil => exact Nat.le_refl 0
  | cons i is ih =>
      rw [List.length_cons, extent, Nat.add_comm]
      exact Nat.add_le_add i.size_pos ih

/-- Flags are settled in the bytes of the first instruction and in those behind it. -/
theorem mapIdx_settled_cons {bs : List UInt8} {i : Instruction} (h : i.size ≤ bs.length)
    (is : List Instruction) :
    (bs.take (extent (i :: is))).mapIdx (fun p => settled (isFlagIn (i :: is) p)) =
      (bs.take i.size).mapIdx (fun p => settled (i.isFlag p)) ++
        ((bs.drop i.size).take (extent is)).mapIdx fun p => settled (isFlagIn is p) := by
  have hlength : (bs.take i.size).length = i.size := List.length_take_of_le h
  rw [extent, List.take_add, List.mapIdx_append, hlength]
  refine congrArg₂ _ ?_ ?_
  · apply List.ext_getElem
    · rw [List.length_mapIdx, List.length_mapIdx]
    · intro p hp hp'
      rw [List.length_mapIdx, hlength] at hp
      rw [List.getElem_mapIdx, List.getElem_mapIdx, isFlagIn, if_pos hp]
  · refine congrArg (List.mapIdx · _) (funext fun p => ?_)
    rw [isFlagIn, if_neg (Nat.not_lt.mpr (Nat.le_add_left _ p)), Nat.add_sub_cancel]

end Instruction

/-! ## Reading on -/

namespace InstructionReader

open Instruction

/-- Some instructions are read one after the other, from one place to another. -/
inductive Reads : InstructionReader → List Instruction → InstructionReader → Prop where
  | stay (r : InstructionReader) : Reads r [] r
  | step {r later last : InstructionReader} {i : Instruction} {is : List Instruction}
      (hnext : r.next? = some (i, later)) (hrest : Reads later is last) : Reads r (i :: is) last

variable {r later last : InstructionReader} {i : Instruction} {is : List Instruction}

/-- The next instruction lies within the bytes that are left, and is written as it stands there. -/
theorem encode_of_next? (h : r.next? = some (i, later)) :
    r.offset + i.size ≤ r.bytes.length ∧
      i.encode = ((r.bytes.drop r.offset).take i.size).mapIdx fun p => settled (i.isFlag p) := by
  have hencode := encode_of_decode? (next?_eq_some_iff.mp h).1
  -- As many bytes are there as are written, so the instruction does not run past the end.
  have hlength := congrArg List.length hencode
  rw [length_encode, List.length_mapIdx, List.length_take, List.length_drop] at hlength
  have hpos := i.size_pos
  exact ⟨by omega, hencode⟩

/-- Every run of the reader ends behind the instructions it gave, and they are written as the
bytes it has passed. -/
theorem Reads.reencode (h : r.Reads is last) :
    last = { r with offset := r.offset + extent is } ∧
      encodeAll is =
        ((r.bytes.drop r.offset).take (extent is)).mapIdx fun p => settled (isFlagIn is p) := by
  induction h with
  | stay r => exact ⟨rfl, by rw [extent, List.take_zero]; rfl⟩
  | @step r later last i is hnext _ ih =>
      obtain ⟨hle, hencode⟩ := encode_of_next? hnext
      obtain ⟨-, rfl⟩ := next?_eq_some_iff.mp hnext
      obtain ⟨rfl, hrest⟩ := ih
      rw [← List.drop_drop] at hrest
      refine ⟨by rw [extent, Nat.add_assoc], ?_⟩
      rw [mapIdx_settled_cons (by rw [List.length_drop]; omega), ← hencode, ← hrest]
      rfl

theorem Reads.offset_eq (h : r.Reads is last) : last.offset = r.offset + extent is :=
  congrArg offset h.reencode.1

/-- A run of the reader does not leave the byte string. -/
theorem Reads.offset_le (h : r.Reads is last) (hr : r.offset ≤ r.bytes.length) :
    last.offset ≤ r.bytes.length := by
  have hlength := congrArg List.length h.reencode.2
  rw [← extent_eq_length_encodeAll, List.length_mapIdx, List.length_take, List.length_drop]
    at hlength
  rw [h.offset_eq]
  omega

/-- What is read on the way is the front of all that can be read. -/
theorem Reads.decodeAll_eq (h : r.Reads is last) :
    decodeAll (r.bytes.drop r.offset) = is ++ decodeAll (last.bytes.drop last.offset) := by
  induction h with
  | stay r => rfl
  | step hnext _ ih =>
      obtain ⟨hdecode, rfl⟩ := next?_eq_some_iff.mp hnext
      rw [decodeAll_cons hdecode, List.drop_drop, ih, List.cons_append]

/-- The reader comes to an end, where it has given all that can be read. -/
theorem exists_reads_decodeAll (r : InstructionReader) :
    ∃ last, r.Reads (decodeAll (r.bytes.drop r.offset)) last ∧ last.next? = none := by
  generalize hleft : r.bytes.drop r.offset = left
  induction left using decodeAll.induct generalizing r with
  | case1 left hnone =>
      rw [decodeAll_of_none hnone]
      exact ⟨r, .stay r, by rw [next?, hleft, hnone, Option.map_none]⟩
  | case2 left i hsome ih =>
      have hnext : r.next? = some (i, { r with offset := r.offset + i.size }) :=
        next?_eq_some_iff.mpr ⟨hleft ▸ hsome, rfl⟩
      obtain ⟨last, hreads, hend⟩ := ih { r with offset := r.offset + i.size }
        (by rw [← hleft, List.drop_drop])
      rw [decodeAll_cons hsome]
      exact ⟨last, .step hnext hreads, hend⟩

/-- **Arbitrary bytes**: the reader of a byte string comes to an end, having given what can be read
of it.  On its way it stands inside the byte string or at its end, no fewer bytes on than it gave
instructions; and these are written as the bytes it has passed, but for interrupt flags, which
become one where they are not zero.  Each instruction takes it on by the bytes of that
instruction, one at least. -/
theorem reads_reencode (bs : List UInt8) :
    (∃ last, Reads ⟨bs, 0⟩ (decodeAll bs) last ∧ last.next? = none) ∧
    ∀ is r, Reads ⟨bs, 0⟩ is r →
      is <+: decodeAll bs ∧ is.length ≤ r.offset ∧ r.offset ≤ bs.length ∧
      encodeAll is = (bs.take r.offset).mapIdx (fun p => settled (isFlagIn is p)) ∧
      ∀ i later, r.next? = some (i, later) →
        1 ≤ i.size ∧ later = ⟨bs, r.offset + i.size⟩ ∧ later.offset ≤ bs.length ∧
        i.encode = ((bs.drop r.offset).take i.size).mapIdx fun p => settled (i.isFlag p) := by
  refine ⟨exists_reads_decodeAll ⟨bs, 0⟩, fun is r hreads => ?_⟩
  obtain ⟨hlast, hencode⟩ := hreads.reencode
  have hall := hreads.decodeAll_eq
  obtain rfl : r = ⟨bs, extent is⟩ := by rw [hlast, Nat.zero_add]
  refine ⟨⟨_, hall.symm⟩, length_le_extent is, hreads.offset_le (Nat.zero_le _), hencode,
    fun i later hnext => ?_⟩
  obtain ⟨-, rfl⟩ := next?_eq_some_iff.mp hnext
  obtain ⟨hle, hwritten⟩ := encode_of_next? hnext
  exact ⟨i.size_pos, rfl, hle, hwritten⟩

/-- Two events, both with a flag that is neither zero nor one, and what the second leaves: it says
that its packet is empty, so its length byte is read again and ends the list. -/
theorem reads_reencode_empty_packet :
    let bs : List UInt8 := [0x34, 0x0E, 7, 1, 0xAA, 0xBB, 0xCC, 0x0E, 9, 0, 0x30, 0xA3]
    let front : List Instruction := [.hostMutex true, .insertFifoEvent true [1, 0xAA, 0xBB, 0xCC]]
    let empty : Instruction := .insertFifoEvent true []
    Reads ⟨bs, 0⟩ front ⟨bs, 7⟩ ∧ next? ⟨bs, 7⟩ = some (empty, ⟨bs, 9⟩) ∧
    (front <+: decodeAll bs ∧ front.length ≤ 7 ∧ 7 ≤ bs.length ∧
      encodeAll front = (bs.take 7).mapIdx (fun p => settled (isFlagIn front p)) ∧
      1 ≤ empty.size ∧ 9 ≤ bs.length ∧
      empty.encode = ((bs.drop 7).take empty.size).mapIdx fun p => settled (empty.isFlag p)) ∧
    encodeAll front = [0x34, 0x0E, 1, 1, 0xAA, 0xBB, 0xCC] ∧ empty.encode = [0x0E, 1] := by
  intro bs front empty
  have hreads : Reads ⟨bs, 0⟩ front ⟨bs, 7⟩ := .step rfl (.step rfl (.stay _))
  have hnext : next? ⟨bs, 7⟩ = some (empty, ⟨bs, 9⟩) := rfl
  obtain ⟨hfront, hcount, hle, hencode, hstep⟩ := (reads_reencode bs).2 front _ hreads
  obtain ⟨hpos, -, hle', hencode'⟩ := hstep empty _ hnext
  exact ⟨hreads, hnext, ⟨hfront, hcount, hle, hencode, hpos, hle', hencode'⟩, rfl, rfl⟩

end InstructionReader
end RfidReader
