import Mathlib.Tactic.SplitIfs
import RfidReader.Proofs.Event.InBounds
import RfidReader.Proofs.FirstFault
import RfidReader.Proofs.Word

/-!
# RfidReader.Proofs.Event.Grammar

The byte strings that are blocks of packets.

A packet is spelled by a chunk of bytes that begins with its header and is as
long as the header says (`Packet.Spells`); its type is the one whose code the header
has, if there is one (`PacketType.Coded`).  What can be wrong with bytes where a
packet should be is listed, in the order in which it is found, by `defects`, and
nothing else is (`Packet.parse_eq_error_iff`).  So `packets` takes a byte string
apart into the chunks of its packets, up to its end or to the first defect, and in
no other way (`packets_grammar`).
-/

namespace RfidReader
namespace Event

/-! ## Types -/

namespace PacketType

theorem mem_all (t : PacketType) : t ∈ all := by
  cases t <;> decide

theorem code_injective {s t : PacketType} (h : s.code = t.code) : s = t :=
  Option.some.inj (by rw [← ofCode?_code s, h, ofCode?_code])

theorem ofCode?_eq_some_iff {code : UInt8} {t : PacketType} :
    ofCode? code = some t ↔ t.code = code := by
  constructor
  · intro h
    have hfound := List.find?_some h
    exact eq_of_beq hfound
  · rintro rfl
    exact ofCode?_code t

/-- What a code stands for: the type that has it, or nothing. -/
inductive Coded : UInt8 → Option PacketType → Prop where
  | known (t : PacketType) : Coded t.code (some t)
  | unknown {code : UInt8} (h : ∀ t : PacketType, t.code ≠ code) : Coded code none

theorem coded_iff {code : UInt8} {type : Option PacketType} :
    Coded code type ↔ ofCode? code = type := by
  constructor
  · rintro (t | hunknown)
    · exact ofCode?_code t
    · rw [Option.eq_none_iff_forall_ne_some]
      intro t ht
      exact hunknown t (ofCode?_eq_some_iff.mp ht)
  · rintro rfl
    cases h : ofCode? code with
    | some t => exact ofCode?_eq_some_iff.mp h ▸ .known t
    | none =>
        refine .unknown fun t ht => ?_
        rw [ofCode?_eq_some_iff.mpr ht] at h
        contradiction

end PacketType

/-! ## Headers -/

namespace Header

theorem coded_type? (h : Header) : PacketType.Coded h.typeCode h.type? :=
  PacketType.coded_iff.mpr rfl

/-- The header at the front of a byte string; bytes that are missing count as zero. -/
def front (bs : List UInt8) : Header := Cursor.runAt cursor bs 0

theorem front_eq (bs : List UInt8) :
    front bs =
      { words := Word.decode bs, typeCode := Word.decode (bs.drop 1)
        revision := Word.decode (bs.drop 2), timeUs := Word.decode (bs.drop 4) } := by
  show Header.mk (Word.decode (bs.take 1)) (Word.decode ((bs.drop 1).take 1))
    (Word.decode (((bs.drop 1).drop 1).take 2))
    (Word.decode ((((bs.drop 1).drop 1).drop 2).take 4)) = _
  simp only [List.drop_drop, Header.mk.injEq]
  exact ⟨Word.decode_take _, Word.decode_take _, Word.decode_take _, Word.decode_take _⟩

/-- The bytes of a header that was read are those it was read from. -/
theorem encode_front {bs : List UInt8} (h : headerLength ≤ bs.length) :
    (front bs).encode = bs.take headerLength := by
  have hword (α : Type) [Word α] [ExactWord α] (n : Nat) (hn : n + Word.size α ≤ headerLength) :
      Word.encode (Word.decode (bs.drop n) : α) = (bs.drop n).take (Word.size α) := by
    apply Word.encode_decode
    rw [List.length_drop]
    omega
  calc (front bs).encode
    _ = bs.take 1 ++ (bs.drop 1).take 1 ++ (bs.drop 2).take 2 ++ (bs.drop 4).take 4 := by
      rw [front_eq, encode]
      exact congrArg₂ _ (congrArg₂ _ (congrArg₂ _ (hword UInt8 0 (by decide))
        (hword UInt8 1 (by decide))) (hword UInt16 2 (by decide))) (hword UInt32 4 (by decide))
    _ = bs.take headerLength := by
      rw [← List.take_add, ← List.take_add, ← List.take_add]
      rfl

/-- A header is read back from the front of a byte string. -/
theorem front_encode_append (h : Header) (rest : List UInt8) : front (h.encode ++ rest) = h := by
  have hrun : (cursor : Cursor Header).run (h.encode ++ rest) = (h, rest) := by
    simp only [cursor, encode, List.append_assoc, Cursor.run_bind, Cursor.run_word_append]
    rfl
  exact congrArg Prod.fst hrun

theorem parse_eq_ite (bs : List UInt8) :
    parse bs =
      if bs.length < headerLength then .error .eventHeaderTruncated
      else if (front bs).revision = formatRevision then .ok (front bs)
      else .error .eventFormatMismatch := by
  have hshort : (bs.take headerLength).length < headerLength ↔ bs.length < headerLength := by
    rw [List.length_take]
    omega
  rw [parse_eq]
  simp only [hshort]
  rfl

end Header

/-! ## Defects -/

/-- What can be wrong with the payload behind a type code, and whether it is. -/
def Payload.defects (code : UInt8) (payload : List UInt8) : List (Fault × Bool) :=
  let count : UInt32 := Word.decode payload
  [(.eventShorterThanType,
      ∃ type ∈ PacketType.all, code = type.code ∧ payload.length < type.staticLength),
    (.customEventTruncated,
      code = PacketType.custom.code ∧ (payload.drop 4).length < count.toNat)]

/-- What can be wrong with bytes where a packet should be, in the order in which it is found, and
whether it is. -/
def defects (bs : List UInt8) : List (Fault × Bool) :=
  let header := Header.front bs
  (.eventHeaderTruncated, bs.length < headerLength) ::
    (.eventFormatMismatch, header.revision ≠ formatRevision) ::
    (.eventShorterThanHeader, header.lengthBytes < headerLength) ::
    (.eventTruncated, bs.length < header.lengthBytes) ::
    Payload.defects header.typeCode ((bs.take header.lengthBytes).drop headerLength)

/-- Whether bytes are not a packet and whatever follows it. -/
def Malformed (bs : List UInt8) : Prop :=
  let header := Header.front bs
  let payload := (bs.take header.lengthBytes).drop headerLength
  let count : UInt32 := Word.decode payload
  bs.length < headerLength ∨
    header.revision ≠ formatRevision ∨
    header.lengthBytes < headerLength ∨
    bs.length < header.lengthBytes ∨
    (∃ type : PacketType, header.typeCode = type.code ∧ payload.length < type.staticLength) ∨
    header.typeCode = PacketType.custom.code ∧ (payload.drop 4).length < count.toNat

theorem malformed_iff_exists_fault (bs : List UInt8) :
    Malformed bs ↔ ∃ fault, firstFault (defects bs) = some fault := by
  rw [← Option.isSome_iff_exists, firstFault_isSome_iff]
  simp only [Malformed, defects, Payload.defects, List.mem_cons, List.not_mem_nil, or_false,
    exists_eq_or_imp, exists_eq_left, decide_eq_true_eq, PacketType.mem_all, true_and]

namespace Payload

theorem parse_some (type : PacketType) (payload : List UInt8) :
    parse (some type) payload =
      if payload.length < type.staticLength then .error .eventShorterThanType
      else readType (m := Id) type payload := rfl

theorem customData_eq_error_iff (count : UInt32) (bytes : List UInt8) (fault : Fault) :
    customData count bytes = .error fault ↔
      bytes.length < count.toNat ∧ fault = .customEventTruncated := by
  simp only [customData, Bytes.front?, List.length_take]
  by_cases hlong : bytes.length < count.toNat
  · have hcut : min count.toNat bytes.length ≠ count.toNat := by omega
    rw [if_neg hcut]
    simp [hlong, eq_comm]
  · have hcut : min count.toNat bytes.length = count.toNat := by omega
    rw [if_pos hcut]
    simp [hlong]

theorem readType_eq_error_iff (type : PacketType) (payload : List UInt8) (fault : Fault) :
    (readType (m := Id) type payload : Except Fault Payload) = .error fault ↔
      (type = .custom ∧ (payload.drop 4).length < (Word.decode payload : UInt32).toNat) ∧
        fault = .customEventTruncated := by
  cases type with
  | custom =>
      have hread : (readType (m := Id) .custom payload : Except Fault Payload)
          = customData (Word.decode (payload.take 4)) (payload.drop 4) := rfl
      have hcount : (Word.decode (payload.take 4) : UInt32) = Word.decode payload :=
        Word.decode_take payload
      rw [hread, hcount, customData_eq_error_iff]
      simp only [true_and]
  | _ => exact ⟨fun h => (nomatch h), fun h => (nomatch h.1.1)⟩

/-- A payload is refused for its first defect. -/
theorem parse_eq_error_iff {code : UInt8} {type : Option PacketType}
    (hcode : PacketType.Coded code type) (payload : List UInt8) (fault : Fault) :
    parse type payload = .error fault ↔ firstFault (defects code payload) = some fault := by
  simp only [defects, firstFault_cons, firstFault_nil, decide_eq_true_eq]
  cases hcode with
  | unknown hunknown =>
      have hother (t : PacketType) : code ≠ t.code := (hunknown t).symm
      simp only [hother, false_and, and_false, exists_false, if_false]
      exact ⟨fun h => (nomatch h), fun h => (nomatch h)⟩
  | known type =>
      have hsame (t : PacketType) : type.code = t.code ↔ type = t :=
        ⟨fun h => PacketType.code_injective h, congrArg _⟩
      simp only [hsame, PacketType.mem_all, true_and, exists_eq_left']
      rw [parse_some]
      by_cases hshort : payload.length < type.staticLength
      · simp [hshort]
      · rw [if_neg hshort, if_neg hshort, readType_eq_error_iff]
        split
        · next hcut => simp only [hcut, and_self, true_and, Option.some.injEq, eq_comm]
        · next hfits => simp only [hfits, false_and, reduceCtorEq]

end Payload

/-! ## Chunks -/

namespace Packet

/-- Reading a packet goes through the defects of the header, and then reads the payload. -/
theorem parse_eq_ite (bs : List UInt8) :
    parse bs =
      let header := Header.front bs
      if bs.length < headerLength then .error .eventHeaderTruncated
      else if header.revision ≠ formatRevision then .error .eventFormatMismatch
      else if header.lengthBytes < headerLength then .error .eventShorterThanHeader
      else if bs.length < header.lengthBytes then .error .eventTruncated
      else (Payload.parse header.type? ((bs.take header.lengthBytes).drop headerLength)).map
        fun payload => (⟨header, payload⟩, bs.drop header.lengthBytes) := by
  have hshort : (bs.take (Header.front bs).lengthBytes).length < (Header.front bs).lengthBytes ↔
      bs.length < (Header.front bs).lengthBytes := by
    rw [List.length_take]
    omega
  simp only [parse_eq, Header.parse_eq_ite, ite_not, ← hshort]
  by_cases hheader : bs.length < headerLength
  · simp only [if_pos hheader]
  by_cases hrevision : (Header.front bs).revision = formatRevision
  · simp only [if_neg hheader, if_pos hrevision]
  · simp only [if_neg hheader, if_neg hrevision]

/-- A packet is spelled by a chunk of bytes. -/
structure Spells (p : Packet) (chunk : List UInt8) : Prop where
  /-- The chunk begins with the header. -/
  encode_eq : p.header.encode = chunk.take headerLength
  length_eq : chunk.length = p.header.lengthBytes
  le_length : headerLength ≤ chunk.length
  revision_eq : p.header.revision = formatRevision
  payload_eq : ∃ type, PacketType.Coded p.header.typeCode type ∧
    Payload.parse type (chunk.drop headerLength) = .ok p.payload

/-- A packet that is spelled out is read, whatever follows it. -/
theorem Spells.parse_append {p : Packet} {chunk : List UInt8} (h : p.Spells chunk)
    (rest : List UInt8) : parse (chunk ++ rest) = .ok (p, rest) := by
  have hfront : Header.front (chunk ++ rest) = p.header := by
    have hbytes : chunk ++ rest = p.header.encode ++ (chunk.drop headerLength ++ rest) := by
      rw [h.encode_eq, ← List.append_assoc, List.take_append_drop]
    rw [hbytes, Header.front_encode_append]
  have hlength := h.le_length
  have hinside : chunk.length ≤ (chunk ++ rest).length := by
    rw [List.length_append]
    exact Nat.le_add_right ..
  have htake : (chunk ++ rest).take p.header.lengthBytes = chunk := List.take_left' h.length_eq
  have hdrop : (chunk ++ rest).drop p.header.lengthBytes = rest := List.drop_left' h.length_eq
  obtain ⟨type, hcoded, hpayload⟩ := h.payload_eq
  have htype : p.header.type? = type := PacketType.coded_iff.mp hcoded
  rw [parse_eq_ite, hfront]
  simp only
  rw [if_neg (Nat.not_lt.mpr (Nat.le_trans hlength hinside)), if_neg (not_not_intro h.revision_eq),
    ← h.length_eq, if_neg (Nat.not_lt.mpr hlength), if_neg (Nat.not_lt.mpr hinside), h.length_eq,
    htake, hdrop, htype, hpayload]
  rfl

/-- A packet is refused for its first defect. -/
theorem parse_eq_error_iff (bs : List UInt8) (fault : Fault) :
    parse bs = .error fault ↔ firstFault (defects bs) = some fault := by
  rw [parse_eq_ite]
  simp only [defects, firstFault_cons, decide_eq_true_eq]
  -- Both sides go through the header in the same order, down to the payload.
  repeat' split
  case isFalse =>
    rw [← Payload.parse_eq_error_iff (Header.coded_type? _)]
    cases Payload.parse (Header.front bs).type? _ with
    | error _ => simp only [Except.map, Except.error.injEq]
    | ok _ => exact ⟨fun h => (nomatch h), fun h => (nomatch h)⟩
  all_goals simp only [Except.error.injEq, Option.some.injEq]

/-- Where a packet is spelled out the bytes are not malformed, whatever follows it. -/
theorem Spells.not_malformed {p : Packet} {chunk : List UInt8} (h : p.Spells chunk)
    (rest : List UInt8) : ¬ Malformed (chunk ++ rest) := by
  rw [malformed_iff_exists_fault]
  rintro ⟨fault, hfault⟩
  have herror := (parse_eq_error_iff _ _).mpr hfault
  rw [h.parse_append] at herror
  contradiction

/-- A packet that is read is spelled by the bytes in front of what is left. -/
theorem exists_spells {bs rest : List UInt8} {p : Packet} (h : parse bs = .ok (p, rest)) :
    ∃ chunk, bs = chunk ++ rest ∧ p.Spells chunk := by
  rw [parse_eq_ite] at h
  have hencode : headerLength ≤ bs.length → (Header.front bs).encode = bs.take headerLength :=
    Header.encode_front
  generalize Header.front bs = header at h hencode
  simp only at h
  split_ifs at h with hshort hrevision hlow hcut
  cases hpayload :
      Payload.parse header.type? ((bs.take header.lengthBytes).drop headerLength) with
  | error fault =>
      rw [hpayload] at h
      contradiction
  | ok payload =>
      rw [hpayload] at h
      obtain ⟨rfl, rfl⟩ := Prod.mk.inj (Except.ok.inj h)
      have hlength : (bs.take header.lengthBytes).length = header.lengthBytes :=
        List.length_take_of_le (Nat.le_of_not_lt hcut)
      refine ⟨bs.take header.lengthBytes, (List.take_append_drop _ _).symm, ?_, hlength, ?_,
        Decidable.not_not.mp hrevision, header.type?, header.coded_type?, hpayload⟩
      · rw [hencode (Nat.le_of_not_lt hshort), List.take_take,
          Nat.min_eq_left (Nat.le_of_not_lt hlow)]
      · rw [hlength]
        exact Nat.le_of_not_lt hlow

end Packet

/-! ## Blocks -/

/-- A byte string is taken apart: into chunks that spell packets, up to its end or to bytes that
have a defect. -/
inductive Tiles : List UInt8 → List (Except Fault Packet) → Prop where
  | done : Tiles [] []
  | packet {p : Packet} {chunk rest : List UInt8} {items : List (Except Fault Packet)}
      (hspells : p.Spells chunk) (hrest : Tiles rest items) :
      Tiles (chunk ++ rest) (.ok p :: items)
  | fault {left : List UInt8} {fault : Fault} (hleft : left ≠ [])
      (hdefect : firstFault (defects left) = some fault) : Tiles left [.error fault]

theorem tiles_packets (bs : List UInt8) : Tiles bs (packets bs) := by
  induction bs using packets.induct with
  | case1 =>
      rw [packets_nil]
      exact .done
  | case2 bs hne fault hparse =>
      rw [packets_of_error hne hparse]
      exact .fault hne ((Packet.parse_eq_error_iff bs fault).mp hparse)
  | case3 bs hne packet rest hparse ih =>
      rw [packets_of_ok hparse]
      obtain ⟨chunk, rfl, hspells⟩ := Packet.exists_spells hparse
      exact .packet hspells ih

theorem Tiles.packets_eq {bs : List UInt8} {items : List (Except Fault Packet)}
    (h : Tiles bs items) : packets bs = items := by
  induction h with
  | done => exact packets_nil
  | packet hspells _ ih => rw [packets_of_ok (hspells.parse_append _), ih]
  | fault hleft hdefect =>
      exact packets_of_error hleft ((Packet.parse_eq_error_iff _ _).mpr hdefect)

/-- The chunks of a byte string that is taken apart, and what is left behind them. -/
theorem Tiles.exists_chunks {bs : List UInt8} {items : List (Except Fault Packet)}
    (h : Tiles bs items) :
    ∃ (taken : List (Packet × List UInt8)) (left : List UInt8),
      bs = (taken.map (·.2)).flatten ++ left ∧
      (∀ entry ∈ taken, entry.1.Spells entry.2) ∧
      (left = [] ∧ items = taken.map (.ok ·.1) ∨
        left ≠ [] ∧ ∃ fault, firstFault (defects left) = some fault ∧
          items = taken.map (.ok ·.1) ++ [.error fault]) := by
  induction h with
  | done => exact ⟨[], [], rfl, by simp, .inl ⟨rfl, rfl⟩⟩
  | @packet p chunk rest items hspells _ ih =>
      obtain ⟨taken, left, rfl, htaken, hend⟩ := ih
      refine ⟨(p, chunk) :: taken, left, ?_, ?_, ?_⟩
      · rw [List.map_cons, List.flatten_cons, List.append_assoc]
      · rintro entry (_ | ⟨_, hentry⟩)
        · exact hspells
        · exact htaken entry hentry
      · rcases hend with ⟨hleft, rfl⟩ | ⟨hleft, fault, hdefect, rfl⟩
        · exact .inl ⟨hleft, rfl⟩
        · exact .inr ⟨hleft, fault, hdefect, rfl⟩
  | @fault left fault hleft hdefect =>
      exact ⟨[], left, rfl, by simp, .inr ⟨hleft, fault, hdefect, rfl⟩⟩

/-- **Grammar of blocks**: no byte outside of a byte string is looked at; its items are those that
it is taken apart into; and these are packets spelled by adjacent chunks from its front on, each
where the bytes are not malformed, up to its end or to bytes that are. -/
theorem packets_grammar (bs : List UInt8) :
    checkedPackets bs = some (packets bs) ∧
    (∀ items, packets bs = items ↔ Tiles bs items) ∧
    ∃ (taken : List (Packet × List UInt8)) (left : List UInt8),
      bs = (taken.map (·.2)).flatten ++ left ∧
      (∀ earlier p chunk later, taken = earlier ++ (p, chunk) :: later →
        p.Spells chunk ∧ ¬ Malformed (chunk ++ ((later.map (·.2)).flatten ++ left))) ∧
      (left = [] ∧ packets bs = taken.map (.ok ·.1) ∨
        left ≠ [] ∧ Malformed left ∧ ∃ fault, firstFault (defects left) = some fault ∧
          packets bs = taken.map (.ok ·.1) ++ [.error fault]) := by
  refine ⟨checkedPackets_eq bs, ?_, ?_⟩
  · intro items
    constructor
    · rintro rfl
      exact tiles_packets bs
    · exact Tiles.packets_eq
  · obtain ⟨taken, left, hbs, htaken, hend⟩ := (tiles_packets bs).exists_chunks
    refine ⟨taken, left, hbs, ?_, ?_⟩
    · rintro earlier p chunk later rfl
      have hspells : p.Spells chunk :=
        htaken (p, chunk) (List.mem_append_right _ List.mem_cons_self)
      exact ⟨hspells, hspells.not_malformed _⟩
    · rcases hend with hdone | ⟨hleft, fault, hdefect, hitems⟩
      · exact .inl hdone
      · exact .inr ⟨hleft, (malformed_iff_exists_fault left).mpr ⟨fault, hdefect⟩, fault, hdefect,
          hitems⟩

end Event
end RfidReader
