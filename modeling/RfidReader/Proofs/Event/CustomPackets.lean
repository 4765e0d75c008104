import RfidReader.Event.Custom
import RfidReader.Proofs.Aggregate.Assembly
import RfidReader.Proofs.Event.Grammar

/-!
# RfidReader.Proofs.Event.CustomPackets

The way of a custom packet: put together by the host, carried in an aggregate
buffer, inserted into the event FIFO and read back from there.

The length of the data is written three times.  The payload counts its bytes,
the header the words of the whole packet with the zeros behind the data, and an
aggregate buffer takes the packet for as long as its first byte says, which is
the header's count.  A packet that is spelled out agrees with its first byte
(`packetFits_of_spells`), and a custom packet of up to 52 bytes of data is
spelled out (`exists_customPacket`).  So it can be carried wherever there is
room for it, and is read back wherever it is put (`customPacket_round_trip`).
-/

namespace RfidReader

/-! ## Carrying a packet -/

namespace AggregateBuffer

variable {b : AggregateBuffer} {is : List Instruction} {packet : List UInt8}

/-- A packet that fits is added where there is room. -/
theorem append_insertFifoEvent (irq : Bool) (hfits : packetFits packet = true)
    (hroom : b.length + (2 + packet.length) < capacity) :
    b.append (.insertFifoEvent irq packet) =
      .ok { bytes := b.bytes ++ (Instruction.insertFifoEvent irq packet).encode } := by
  have hfault : b.fault? (.insertFifoEvent irq packet) = none := by
    rw [fault?, Instruction.size, if_neg (Nat.not_le_of_lt hroom), operandFault?, if_pos hfits]
  rw [append, hfault]

/-- A packet that was added is read back behind the instructions that were there. -/
theorem Holds.exists_insertFifoEvent (h : b.Holds is) (irq : Bool)
    (hfits : packetFits packet = true) (hroom : b.length + (2 + packet.length) < capacity) :
    ∃ b', Builder.attempt (Builder.append (.insertFifoEvent irq packet)) b = (.ok (), b') ∧
      b'.instructions = b.instructions ++ [.insertFifoEvent irq packet] := by
  have happend := append_insertFifoEvent irq hfits hroom
  have hholds := h.append happend
  refine ⟨{ bytes := b.bytes ++ (Instruction.insertFifoEvent irq packet).encode }, ?_, ?_⟩
  · rw [Builder.attempt, Builder.run_append, happend]
    rfl
  · rw [hholds.instructions_eq, h.instructions_eq]

end AggregateBuffer

namespace Event

open AggregateBuffer

/-- The first byte of a header counts the words of its packet. -/
theorem Header.exists_encode_eq_cons (h : Header) : ∃ rest, h.encode = h.words :: rest := by
  have hwords : Word.encode h.words = [h.words] := congrArg (fun b => [b]) UInt8.ofNat_toNat
  exact ⟨_, by rw [encode, hwords]; rfl⟩

theorem Header.length_encode (h : Header) : h.encode.length = headerLength := by
  simp only [encode, List.length_append, Word.length_encode]
  rfl

/-- A packet that is spelled out is as long as its first byte says. -/
theorem packetFits_of_spells {p : Packet} {packet : List UInt8} (h : p.Spells packet)
    (hlength : packet.length ≤ maxPacketLength) : packetFits packet = true := by
  cases packet with
  | nil => exact absurd h.le_length (by decide)
  | cons words rest =>
      have hwords : p.header.words = words := by
        obtain ⟨tail, htail⟩ := p.header.exists_encode_eq_cons
        rw [h.encode_eq] at htail
        exact (List.cons.inj htail).1.symm
      have hlen : rest.length + 1 = words.toNat * 4 := hwords ▸ h.length_eq
      have hmin : 8 ≤ rest.length + 1 := h.le_length
      have hmax : rest.length + 1 ≤ 64 := hlength
      have hwhole : (rest.length + 1) % 4 = 0 := by omega
      simp only [packetFits, Bool.and_eq_true, decide_eq_true_eq, beq_iff_eq]
      exact ⟨⟨⟨hmin, hmax⟩, hwhole⟩, hlen.symm⟩

/-! ## Custom packets -/

theorem le_paddedLength (n : Nat) : n ≤ paddedLength n := by
  unfold paddedLength
  omega

theorem paddedLength_le_iff (n : Nat) : paddedLength n ≤ 52 ↔ n ≤ 52 := by
  unfold paddedLength
  omega

/-- The payload of a custom packet: the data is what is counted, whatever follows it. -/
theorem Payload.parse_custom {data : List UInt8} (h : data.length < 4294967296)
    (rest : List UInt8) :
    parse (some .custom) (Word.encode (UInt32.ofNat data.length) ++ data ++ rest)
      = .ok (.custom data) := by
  have hcount : (UInt32.ofNat data.length).toNat = data.length := by
    rw [UInt32.toNat_ofNat']
    exact Nat.mod_eq_of_lt h
  have hlong : ¬ (Word.encode (UInt32.ofNat data.length) ++ data ++ rest).length
      < PacketType.custom.staticLength := by
    rw [List.append_assoc, List.length_append, Word.length_encode]
    exact Nat.not_lt.mpr (Nat.le_add_right 4 _)
  rw [parse_some, if_neg hlong, List.append_assoc]
  show (let (length, bytes) := (Cursor.word UInt32 : Cursor UInt32).run _
    customData length bytes) = _
  rw [Cursor.run_word_append]
  simp only [customData, hcount, Bytes.front?_append rfl]

/-- A custom packet with up to 52 bytes of data is put together, and spelled out by its bytes. -/
theorem exists_customPacket (timeUs : UInt32) {data : List UInt8} (h : data.length ≤ 52) :
    ∃ packet, customPacket timeUs data = .ok packet ∧ packet.length ≤ maxPacketLength ∧
      (Packet.mk (.ofType .custom packet.length timeUs) (.custom data)).Spells packet := by
  have hpadded := (paddedLength_le_iff data.length).mpr h
  have hshort : ¬ maxPacketLength < headerLength + 4 + paddedLength data.length := by
    show ¬ 64 < 8 + 4 + paddedLength data.length
    omega
  let header := Header.ofType .custom (headerLength + 4 + paddedLength data.length) timeUs
  let payload := Word.encode (UInt32.ofNat data.length) ++ data
    ++ List.replicate (paddedLength data.length - data.length) 0
  have hpayload : payload.length = 4 + paddedLength data.length := by
    have hle := le_paddedLength data.length
    simp only [payload, List.length_append, Word.length_encode, List.length_replicate, Word.size]
    omega
  have hlength : (header.encode ++ payload).length
      = headerLength + 4 + paddedLength data.length := by
    rw [List.length_append, header.length_encode, hpayload, Nat.add_assoc]
  refine ⟨header.encode ++ payload, ?_, by omega, ?_⟩
  · rw [customPacket, if_neg hshort]
    simp only [header, payload, List.append_assoc]
  · rw [hlength]
    refine ⟨?_, ?_, ?_, rfl, ?_⟩
    · exact (List.take_left' header.length_encode).symm
    · show _ = (UInt8.ofNat ((8 + 4 + paddedLength data.length) / 4)).toNat * 4
      rw [hlength, UInt8.toNat_ofNat']
      unfold headerLength paddedLength at *
      omega
    · omega
    · have hdrop : (header.encode ++ payload).drop headerLength = payload :=
        List.drop_left' header.length_encode
      refine ⟨some .custom, .known .custom, ?_⟩
      rw [hdrop, Payload.parse_custom (by omega)]

theorem customPacket_eq_error (timeUs : UInt32) {data : List UInt8} (h : 52 < data.length) :
    customPacket timeUs data = .error .customEventTooLong := by
  have hpadded := mt (paddedLength_le_iff data.length).mp (Nat.not_le_of_lt h)
  have hlong : maxPacketLength < headerLength + 4 + paddedLength data.length := by
    show 64 < 8 + 4 + paddedLength data.length
    omega
  rw [customPacket, if_pos hlong]

/-- **Custom packets round trip**: up to 52 bytes of data make a packet, at whatever time.  It is
added to every buffer with room for it, whatever was added or refused there before, and read back
there with its interrupt flag, behind the instructions it was added to; and its bytes, whatever
follows them, are read as a custom packet with that data and time.  More data is refused. -/
theorem customPacket_round_trip (timeUs : UInt32) (data : List UInt8) :
    (data.length ≤ 52 → ∃ packet, customPacket timeUs data = .ok packet ∧
      (∀ (irq : Bool) (history : List Batch),
        let b := (Batch.attemptEach history {}).2
        b.length + (2 + packet.length) < 512 →
          ∃ b', Builder.attempt (Builder.append (.insertFifoEvent irq packet)) b = (.ok (), b') ∧
            b'.instructions = b.instructions ++ [.insertFifoEvent irq packet]) ∧
      ∀ rest, ∃ header, Packet.parse (packet ++ rest) = .ok (⟨header, .custom data⟩, rest) ∧
        header.type? = some .custom ∧ header.timeUs = timeUs) ∧
    (52 < data.length → customPacket timeUs data = .error .customEventTooLong ∧
      Fault.kind .customEventTooLong = .badParameter) := by
  refine ⟨fun hshort => ?_, fun hlong => ⟨customPacket_eq_error timeUs hlong, rfl⟩⟩
  obtain ⟨packet, hpacket, hlength, hspells⟩ := exists_customPacket timeUs hshort
  refine ⟨packet, hpacket, ?_, fun rest => ?_⟩
  · intro irq history b hroom
    have hholds := Batch.holds_attemptEach history AggregateBuffer.Holds.empty
    exact hholds.exists_insertFifoEvent irq (packetFits_of_spells hspells hlength) hroom
  · exact ⟨_, hspells.parse_append rest, PacketType.ofCode?_code .custom, rfl⟩

/-- The most data there can be, in a packet that fills the buffer to its last byte but one behind
a long write, and one byte more. -/
theorem customPacket_round_trip_largest :
    let data : List UInt8 := List.replicate 52 0xA5
    let history : List Batch := [.one (.write 0 (List.replicate 440 1))]
    (∃ packet, customPacket 42 data = .ok packet ∧
      (∃ b', Builder.attempt (Builder.append (.insertFifoEvent true packet))
          (Batch.attemptEach history {}).2 = (.ok (), b') ∧
        b'.instructions = (Batch.attemptEach history {}).2.instructions
          ++ [.insertFifoEvent true packet]) ∧
      ∃ header, Packet.parse (packet ++ [9]) = .ok (⟨header, .custom data⟩, [9]) ∧
        header.type? = some .custom ∧ header.timeUs = 42) ∧
    customPacket 42 (0 :: data) = .error .customEventTooLong := by
  intro data history
  obtain ⟨packet, hpacket, hcarried, hread⟩ := (customPacket_round_trip 42 data).1 (by decide)
  have hlength : packet.length = 64 := by
    have hmap : (customPacket 42 data).toOption.map List.length = some 64 := by decide
    rw [hpacket] at hmap
    exact Option.some.inj hmap
  have hroom : (Batch.attemptEach history {}).2.length + (2 + packet.length) < 512 := by
    rw [hlength]
    decide +kernel
  exact ⟨⟨packet, hpacket, hcarried true history hroom, hread [9]⟩,
    ((customPacket_round_trip 42 (0 :: data)).2 (by decide)).1⟩

end Event
end RfidReader
