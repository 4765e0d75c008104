import RfidReader.Event.Packet
import RfidReader.Proofs.Cursor

/-!
# RfidReader.Proofs.Event.InBounds

Packets are read inside the byte string they are in.

A packet of a known type is not looked at before it is known to be as long as
the fixed part of its type, and the fields of a type take no more bytes than
that.  So reading packets is the same in every monad that cuts byte strings as
one would expect where the bytes are there (`Packet.run_read`), the strict one
included (`checkedPackets_eq`).
-/

namespace RfidReader
namespace Event

open CursorT

variable {m : Type → Type} [Monad m] [Slicing m] [LawfulSlicing m]

/-! ## Fields -/

theorem Header.reads : Reads (m := m) headerLength cursor cursor :=
  (Reads.word UInt8).bind fun _ => (Reads.word UInt8).bind fun _ =>
    (Reads.word UInt16).bind fun _ => (Reads.word UInt32).bind fun _ => .pure _

theorem LoopSummary.reads :
    Reads (m := m) PacketType.powerControlLoopSummary.staticLength cursor cursor :=
  (Reads.word UInt32).bind fun _ => (Reads.word Int16).bind fun _ =>
    (Reads.word Int16).bind fun _ => .pure _

theorem AggregateSummary.reads :
    Reads (m := m) PacketType.aggregateOpSummary.staticLength cursor cursor :=
  (Reads.word UInt16).bind fun _ => (Reads.word UInt16).bind fun _ =>
    (Reads.word UInt16).bind fun _ => (Reads.word UInt16).bind fun _ =>
    (Reads.word UInt16).bind fun _ => (Reads.word UInt8).bind fun _ =>
    (Reads.word UInt8).bind fun _ => (Reads.word UInt16).bind fun _ =>
    (Reads.word UInt8).bind fun _ => (Reads.word UInt8).bind fun _ => .pure _

theorem SjcMeasurement.reads :
    Reads (m := m) PacketType.sjcMeasurement.staticLength cursor cursor :=
  (Reads.word Int8).bind fun _ => (Reads.word Int8).bind fun _ =>
    (Reads.word UInt8).bind fun _ => (Reads.word UInt8).bind fun _ =>
    (Reads.word Int32).bind fun _ => (Reads.word Int32).bind fun _ => .pure _

theorem DeviceResult.reads :
    Reads (m := m) PacketType.deviceResult.staticLength cursor cursor :=
  (Reads.word UInt16).bind fun _ => (Reads.word UInt8).bind fun _ =>
    (Reads.word UInt8).bind fun _ => (Reads.word UInt32).bind fun _ => .pure _

/-! ## Payloads -/

namespace Payload

variable {α : Type} {payload : List UInt8}

/-- A field that is there is read. -/
theorem run_map_front {n : Nat} {c : CursorT m α} {plain : Cursor α} (hc : Reads n c plain)
    (hlength : n ≤ payload.length) (f : α → Payload) :
    (f <$> front c payload).run = pure (.ok (f (plain.run payload).1)) := by
  obtain ⟨hrun, -⟩ := hc payload hlength
  rw [ExceptT.run_map, front, ExceptT.run_lift, hrun, map_pure, map_pure, map_pure]
  rfl

theorem run_readCustom (hlength : PacketType.custom.staticLength ≤ payload.length) :
    (readCustom payload : ExceptT Fault m Payload).run = pure (readCustom (m := Id) payload) := by
  obtain ⟨hrun, -⟩ := Reads.word (m := m) UInt32 payload hlength
  unfold readCustom
  rw [hrun, liftM_pure, pure_bind]
  rfl

/-- Inside the fixed part of a type the fields are there. -/
theorem run_readType {type : PacketType} (hlength : type.staticLength ≤ payload.length) :
    (readType type payload : ExceptT Fault m Payload).run
      = pure (readType (m := Id) type payload) := by
  have hword (α : Type) [Word α] := Reads.word (m := m) α
  cases type with
  | txRampUp => exact run_map_front (hword UInt32) hlength _
  | txRampDown => exact run_map_front (hword UInt8) (Nat.le_trans (by decide) hlength) _
  | powerControlLoopSummary => exact run_map_front LoopSummary.reads hlength _
  | aggregateOpSummary => exact run_map_front AggregateSummary.reads hlength _
  | sjcMeasurement => exact run_map_front SjcMeasurement.reads hlength _
  | deviceResult => exact run_map_front DeviceResult.reads hlength _
  | custom => exact run_readCustom hlength
  | _ => rfl

theorem run_read (type : Option PacketType) (payload : List UInt8) :
    (read type payload : ExceptT Fault m Payload).run = pure (parse type payload) := by
  unfold parse read
  split
  · rfl
  · split
    · rfl
    · next hlong => exact run_readType (Nat.le_of_not_lt hlong)

end Payload

/-! ## Packets -/

theorem Header.run_read (bs : List UInt8) :
    (read bs : ExceptT Fault m Header).run = pure (parse bs) := by
  rw [parse_eq]
  unfold read
  split
  · rfl
  · next hlong =>
    have hlength : headerLength ≤ bs.length := by
      rw [List.length_take] at hlong
      omega
    obtain ⟨hrun, -⟩ := reads (m := m) bs hlength
    rw [hrun, liftM_pure, pure_bind]
    show ExceptT.run (if (Cursor.runAt cursor bs 0).revision = formatRevision then _ else _) = _
    simp only
    split <;> rfl

/-- A packet is read alike wherever bytes are cut alike inside their string. -/
theorem Packet.run_read (bs : List UInt8) :
    (read bs : ExceptT Fault m (Packet × List UInt8)).run = pure (parse bs) := by
  rw [parse_eq]
  unfold read
  rw [ExceptT.run_bind, Header.run_read, pure_bind]
  cases Header.parse bs with
  | error fault => rfl
  | ok header =>
    simp only
    split
    · rfl
    · next hheader =>
      split
      · rfl
      · next hlong =>
        have hlength : header.lengthBytes ≤ bs.length := by
          rw [List.length_take] at hlong
          omega
        have hinside : headerLength ≤ (bs.take header.lengthBytes).length := by omega
        rw [LawfulSlicing.split_eq hlength, liftM_pure, pure_bind]
        simp only
        rw [LawfulSlicing.split_eq hinside, liftM_pure, pure_bind, ExceptT.run_bind,
          Payload.run_read, pure_bind]
        cases Payload.parse header.type? _ <;> rfl

/-! ## Blocks -/

/-- The packets of a byte string as `packets` takes them off, without a result if a byte outside
of it is looked at. -/
def checkedPackets (bs : List UInt8) : Option (List (Except Fault Packet)) :=
  if bs = [] then some []
  else
    match _h : (Packet.read bs : ExceptT Fault Option _).run with
    | none => none
    | some (.error fault) => some [.error fault]
    | some (.ok (packet, rest)) => (checkedPackets rest).map (.ok packet :: ·)
termination_by bs.length
decreasing_by
  rw [Packet.run_read] at _h
  exact Packet.length_lt_of_parse (Option.some.inj _h)

theorem checkedPackets_of_ne_nil {bs : List UInt8} (hne : bs ≠ []) :
    checkedPackets bs =
      match Packet.parse bs with
      | .error fault => some [.error fault]
      | .ok (packet, rest) => (checkedPackets rest).map (.ok packet :: ·) := by
  have hread := Packet.run_read (m := Option) bs
  rw [checkedPackets, if_neg hne]
  split
  · next h => exact nomatch h.symm.trans hread
  · next fault h => rw [Option.some.inj (hread.symm.trans h)]
  · next packet rest h => rw [Option.some.inj (hread.symm.trans h)]

/-- No byte outside of the string is looked at. -/
theorem checkedPackets_eq (bs : List UInt8) : checkedPackets bs = some (packets bs) := by
  induction bs using packets.induct with
  | case1 => rw [checkedPackets, if_pos rfl, packets_nil]
  | case2 bs hne fault hparse =>
      rw [checkedPackets_of_ne_nil hne, hparse, packets_of_error hne hparse]
  | case3 bs hne packet rest hparse ih =>
      rw [checkedPackets_of_ne_nil hne, hparse, packets_of_ok hparse]
      simp only
      rw [ih, Option.map_some]

end Event
end RfidReader
