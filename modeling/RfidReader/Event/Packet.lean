import RfidReader.Cursor
import RfidReader.Fault

/-!
# RfidReader.Event.Packet

Packets of the event FIFO.

The chip reports what its operations did in packets.  A packet is a header of
eight bytes, a payload whose length depends on the type, and for some types
data of variable length; its first byte counts its 32-bit words.

`Packet.parse` takes one packet off the front of a byte string, and `packets`
takes them off one after the other.  What follows a malformed packet is lost,
since nothing says where the next one would start.
-/

namespace RfidReader
namespace Event

/-! ## Types -/

inductive PacketType where
  | txRampUp | txRampDown | inventoryRoundSummary | qChanged | tagRead | tagReadExtended
  | gen2Transaction | continuousInventorySummary | helloWorld | custom
  | powerControlLoopSummary | aggregateOpSummary | halted | invalidPacket | fifoOverflow
  | deviceResult | sjcMeasurement | debug
  deriving DecidableEq, Repr

namespace PacketType

def all : List PacketType :=
  [txRampUp, txRampDown, inventoryRoundSummary, qChanged, tagRead, tagReadExtended,
    gen2Transaction, continuousInventorySummary, helloWorld, custom, powerControlLoopSummary,
    aggregateOpSummary, halted, invalidPacket, fifoOverflow, deviceResult, sjcMeasurement, debug]

/-- The number in the header. -/
def code : PacketType → UInt8
  | txRampUp => 0x01 | txRampDown => 0x02 | inventoryRoundSummary => 0x03 | qChanged => 0x04
  | tagRead => 0x05 | tagReadExtended => 0x06 | gen2Transaction => 0x07
  | continuousInventorySummary => 0x08 | helloWorld => 0x09 | custom => 0x0a
  | powerControlLoopSummary => 0x0b | aggregateOpSummary => 0x0d | halted => 0x0e
  | invalidPacket => 0xf0 | fifoOverflow => 0xf1 | deviceResult => 0xf2
  | sjcMeasurement => 0xfe | debug => 0xff

def ofCode? (c : UInt8) : Option PacketType := all.find? (·.code == c)

def name : PacketType → String
  | txRampUp => "TxRampUp" | txRampDown => "TxRampDown"
  | inventoryRoundSummary => "InventoryRoundSummary" | qChanged => "QChanged"
  | tagRead => "TagRead" | tagReadExtended => "TagReadExtended"
  | gen2Transaction => "Gen2Transaction"
  | continuousInventorySummary => "ContinuousInventorySummary" | helloWorld => "HelloWorld"
  | custom => "Custom" | powerControlLoopSummary => "PowerControlLoopSummary"
  | aggregateOpSummary => "AggregateOpSummary" | halted => "Halted"
  | invalidPacket => "InvalidPacket" | fifoOverflow => "FifoOverflow"
  | deviceResult => "Ex10Result" | sjcMeasurement => "SjcMeasurement" | debug => "Debug"

/-- The length of the fixed part of the payload. -/
def staticLength : PacketType → Nat
  | inventoryRoundSummary | tagReadExtended => 20
  | qChanged | tagRead | gen2Transaction | sjcMeasurement => 12
  | continuousInventorySummary | aggregateOpSummary => 16
  | powerControlLoopSummary | deviceResult => 8
  | _ => 4

theorem ofCode?_code (t : PacketType) : ofCode? t.code = some t := by
  cases t <;> decide

end PacketType

/-! ## Headers -/

/-- The packet format the firmware has to agree on. -/
def formatRevision : UInt16 := 0xbf4b

def headerLength : Nat := 8

structure Header where
  /-- The length of the whole packet in 32-bit words. -/
  words : UInt8
  typeCode : UInt8
  revision : UInt16
  timeUs : UInt32
  deriving DecidableEq, Repr

namespace Header

/-- The header of a packet that is `length` bytes long. -/
def ofType (type : PacketType) (length : Nat) (timeUs : UInt32) : Header where
  words := UInt8.ofNat (length / 4)
  typeCode := type.code
  revision := formatRevision
  timeUs

/-- The packet's type, if it is known. -/
def type? (h : Header) : Option PacketType := PacketType.ofCode? h.typeCode

/-- The length of the whole packet in bytes. -/
def lengthBytes (h : Header) : Nat := h.words.toNat * 4

def encode (h : Header) : List UInt8 :=
  Word.encode h.words ++ Word.encode h.typeCode ++ Word.encode h.revision ++ Word.encode h.timeUs

def cursor {m : Type → Type} [Monad m] [Slicing m] : CursorT m Header := do
  let words ← Cursor.word UInt8
  let typeCode ← Cursor.word UInt8
  let revision ← Cursor.word UInt16
  let timeUs ← Cursor.word UInt32
  pure { words, typeCode, revision, timeUs }

/-- Read the header at the front of a byte string, which has to be of this format. -/
def read {m : Type → Type} [Monad m] [Slicing m] (bs : List UInt8) : ExceptT Fault m Header := do
  if (bs.take headerLength).length < headerLength then throw .eventHeaderTruncated
  else
    let (header, _) ← (cursor.run bs : m _)
    if header.revision = formatRevision then pure header else throw .eventFormatMismatch

/-- The header at the front of a byte string. -/
def parse (bs : List UInt8) : Except Fault Header := read (m := Id) bs

theorem parse_eq (bs : List UInt8) :
    parse bs =
      if (bs.take headerLength).length < headerLength then .error .eventHeaderTruncated
      else
        let header := Cursor.runAt cursor bs 0
        if header.revision = formatRevision then .ok header else .error .eventFormatMismatch := by
  unfold parse read
  split <;> rfl

end Header

/-! ## Payloads -/

/-- Why the transmitter ramped down. -/
inductive RampDownReason where
  /-- The host asked for it. -/
  | host
  /-- A regulatory timer ran out. -/
  | regulatory
  deriving DecidableEq, Repr

namespace RampDownReason

def ofCode? (c : UInt8) : Option RampDownReason :=
  if c = 1 then some host else if c = 2 then some regulatory else none

def name : RampDownReason → String
  | host => "Host"
  | regulatory => "Regulatory"

end RampDownReason

/-- How a power control loop went. -/
structure LoopSummary where
  iterations : UInt32
  /-- The last difference between reading and target. -/
  finalError : Int16
  finalFineGain : Int16
  deriving DecidableEq, Repr

/-- How an aggregate operation went. -/
structure AggregateSummary where
  opRuns : UInt16
  writes : UInt16
  insertedPackets : UInt16
  finalByteIndex : UInt16
  jumps : UInt16
  lastOp : UInt8
  lastOpError : UInt8
  identifier : UInt16
  lastCommand : UInt8
  lastCommandError : UInt8
  deriving DecidableEq, Repr

/-- The result of a self-jammer cancellation. -/
structure SjcMeasurement where
  cdacI : Int8
  cdacQ : Int8
  rxAtten : UInt8
  flags : UInt8
  residueI : Int32
  residueQ : Int32
  deriving DecidableEq, Repr

/-- An error reported through the FIFO. -/
structure DeviceResult where
  error : Bool
  customer : Bool
  module_ : UInt8
  resultCode : UInt8
  deviceStatus : UInt32
  deriving DecidableEq, Repr

/-- What a packet says. -/
inductive Payload where
  | txRampUp (khz : UInt32)
  | txRampDown (reason : UInt8)
  | powerControlLoopSummary (s : LoopSummary)
  | aggregateOpSummary (s : AggregateSummary)
  | sjcMeasurement (m : SjcMeasurement)
  | deviceResult (r : DeviceResult)
  | custom (data : List UInt8)
  /-- Any other packet: the bytes after the header. -/
  | raw (bytes : List UInt8)
  deriving DecidableEq, Repr

variable {m : Type → Type} [Monad m] [Slicing m]

def LoopSummary.cursor : CursorT m LoopSummary := do
  let iterations ← Cursor.word UInt32
  let finalError ← Cursor.word Int16
  let finalFineGain ← Cursor.word Int16
  pure { iterations, finalError, finalFineGain }

def AggregateSummary.cursor : CursorT m AggregateSummary := do
  let opRuns ← Cursor.word UInt16
  let writes ← Cursor.word UInt16
  let insertedPackets ← Cursor.word UInt16
  let finalByteIndex ← Cursor.word UInt16
  let jumps ← Cursor.word UInt16
  let lastOp ← Cursor.word UInt8
  let lastOpError ← Cursor.word UInt8
  let identifier ← Cursor.word UInt16
  let lastCommand ← Cursor.word UInt8
  let lastCommandError ← Cursor.word UInt8
  pure
    { opRuns, writes, insertedPackets, finalByteIndex, jumps, lastOp, lastOpError, identifier,
      lastCommand, lastCommandError }

def SjcMeasurement.cursor : CursorT m SjcMeasurement := do
  let cdacI ← Cursor.word Int8
  let cdacQ ← Cursor.word Int8
  let rxAtten ← Cursor.word UInt8
  let flags ← Cursor.word UInt8
  let residueI ← Cursor.word Int32
  let residueQ ← Cursor.word Int32
  pure { cdacI, cdacQ, rxAtten, flags, residueI, residueQ }

/-- Reads an error report, whose first two bits are flags. -/
def DeviceResult.cursor : CursorT m DeviceResult := do
  let flags ← Cursor.word UInt16
  let module_ ← Cursor.word UInt8
  let resultCode ← Cursor.word UInt8
  let deviceStatus ← Cursor.word UInt32
  pure
    { error := flags.toNat.testBit 0, customer := flags.toNat.testBit 1, module_, resultCode,
      deviceStatus }

namespace Payload

/-- Read a value from the front of a payload. -/
def front {α : Type} (c : CursorT m α) (payload : List UInt8) : ExceptT Fault m α :=
  ExceptT.lift (Prod.fst <$> c.run payload)

/-- The data of a custom packet, a count of bytes from those behind the count. -/
def customData (length : UInt32) (bytes : List UInt8) : Except Fault Payload :=
  match Bytes.front? length.toNat bytes with
  | some data => .ok (.custom data)
  | none => .error .customEventTruncated

/-- Read the data of a custom packet: a count of 32 bits, and that many bytes. -/
def readCustom (payload : List UInt8) : ExceptT Fault m Payload := do
  let (length, rest) ← ((Cursor.word UInt32).run payload : m _)
  ExceptT.mk (pure (customData length rest))

/-- Read the payload of a type, long enough for the type's fixed part. -/
def readType (type : PacketType) (payload : List UInt8) : ExceptT Fault m Payload :=
  match type with
  | .txRampUp => .txRampUp <$> front (Cursor.word UInt32) payload
  | .txRampDown => .txRampDown <$> front (Cursor.word UInt8) payload
  | .powerControlLoopSummary =>
    .powerControlLoopSummary <$> front LoopSummary.cursor payload
  | .aggregateOpSummary => .aggregateOpSummary <$> front AggregateSummary.cursor payload
  | .sjcMeasurement => .sjcMeasurement <$> front SjcMeasurement.cursor payload
  | .deviceResult => .deviceResult <$> front DeviceResult.cursor payload
  | .custom => readCustom payload
  | _ => pure (.raw payload)

/-- Read the payload of a packet whose type may be unknown. -/
def read (type : Option PacketType) (payload : List UInt8) : ExceptT Fault m Payload :=
  match type with
  | none => pure (.raw payload)
  | some type =>
    if payload.length < type.staticLength then throw .eventShorterThanType
    else readType type payload

/-- The payload that some bytes hold. -/
def parse (type : Option PacketType) (payload : List UInt8) : Except Fault Payload :=
  read (m := Id) type payload

end Payload

/-! ## Packets -/

structure Packet where
  header : Header
  payload : Payload
  deriving DecidableEq, Repr

namespace Packet

/-- Read the packet at the front of a byte string, and what follows it. -/
def read {m : Type → Type} [Monad m] [Slicing m] (bs : List UInt8) :
    ExceptT Fault m (Packet × List UInt8) := do
  let header ← Header.read bs
  let length := header.lengthBytes
  if length < headerLength then throw .eventShorterThanHeader
  else if (bs.take length).length < length then throw .eventTruncated
  else
    let (packet, rest) ← (Slicing.split length bs : m _)
    let (_, bytes) ← (Slicing.split headerLength packet : m _)
    let payload ← Payload.read header.type? bytes
    pure ({ header, payload }, rest)

/-- The packet at the front of a byte string, and what follows it. -/
def parse (bs : List UInt8) : Except Fault (Packet × List UInt8) := read (m := Id) bs

theorem parse_eq (bs : List UInt8) :
    parse bs =
      match Header.parse bs with
      | .error fault => .error fault
      | .ok header =>
        let length := header.lengthBytes
        if length < headerLength then .error .eventShorterThanHeader
        else if (bs.take length).length < length then .error .eventTruncated
        else
          (Payload.parse header.type? ((bs.take length).drop headerLength)).map fun payload =>
            ({ header, payload }, bs.drop length) := by
  unfold Header.parse
  simp only [parse, read, bind, ExceptT.bind, ExceptT.mk, ExceptT.bindCont]
  cases Header.read (m := Id) bs with
  | error fault => rfl
  | ok header =>
    simp only
    split
    · rfl
    · split
      · rfl
      · let bytes := (bs.take header.lengthBytes).drop headerLength
        let packet (payload : Payload) : Packet × List UInt8 :=
          ({ header, payload }, bs.drop header.lengthBytes)
        show (packet <$> Payload.read (m := Id) header.type? bytes : ExceptT Fault Id _)
          = (Payload.parse header.type? bytes).map packet
        unfold Payload.parse
        cases Payload.read (m := Id) header.type? bytes <;> rfl

/-- What follows a packet is shorter than what it was taken from. -/
theorem length_lt_of_parse {bs rest : List UInt8} {p : Packet} (h : parse bs = .ok (p, rest)) :
    rest.length < bs.length := by
  rw [parse_eq] at h
  split at h
  · contradiction
  · next header _ =>
    simp only at h
    split at h
    · contradiction
    · next hlong =>
      split at h
      · contradiction
      · next hfits =>
        cases hpayload : Payload.parse header.type? _ with
        | error fault =>
          rw [hpayload] at h
          contradiction
        | ok payload =>
          rw [hpayload] at h
          obtain ⟨-, rfl⟩ := Prod.mk.inj (Except.ok.inj h)
          rw [List.length_take] at hfits
          rw [List.length_drop]
          unfold headerLength at hlong
          omega

end Packet

/-- The packets of a byte string, up to and with the first fault. -/
def packets (bs : List UInt8) : List (Except Fault Packet) :=
  if bs = [] then []
  else
    match _h : Packet.parse bs with
    | .error fault => [.error fault]
    | .ok (packet, rest) => .ok packet :: packets rest
termination_by bs.length
decreasing_by exact Packet.length_lt_of_parse _h

@[simp] theorem packets_nil : packets [] = [] := by rw [packets, if_pos rfl]

theorem packets_of_error {bs : List UInt8} {fault : Fault} (hne : bs ≠ [])
    (h : Packet.parse bs = .error fault) : packets bs = [.error fault] := by
  rw [packets, if_neg hne]
  split
  · next heq => rw [Except.error.inj (heq.symm.trans h)]
  · next heq => exact nomatch heq.symm.trans h

theorem packets_of_ok {bs rest : List UInt8} {packet : Packet}
    (h : Packet.parse bs = .ok (packet, rest)) : packets bs = .ok packet :: packets rest := by
  have hne : bs ≠ [] := List.ne_nil_of_length_pos
    (Nat.zero_lt_of_lt (Packet.length_lt_of_parse h))
  rw [packets, if_neg hne]
  split
  · next heq => exact nomatch heq.symm.trans h
  · next heq =>
    obtain ⟨rfl, rfl⟩ := Prod.mk.inj (Except.ok.inj (heq.symm.trans h))
    rfl

end Event
end RfidReader
