import RfidReader.Aggregate.Buffer
import RfidReader.Event.Packet

/-!
# RfidReader.Event.Custom

Packets the host puts into the event FIFO itself: a count of the data bytes,
the data, and zeros up to a whole number of words.
-/

namespace RfidReader
namespace Event

/-- The number of bytes that fills `n` up to a whole number of words. -/
def paddedLength (n : Nat) : Nat := (n + 3) / 4 * 4

/-- A custom packet with the given data. -/
def customPacket (timeUs : UInt32) (data : List UInt8) : Except Fault (List UInt8) :=
  let length := headerLength + 4 + paddedLength data.length
  if AggregateBuffer.maxPacketLength < length then .error .customEventTooLong
  else
    .ok
      ((Header.ofType .custom length timeUs).encode
        ++ Word.encode (UInt32.ofNat data.length)
        ++ data ++ List.replicate (paddedLength data.length - data.length) 0)

end Event
end RfidReader
