import RfidReader.Word

/-!
# RfidReader.Cursor

Reading consecutive fields from the front of a byte string.

A cursor takes its value off the front and leaves the rest.  What happens where
bytes are missing is up to the monad it cuts the string in (`Slicing`).  A plain
`Cursor` never fails: missing bytes count as zero, and a reader checks the
length once before it starts.
-/

namespace RfidReader

/-- Monads that cut byte strings, each in its own way where bytes are missing. -/
class Slicing (m : Type → Type) where
  /-- The first `n` bytes, and those behind them. -/
  split (n : Nat) (bs : List UInt8) : m (List UInt8 × List UInt8)

/-- Cutting that takes the bytes there are. -/
instance : Slicing Id where
  split n bs := (bs.take n, bs.drop n)

/-- A reader that takes a value off the front of a byte string, cut in a monad. -/
abbrev CursorT (m : Type → Type) (α : Type) := StateT (List UInt8) m α

/-- A reader that never fails. -/
abbrev Cursor (α : Type) := CursorT Id α

namespace Cursor

variable {m : Type → Type} [Monad m] [Slicing m]

def word (α : Type) [Word α] : CursorT m α := fun bs => do
  let (front, rest) ← Slicing.split (Word.size α) bs
  pure (Word.decode front, rest)

/-- Pass over `n` bytes. -/
def skip (n : Nat) : CursorT m Unit := fun bs => do
  let (_, rest) ← Slicing.split n bs
  pure ((), rest)

/-- `n` values of a kind, one after the other. -/
def vector {α : Type} (item : CursorT m α) : (n : Nat) → CursorT m (Vector α n)
  | 0 => pure #v[]
  | n + 1 => do
    let front ← vector item n
    let last ← item
    pure (front.push last)

/-- `n` words of a type, one after the other. -/
def words (α : Type) [Word α] (n : Nat) : CursorT m (Vector α n) := vector (word α) n

/-- Read a value from the bytes that start at `offset`. -/
def readAt {α : Type} (c : CursorT m α) (bs : List UInt8) (offset : Nat) : m α := do
  let (_, rest) ← Slicing.split offset bs
  let (a, _) ← c.run rest
  pure a

/-- The value read from the bytes that start at `offset`. -/
def runAt {α : Type} (c : Cursor α) (bs : List UInt8) (offset : Nat) : α :=
  (c.run (bs.drop offset)).1

end Cursor
end RfidReader
