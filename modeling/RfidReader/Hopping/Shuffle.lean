/-!
# RfidReader.Hopping.Shuffle

Random hop orders.

A shuffle walks the deck from the front and swaps the entry it stands on with
a random pick; the range of the picks shrinks by one at each step.  The picks
are drawn first (`drawPicks`), so the order they lead to (`arrange`) is a plain
function of them.
-/

namespace RfidReader

/-- A source of random 32-bit numbers. -/
class RandomSource (ρ : Type) where
  /-- The next number and the source after it. -/
  next : ρ → UInt32 × ρ

/-- A list of numbers that starts over at its end; without any the source gives zeros. -/
structure CyclicSource where
  numbers : List UInt32
  /-- What is left of the list before it starts over. -/
  rest : List UInt32 := numbers
  deriving DecidableEq, Repr

instance : RandomSource CyclicSource where
  next s :=
    match s.rest, s.numbers with
    | r :: rest, _ => (r, { s with rest })
    | [], r :: rest => (r, { s with rest })
    | [], [] => (0, s)

namespace Hopping

variable {α ρ : Type}

/-- Exchange two entries; nothing changes unless both exist. -/
def swap (deck : List α) (i j : Nat) : List α :=
  match deck[i]?, deck[j]? with
  | some a, some b => (deck.set i b).set j a
  | _, _ => deck

/-- Swap the entry at `index` with the first pick, the one after it with the second, and so on. -/
def arrangeFrom (index : Nat) : List Nat → List α → List α
  | [], deck => deck
  | pick :: picks, deck => arrangeFrom (index + 1) picks (swap deck index pick)

/-- The order that a list of picks leads to. -/
def arrange (picks : List Nat) (deck : List α) : List α := arrangeFrom 0 picks deck

/-- Draw `n` picks, the first below `n`, the next below `n - 1`, and the last 0. -/
def drawPicks [RandomSource ρ] : (n : Nat) → StateM ρ (List Nat)
  | 0 => pure []
  | n + 1 => do
    let r ← modifyGet (RandomSource.next (ρ := ρ))
    let rest ← drawPicks n
    pure (r.toNat % (n + 1) :: rest)

def shuffle [RandomSource ρ] (deck : List α) : StateM ρ (List α) := do
  let picks ← drawPicks deck.length
  pure (arrange picks deck)

/-- The hop order of a channel plan: shuffled, or as it is. -/
def order [RandomSource ρ] (random : Bool) (plan : List α) : StateM ρ (List α) :=
  if random then shuffle plan else pure plan

end Hopping
end RfidReader
