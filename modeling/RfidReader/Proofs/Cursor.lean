import RfidReader.Cursor
import RfidReader.Proofs.Word

/-!
# RfidReader.Proofs.Cursor

Readers that stay inside their byte string.

Monads may differ in what they do where bytes are missing, but inside a byte
string all of them cut alike (`LawfulSlicing`).  A cursor `Reads` a number of
bytes if, given that many, it has the value and leaves the rest that the plain
cursor does, in every such monad.  Optional values are the strict one: they
have no result where bytes are missing.  What the plain cursor of a vector reads
is said in closed form, each value at its own place (`run_vector`).
-/

namespace RfidReader

/-- Cutting that refuses to reach past the end. -/
instance : Slicing Option where
  split n bs := if n ≤ bs.length then some (bs.take n, bs.drop n) else none

/-- Monads that cut inside a byte string as one would expect. -/
class LawfulSlicing (m : Type → Type) [Monad m] [Slicing m] : Prop extends LawfulMonad m where
  split_eq {n : Nat} {bs : List UInt8} (h : n ≤ bs.length) :
    (Slicing.split n bs : m _) = pure (bs.take n, bs.drop n)

instance : LawfulSlicing Id where
  split_eq _ := rfl

instance : LawfulSlicing Option where
  split_eq h := if_pos h

namespace Cursor

theorem run_pure {α : Type} (a : α) (bs : List UInt8) : (pure a : Cursor α).run bs = (a, bs) := rfl

theorem run_bind {α β : Type} (c : Cursor α) (f : α → Cursor β) (bs : List UInt8) :
    (c >>= f).run bs = (f (c.run bs).1).run (c.run bs).2 := rfl

/-- A lawful word is read back, and what follows it is left. -/
theorem run_word_append {α : Type} [Word α] [LawfulWord α] (x : α) (rest : List UInt8) :
    (word α : Cursor α).run (Word.encode x ++ rest) = (x, rest) := by
  have hword : Word.decode ((Word.encode x ++ rest).take (Word.size α)) = x := by
    rw [Word.decode_take, Word.decode_encode_append]
  have hrest : (Word.encode x ++ rest).drop (Word.size α) = rest :=
    List.drop_left' (Word.length_encode x)
  exact congrArg₂ Prod.mk hword hrest

@[simp] theorem run_word (α : Type) [Word α] (bs : List UInt8) :
    (word α : Cursor α).run bs = (Word.decode bs, bs.drop (Word.size α)) :=
  congrArg (·, bs.drop (Word.size α)) (Word.decode_take bs)

@[simp] theorem run_skip (n : Nat) (bs : List UInt8) :
    (skip n : Cursor Unit).run bs = ((), bs.drop n) := rfl

/-- Values of one width stand one after the other. -/
theorem run_vector {α : Type} {item : Cursor α} {width : Nat} {read : List UInt8 → α}
    (hitem : ∀ bs, item.run bs = (read bs, bs.drop width)) (n : Nat) (bs : List UInt8) :
    (vector item n).run bs =
      (Vector.ofFn fun i : Fin n => read (bs.drop (i * width)), bs.drop (n * width)) := by
  induction n with
  | zero => simp [vector]; rfl
  | succ n ih =>
      simp only [vector, run_bind, ih, hitem, List.drop_drop, Vector.ofFn_succ, Nat.succ_mul]
      rfl

@[simp] theorem run_words (α : Type) [Word α] (n : Nat) (bs : List UInt8) :
    (words α n : Cursor (Vector α n)).run bs =
      (Vector.ofFn fun i : Fin n => Word.decode (bs.drop (i * Word.size α)),
        bs.drop (n * Word.size α)) :=
  run_vector (run_word α) n bs

end Cursor

namespace CursorT

variable {m : Type → Type} [Monad m] {α β : Type}

/-- A cursor takes `n` bytes, if there are that many, and reads what the plain cursor does. -/
def Reads (n : Nat) (c : CursorT m α) (plain : Cursor α) : Prop :=
  ∀ bs : List UInt8, n ≤ bs.length →
    c.run bs = pure (plain.run bs) ∧ (plain.run bs).2 = bs.drop n

theorem Reads.pure (a : α) : Reads (m := m) 0 (pure a) (pure a) :=
  fun _ _ => ⟨rfl, rfl⟩

variable [Slicing m] [LawfulSlicing m]

theorem Reads.word (α : Type) [Word α] :
    Reads (m := m) (Word.size α) (Cursor.word α) (Cursor.word α) := by
  intro bs h
  refine ⟨?_, rfl⟩
  show (Slicing.split (Word.size α) bs >>= _ : m _) = _
  rw [LawfulSlicing.split_eq h, pure_bind]
  rfl

/-- Cursors in a row take as many bytes as they do together. -/
theorem Reads.bind {n k : Nat} {c : CursorT m α} {f : α → CursorT m β} {plain : Cursor α}
    {plainNext : α → Cursor β} (hc : Reads n c plain)
    (hf : ∀ a, Reads k (f a) (plainNext a)) : Reads (n + k) (c >>= f) (plain >>= plainNext) := by
  intro bs h
  obtain ⟨hrun, hrest⟩ := hc bs (by omega)
  have hnext := hf (plain.run bs).1 (bs.drop n) (by rw [List.length_drop]; omega)
  rw [← hrest] at hnext
  refine ⟨?_, ?_⟩
  · rw [StateT.run_bind, hrun, pure_bind]
    exact hnext.1
  · show ((plainNext (plain.run bs).1).run (plain.run bs).2).2 = _
    rw [hnext.2, hrest, List.drop_drop]

theorem Reads.skip (n : Nat) : Reads (m := m) n (Cursor.skip n) (Cursor.skip n) := by
  intro bs h
  refine ⟨?_, rfl⟩
  show (Slicing.split n bs >>= _ : m _) = _
  rw [LawfulSlicing.split_eq h, pure_bind]
  rfl

/-- Values in a row take as many bytes as they do together. -/
theorem Reads.vector {k : Nat} {item : CursorT m α} {plain : Cursor α} (h : Reads k item plain)
    (n : Nat) : Reads (n * k) (Cursor.vector item n) (Cursor.vector plain n) := by
  induction n with
  | zero =>
      rw [Nat.zero_mul]
      exact .pure _
  | succ n ih =>
      rw [Nat.succ_mul]
      exact ih.bind fun _ => h.bind fun _ => .pure _

theorem Reads.words (α : Type) [Word α] (n : Nat) :
    Reads (m := m) (n * Word.size α) (Cursor.words α n) (Cursor.words α n) :=
  (Reads.word α).vector n

/-- Where the bytes are there, reading at an offset gives the value in every monad. -/
theorem Reads.readAt {n : Nat} {c : CursorT m α} {plain : Cursor α} (h : Reads n c plain)
    {bs : List UInt8} {offset : Nat} (hlength : offset + n ≤ bs.length) :
    Cursor.readAt c bs offset = Pure.pure (Cursor.runAt plain bs offset) := by
  obtain ⟨hrun, -⟩ := h (bs.drop offset) (by rw [List.length_drop]; omega)
  unfold Cursor.readAt
  rw [LawfulSlicing.split_eq (by omega), pure_bind]
  show (c.run (bs.drop offset) >>= _ : m α) = _
  rw [hrun, pure_bind]
  rfl

end CursorT
end RfidReader
