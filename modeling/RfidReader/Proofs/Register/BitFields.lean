import Mathlib.Algebra.BigOperators.Ring.List
import Mathlib.Algebra.Ring.Nat
import Mathlib.Data.List.Pairwise
import RfidReader.Proofs.Register

/-!
# RfidReader.Proofs.Register.BitFields

Registers as runs of bits.

A `BitField` is a run of bits of an entry and the number a value has there;
`BitField.join` puts the numbers of a value side by side.  Fields that ascend do not
overlap, so each number is read back from its own bits (`read_join`), and the bits
of no field are clear (`testBit_join`).  A `BitLayout` says that a register packs
and unpacks its values field by field.  Everything about reading back what was
written follows from that, for any register: a value comes back if its fields tell
it apart (`BitLayout.decode?_encode`), and what was read comes back in any case
(`BitLayout.decode?_reencode`).
-/

namespace RfidReader

/-- A run of bits of a register entry, and the number that a value has there. -/
structure BitField (α : Type) where
  start : Nat
  width : Nat
  get : α → Nat
  get_lt : ∀ v, get v < 2 ^ width

namespace BitField

variable {α : Type}

/-- The bit behind the last one. -/
def stop (f : BitField α) : Nat := f.start + f.width

/-- A bit belongs to the field. -/
def covers (f : BitField α) (i : Nat) : Bool := f.start ≤ i && i < f.stop

/-- The number in the bits of the field. -/
def read (f : BitField α) (w : Nat) : Nat := (w >>> f.start) % 2 ^ f.width

/-- The numbers of a value, each in the bits of its field. -/
def join (fields : List (BitField α)) (v : α) : Nat :=
  (fields.map fun f => f.get v <<< f.start).sum

/-- Fields in the order of their bits, without a bit in common. -/
def Ascending (fields : List (BitField α)) : Prop :=
  fields.Pairwise fun f g => f.stop ≤ g.start

/-- Fields that tell any two values apart. -/
def Exact (fields : List (BitField α)) : Prop :=
  ∀ v w, (∀ f ∈ fields, f.get v = f.get w) → v = w

theorem covers_iff {f : BitField α} {i : Nat} : f.covers i = true ↔ f.start ≤ i ∧ i < f.stop := by
  simp [covers]

theorem testBit_read (f : BitField α) (w i : Nat) :
    (f.read w).testBit i = (decide (i < f.width) && w.testBit (f.start + i)) := by
  rw [read, Nat.testBit_mod_two_pow, Nat.testBit_shiftRight]

/-- A number in place has bits in its field only. -/
theorem testBit_shifted (f : BitField α) (v : α) (i : Nat) :
    (f.get v <<< f.start).testBit i = (f.covers i && (f.get v).testBit (i - f.start)) := by
  rw [Nat.testBit_shiftLeft, covers, stop]
  by_cases hstart : f.start ≤ i
  · by_cases hstop : i < f.start + f.width
    · simp [hstart, hstop]
    · have hclear : (f.get v).testBit (i - f.start) = false :=
        Nat.testBit_lt_two_pow
          (Nat.lt_of_lt_of_le (f.get_lt v) (Nat.pow_le_pow_right (by decide) (by omega)))
      simp [hstart, hclear]
  · simp [hstart]

theorem shifted_lt (f : BitField α) (v : α) : f.get v <<< f.start < 2 ^ f.stop := by
  rw [Nat.shiftLeft_eq, stop, Nat.pow_add, Nat.mul_comm]
  exact Nat.mul_lt_mul_of_pos_left (f.get_lt v) (Nat.two_pow_pos _)

theorem two_pow_dvd_join {fields : List (BitField α)} {k : Nat}
    (h : ∀ f ∈ fields, k ≤ f.start) (v : α) : 2 ^ k ∣ join fields v := by
  refine List.dvd_sum fun x hx => ?_
  obtain ⟨f, hf, rfl⟩ := List.mem_map.mp hx
  rw [Nat.shiftLeft_eq]
  exact Nat.dvd_mul_left_of_dvd (Nat.pow_dvd_pow 2 (h f hf)) _

/-- The bits of numbers side by side: those of each field, and no others. -/
theorem testBit_join {fields : List (BitField α)} (h : Ascending fields) (v : α) (i : Nat) :
    (join fields v).testBit i =
      fields.any fun f => f.covers i && (f.get v).testBit (i - f.start) := by
  induction fields with
  | nil => simp [join]
  | cons f rest ih =>
      obtain ⟨hfirst, hrest⟩ := List.pairwise_cons.mp h
      obtain ⟨above, habove⟩ := two_pow_dvd_join hfirst v
      have hor : join (f :: rest) v = join rest v ||| f.get v <<< f.start := by
        rw [habove, ← Nat.two_pow_add_eq_or_of_lt (f.shifted_lt v), ← habove, Nat.add_comm]
        simp [join]
      rw [hor, Nat.testBit_or, ih hrest, testBit_shifted, List.any_cons, Bool.or_comm]

theorem join_lt {fields : List (BitField α)} (h : Ascending fields) {n : Nat}
    (hstop : ∀ f ∈ fields, f.stop ≤ n) (v : α) : join fields v < 2 ^ n := by
  refine Nat.lt_pow_two_of_testBit _ fun i hi => ?_
  rw [testBit_join h]
  refine List.any_eq_false.mpr fun f hf => ?_
  have := hstop f hf
  simp [covers]
  omega

/-- Only one of ascending fields has a bit. -/
theorem eq_of_covers {fields : List (BitField α)} (h : Ascending fields) {f g : BitField α}
    (hf : f ∈ fields) (hg : g ∈ fields) {i : Nat} (hfi : f.covers i) (hgi : g.covers i) :
    f = g := by
  by_contra hne
  have hapart : fields.Pairwise fun f g => f.stop ≤ g.start ∨ g.stop ≤ f.start := h.imp .inl
  have : Std.Symm fun f g : BitField α => f.stop ≤ g.start ∨ g.stop ≤ f.start :=
    ⟨fun _ _ => Or.symm⟩
  have := hapart.forall hf hg hne
  rw [covers_iff] at hfi hgi
  omega

/-- Each number is read back from the bits of its field. -/
theorem read_join {fields : List (BitField α)} (h : Ascending fields) {f : BitField α}
    (hf : f ∈ fields) (v : α) : f.read (join fields v) = f.get v := by
  refine Nat.eq_of_testBit_eq fun i => ?_
  rw [testBit_read, testBit_join h]
  by_cases hi : i < f.width
  · have hcovers : f.covers (f.start + i) = true := covers_iff.mpr ⟨by omega, by unfold stop; omega⟩
    simp only [hi, decide_true, Bool.true_and]
    rw [Bool.eq_iff_iff, List.any_eq_true]
    constructor
    · rintro ⟨g, hg, hbit⟩
      obtain ⟨hgi, hbit⟩ := Bool.and_eq_true_iff.mp hbit
      obtain rfl := eq_of_covers h hf hg hcovers hgi
      rwa [Nat.add_sub_cancel_left] at hbit
    · intro hbit
      exact ⟨f, hf, by rw [hcovers, Nat.add_sub_cancel_left, hbit]; rfl⟩
  · have hclear : (f.get v).testBit i = false :=
      Nat.testBit_lt_two_pow
        (Nat.lt_of_lt_of_le (f.get_lt v) (Nat.pow_le_pow_right (by decide) (by omega)))
    simp [hi, hclear]

/-! ## Kinds of fields -/

/-- A field of one bit. -/
def ofBool (start : Nat) (get : α → Bool) : BitField α :=
  ⟨start, 1, fun v => (get v).toNat, fun v => (get v).toNat_lt⟩

/-- A field of a word. -/
def ofWord {β : Type} [Word β] [LawfulWord β] (start : Nat) (get : α → β) : BitField α where
  start := start
  width := 8 * Word.size β
  get v := Word.toBits (get v)
  get_lt v := by
    rw [Nat.pow_mul]
    exact LawfulWord.toBits_lt (get v)

/-- A field of `width` bits, all of whose numbers are values. -/
def ofFin (start width : Nat) (get : α → Fin (2 ^ width)) : BitField α :=
  ⟨start, width, fun v => (get v).val, fun v => (get v).isLt⟩

section Kinds

variable {start : Nat} {v w : α}

theorem get_ofBool {get : α → Bool} : (ofBool start get).get v = (get v).toNat := rfl

theorem get_ofWord {β : Type} [Word β] [LawfulWord β] {get : α → β} :
    (ofWord start get).get v = Word.toBits (get v) := rfl

theorem get_ofFin {width : Nat} {get : α → Fin (2 ^ width)} :
    (ofFin start width get).get v = (get v).val := rfl

@[simp] theorem start_ofBool {get : α → Bool} : (ofBool start get).start = start := rfl

@[simp] theorem start_ofWord {β : Type} [Word β] [LawfulWord β] {get : α → β} :
    (ofWord start get).start = start := rfl

@[simp] theorem start_ofFin {width : Nat} {get : α → Fin (2 ^ width)} :
    (ofFin start width get).start = start := rfl

@[simp] theorem stop_ofBool {get : α → Bool} : (ofBool start get).stop = start + 1 := rfl

@[simp] theorem stop_ofWord {β : Type} [Word β] [LawfulWord β] {get : α → β} :
    (ofWord start get).stop = start + 8 * Word.size β := rfl

@[simp] theorem stop_ofFin {width : Nat} {get : α → Fin (2 ^ width)} :
    (ofFin start width get).stop = start + width := rfl

@[simp] theorem ofBool_inj {get : α → Bool} :
    (ofBool start get).get v = (ofBool start get).get w ↔ get v = get w := by
  show (get v).toNat = (get w).toNat ↔ _
  cases get v <;> cases get w <;> decide

@[simp] theorem ofWord_inj {β : Type} [Word β] [LawfulWord β] {get : α → β} :
    (ofWord start get).get v = (ofWord start get).get w ↔ get v = get w := by
  refine ⟨fun h => ?_, fun h => congrArg Word.toBits h⟩
  have hwords := congrArg (Word.ofBits : Nat → β) h
  rwa [ofWord, LawfulWord.ofBits_toBits, LawfulWord.ofBits_toBits] at hwords

@[simp] theorem ofFin_inj {width : Nat} {get : α → Fin (2 ^ width)} :
    (ofFin start width get).get v = (ofFin start width get).get w ↔ get v = get w :=
  Fin.val_inj

@[simp] theorem read_ofBool {get : α → Bool} (w : Nat) :
    (ofBool start get).read w = (w.testBit start).toNat := by
  rw [Nat.toNat_testBit, ← Nat.shiftRight_eq_div_pow]
  rfl

@[simp] theorem read_ofWord {β : Type} [Word β] [LawfulWord β] [ExactWord β] {get : α → β}
    (w : Nat) : (ofWord start get).read w = Word.toBits (Word.ofBits (w >>> start) : β) := by
  rw [read, ofWord, Nat.pow_mul, ExactWord.toBits_ofBits]

@[simp] theorem read_ofFin {width : Nat} {get : α → Fin (2 ^ width)} (w : Nat) :
    (ofFin start width get).read w = (w >>> start) % 2 ^ width := rfl

end Kinds
end BitField

/-! ## Registers -/

/-- How the values of a register lie in its entries: field by field, the other bits being clear
when written and ignored when read. -/
structure BitLayout {α : Type} (r : Register α) where
  fields : List (BitField α)
  ascending : BitField.Ascending fields
  stop_le : ∀ f ∈ fields, f.stop ≤ 8 * r.width
  copies_pos : 0 < r.copies
  needed_le : r.needed ≤ r.length
  pack_eq : ∀ v, r.pack v = BitField.join fields v
  get_unpack : ∀ f ∈ fields, ∀ w, f.get (r.unpack w) = f.read w
  unpack_ext : ∀ w w', (∀ f ∈ fields, f.get (r.unpack w) = f.get (r.unpack w')) →
    r.unpack w = r.unpack w'

namespace BitLayout

variable {α : Type} {r : Register α} (l : BitLayout r)
include l

theorem decode?_eq {bs : List UInt8} (h : r.length ≤ bs.length) :
    r.decode? bs = some (r.decode bs) :=
  if_neg (Nat.not_lt_of_le (Nat.le_trans l.needed_le h))

theorem pack_lt (v : α) : r.pack v < 256 ^ r.width := by
  have h := BitField.join_lt l.ascending l.stop_le v
  rwa [Nat.pow_mul, ← l.pack_eq] at h

/-- What is written is read back field by field. -/
theorem get_decode_encode (v : α) : ∀ f ∈ l.fields, f.get (r.decode (r.encode v)) = f.get v := by
  intro f hf
  rw [Register.decode_encode l.copies_pos (l.pack_lt v), l.get_unpack f hf, l.pack_eq,
    BitField.read_join l.ascending hf]

/-- Values that their fields tell apart are read back. -/
theorem decode?_encode (hexact : BitField.Exact l.fields) (v : α) :
    r.decode? (r.encode v) = some v := by
  rw [l.decode?_eq (Nat.le_of_eq (r.length_encode v).symm)]
  exact congrArg some (hexact _ _ (l.get_decode_encode v))

/-- What was read once is read back. -/
theorem decode?_reencode (bs : List UInt8) :
    r.decode? (r.encode (r.decode bs)) = some (r.decode bs) := by
  rw [l.decode?_eq (Nat.le_of_eq (r.length_encode _).symm)]
  have hfields := l.get_decode_encode (r.decode bs)
  rw [Register.decode_encode l.copies_pos (l.pack_lt _)] at hfields ⊢
  exact congrArg some (l.unpack_ext _ _ hfields)

/-- The bits of an entry that was read: those of the fields, and no others. -/
theorem testBit_pack_decode (bs : List UInt8) (i : Nat) :
    (r.pack (r.decode bs)).testBit i =
      ((Bytes.leNat (bs.take r.width)).testBit i && l.fields.any (·.covers i)) := by
  rw [l.pack_eq, BitField.testBit_join l.ascending, Bool.eq_iff_iff, Bool.and_eq_true_iff,
    List.any_eq_true, List.any_eq_true]
  have hbit {f : BitField α} (hf : f ∈ l.fields) (hcovers : f.covers i = true) :
      (f.get (r.decode bs)).testBit (i - f.start) = (Bytes.leNat (bs.take r.width)).testBit i := by
    obtain ⟨hstart, hstop⟩ := BitField.covers_iff.mp hcovers
    have hwidth : i - f.start < f.width := by unfold BitField.stop at hstop; omega
    rw [Register.decode, l.get_unpack f hf, BitField.testBit_read, Nat.add_sub_cancel' hstart]
    simp [hwidth]
  constructor
  · rintro ⟨f, hf, h⟩
    obtain ⟨hcovers, h⟩ := Bool.and_eq_true_iff.mp h
    exact ⟨hbit hf hcovers ▸ h, f, hf, hcovers⟩
  · rintro ⟨h, f, hf, hcovers⟩
    exact ⟨f, hf, Bool.and_eq_true_iff.mpr ⟨hcovers, hbit hf hcovers ▸ h⟩⟩

/-- What was read is written as equal entries, each with the bits of its fields only. -/
theorem exists_entry (bs : List UInt8) : ∃ entry : List UInt8, entry.length = r.width ∧
    r.encode (r.decode bs) = (List.replicate r.copies entry).flatten ∧ ∀ i,
      (Bytes.leNat entry).testBit i =
        ((Bytes.leNat (bs.take r.width)).testBit i && l.fields.any (·.covers i)) := by
  refine ⟨Bytes.ofNatLE r.width (r.pack (r.decode bs)), Bytes.length_ofNatLE .., rfl, fun i => ?_⟩
  rw [Bytes.leNat_ofNatLE, Nat.mod_eq_of_lt (l.pack_lt _), l.testBit_pack_decode]

end BitLayout
end RfidReader
