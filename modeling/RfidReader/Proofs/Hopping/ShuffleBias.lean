import Mathlib.Data.List.Count
import Mathlib.Data.List.Nodup
import Mathlib.Data.List.Permutation
import Mathlib.Data.Nat.Factorial.Basic
import RfidReader.Proofs.Hopping.Shuffle

/-!
# RfidReader.Proofs.Hopping.ShuffleBias

Which hop orders a shuffle gives, and how often.

A deck of `n` entries is shuffled with `n` picks whose ranges shrink from `n`
to 1, so there are as many pick sequences as orders (`length_pickSequences`).
A shuffle is fair if each order comes from one of them.  This one counts the
picks from the front of the deck and not from the place it stands on, and it is
fair for decks of at most two entries only (`arrange_fair_iff`).  From three
entries on, different picks meet in one order (`arrange_one_zero`), and other
orders never occur: whatever the picks are, the order starts with the first or
the last entry of the deck (`head?_arrange`).
-/

namespace RfidReader
namespace Hopping

variable {α ρ : Type}

/-! ## Pick sequences -/

/-- The sequences of picks for a deck of a size: the first pick is below the size, and the range
shrinks by one at each step. -/
def pickSequences : Nat → List (List Nat)
  | 0 => [[]]
  | n + 1 => (List.range (n + 1)).flatMap fun pick => (pickSequences n).map (pick :: ·)

@[simp] theorem mem_pickSequences_zero {picks : List Nat} :
    picks ∈ pickSequences 0 ↔ picks = [] := by
  simp [pickSequences]

@[simp] theorem cons_mem_pickSequences {n pick : Nat} {picks : List Nat} :
    pick :: picks ∈ pickSequences (n + 1) ↔ pick ≤ n ∧ picks ∈ pickSequences n := by
  rw [← Nat.lt_succ_iff]
  simp [pickSequences]

theorem exists_cons_of_mem {n : Nat} {picks : List Nat} (h : picks ∈ pickSequences (n + 1)) :
    ∃ pick rest, picks = pick :: rest ∧ pick ≤ n ∧ rest ∈ pickSequences n := by
  cases picks with
  | nil => simp [pickSequences] at h
  | cons pick rest => exact ⟨pick, rest, rfl, cons_mem_pickSequences.mp h⟩

/-- The picks of a sequence, place by place. -/
theorem mem_pickSequences {n : Nat} {picks : List Nat} :
    picks ∈ pickSequences n ↔
      picks.length = n ∧ ∀ (i pick : Nat), picks[i]? = some pick → pick < n - i := by
  induction n generalizing picks with
  | zero => cases picks <;> simp
  | succ n ih =>
      cases picks with
      | nil => simp [pickSequences]
      | cons pick picks =>
          rw [cons_mem_pickSequences, ih, List.length_cons, Nat.add_right_cancel_iff]
          constructor
          · rintro ⟨hpick, hlength, hrest⟩
            refine ⟨hlength, ?_⟩
            rintro (_ | i) r hr
            · obtain rfl : pick = r := by simpa using hr
              omega
            · have := hrest i r (by simpa using hr)
              omega
          · rintro ⟨hlength, hall⟩
            refine ⟨Nat.le_of_lt_succ (hall 0 pick rfl), hlength, ?_⟩
            intro i r hr
            have := hall (i + 1) r (by simpa using hr)
            omega

/-- There are as many pick sequences as orders. -/
theorem length_pickSequences (n : Nat) : (pickSequences n).length = n.factorial := by
  induction n with
  | zero => rfl
  | succ n ih => simp [pickSequences, ih, Nat.factorial_succ]

theorem pickSequences_ne_nil (n : Nat) : pickSequences n ≠ [] := by
  rw [← List.length_pos_iff, length_pickSequences]
  exact n.factorial_pos

/-- Every source draws one of the pick sequences. -/
theorem drawPicks_mem [RandomSource ρ] (n : Nat) (source : ρ) :
    ((drawPicks n : StateM ρ (List Nat)).run source).1 ∈ pickSequences n := by
  induction n generalizing source with
  | zero => exact mem_pickSequences_zero.mpr rfl
  | succ n ih =>
      refine cons_mem_pickSequences.mpr ⟨Nat.le_of_lt_succ (Nat.mod_lt _ (Nat.succ_pos n)), ?_⟩
      exact ih (RandomSource.next source).2

/-- Every pick sequence is drawn from some source. -/
theorem exists_source {n : Nat} {picks : List Nat} (hn : n ≤ UInt32.size)
    (h : picks ∈ pickSequences n) (numbers : List UInt32) :
    ((drawPicks n : StateM CyclicSource (List Nat)).run
      ⟨numbers, picks.map UInt32.ofNat⟩).1 = picks := by
  induction n generalizing picks with
  | zero =>
      rw [mem_pickSequences_zero.mp h]
      rfl
  | succ n ih =>
      obtain ⟨pick, rest, rfl, hpick, hrest⟩ := exists_cons_of_mem h
      have hmod : (UInt32.ofNat pick).toNat % (n + 1) = pick := by
        rw [UInt32.toNat_ofNat_of_lt' (by omega), Nat.mod_eq_of_lt (by omega)]
      exact congrArg₂ List.cons hmod (ih (by omega) hrest)

/-! ## Exchanging entries -/

/-- Where the entries are after two of them were exchanged. -/
theorem getElem?_swap {deck : List α} {i j : Nat} (hi : i < deck.length) (hj : j < deck.length)
    (k : Nat) :
    (swap deck i j)[k]? = if k = j then deck[i]? else if k = i then deck[j]? else deck[k]? := by
  simp only [swap, List.getElem?_eq_getElem hi, List.getElem?_eq_getElem hj]
  grind

@[simp] theorem length_swap (deck : List α) (i j : Nat) : (swap deck i j).length = deck.length :=
  (swap_perm deck i j).length_eq

@[simp] theorem swap_self (deck : List α) (i : Nat) : swap deck i i = deck := by
  by_cases hi : i < deck.length
  · refine List.ext_getElem? fun k => ?_
    rw [getElem?_swap hi hi]
    grind
  · simp [swap, List.getElem?_eq_none (Nat.le_of_not_lt hi)]

/-- Exchanging two entries and then exchanging them back changes nothing. -/
theorem swap_swap {deck : List α} {i j : Nat} (hi : i < deck.length) (hj : j < deck.length) :
    swap (swap deck i j) j i = deck := by
  refine List.ext_getElem? fun k => ?_
  rw [getElem?_swap (by simpa using hj) (by simpa using hi), getElem?_swap hi hj,
    getElem?_swap hi hj, getElem?_swap hi hj]
  grind

/-! ## Picks that meet -/

/-- Exchanging the first two entries twice gives the order of leaving both in place. -/
theorem arrange_one_zero {deck : List α} (h : 1 < deck.length) (picks : List Nat) :
    arrange (1 :: 0 :: picks) deck = arrange (0 :: 1 :: picks) deck := by
  simp [arrange, arrangeFrom, swap_swap (Nat.lt_trans Nat.zero_lt_one h) h]

/-! ## The front of an order -/

/-- What the last place holds goes to the front with the last pick.  After the first step no pick
reaches the last place any more. -/
theorem head?_arrangeFrom {deck : List α} {index : Nat} {picks : List Nat} (hindex : 0 < index)
    (hlt : index < deck.length) (h : picks ∈ pickSequences (deck.length - index)) :
    (arrangeFrom index picks deck).head? = deck.getLast? := by
  obtain ⟨left, hleft⟩ : ∃ left, deck.length - index = left + 1 :=
    ⟨deck.length - index - 1, by omega⟩
  rw [hleft] at h
  rw [List.head?_eq_getElem?, List.getLast?_eq_getElem?]
  induction left generalizing deck index picks with
  | zero =>
      -- `index` is the last place, and the only pick left is 0.
      obtain ⟨pick, rest, rfl, hpick, hrest⟩ := exists_cons_of_mem h
      rw [mem_pickSequences_zero] at hrest
      obtain rfl : pick = 0 := by omega
      obtain rfl : index = deck.length - 1 := by omega
      rw [hrest, arrangeFrom, arrangeFrom, getElem?_swap hlt (by omega), if_pos rfl]
  | succ left ih =>
      obtain ⟨pick, rest, rfl, hpick, hrest⟩ := exists_cons_of_mem h
      have hlength := length_swap deck index pick
      have hlast : (swap deck index pick)[deck.length - 1]? = deck[deck.length - 1]? := by
        rw [getElem?_swap hlt (by omega), if_neg (by omega), if_neg (by omega)]
      rw [arrangeFrom, ih (Nat.succ_pos index) (by omega) hrest (by omega), hlength, hlast]

/-- **The first of an order** is the last entry of the deck, or its first one if the first pick is
the last place. -/
theorem head?_arrange {deck : List α} {pick : Nat} {picks : List Nat}
    (h : pick :: picks ∈ pickSequences deck.length) :
    (arrange (pick :: picks) deck).head? =
      if pick + 1 = deck.length then deck.head? else deck.getLast? := by
  obtain ⟨n, hn⟩ : ∃ n, deck.length = n + 1 := by
    cases deck with
    | nil => simp at h
    | cons entry rest => exact ⟨rest.length, rfl⟩
  rw [hn, cons_mem_pickSequences] at h
  obtain ⟨hpick, hpicks⟩ := h
  rw [arrange, arrangeFrom]
  cases n with
  | zero =>
      obtain rfl : pick = 0 := by omega
      rw [mem_pickSequences_zero.mp hpicks, swap_self, arrangeFrom, if_pos hn.symm]
  | succ n =>
      have hlength := length_swap deck 0 pick
      have hleft : (swap deck 0 pick).length - 1 = n + 1 := by omega
      rw [head?_arrangeFrom Nat.one_pos (by omega) (hleft ▸ hpicks), List.getLast?_eq_getElem?,
        List.getLast?_eq_getElem?, List.head?_eq_getElem?, hlength,
        getElem?_swap (by omega) (by omega)]
      split_ifs <;> first | rfl | omega

/-- Whatever the source gives, a shuffled deck starts with its first or its last entry. -/
theorem head?_shuffle [RandomSource ρ] (deck : List α) (source : ρ) :
    ((shuffle deck : StateM ρ (List α)).run source).1.head? = deck.head? ∨
      ((shuffle deck : StateM ρ (List α)).run source).1.head? = deck.getLast? := by
  have hdrawn := drawPicks_mem deck.length source
  have hrun : ((shuffle deck : StateM ρ (List α)).run source).1 =
      arrange ((drawPicks deck.length : StateM ρ (List Nat)).run source).1 deck := rfl
  rw [hrun]
  cases hpicks : ((drawPicks deck.length : StateM ρ (List Nat)).run source).1 with
  | nil => exact .inl rfl
  | cons pick picks =>
      rw [hpicks] at hdrawn
      rw [head?_arrange hdrawn]
      split
      · exact .inl rfl
      · exact .inr rfl

/-! ## Which decks are shuffled fairly -/

/-- Different pick sequences lead to different orders. -/
def Distinguishes (deck : List α) : Prop :=
  ∀ picks ∈ pickSequences deck.length, ∀ picks' ∈ pickSequences deck.length,
    arrange picks deck = arrange picks' deck → picks = picks'

/-- Some picks lead to an order. -/
def Reaches (deck order : List α) : Prop :=
  ∃ picks ∈ pickSequences deck.length, arrange picks deck = order

theorem distinguishes_of_length_le {deck : List α} (h : deck.Nodup) (hle : deck.length ≤ 2) :
    Distinguishes deck := by
  match deck, h, hle with
  | [], _, _ => simp [Distinguishes]
  | [a], _, _ => simp [Distinguishes, pickSequences]
  | [a, b], h, _ =>
      have hne : a ≠ b := by simpa using h
      have hpicks : pickSequences 2 = [[0, 0], [1, 0]] := rfl
      have hswapped : arrange [0, 0] [a, b] = [b, a] := rfl
      have hkept : arrange [1, 0] [a, b] = [a, b] := rfl
      simp [Distinguishes, hpicks, hswapped, hkept, hne, hne.symm]

theorem reaches_of_length_le {deck order : List α} (hle : deck.length ≤ 2)
    (horder : order.Perm deck) : Reaches deck order := by
  match deck, hle with
  | [], _ => exact ⟨[], by simp, (List.perm_nil.mp horder).symm⟩
  | [a], _ => exact ⟨[0], by simp, (List.perm_singleton.mp horder).symm⟩
  | [a, b], _ =>
      have hmem : order ∈ [[a, b], [b, a]] := List.mem_permutations'.mpr horder
      rw [List.mem_pair] at hmem
      rcases hmem with rfl | rfl
      · exact ⟨[1, 0], by simp, rfl⟩
      · exact ⟨[0, 0], by simp, rfl⟩

/-- From three entries on, two pick sequences meet. -/
theorem not_distinguishes {deck : List α} (h : 2 < deck.length) : ¬ Distinguishes deck := by
  obtain ⟨n, hn⟩ : ∃ n, deck.length = n + 3 := ⟨deck.length - 3, by omega⟩
  obtain ⟨picks, hpicks⟩ := List.exists_mem_of_ne_nil _ (pickSequences_ne_nil (n + 1))
  intro hdiffer
  have heq := hdiffer (1 :: 0 :: picks) (by simp [hn, hpicks]) (0 :: 1 :: picks)
    (by simp [hn, hpicks]) (arrange_one_zero (by omega) picks)
  simp at heq

/-- From three entries on, no order starts with the second one. -/
theorem not_reaches {a b c : α} {rest order : List α} (h : (a :: b :: c :: rest).Nodup) :
    ¬ Reaches (a :: b :: c :: rest) (b :: order) := by
  rintro ⟨picks, hpicks, horder⟩
  obtain ⟨pick, picks, rfl, -, -⟩ := exists_cons_of_mem hpicks
  have hhead := head?_arrange hpicks
  rw [horder, List.head?_cons] at hhead
  split at hhead
  · simp_all
  · have hmem : b ∈ c :: rest := List.mem_of_getLast? (by simpa using hhead.symm)
    simp_all

/-- The orders that some picks lead to are those a shuffle gives for some source. -/
theorem reaches_iff_exists_source {deck order : List α} (hlength : deck.length ≤ UInt32.size) :
    Reaches deck order ↔ ∃ source : CyclicSource,
      ((shuffle deck : StateM CyclicSource (List α)).run source).1 = order := by
  constructor
  · rintro ⟨picks, hpicks, rfl⟩
    exact ⟨⟨[], picks.map UInt32.ofNat⟩,
      congrArg (arrange · deck) (exists_source hlength hpicks [])⟩
  · rintro ⟨source, rfl⟩
    exact ⟨_, drawPicks_mem deck.length source, rfl⟩

/-- From three different entries on, an order of the deck is never reached. -/
theorem exists_not_reaches {deck : List α} (h : deck.Nodup) (hlt : 2 < deck.length) :
    ∃ order : List α, order.Perm deck ∧ ¬ Reaches deck order := by
  match deck, h, hlt with
  | a :: b :: c :: rest, h, _ => exact ⟨b :: a :: c :: rest, .swap a b (c :: rest), not_reaches h⟩

/-! ## How often an order comes up -/

section Ways

variable [DecidableEq α]

/-- How many pick sequences lead to an order.  Picks drawn independently, each uniformly from its
range, make all pick sequences equally likely. -/
def ways (deck order : List α) : Nat :=
  ((pickSequences deck.length).map (arrange · deck)).count order

/-- The orders of a deck are equally likely. -/
def Uniform (deck : List α) : Prop :=
  ∀ order order' : List α, order.Perm deck → order'.Perm deck → ways deck order = ways deck order'

theorem ways_pos_iff {deck order : List α} : 0 < ways deck order ↔ Reaches deck order := by
  rw [ways, List.count_pos_iff, List.mem_map]
  rfl

theorem nodup_pickSequences (n : Nat) : (pickSequences n).Nodup := by
  induction n with
  | zero => exact List.nodup_singleton []
  | succ n ih =>
      refine List.nodup_flatMap.mpr ⟨fun pick _ => ih.map List.cons_injective, ?_⟩
      refine List.nodup_range.imp fun hne => ?_
      refine List.disjoint_left.mpr fun picks hmem hmem' => ?_
      obtain ⟨rest, -, rfl⟩ := List.mem_map.mp hmem
      obtain ⟨rest', -, heq⟩ := List.mem_map.mp hmem'
      exact hne (List.cons.inj heq).1.symm

theorem ways_eq_one {deck order : List α} (hdiffer : Distinguishes deck)
    (h : Reaches deck order) : ways deck order = 1 := by
  obtain ⟨picks, hpicks, rfl⟩ := h
  refine List.count_eq_one_of_mem ?_ (List.mem_map_of_mem hpicks)
  exact (nodup_pickSequences deck.length).map_on hdiffer

theorem not_uniform {deck order : List α} (horder : order.Perm deck)
    (hunreached : ¬ Reaches deck order) : ¬ Uniform deck := by
  intro huniform
  obtain ⟨picks, hpicks⟩ := List.exists_mem_of_ne_nil _ (pickSequences_ne_nil deck.length)
  have hpos : 0 < ways deck (arrange picks deck) := ways_pos_iff.mpr ⟨picks, hpicks, rfl⟩
  rw [huniform _ order (arrange_perm picks deck) horder] at hpos
  exact hunreached (ways_pos_iff.mp hpos)

/-- **Fair shuffles**: decks of at most two entries are shuffled fairly, and no others.  For any
larger deck different picks lead to the same order, some orders are never reached and the orders
are not equally likely; whatever the picks are, the order starts with the last entry of the deck,
or with its first one if the first pick is the last place. -/
theorem arrange_fair_iff {deck : List α} (h : deck.Nodup) :
    (Distinguishes deck ↔ deck.length ≤ 2) ∧
    ((∀ order : List α, order.Perm deck → Reaches deck order) ↔ deck.length ≤ 2) ∧
    (Uniform deck ↔ deck.length ≤ 2) ∧
    ∀ (pick : Nat) (picks : List Nat), pick :: picks ∈ pickSequences deck.length →
      (arrange (pick :: picks) deck).head? =
        if pick + 1 = deck.length then deck.head? else deck.getLast? := by
  by_cases hle : deck.length ≤ 2
  · have hdiffer := distinguishes_of_length_le h hle
    have hreach : ∀ order : List α, order.Perm deck → Reaches deck order :=
      fun _ => reaches_of_length_le hle
    refine ⟨iff_of_true hdiffer hle, iff_of_true hreach hle, iff_of_true ?_ hle,
      fun _ _ => head?_arrange⟩
    intro order order' horder horder'
    rw [ways_eq_one hdiffer (hreach order horder), ways_eq_one hdiffer (hreach order' horder')]
  · obtain ⟨order, horder, hunreached⟩ := exists_not_reaches h (Nat.lt_of_not_le hle)
    have hdiffer := not_distinguishes (Nat.lt_of_not_le hle)
    refine ⟨iff_of_false hdiffer hle, iff_of_false (fun hall => ?_) hle,
      iff_of_false (not_uniform horder hunreached) hle, fun _ _ => head?_arrange⟩
    exact hunreached (hall order horder)

/-- Three channels: two pick sequences lead to the same order, and none to the plan with its first
two channels exchanged. -/
theorem not_fair_three :
    ¬ Distinguishes ([1, 2, 3] : List UInt16) ∧
    ¬ (∀ order : List UInt16, order.Perm [1, 2, 3] → Reaches [1, 2, 3] order) := by
  constructor
  · intro h
    have hmeet : arrange [0, 1, 0] ([1, 2, 3] : List UInt16) = arrange [1, 0, 0] [1, 2, 3] := rfl
    exact absurd (h [0, 1, 0] (by decide) [1, 0, 0] (by decide) hmeet) (by decide)
  · intro h
    have hreached : Reaches ([1, 2, 3] : List UInt16) [2, 1, 3] := h [2, 1, 3] (by decide)
    revert hreached
    unfold Reaches
    decide

/-- Four channels, shuffled with the picks 1, 2, 1 and 0. -/
theorem arrange_fair_iff_four :
    ([1, 2, 3, 4] : List UInt16).Nodup ∧ ¬ Uniform ([1, 2, 3, 4] : List UInt16) ∧
    [1, 2, 1, 0] ∈ pickSequences 4 ∧
    (arrange [1, 2, 1, 0] ([1, 2, 3, 4] : List UInt16)).head? = some 4 := by
  have hnodup : ([1, 2, 3, 4] : List UInt16).Nodup := by decide
  have hpicks : [1, 2, 1, 0] ∈ pickSequences 4 := by decide
  obtain ⟨-, -, huniform, hhead⟩ := arrange_fair_iff hnodup
  exact ⟨hnodup, fun h => absurd (huniform.mp h) (by decide), hpicks, hhead 1 [2, 1, 0] hpicks⟩

end Ways

end Hopping
end RfidReader
