import Mathlib.Logic.Function.Basic
import Mathlib.Order.Bounds.Basic
import Mathlib.Tactic.IntervalCases
import RfidReader.Proofs.Calibration.DetectorReading

/-!
# RfidReader.Proofs.Calibration.DetectorPriority

Which detector stands for a power, and with which reading.

The search goes through the settings of one block after the other, highest
block first, and ends at the first setting where the curve brackets the power
with valid readings.  On its way through a block it moves a pair along, to the
setting closest to the power and the one that was closest before; a block that
brackets nothing leaves the reading extrapolated from that pair.  Only when no
block is left are the extrapolated readings compared (`Band.search`).

What it selects can be said without the search, for curves in any order:
`Band.Selects` has one case for a power that is bracketed and three for one
that is not.  Exactly one target is selected, and it is the one that the
search gives (`powerToAdc_selects`).
-/

namespace RfidReader
namespace Calibration

/-- A setting that exists stands for itself. -/
theorem Curve.valueAt_eq_getElem {α : Type} (c : Curve α) {i : ℕ} (hi : i < 31) :
    c.valueAt i = getElem c i hi := by
  have hmin : min i 30 = i := by omega
  simp only [valueAt, hmin]
  rfl

/-! ## Blocks -/

theorem mem_blocks {block : ℕ} : block ∈ blocks ↔ block ≤ 2 := by
  simp only [blocks, List.mem_cons, List.not_mem_nil, or_false]
  omega

/-- The blocks are tried from the highest down. -/
theorem findSome?_blocks_eq_some_iff {α : Type} {f : ℕ → Option α} {x : α} :
    blocks.findSome? f = some x ↔
      ∃ block ≤ 2, f block = some x ∧ ∀ other ≤ 2, block < other → f other = none := by
  constructor
  · intro h
    cases h2 : f 2 with
    | some y =>
        obtain rfl : y = x := by simpa [blocks, h2] using h
        exact ⟨2, le_rfl, h2, fun other hother hlt => by omega⟩
    | none =>
        cases h1 : f 1 with
        | some y =>
            obtain rfl : y = x := by simpa [blocks, h2, h1] using h
            refine ⟨1, by omega, h1, fun other hother hlt => ?_⟩
            obtain rfl : other = 2 := by omega
            exact h2
        | none =>
            refine ⟨0, by omega, by simpa [blocks, h2, h1] using h, fun other hother hlt => ?_⟩
            obtain rfl | rfl : other = 1 ∨ other = 2 := by omega
            · exact h1
            · exact h2
  · rintro ⟨block, hblock, hsome, hnone⟩
    interval_cases block
    · simp [blocks, hsome, hnone 1, hnone 2]
    · simp [blocks, hsome, hnone 2]
    · simp [blocks, hsome]

theorem findSome?_blocks_eq_none_iff {α : Type} {f : ℕ → Option α} :
    blocks.findSome? f = none ↔ ∀ block ≤ 2, f block = none := by
  simp only [List.findSome?_eq_none_iff, mem_blocks]

/-- A block is closest: none is closer, and of those that are as close it is block 0, or else the
highest. -/
structure Closest (distance : ℕ → ℕ) (block : ℕ) : Prop where
  le_two : block ≤ 2
  distance_le : ∀ other ≤ 2, distance block ≤ distance other
  first : ∀ other ≤ 2, distance other = distance block → block = 0 ∨ other ≠ 0 ∧ other ≤ block

/-- Going through the blocks once, from block 0 on, finds the closest one. -/
theorem closest_iff (distance : ℕ → ℕ) (block : ℕ) :
    Closest distance block ↔
      block = blocks.foldl (fun best x => if distance x < distance best then x else best) 0 := by
  simp only [blocks, List.foldl_cons, List.foldl_nil]
  constructor
  · rintro ⟨hblock, hle, hfirst⟩
    have h0 := hle 0 (by omega)
    have h1 := hle 1 (by omega)
    have h2 := hle 2 (by omega)
    have hfirst0 := hfirst 0 (by omega)
    have hfirst2 := hfirst 2 (by omega)
    interval_cases block <;> split_ifs <;> omega
  · rintro rfl
    split_ifs
    all_goals
      refine ⟨by omega, fun other hother => ?_, fun other hother heq => ?_⟩
      all_goals interval_cases other <;> omega

theorem Closest.congr {distance distance' : ℕ → ℕ} {block : ℕ} (h : Closest distance block)
    (heq : ∀ other ≤ 2, distance other = distance' other) : Closest distance' block where
  le_two := h.le_two
  distance_le other hother := by
    rw [← heq _ h.le_two, ← heq _ hother]
    exact h.distance_le other hother
  first other hother := by
    rw [← heq _ h.le_two, ← heq _ hother]
    exact h.first other hother

/-! ## Without a bracket -/

section Unbracketed

variable {range : UInt16 × UInt16} {reading : ℕ → UInt16}

theorem unbracketedTarget_of_below (hbelow : ∀ block ≤ 2, reading block ≤ range.1) :
    unbracketedTarget range reading = { adc := range.1, detector := .lo0 } := by
  simp only [unbracketedTarget, List.all_eq_true, decide_eq_true_eq, mem_blocks]
  rw [if_pos hbelow]

theorem unbracketedTarget_of_above (hbelow : ¬ ∀ block ≤ 2, reading block ≤ range.1)
    (habove : ∀ block ≤ 2, range.2 ≤ reading block) :
    unbracketedTarget range reading = { adc := range.2, detector := .lo2 } := by
  simp only [unbracketedTarget, List.all_eq_true, decide_eq_true_eq, mem_blocks]
  rw [if_neg hbelow, if_pos habove]

theorem unbracketedTarget_of_closest {block : ℕ} (hbelow : ¬ ∀ block ≤ 2, reading block ≤ range.1)
    (habove : ¬ ∀ block ≤ 2, range.2 ≤ reading block)
    (hclosest : Closest (fun block => midpointDistance range (reading block)) block) :
    unbracketedTarget range reading = { adc := reading block, detector := .forward block } := by
  simp only [unbracketedTarget, List.all_eq_true, decide_eq_true_eq, mem_blocks]
  rw [if_neg hbelow, if_neg habove, ← (closest_iff _ _).1 hclosest]

/-- The target without a bracket depends on the readings of the blocks alone. -/
theorem unbracketedTarget_congr {reading' : ℕ → UInt16}
    (h : ∀ block ≤ 2, reading block = reading' block) :
    unbracketedTarget range reading = unbracketedTarget range reading' := by
  have hall (p : UInt16 → Prop) :
      (∀ block ≤ 2, p (reading block)) ↔ ∀ block ≤ 2, p (reading' block) :=
    forall₂_congr fun block hblock => by rw [h block hblock]
  by_cases hbelow : ∀ block ≤ 2, reading block ≤ range.1
  · rw [unbracketedTarget_of_below hbelow,
      unbracketedTarget_of_below ((hall (· ≤ range.1)).1 hbelow)]
  have hbelow' := mt (hall (· ≤ range.1)).2 hbelow
  by_cases habove : ∀ block ≤ 2, range.2 ≤ reading block
  · rw [unbracketedTarget_of_above hbelow habove,
      unbracketedTarget_of_above hbelow' ((hall (range.2 ≤ ·)).1 habove)]
  have habove' := mt (hall (range.2 ≤ ·)).2 habove
  have hclosest := (closest_iff (fun block => midpointDistance range (reading block)) _).2 rfl
  rw [unbracketedTarget_of_closest hbelow habove hclosest,
    unbracketedTarget_of_closest hbelow' habove'
      (hclosest.congr fun block hblock => by rw [h block hblock]),
    h _ hclosest.le_two]

end Unbracketed

/-! ## Searching the curves -/

namespace Band

variable (b : Band) (range : UInt16 × UInt16)

/-- Go on through the settings of a block's curve with the pair that is closest so far.  The
search is left with the pair that brackets the power, as soon as there is one. -/
def scanFrom (block : ℕ) (target : Float32) : List ℕ → ℕ × ℕ → Except (ℕ × ℕ) (ℕ × ℕ)
  | [], pair => .ok pair
  | i :: rest, pair =>
    if b.brackets range block target i then .error (i - 1, i)
    else
      scanFrom block target rest
        (if (target - b.dbm i).abs < (target - b.dbm pair.2).abs then (pair.2, i) else pair)

/-- Go on through the blocks with the readings that were extrapolated so far. -/
def searchFrom (power : ℕ → Float32) (first : ℕ) : List ℕ → (ℕ → UInt16) → AdcTarget
  | [], readings => unbracketedTarget range readings
  | block :: rest, readings =>
    match b.scanFrom range block (power block) (settings (first + 1) lastSetting)
        (first, first + 1) with
    | .error pair => { adc := b.reading block pair (power block), detector := .forward block }
    | .ok pair =>
      searchFrom power first rest
        (Function.update readings block (b.reading block pair (power block)))

/-- Search the blocks' curves, each for the power of its block, from the first setting that was
calibrated. -/
def search (power : ℕ → Float32) (first : ℕ) : AdcTarget :=
  b.searchFrom range power first blocks fun _ => 0

variable {b range} {block first : ℕ} {target : Float32}

theorem scanFrom_eq (rest : List ℕ) (pair : ℕ × ℕ) :
    b.scanFrom range block target rest pair =
      match rest.find? (b.brackets range block target) with
      | some i => .error (i - 1, i)
      | none => .ok (rest.foldl (fun pair i =>
          if (target - b.dbm i).abs < (target - b.dbm pair.2).abs then (pair.2, i) else pair)
          pair) := by
  induction rest generalizing pair with
  | nil => rfl
  | cons i rest ih =>
      unfold scanFrom
      cases hi : b.brackets range block target i with
      | true => rw [if_pos rfl, List.find?_cons_of_pos hi]
      | false => rw [if_neg Bool.false_ne_true, List.find?_cons_of_neg (by simp [hi]), ih]; rfl

/-- What the scan of a block comes to, from the first setting on. -/
theorem searchFrom_cons {power : ℕ → Float32} (rest : List ℕ) (readings : ℕ → UInt16) :
    b.searchFrom range power first (block :: rest) readings =
      match b.bracketed? range block (power block) first with
      | some adc => { adc, detector := .forward block }
      | none => b.searchFrom range power first rest
          (Function.update readings block (b.extrapolated block (power block) first)) := by
  rw [searchFrom, scanFrom_eq, bracketed?]
  cases (settings (first + 1) lastSetting).find? (b.brackets range block (power block)) with
  | some i => rfl
  | none => rfl

/-- The search finds the first block with a bracket, or compares all readings. -/
theorem search_eq (power : ℕ → Float32) :
    b.search range power first =
      (blocks.findSome? fun block => (b.bracketed? range block (power block) first).map
        fun adc => ({ adc, detector := .forward block } : AdcTarget)).getD
      (unbracketedTarget range fun block => b.extrapolated block (power block) first) := by
  simp only [search, blocks, searchFrom_cons, List.findSome?_cons]
  cases b.bracketed? range 2 (power 2) first with
  | some adc => rfl
  | none =>
      cases b.bracketed? range 1 (power 1) first with
      | some adc => rfl
      | none =>
          cases b.bracketed? range 0 (power 0) first with
          | some adc => rfl
          | none =>
              refine unbracketedTarget_congr fun block hblock => ?_
              interval_cases block <;> simp [Function.update]

/-! ## What is selected -/

/-- A block brackets a power at a setting behind the first: the power lies between that setting
and the one before, and the readings of both are valid. -/
structure BracketsAt (b : Band) (range : UInt16 × UInt16) (block : ℕ) (target : Float32)
    (first i : ℕ) : Prop where
  first_lt : first < i
  le_last : i ≤ 29
  dbm_le : b.dbm i ≤ target
  le_dbm : target ≤ b.dbm (i - 1)
  valid_before : range.1 ≤ b.adc block (i - 1) ∧ b.adc block (i - 1) ≤ range.2
  valid_at : range.1 ≤ b.adc block i ∧ b.adc block i ≤ range.2

theorem bracketsAt_iff {i : ℕ} :
    b.BracketsAt range block target first i ↔
      first + 1 ≤ i ∧ i < first + 1 + (lastSetting - (first + 1)) ∧
        b.brackets range block target i = true := by
  simp only [brackets, isValid, Bool.and_eq_true, decide_eq_true_eq, lastSetting]
  constructor
  · rintro ⟨hfirst, hlast, hlow, hhigh, hbefore, hat⟩
    exact ⟨hfirst, by omega, ⟨⟨hlow, hhigh⟩, hbefore⟩, hat⟩
  · rintro ⟨hfirst, hlast, ⟨⟨hlow, hhigh⟩, hbefore⟩, hat⟩
    exact ⟨hfirst, by omega, hlow, hhigh, hbefore, hat⟩

theorem bracketed?_eq_some_iff {adc : UInt16} :
    b.bracketed? range block target first = some adc ↔
      ∃ i, IsLeast {i | b.BracketsAt range block target first i} i ∧
        b.reading block (i - 1, i) target = adc := by
  rw [bracketed?, Option.map_eq_some_iff]
  refine exists_congr fun i => and_congr_left' ?_
  rw [settings, List.find?_range'_eq_some, List.mem_range'_1]
  constructor
  · rintro ⟨hi, ⟨hfirst, hlast⟩, hbefore⟩
    refine ⟨bracketsAt_iff.2 ⟨hfirst, hlast, hi⟩, fun j hj => Nat.le_of_not_lt fun hlt => ?_⟩
    obtain ⟨hfirst', -, hj⟩ := bracketsAt_iff.1 hj
    have hnot := hbefore j hfirst' hlt
    rw [hj] at hnot
    exact Bool.false_ne_true hnot
  · rintro ⟨hi, hleast⟩
    obtain ⟨hfirst, hlast, hbrackets⟩ := bracketsAt_iff.1 hi
    refine ⟨hbrackets, ⟨hfirst, hlast⟩, fun j hfirst' hlt => ?_⟩
    rw [Bool.not_eq_true', ← Bool.not_eq_true]
    exact fun hj => Nat.not_le_of_lt hlt
      (hleast (bracketsAt_iff.2 ⟨hfirst', by omega, hj⟩))

theorem bracketed?_eq_none_iff :
    b.bracketed? range block target first = none ↔
      ∀ i, ¬ b.BracketsAt range block target first i := by
  rw [bracketed?, Option.map_eq_none_iff, settings, List.find?_range'_eq_none]
  refine forall_congr' fun i => ?_
  rw [bracketsAt_iff, Bool.not_eq_true', ← Bool.not_eq_true]
  tauto

/-- What stands for a power, given the power that each block is searched for. -/
inductive Selects (b : Band) (range : UInt16 × UInt16) (power : ℕ → Float32) (first : ℕ) :
    AdcTarget → Prop where
  /-- The highest block that brackets its power, at the first setting where it does. -/
  | bracketed {block i : ℕ} (hblock : block ≤ 2)
      (hi : IsLeast {i | b.BracketsAt range block (power block) first i} i)
      (hhigher : ∀ other ≤ 2, block < other →
        ∀ j, ¬ b.BracketsAt range other (power other) first j) :
      Selects b range power first
        { adc := b.reading block (i - 1, i) (power block), detector := .forward block }
  /-- No block brackets its power, and every reading is at or below the range. -/
  | below (hnone : ∀ block ≤ 2, ∀ j, ¬ b.BracketsAt range block (power block) first j)
      (hbelow : ∀ block ≤ 2, b.extrapolated block (power block) first ≤ range.1) :
      Selects b range power first { adc := range.1, detector := .lo0 }
  /-- No block brackets its power, and every reading is at or above the range, but not at or
  below it. -/
  | above (hnone : ∀ block ≤ 2, ∀ j, ¬ b.BracketsAt range block (power block) first j)
      (hbelow : ¬ ∀ block ≤ 2, b.extrapolated block (power block) first ≤ range.1)
      (habove : ∀ block ≤ 2, range.2 ≤ b.extrapolated block (power block) first) :
      Selects b range power first { adc := range.2, detector := .lo2 }
  /-- No block brackets its power, and the readings are spread: the one closest to the middle of
  the range. -/
  | closest {block : ℕ}
      (hnone : ∀ block ≤ 2, ∀ j, ¬ b.BracketsAt range block (power block) first j)
      (hbelow : ¬ ∀ block ≤ 2, b.extrapolated block (power block) first ≤ range.1)
      (habove : ¬ ∀ block ≤ 2, range.2 ≤ b.extrapolated block (power block) first)
      (hclosest : Closest
        (fun block => midpointDistance range (b.extrapolated block (power block) first)) block) :
      Selects b range power first
        { adc := b.extrapolated block (power block) first, detector := .forward block }

variable {power : ℕ → Float32}

/-- Where no block brackets its power the search compares the extrapolated readings. -/
theorem search_of_not_bracketsAt
    (hnone : ∀ block ≤ 2, ∀ j, ¬ b.BracketsAt range block (power block) first j) :
    b.search range power first =
      unbracketedTarget range fun block => b.extrapolated block (power block) first := by
  rw [search_eq, findSome?_blocks_eq_none_iff.2 fun block hblock => ?_, Option.getD_none]
  rw [bracketed?_eq_none_iff.2 (hnone block hblock), Option.map_none]

/-- What the search gives is selected. -/
theorem selects_search : b.Selects range power first (b.search range power first) := by
  cases hfound : blocks.findSome? fun block =>
      (b.bracketed? range block (power block) first).map
        fun adc => ({ adc, detector := .forward block } : AdcTarget) with
  | some found =>
      obtain ⟨block, hblock, hsome, hhigher⟩ := findSome?_blocks_eq_some_iff.1 hfound
      obtain ⟨adc, hadc, rfl⟩ := Option.map_eq_some_iff.1 hsome
      obtain ⟨i, hi, rfl⟩ := bracketed?_eq_some_iff.1 hadc
      rw [search_eq, hfound, Option.getD_some]
      exact .bracketed hblock hi fun other hother hlt =>
        bracketed?_eq_none_iff.1 (Option.map_eq_none_iff.1 (hhigher other hother hlt))
  | none =>
      have hnone (block : ℕ) (hblock : block ≤ 2) :
          ∀ j, ¬ b.BracketsAt range block (power block) first j :=
        bracketed?_eq_none_iff.1
          (Option.map_eq_none_iff.1 (findSome?_blocks_eq_none_iff.1 hfound block hblock))
      have hclosest := (closest_iff
        (fun block => midpointDistance range (b.extrapolated block (power block) first)) _).2 rfl
      rw [search_of_not_bracketsAt hnone]
      by_cases hbelow : ∀ block ≤ 2, b.extrapolated block (power block) first ≤ range.1
      · rw [unbracketedTarget_of_below hbelow]
        exact .below hnone hbelow
      by_cases habove : ∀ block ≤ 2, range.2 ≤ b.extrapolated block (power block) first
      · rw [unbracketedTarget_of_above hbelow habove]
        exact .above hnone hbelow habove
      · rw [unbracketedTarget_of_closest hbelow habove hclosest]
        exact .closest hnone hbelow habove hclosest

/-- What is selected is what the search gives. -/
theorem Selects.eq_search {selected : AdcTarget} (h : b.Selects range power first selected) :
    selected = b.search range power first := by
  cases h with
  | @bracketed block i hblock hi hhigher =>
      have hfound : blocks.findSome? (fun block =>
          (b.bracketed? range block (power block) first).map
            fun adc => ({ adc, detector := .forward block } : AdcTarget)) =
          some { adc := b.reading block (i - 1, i) (power block), detector := .forward block } := by
        refine findSome?_blocks_eq_some_iff.2 ⟨block, hblock, ?_, fun other hother hlt => ?_⟩
        · rw [bracketed?_eq_some_iff.2 ⟨i, hi, rfl⟩, Option.map_some]
        · rw [bracketed?_eq_none_iff.2 (hhigher other hother hlt), Option.map_none]
      rw [search_eq, hfound, Option.getD_some]
  | below hnone hbelow =>
      rw [search_of_not_bracketsAt hnone, unbracketedTarget_of_below hbelow]
  | above hnone hbelow habove =>
      rw [search_of_not_bracketsAt hnone, unbracketedTarget_of_above hbelow habove]
  | closest hnone hbelow habove hclosest =>
      rw [search_of_not_bracketsAt hnone, unbracketedTarget_of_closest hbelow habove hclosest]

theorem firstPopulated?_eq_some_iff_isLeast {limit : ℕ} (hlimit : limit ≤ 31) :
    b.firstPopulated? limit = some first ↔
      IsLeast {i | i < limit ∧ (b.coarseDbm.valueAt i).isSome} first := by
  have hlength : (b.coarseDbm.toList.take limit).length = limit := by
    rw [List.length_take, Vector.length_toList]
    omega
  have hget (i : ℕ) (hi : i < limit) (hi' : i < (b.coarseDbm.toList.take limit).length) :
      (b.coarseDbm.toList.take limit)[i] = b.coarseDbm.valueAt i := by
    rw [List.getElem_take, Vector.getElem_toList, Curve.valueAt_eq_getElem _ (by omega)]
  rw [firstPopulated?, List.findIdx?_eq_some_iff_getElem]
  constructor
  · rintro ⟨hlt, hsome, hbefore⟩
    rw [hlength] at hlt
    rw [hget first hlt] at hsome
    refine ⟨⟨hlt, hsome⟩, fun j hj => Nat.le_of_not_lt fun hlt' => hbefore j hlt' ?_⟩
    rw [hget j hj.1]
    exact hj.2
  · rintro ⟨⟨hlt, hsome⟩, hleast⟩
    refine ⟨hlength.symm ▸ hlt, ?_, fun j hlt' hj => ?_⟩
    · rw [hget first hlt]
      exact hsome
    · rw [hget j (hlt'.trans hlt)] at hj
      exact Nat.not_le_of_lt hlt' (hleast ⟨hlt'.trans hlt, hj⟩)

/-- The curves of a band start at a setting: of those that can start a pair, it is the first one
that was calibrated. -/
def StartsAt (b : Band) (first : ℕ) : Prop :=
  IsLeast {i | i < 30 ∧ (b.coarseDbm.valueAt i).isSome} first

theorem firstPopulated?_eq_some_iff :
    b.firstPopulated? lastSetting = some first ↔ b.StartsAt first :=
  firstPopulated?_eq_some_iff_isLeast (by decide)

end Band

/-- **Detector priority**: a supported calibration with a setting calibrated below the last has
exactly one target for a power, the one that is selected, whatever order its curves are in; and
the search gives it. -/
theorem powerToAdc_selects (c : Calibration) (hs : c.isSupported = true) (cdbm : Int16)
    (conditions : TxConditions) {first : ℕ}
    (hfirst : (c.params.band conditions.band).StartsAt first) :
    let b := c.params.band conditions.band
    let power block := b.detectorTarget block cdbm conditions
    ∃ target, c.powerToAdc cdbm conditions = some target ∧
      target = b.search c.validRange power first ∧
      ∀ other, b.Selects c.validRange power first other ↔ other = target := by
  intro b power
  refine ⟨b.search c.validRange power first, ?_, rfl, fun other => ⟨fun h => h.eq_search, ?_⟩⟩
  · have hfirst' : b.firstPopulated? lastSetting = some first :=
      Band.firstPopulated?_eq_some_iff.2 hfirst
    simp only [powerToAdc, band?, if_pos hs, Option.map_some]
    rw [hfirst', Band.search_eq]
  · rintro rfl
    exact Band.selects_search

/-- The sample region with the first setting skipped, and 24 dBm at setting 3, which makes its
curve go down and up again. -/
def Sample.uneven : List UInt8 :=
  setCoarse (setCoarse image 226 0 0x437f0000) 226 3 0x41c00000

set_option maxRecDepth 20000 in
/-- On the uneven curve 24.30 dBm is bracketed at the settings 2 and 3 already. -/
theorem powerToAdc_selects_uneven :
    ∃ c ∈ ofBytes? Sample.uneven, c.isSupported = true ∧
      (c.params.band .upperBand).StartsAt 1 ∧
      c.powerToAdc 2430 Sample.conditions = some { adc := 2864, detector := .lo2 } ∧
      (c.params.band .upperBand).Selects c.validRange
        (fun block => (c.params.band .upperBand).detectorTarget block 2430 Sample.conditions) 1
        { adc := 2864, detector := .lo2 } := by
  have h : (ofBytes? Sample.uneven).any (fun c => c.isSupported = true ∧
      (c.params.band .upperBand).firstPopulated? lastSetting = some 1 ∧
      c.powerToAdc 2430 Sample.conditions = some { adc := 2864, detector := .lo2 }) = true := by
    decide +kernel
  simp only [Option.any_eq_true, decide_eq_true_eq, Band.firstPopulated?_eq_some_iff] at h
  obtain ⟨c, hc, hs, hfirst, hadc⟩ := h
  obtain ⟨target, htarget, -, hselects⟩ := powerToAdc_selects c hs 2430 Sample.conditions hfirst
  obtain rfl : { adc := 2864, detector := .lo2 } = target :=
    Option.some.inj (hadc.symm.trans htarget)
  exact ⟨c, hc, hs, hfirst, hadc, (hselects _).2 rfl⟩

end Calibration
end RfidReader
