import RfidReader.Calibration.Checked
import RfidReader.Proofs.Calibration.ReverseFallback
import RfidReader.Register.Map

/-!
# RfidReader.Proofs.Calibration.TableAccess

The searches of the calibration curves never leave their tables.

The settings a search goes through are those of its table less the last ones,
and what it remembers on the way is a setting it has been to or one it started
with.  Every access therefore finds an entry, in curves of any shape, and the
program does what the searches without a look at the tables do.  All that can
stop it is a sum of a detector reading that is checked: the readings that are
worked out for a power are listed (`Band.forwardReadouts`,
`Band.reverseReadouts`), and the program stops exactly if one of them does not
fit (`powerToAdc_eq`, `reversePowerToAdc_eq`).
-/

namespace RfidReader
namespace Calibration

theorem mem_settings {first stop i : ℕ} : i ∈ settings first stop ↔ first ≤ i ∧ i < stop := by
  rw [settings, List.mem_range'_1]
  omega

/-! ## Settings that the searches remember -/

namespace Band

variable {b : Band} {range : UInt16 × UInt16} {block first : ℕ} {target : Float32}

theorem firstPopulated?_lt {limit : ℕ} (h : b.firstPopulated? limit = some first) :
    first < limit ∧ first ≤ 30 := by
  rw [firstPopulated?, List.findIdx?_eq_some_iff_getElem] at h
  obtain ⟨hlt, -⟩ := h
  rw [List.length_take, Vector.length_toList] at hlt
  omega

theorem closestSetting_le (b : Band) (target : Float32) : b.closestSetting target ≤ 30 := by
  unfold closestSetting
  cases hfirst : b.firstPopulated? 31 with
  | none => exact le_rfl
  | some start =>
      have hstart := (firstPopulated?_lt hfirst).2
      simp only
      split_ifs with habove
      · exact hstart
      · cases hfound : (settings start lastSetting).find? fun i =>
            (b.dbm i - target).abs ≤ (b.dbm (i + 1) - target).abs with
        | none => exact le_rfl
        | some i => exact (mem_settings.1 (List.mem_of_find?_eq_some hfound)).2.le

theorem closestPair_le (b : Band) (target : Float32) (hfirst : first < 30) :
    (b.closestPair target first).1 ≤ 30 ∧ (b.closestPair target first).2 ≤ 30 := by
  unfold closestPair
  refine List.foldlRecOn (motive := fun pair : ℕ × ℕ => pair.1 ≤ 30 ∧ pair.2 ≤ 30) _ _
    ⟨hfirst.le, hfirst⟩ fun pair hpair i hi => ?_
  split_ifs with hcloser
  · exact ⟨hpair.2, (mem_settings.1 hi).2.le⟩
  · exact hpair

theorem pairAround_le (b : Band) (target : Float32) (first : ℕ) :
    (b.pairAround target first).1 ≤ 30 ∧ (b.pairAround target first).2 ≤ 30 := by
  unfold pairAround
  cases hfound : (settings first lastSetting).find? fun i =>
      b.dbm (i + 1) ≤ target && target ≤ b.dbm i with
  | none => exact ⟨by decide, by decide⟩
  | some i =>
      have hi : i < 30 := (mem_settings.1 (List.mem_of_find?_eq_some hfound)).2
      exact ⟨hi.le, hi⟩

/-- The pair that the search of a block's curve ends with, and whether it brackets the power. -/
def endPair (b : Band) (range : UInt16 × UInt16) (block : ℕ) (target : Float32) (first : ℕ) :
    (ℕ × ℕ) × Bool :=
  match (settings (first + 1) lastSetting).find? (b.brackets range block target) with
  | some i => ((i - 1, i), true)
  | none => (b.closestPair target first, false)

theorem endPair_le (b : Band) (range : UInt16 × UInt16) (block : ℕ) (target : Float32)
    (hfirst : first < 30) :
    (b.endPair range block target first).1.1 ≤ 30 ∧
      (b.endPair range block target first).1.2 ≤ 30 := by
  unfold endPair
  cases hfound : (settings (first + 1) lastSetting).find? (b.brackets range block target) with
  | none => exact closestPair_le b target hfirst
  | some i =>
      have hi : i < 30 := (mem_settings.1 (List.mem_of_find?_eq_some hfound)).2
      exact ⟨(Nat.sub_le i 1).trans hi.le, hi.le⟩

theorem searchFrom_endPair {power : ℕ → Float32} (rest : List ℕ) (readings : ℕ → UInt16) :
    b.searchFrom range power first (block :: rest) readings =
      if (b.endPair range block (power block) first).2 then
        { adc := b.reading block (b.endPair range block (power block) first).1 (power block)
          detector := .forward block }
      else b.searchFrom range power first rest (Function.update readings block
        (b.reading block (b.endPair range block (power block) first).1 (power block))) := by
  rw [searchFrom_cons, bracketed?, endPair]
  cases (settings (first + 1) lastSetting).find? (b.brackets range block (power block)) with
  | none => rfl
  | some i => rfl

end Band

theorem closestReading_le (b : Band) (target : ℕ → Float32) {first : ℕ} (hfirst : first ≤ 30) :
    (closestReading b target first).1 ≤ 2 ∧ (closestReading b target first).2 ≤ 30 := by
  simp only [closestReading]
  refine List.foldlRecOn (motive := fun best : (ℕ × ℕ) × Float32 => best.1.1 ≤ 2 ∧ best.1.2 ≤ 30)
    _ _ ⟨Nat.zero_le 2, hfirst⟩ fun best hbest candidate hcandidate => ?_
  split_ifs with hcloser
  · obtain ⟨block, hblock, hcandidate⟩ := List.mem_flatMap.1 hcandidate
    obtain ⟨i, hi, rfl⟩ := List.mem_map.1 hcandidate
    have hi : i < 30 := (mem_settings.1 hi).2
    exact ⟨mem_blocks.1 hblock, hi.le⟩
  · exact hbest

/-! ## Attenuations -/

theorem openLoopAtten_le (cdbm : Int16) : (PowerSettings.openLoopAtten cdbm).toNat ≤ 30 := by
  rw [PowerSettings.openLoopAtten, UInt8.toNat_ofNat', PowerSettings.maxAtten]
  omega

theorem coarseAtten_le (c : Calibration) (cdbm : Int16) (conditions : TxConditions) :
    (c.coarseAtten cdbm conditions).toNat ≤ 30 := by
  unfold coarseAtten
  cases c.band? conditions.band with
  | none => exact openLoopAtten_le cdbm
  | some b => exact (Nat.mod_le _ _).trans (b.closestSetting_le _)

theorem txAtten_powerSettings_le (c : Calibration) (cdbm : Int16) (boost : Bool)
    (maxCdbm : Int16) (conditions : TxConditions) :
    (c.powerSettings cdbm boost maxCdbm conditions).txAtten.toNat ≤ 30 := by
  unfold powerSettings
  split_ifs with hsupported hboost
  · exact coarseAtten_le c _ conditions
  · exact coarseAtten_le c _ conditions
  · exact openLoopAtten_le cdbm

/-! ## Readings that are worked out -/

/-- A reading that is worked out: of a block, for a power, on the line through two settings. -/
structure Readout where
  block : ℕ
  pair : ℕ × ℕ
  target : Float32

/-- The sum that a reading is the nearest 16-bit number of. -/
def Readout.sum (b : Band) (r : Readout) : ℤ :=
  (b.adc r.block r.pair.2).toNat + b.readingStep r.block r.pair r.target

namespace Band

/-- The readings that the search of some blocks works out: one for each block, up to the first
that brackets its power. -/
def forwardReadouts (b : Band) (range : UInt16 × UInt16) (power : ℕ → Float32) (first : ℕ) :
    List ℕ → List Readout
  | [] => []
  | block :: rest =>
    ⟨block, (b.endPair range block (power block) first).1, power block⟩ ::
      if (b.endPair range block (power block) first).2 then []
      else forwardReadouts b range power first rest

/-- The reading that the search of some blocks for a reflected power works out: that of the first
block with valid readings around its power. -/
def reverseReadouts (b : Band) (range : UInt16 × UInt16) (power : ℕ → Float32) (first : ℕ) :
    List ℕ → List Readout
  | [] => []
  | block :: rest =>
    if (b.validAround? range block (power block) first).isSome then
      [⟨block, b.pairAround (power block) first, power block⟩]
    else reverseReadouts b range power first rest

end Band

/-- The readings that are worked out for a power. -/
def forwardReadouts (c : Calibration) (cdbm : Int16) (conditions : TxConditions) : List Readout :=
  match c.band? conditions.band with
  | none => []
  | some b =>
    match b.firstPopulated? lastSetting with
    | none => []
    | some first =>
      b.forwardReadouts c.validRange (b.detectorTarget · cdbm conditions) first blocks

/-- The readings that are worked out for a reflected power. -/
def reverseReadouts (c : Calibration) (cdbm : Int16) (conditions : TxConditions) : List Readout :=
  match c.band? conditions.band with
  | none => []
  | some b =>
    match b.firstPopulated? lastSetting with
    | none => []
    | some first =>
      b.reverseReadouts c.validRange (b.detectorTarget · cdbm conditions) first blocks

namespace Checked

/-! ## Loops -/

section Loops

variable {α β : Type}

theorem findM?_eq {p : α → Except Panic Bool} {q : α → Bool} {l : List α}
    (h : ∀ x ∈ l, p x = pure (q x)) : l.findM? p = pure (l.find? q) := by
  induction l with
  | nil => rfl
  | cons x xs ih =>
      rw [List.findM?, h x List.mem_cons_self, pure_bind, List.find?_cons,
        ih fun y hy => h y (List.mem_cons_of_mem _ hy)]
      cases q x <;> rfl

theorem foldlM_eq {f : β → α → Except Panic β} {g : β → α → β} {l : List α}
    (h : ∀ acc, ∀ x ∈ l, f acc x = pure (g acc x)) (init : β) :
    l.foldlM f init = pure (l.foldl g init) := by
  induction l generalizing init with
  | nil => rfl
  | cons x xs ih =>
      rw [List.foldlM_cons, h init x List.mem_cons_self, pure_bind, List.foldl_cons,
        ih fun acc y hy => h acc y (List.mem_cons_of_mem _ hy)]

theorem pure_andM_pure (p q : Bool) : (pure p <&&> pure q : Except Panic Bool) = pure (p && q) := by
  cases p <;> rfl

end Loops

/-! ## Accesses -/

theorem entry_curve {α : Type} (c : Curve α) {i : ℕ} (hi : i ≤ 30) :
    entry c i = pure (c.valueAt i) := by
  rw [entry, dif_pos (Nat.lt_succ_of_le hi), Curve.valueAt_eq_getElem c (Nat.lt_succ_of_le hi)]

theorem entry_block {α : Type} (t : Vector α 3) {block : ℕ} (hblock : block ≤ 2) :
    entry t block = pure (Curve.ofBlock t block) := by
  have hmin : min block 2 = block := by omega
  simp only [entry, dif_pos (Nat.lt_succ_of_le hblock), Curve.ofBlock, hmin]
  rfl

theorem before_eq {i : ℕ} (hi : 0 < i) : before i = pure (i - 1) := if_neg hi.ne'

section Band

variable {b : Band} {range : UInt16 × UInt16} {block first i : ℕ} {target : Float32}

theorem dbm_eq (hi : i ≤ 30) : dbm b i = pure (b.dbm i) := by
  rw [dbm, entry_curve _ hi]
  rfl

theorem adc_eq (hblock : block ≤ 2) (hi : i ≤ 30) : adc b block i = pure (b.adc block i) := by
  rw [adc, entry_block _ hblock, pure_bind, entry_curve _ hi]
  rfl

theorem detectorTarget_eq (cdbm : Int16) (conditions : TxConditions) (hblock : block ≤ 2) :
    detectorTarget b cdbm conditions block = pure (b.detectorTarget block cdbm conditions) := by
  have htemp : tempOffset b block conditions.temperatureAdc =
      pure (b.tempOffset (Curve.ofBlock b.detectorTempSlopes block) conditions.temperatureAdc) := by
    cases conditions.temperatureAdc with
    | none => rfl
    | some t =>
        rw [tempOffset, entry_block _ hblock]
        rfl
  have hshift : detectorShift b block conditions = pure (b.detectorShift block conditions) := by
    rw [detectorShift, entry_block _ hblock]
    rfl
  rw [detectorTarget, htemp, hshift]
  rfl

/-! ## Sums -/

/-- A sum is checked and does not fit in 32 bits. -/
def Overflows (check : Bool) (v : ℤ) : Prop := check = true ∧ (Int32.ofInt v).toInt ≠ v

instance (check : Bool) (v : ℤ) : Decidable (Overflows check v) :=
  inferInstanceAs (Decidable (_ ∧ _))

theorem sum_eq (check : Bool) (v : ℤ) :
    sum check v = if Overflows check v then throw .overflow else pure (Int32.ofInt v).toInt := by
  by_cases hoverflows : Overflows check v
  · rw [if_pos hoverflows]
    exact if_pos (by simpa [Overflows] using hoverflows)
  · rw [if_neg hoverflows]
    exact if_neg (by simpa [Overflows] using hoverflows)

theorem reading_eq (check : Bool) {pair : ℕ × ℕ} (hblock : block ≤ 2) (hpair : pair.1 ≤ 30)
    (hpair' : pair.2 ≤ 30) :
    reading b check block pair target =
      if Overflows check ((⟨block, pair, target⟩ : Readout).sum b) then throw .overflow
      else pure (b.reading block pair target) := by
  simp only [reading, adc_eq hblock hpair, adc_eq hblock hpair', dbm_eq hpair, dbm_eq hpair',
    pure_bind, sum_eq]
  show (if Overflows check ((⟨block, pair, target⟩ : Readout).sum b) then _ else _) >>= _ = _
  split_ifs with hoverflows
  · rfl
  · rfl

/-! ## Coarse attenuation -/

theorem closestSetting_eq (b : Band) (target : Float32) :
    closestSetting b target = pure (b.closestSetting target) := by
  unfold closestSetting Band.closestSetting
  cases hfirst : b.firstPopulated? 31 with
  | none => rfl
  | some start =>
      have hfind := findM?_eq (l := settings start lastSetting)
        (p := fun i => return ((← dbm b i) - target).abs ≤ ((← dbm b (i + 1)) - target).abs)
        (q := fun i => (b.dbm i - target).abs ≤ (b.dbm (i + 1) - target).abs) fun i hi => by
          have hi : i < 30 := (mem_settings.1 hi).2
          rw [dbm_eq hi.le, dbm_eq hi]
          rfl
      simp only [dbm_eq (Band.firstPopulated?_lt hfirst).2, pure_bind, hfind]
      split_ifs with habove
      · rfl
      · rfl

/-! ## Searching a detector curve -/

theorem brackets_eq (hblock : block ≤ 2) (hpos : 0 < i) (hi : i ≤ 30) :
    brackets b range block target i = pure (b.brackets range block target i) := by
  have hi' : i - 1 ≤ 30 := (Nat.sub_le i 1).trans hi
  simp only [brackets, before_eq hpos, dbm_eq hi, dbm_eq hi', adc_eq hblock hi, adc_eq hblock hi',
    pure_bind, pure_andM_pure, Band.brackets, Bool.and_assoc]

theorem scan_eq (hblock : block ≤ 2) {rest : List ℕ} (hrest : ∀ i ∈ rest, 0 < i ∧ i ≤ 30)
    {pair : ℕ × ℕ} (hpair : pair.2 ≤ 30) :
    scan b range block target rest pair =
      pure (match rest.find? (b.brackets range block target) with
        | some i => ((i - 1, i), true)
        | none => (rest.foldl (fun pair i =>
            if (target - b.dbm i).abs < (target - b.dbm pair.2).abs then (pair.2, i) else pair)
            pair, false)) := by
  induction rest generalizing pair with
  | nil => rfl
  | cons i rest ih =>
      obtain ⟨hpos, hi⟩ := hrest i List.mem_cons_self
      have ih {pair : ℕ × ℕ} (hpair : pair.2 ≤ 30) :=
        ih (fun j hj => hrest j (List.mem_cons_of_mem _ hj)) hpair
      rw [scan, brackets_eq hblock hpos hi, pure_bind]
      cases hbrackets : b.brackets range block target i with
      | true =>
          rw [if_pos rfl, before_eq hpos, List.find?_cons_of_pos hbrackets]
          rfl
      | false =>
          rw [if_neg Bool.false_ne_true, List.find?_cons_of_neg (by simp [hbrackets]),
            List.foldl_cons, dbm_eq hi, pure_bind, dbm_eq hpair, pure_bind]
          split_ifs with hcloser
          · exact ih hi
          · exact ih hpair

theorem scan_settings (hblock : block ≤ 2) (hfirst : first < 30) :
    scan b range block target (settings (first + 1) lastSetting) (first, first + 1) =
      pure (b.endPair range block target first) := by
  have hrest : ∀ i ∈ settings (first + 1) lastSetting, 0 < i ∧ i ≤ 30 := fun i hi => by
    obtain ⟨hi, hi'⟩ := mem_settings.1 hi
    exact ⟨by omega, hi'.le⟩
  exact scan_eq hblock hrest hfirst

/-- The search gives its target unless one of the readings that it works out does not fit. -/
theorem search_eq (check : Bool) {run : ℕ → Except Panic Float32} {power : ℕ → Float32}
    (hpower : ∀ block ≤ 2, run block = pure (power block)) (hfirst : first < 30) {rest : List ℕ}
    (hrest : ∀ block ∈ rest, block ≤ 2) (readings : ℕ → UInt16) :
    search b check range run first rest readings =
      if ∃ r ∈ b.forwardReadouts range power first rest, Overflows check (r.sum b) then
        throw .overflow
      else pure (b.searchFrom range power first rest readings) := by
  induction rest generalizing readings with
  | nil =>
      rw [if_neg (by simp [Band.forwardReadouts])]
      rfl
  | cons block rest ih =>
      have hblock := hrest block List.mem_cons_self
      have ih := ih fun other hother => hrest other (List.mem_cons_of_mem _ hother)
      obtain ⟨hpair, hpair'⟩ := b.endPair_le range block (power block) hfirst
      rw [search, hpower block hblock, pure_bind, scan_settings hblock hfirst, pure_bind,
        Band.searchFrom_endPair, Band.forwardReadouts]
      simp only [List.exists_mem_cons_iff]
      generalize b.endPair range block (power block) first = found at hpair hpair' ⊢
      obtain ⟨pair, bracketed⟩ := found
      simp only [reading_eq check hblock hpair hpair']
      by_cases hoverflows : Overflows check ((⟨block, pair, power block⟩ : Readout).sum b)
      · rw [if_pos hoverflows, if_pos (.inl hoverflows)]
        rfl
      · rw [if_neg hoverflows, pure_bind]
        cases bracketed with
        | true => simp [hoverflows]
        | false =>
            have hupdate (reading : UInt16) :
                (fun other => if other = block then reading else readings other) =
                  Function.update readings block reading :=
              funext fun other => (Function.update_apply _ _ _ _).symm
            simp only [hoverflows, false_or, Bool.false_eq_true, if_false, ih, hupdate]

/-! ## Searching for a reflected power -/

theorem pairAround_eq (b : Band) (target : Float32) (first : ℕ) :
    pairAround b target first = pure (b.pairAround target first) := by
  rw [pairAround, findM?_eq (q := fun i => b.dbm (i + 1) ≤ target && target ≤ b.dbm i)]
  · rfl
  · intro i hi
    have hi : i < 30 := (mem_settings.1 hi).2
    simp only [dbm_eq hi, dbm_eq hi.le, pure_bind, pure_andM_pure]

/-- Keep a block's setting if its power is closer to what the block is searched for. -/
def keepCloser (b : Band) (power : ℕ → Float32) (block : ℕ) (best : (ℕ × ℕ) × Float32) (i : ℕ) :
    (ℕ × ℕ) × Float32 :=
  if (power block - b.dbm i).abs < best.2 then ((block, i), (power block - b.dbm i).abs) else best

theorem closestOf_eq (power : ℕ → Float32) (best : (ℕ × ℕ) × Float32) :
    closestOf b block (power block) first best =
      pure ((settings first lastSetting).foldl (keepCloser b power block) best) := by
  refine foldlM_eq (fun best i hi => ?_) best
  rw [dbm_eq (mem_settings.1 hi).2.le]
  rfl

theorem closestReading_eq (power : ℕ → Float32) :
    (blocks.foldl (fun best block => (settings first lastSetting).foldl (keepCloser b power block)
      best) ((0, first), Binary32.largest)).1 = closestReading b power first := by
  simp only [closestReading, List.foldl_flatMap, List.foldl_map]
  rfl

/-- The search for a reflected power gives its target, or else the closest setting, unless the
reading that it works out does not fit. -/
theorem reverseSearch_eq (check : Bool) {run : ℕ → Except Panic Float32} {power : ℕ → Float32}
    (hpower : ∀ block ≤ 2, run block = pure (power block)) {rest : List ℕ}
    (hrest : ∀ block ∈ rest, block ≤ 2) (best : (ℕ × ℕ) × Float32) :
    reverseSearch b check range run first rest best =
      if ∃ r ∈ b.reverseReadouts range power first rest, Overflows check (r.sum b) then
        throw .overflow
      else pure (match rest.findSome? fun block =>
          (b.validAround? range block (power block) first).map fun adc =>
            ({ adc, detector := .reverse block } : AdcTarget) with
        | some found => .inl found
        | none => .inr (rest.foldl (fun best block =>
            (settings first lastSetting).foldl (keepCloser b power block) best) best).1) := by
  induction rest generalizing best with
  | nil =>
      rw [if_neg (by simp [Band.reverseReadouts])]
      rfl
  | cons block rest ih =>
      have hblock := hrest block List.mem_cons_self
      have ih := ih fun other hother => hrest other (List.mem_cons_of_mem _ hother)
      obtain ⟨hpair, hpair'⟩ := b.pairAround_le (power block) first
      rw [reverseSearch, hpower block hblock, pure_bind, pairAround_eq, pure_bind,
        closestOf_eq power, pure_bind, adc_eq hblock hpair, pure_bind, adc_eq hblock hpair',
        pure_bind, pure_andM_pure, pure_bind, reading_eq check hblock hpair hpair',
        Band.reverseReadouts, List.findSome?_cons, List.foldl_cons, Band.validAround?]
      cases hvalid : Band.isValid range (b.adc block (b.pairAround (power block) first).1) &&
          Band.isValid range (b.adc block (b.pairAround (power block) first).2) with
      | true =>
          simp only [if_true, Option.isSome_some, List.mem_singleton, exists_eq_left,
            Option.map_some]
          split_ifs with hoverflows
          · rfl
          · rfl
      | false =>
          simp only [Bool.false_eq_true, if_false, Option.isSome_none, Option.map_none, ih]

theorem reverseFallback_eq (cdbm : Int16) (power : ℕ → Float32) (hfirst : first ≤ 30) :
    reverseFallback b range cdbm first (closestReading b power first) =
      pure (Calibration.reverseFallback b range cdbm power first) := by
  obtain ⟨hblock, hsetting⟩ := closestReading_le b power hfirst
  have hlast : dbm b lastSetting = pure (b.dbm lastSetting) := dbm_eq le_rfl
  simp only [reverseFallback, Calibration.reverseFallback, hlast, dbm_eq hfirst,
    entry_block _ (Nat.zero_le 2), entry_block _ (le_refl 2), entry_curve _ (Nat.zero_le 30),
    adc_eq hblock hsetting, pure_bind]
  split_ifs with hunder hover
  · rw [lowestReading, Band.headD_curve]
    rfl
  · rw [highestReading, Band.headD_curve]
    rfl
  · rfl

end Band

/-! ## Powers -/

variable (check : Bool) (c : Calibration) (cdbm : Int16) (conditions : TxConditions)

theorem coarseAtten_eq :
    coarseAtten c cdbm conditions = pure (c.coarseAtten cdbm conditions) := by
  unfold coarseAtten Calibration.coarseAtten
  cases c.band? conditions.band with
  | none => rfl
  | some b =>
      simp only [closestSetting_eq]
      rfl

/-- The target for a power is found unless one of the readings worked out for it does not fit. -/
theorem powerToAdc_eq :
    powerToAdc check c cdbm conditions =
      if ∃ r ∈ c.forwardReadouts cdbm conditions,
          Overflows check (r.sum (c.params.band conditions.band)) then throw .overflow
      else pure (c.powerToAdc cdbm conditions) := by
  unfold powerToAdc Calibration.powerToAdc forwardReadouts band?
  cases c.isSupported with
  | false => simp
  | true =>
      simp only [if_true, Option.map_some]
      generalize c.params.band conditions.band = b
      cases hfirst : b.firstPopulated? lastSetting with
      | none => simp
      | some first =>
          simp only
          rw [search_eq check (fun block hblock => detectorTarget_eq cdbm conditions hblock)
            (Band.firstPopulated?_lt hfirst).1 (fun block hblock => mem_blocks.1 hblock)]
          split_ifs with hoverflows
          · rfl
          · exact congrArg (fun target => Except.ok (some target)) (Band.search_eq _)

/-- The target for a reflected power is found unless the reading worked out for it does not
fit. -/
theorem reversePowerToAdc_eq :
    reversePowerToAdc check c cdbm conditions =
      if ∃ r ∈ c.reverseReadouts cdbm conditions,
          Overflows check (r.sum (c.params.band conditions.band)) then throw .overflow
      else pure (c.reversePowerToAdc cdbm conditions) := by
  unfold reversePowerToAdc Calibration.reversePowerToAdc reverseReadouts band?
  cases c.isSupported with
  | false => simp
  | true =>
      simp only [if_true, Option.map_some]
      generalize c.params.band conditions.band = b
      cases hfirst : b.firstPopulated? lastSetting with
      | none => simp
      | some first =>
          simp only
          rw [reverseSearch_eq check (fun block hblock => detectorTarget_eq cdbm conditions hblock)
            (fun block hblock => mem_blocks.1 hblock), closestReading_eq]
          split_ifs with hoverflows
          · rfl
          · rw [pure_bind]
            cases blocks.findSome? fun block =>
                (b.validAround? c.validRange block (b.detectorTarget block cdbm conditions)
                  first).map fun adc => ({ adc, detector := .reverse block } : AdcTarget) with
            | some found => rfl
            | none =>
                simp only [reverseFallback_eq cdbm _ (Band.firstPopulated?_lt hfirst).2]
                rfl

/-! ## Runs that come through -/

section Completes

variable {check : Bool} {α β : Type}

/-- A run gives a result, unless sums are checked and one does not fit. -/
def Completes (check : Bool) (run : Except Panic α) (result : α) : Prop :=
  run = pure result ∨ check = true ∧ run = throw .overflow

theorem Completes.bind {run : Except Panic α} {result : α} {next : α → Except Panic β}
    {result' : β} (h : Completes check run result)
    (h' : Completes check (next result) result') : Completes check (run >>= next) result' := by
  obtain rfl | ⟨hcheck, rfl⟩ := h
  · exact h'
  · exact .inr ⟨hcheck, rfl⟩

theorem completes_of_eq_ite {run : Except Panic α} {result : α} {sums : List Readout} {b : Band}
    (h : run = if ∃ r ∈ sums, Overflows check (r.sum b) then throw .overflow else pure result) :
    Completes check run result := by
  rw [h]
  split_ifs with hoverflows
  · obtain ⟨r, -, hcheck, -⟩ := hoverflows
    exact .inr ⟨hcheck, rfl⟩
  · exact .inl rfl

end Completes

theorem completes_powerToAdc :
    Completes check (powerToAdc check c cdbm conditions) (c.powerToAdc cdbm conditions) :=
  completes_of_eq_ite (powerToAdc_eq check c cdbm conditions)

theorem completes_reversePowerToAdc :
    Completes check (reversePowerToAdc check c cdbm conditions)
      (c.reversePowerToAdc cdbm conditions) :=
  completes_of_eq_ite (reversePowerToAdc_eq check c cdbm conditions)

theorem completes_boostTarget (boosted : Int16) (boost : Bool) :
    Completes check (boostTarget check c cdbm boosted boost conditions)
      (if boost && boosted != cdbm then c.powerToAdc boosted conditions else none) := by
  unfold boostTarget
  split_ifs with hboosted
  · exact completes_powerToAdc check c boosted conditions
  · exact .inl rfl

theorem completes_powerSettings (boost : Bool) (maxCdbm : Int16) :
    Completes check (powerSettings check c cdbm boost maxCdbm conditions)
      (c.powerSettings cdbm boost maxCdbm conditions) := by
  unfold powerSettings Calibration.powerSettings
  by_cases hsupported : c.isSupported = true
  · rw [if_pos hsupported, if_pos hsupported]
    simp only [coarseAtten_eq, pure_bind]
    refine (completes_boostTarget check c cdbm conditions _ boost).bind ?_
    rw [entry_curve _ (coarseAtten_le c _ conditions), pure_bind]
    exact (completes_powerToAdc check c cdbm conditions).bind (.inl rfl)
  · rw [if_neg hsupported, if_neg hsupported]
    exact .inl rfl

end Checked

/-- An attenuation is stored with all of its bits in a register of five. -/
theorem encode_coarseGain {atten : UInt8} (h : atten.toNat ≤ 30) :
    Register.coarseGain.encode (lowFive atten.toNat) = [atten, 0, 0, 0] := by
  have hpack : Register.coarseGain.pack (lowFive atten.toNat) = atten.toNat :=
    Nat.mod_eq_of_lt (by omega)
  have hdiv : atten.toNat / 256 = 0 := Nat.div_eq_of_lt (by omega)
  rw [Register.encode, hpack]
  simp [Register.coarseGain, Bytes.ofNatLE, hdiv]

/-- **Table accesses**: whatever a calibration holds, the searches for an attenuation, a detector
target and the settings of a ramp read their tables only where these have an entry.  They give the
results that they give without looking, and only a sum that is checked can stop them.  The
attenuations, of an open loop too, are at most 30 and go to the chip unmasked. -/
theorem accesses_in_tables (check : Bool) (c : Calibration) (cdbm maxCdbm : Int16) (boost : Bool)
    (conditions : TxConditions) :
    Checked.coarseAtten c cdbm conditions = pure (c.coarseAtten cdbm conditions) ∧
      Checked.Completes check (Checked.powerToAdc check c cdbm conditions)
        (c.powerToAdc cdbm conditions) ∧
      Checked.Completes check (Checked.reversePowerToAdc check c cdbm conditions)
        (c.reversePowerToAdc cdbm conditions) ∧
      Checked.Completes check (Checked.powerSettings check c cdbm boost maxCdbm conditions)
        (c.powerSettings cdbm boost maxCdbm conditions) ∧
      ∀ atten ∈ [c.coarseAtten cdbm conditions, PowerSettings.openLoopAtten cdbm,
          (c.powerSettings cdbm boost maxCdbm conditions).txAtten],
        atten.toNat ≤ 30 ∧
          Register.coarseGain.encode (lowFive atten.toNat) = [atten, 0, 0, 0] := by
  refine ⟨Checked.coarseAtten_eq c cdbm conditions,
    Checked.completes_powerToAdc check c cdbm conditions,
    Checked.completes_reversePowerToAdc check c cdbm conditions,
    Checked.completes_powerSettings check c cdbm conditions boost maxCdbm, fun atten hatten => ?_⟩
  have hle : atten.toNat ≤ 30 := by
    simp only [List.mem_cons, List.not_mem_nil, or_false] at hatten
    obtain rfl | rfl | rfl := hatten
    · exact coarseAtten_le c cdbm conditions
    · exact openLoopAtten_le cdbm
    · exact txAtten_powerSettings_le c cdbm boost maxCdbm conditions
  exact ⟨hle, encode_coarseGain hle⟩

end Calibration
end RfidReader
