import RfidReader.Proofs.Calibration.DetectorPriority

/-!
# RfidReader.Proofs.Calibration.ReverseFallback

Reflected powers beyond the curves.

Where no detector has valid readings around a reflected power, a power below
the curves should stand for the lowest valid reading of block 0, and one above
them for the highest valid reading of block 2.  Both are looked for from the
first reading of the curve on, which is not checked itself: it gives way to
readings that are valid and no higher (no lower).  A first reading below the
range, looking for the lowest, therefore never gives way, and neither does one
above the range, looking for the highest.

Hence the reading is the one it should be exactly when the first reading of
the curve is not beyond that end of the range, and is that first reading
otherwise (`reversePowerToAdc_fallback_iff`).
-/

namespace RfidReader
namespace Calibration

/-! ## Looking for an extreme reading -/

section Extreme

variable {α : Type} {r : α → α → Prop} [DecidableRel r] {bound : α}

/-- A seed beyond the bound never gives way. -/
theorem foldl_extreme_of_not (htrans : ∀ {x y z}, r x y → r y z → r x z) (curve : List α)
    {seed : α} (hseed : ¬ r bound seed) :
    curve.foldl (fun best x => if r bound x ∧ r x best then x else best) seed = seed := by
  induction curve with
  | nil => rfl
  | cons y ys ih =>
      rw [List.foldl_cons, if_neg fun h => hseed (htrans h.1 h.2)]
      exact ih

/-- From a seed within the bound the search finds what comes first of all that is within it. -/
theorem foldl_extreme (htrans : ∀ {x y z}, r x y → r y z → r x z) (htotal : ∀ x y, r x y ∨ r y x)
    (curve : List α) {seed : α} (hseed : r bound seed) :
    let best := curve.foldl (fun best x => if r bound x ∧ r x best then x else best) seed
    best ∈ seed :: curve ∧ r bound best ∧ ∀ x ∈ seed :: curve, r bound x → r best x := by
  have hrefl (x : α) : r x x := (htotal x x).elim id id
  induction curve generalizing seed with
  | nil => simpa using ⟨hseed, fun _ => hrefl seed⟩
  | cons y ys ih =>
      by_cases hy : r bound y ∧ r y seed
      · obtain ⟨hmem, hbest, hfirst⟩ := ih hy.1
        simp only [List.foldl_cons, if_pos hy]
        refine ⟨List.mem_cons_of_mem _ hmem, hbest, List.forall_mem_cons.2 ⟨fun _ => ?_, hfirst⟩⟩
        exact htrans (hfirst y List.mem_cons_self hy.1) hy.2
      · obtain ⟨hmem, hbest, hfirst⟩ := ih hseed
        simp only [List.foldl_cons, if_neg hy]
        obtain ⟨hfirst', hrest⟩ := List.forall_mem_cons.1 hfirst
        refine ⟨List.cons_subset_cons _ (List.subset_cons_self _ _) hmem, hbest,
          List.forall_mem_cons.2 ⟨hfirst', List.forall_mem_cons.2 ⟨fun hbound => ?_, hrest⟩⟩⟩
        have hbefore := (htotal y seed).resolve_left fun hlt => hy ⟨hbound, hlt⟩
        exact htrans (hfirst' hseed) hbefore

end Extreme

namespace Band

variable {b : Band} {range : UInt16 × UInt16} {block : ℕ}

/-- The readings of a block that are valid. -/
def validReadings (b : Band) (range : UInt16 × UInt16) (block : ℕ) : Set UInt16 :=
  {adc | (range.1 ≤ adc ∧ adc ≤ range.2) ∧ ∃ i ≤ 30, b.adc block i = adc}

/-- The curve of a block holds its readings at the settings. -/
theorem mem_curve_iff {adc : UInt16} :
    adc ∈ (Curve.ofBlock b.detectorCurves block).toList ↔ ∃ i ≤ 30, b.adc block i = adc := by
  rw [Vector.mem_toList_iff, Vector.mem_iff_getElem]
  constructor
  · rintro ⟨i, hi, rfl⟩
    exact ⟨i, by omega, Curve.valueAt_eq_getElem _ hi⟩
  · rintro ⟨i, hi, rfl⟩
    exact ⟨i, by omega, (Curve.valueAt_eq_getElem _ (by omega)).symm⟩

theorem headD_curve : (Curve.ofBlock b.detectorCurves block).toList.headD 0 = b.adc block 0 := by
  rw [List.headD_eq_head?_getD, List.head?_eq_getElem?, List.getElem?_eq_getElem (by simp)]
  rfl

/-- From a first reading within the bound the search of a curve finds the reading that comes first
of all that are. -/
theorem foldl_curve {r : UInt16 → UInt16 → Prop} [DecidableRel r]
    (htrans : ∀ {x y z}, r x y → r y z → r x z) (htotal : ∀ x y, r x y ∨ r y x) {bound : UInt16}
    (hfirst : r bound (b.adc block 0)) :
    let best := (Curve.ofBlock b.detectorCurves block).toList.foldl
      (fun best x => if r bound x ∧ r x best then x else best) (b.adc block 0)
    (∃ i ≤ 30, b.adc block i = best) ∧ r bound best ∧
      ∀ i ≤ 30, r bound (b.adc block i) → r best (b.adc block i) := by
  obtain ⟨hmem, hbound, hbefore⟩ :=
    foldl_extreme (r := r) htrans htotal (Curve.ofBlock b.detectorCurves block).toList hfirst
  refine ⟨?_, hbound, fun i hi => ?_⟩
  · obtain hseed | hcurve := List.mem_cons.1 hmem
    · exact ⟨0, by omega, hseed.symm⟩
    · exact mem_curve_iff.1 hcurve
  · exact hbefore _ (List.mem_cons_of_mem _ (mem_curve_iff.2 ⟨i, hi, rfl⟩))

/-- A first reading below the range is what the search for the lowest one gives. -/
theorem lowestReading_of_lt (h : b.adc block 0 < range.1) :
    lowestReading range.1 (Curve.ofBlock b.detectorCurves block).toList = b.adc block 0 := by
  simp only [lowestReading, headD_curve, Bool.and_eq_true, decide_eq_true_eq]
  exact foldl_extreme_of_not (r := (· ≤ ·)) UInt16.le_trans _ (UInt16.not_le.2 h)

/-- A first reading above the range is what the search for the highest one gives. -/
theorem highestReading_of_lt (h : range.2 < b.adc block 0) :
    highestReading range.2 (Curve.ofBlock b.detectorCurves block).toList = b.adc block 0 := by
  simp only [highestReading, headD_curve, Bool.and_eq_true, decide_eq_true_eq]
  exact foldl_extreme_of_not (r := fun x y => y ≤ x) (fun hxy hyz => UInt16.le_trans hyz hxy) _
    (UInt16.not_le.2 h)

/-- The lowest valid reading is found if there is any, unless the first reading is below the
range. -/
theorem isLeast_lowestReading_iff (hvalid : (b.validReadings range block).Nonempty) :
    IsLeast (b.validReadings range block)
      (lowestReading range.1 (Curve.ofBlock b.detectorCurves block).toList) ↔
    range.1 ≤ b.adc block 0 := by
  constructor
  · intro hleast
    by_contra hfirst
    rw [lowestReading_of_lt (UInt16.not_le.1 hfirst)] at hleast
    exact hfirst hleast.1.1.1
  · intro hfirst
    simp only [lowestReading, headD_curve, Bool.and_eq_true, decide_eq_true_eq]
    obtain ⟨hmem, hmin, hlowest⟩ :=
      foldl_curve (r := (· ≤ ·)) UInt16.le_trans UInt16.le_total hfirst
    obtain ⟨adc, ⟨hadc, hadc'⟩, i, hi, rfl⟩ := hvalid
    refine ⟨⟨⟨hmin, UInt16.le_trans (hlowest i hi hadc) hadc'⟩, hmem⟩, ?_⟩
    rintro other ⟨⟨hother, -⟩, j, hj, rfl⟩
    exact hlowest j hj hother

/-- The highest valid reading is found if there is any, unless the first reading is above the
range. -/
theorem isGreatest_highestReading_iff (hvalid : (b.validReadings range block).Nonempty) :
    IsGreatest (b.validReadings range block)
      (highestReading range.2 (Curve.ofBlock b.detectorCurves block).toList) ↔
    b.adc block 0 ≤ range.2 := by
  constructor
  · intro hgreatest
    by_contra hfirst
    rw [highestReading_of_lt (UInt16.not_le.1 hfirst)] at hgreatest
    exact hfirst hgreatest.1.1.2
  · intro hfirst
    simp only [highestReading, headD_curve, Bool.and_eq_true, decide_eq_true_eq]
    obtain ⟨hmem, hmax, hhighest⟩ := foldl_curve (r := fun x y => y ≤ x)
      (fun hxy hyz => UInt16.le_trans hyz hxy) (fun x y => UInt16.le_total y x) hfirst
    obtain ⟨adc, ⟨hadc, hadc'⟩, i, hi, rfl⟩ := hvalid
    refine ⟨⟨⟨UInt16.le_trans hadc (hhighest i hi hadc'), hmax⟩, hmem⟩, ?_⟩
    rintro other ⟨⟨-, hother⟩, j, hj, rfl⟩
    exact hhighest j hj hother

end Band

/-! ## The reading for a reflected power -/

/-- No detector block has valid readings around a reflected power. -/
def NoneAround (c : Calibration) (cdbm : Int16) (conditions : TxConditions) (first : ℕ) : Prop :=
  ∀ block ≤ 2, (c.params.band conditions.band).validAround? c.validRange block
    ((c.params.band conditions.band).detectorTarget block cdbm conditions) first = none

instance (c : Calibration) (cdbm : Int16) (conditions : TxConditions) (first : ℕ) :
    Decidable (NoneAround c cdbm conditions first) :=
  inferInstanceAs (Decidable (∀ block ≤ 2, _ = none))

/-- Where no block has valid readings around the power, one of the fallbacks is taken. -/
theorem reversePowerToAdc_of_noneAround {c : Calibration} (hs : c.isSupported = true)
    {cdbm : Int16} {conditions : TxConditions} {first : ℕ}
    (hfirst : (c.params.band conditions.band).StartsAt first)
    (hnone : NoneAround c cdbm conditions first) :
    c.reversePowerToAdc cdbm conditions =
      some (reverseFallback (c.params.band conditions.band) c.validRange cdbm
        (fun block => (c.params.band conditions.band).detectorTarget block cdbm conditions)
        first) := by
  have hfirst' := Band.firstPopulated?_eq_some_iff.2 hfirst
  simp only [reversePowerToAdc, band?, if_pos hs, Option.map_some, hfirst']
  rw [findSome?_blocks_eq_none_iff.2 fun block hblock => ?_, Option.getD_none]
  rw [hnone block hblock, Option.map_none]

/-- **Beyond the curves**: where no block has valid readings around a reflected power below the
curves, a supported calibration has a reading for it.  If any reading of block 0 is valid, it is
the lowest one exactly when the first reading is not below the range, and that first reading
otherwise.  Above the curves the same holds of block 2, the highest one, and a first reading above
the range. -/
theorem reversePowerToAdc_fallback_iff (c : Calibration) (hs : c.isSupported = true)
    (cdbm : Int16) (conditions : TxConditions) {first : ℕ}
    (hfirst : (c.params.band conditions.band).StartsAt first)
    (hnone : NoneAround c cdbm conditions first) :
    let b := c.params.band conditions.band
    (cdbm.toInt < toCdbm (b.dbm 30) → (b.validReadings c.validRange 0).Nonempty →
      ∃ adc, c.reversePowerToAdc cdbm conditions = some { adc, detector := .rx0 } ∧
        (IsLeast (b.validReadings c.validRange 0) adc ↔ c.params.validMinAdc ≤ b.adc 0 0) ∧
        (b.adc 0 0 < c.params.validMinAdc → adc = b.adc 0 0)) ∧
    (toCdbm (b.dbm 30) ≤ cdbm.toInt → toCdbm (b.dbm first) < cdbm.toInt →
      (b.validReadings c.validRange 2).Nonempty →
      ∃ adc, c.reversePowerToAdc cdbm conditions = some { adc, detector := .rx2 } ∧
        (IsGreatest (b.validReadings c.validRange 2) adc ↔ b.adc 2 0 ≤ c.params.validMaxAdc) ∧
        (c.params.validMaxAdc < b.adc 2 0 → adc = b.adc 2 0)) := by
  intro b
  rw [reversePowerToAdc_of_noneAround hs hfirst hnone]
  refine ⟨fun hbelow hvalid => ?_, fun hbelow habove hvalid => ?_⟩
  · refine ⟨_, ?_, Band.isLeast_lowestReading_iff hvalid,
      @Band.lowestReading_of_lt b c.validRange 0⟩
    exact congrArg some (if_pos hbelow)
  · refine ⟨_, ?_, Band.isGreatest_highestReading_iff hvalid,
      @Band.highestReading_of_lt b c.validRange 2⟩
    exact congrArg some ((if_neg (not_lt.2 hbelow)).trans (if_pos habove))

/-- The sample region with valid readings from 1200 through 3500; detector 2 reads more than
that at the first setting. -/
def Sample.saturated : List UInt8 := Bytes.overwrite image 30 [0xb0, 0x04, 0xac, 0x0d]

set_option maxRecDepth 20000 in
/-- For 33 dBm the fallback gives 3600, beyond the range, where 3350 is the highest valid reading
of block 2. -/
theorem not_isGreatest_saturated :
    ∃ c ∈ ofBytes? Sample.saturated, c.isSupported = true ∧
      (c.params.band .upperBand).StartsAt 0 ∧ NoneAround c 3300 Sample.conditions 0 ∧
      toCdbm ((c.params.band .upperBand).dbm 30) ≤ 3300 ∧
      toCdbm ((c.params.band .upperBand).dbm 0) < 3300 ∧
      IsGreatest ((c.params.band .upperBand).validReadings c.validRange 2) 3350 ∧
      c.reversePowerToAdc 3300 Sample.conditions = some { adc := 3600, detector := .rx2 } := by
  have h : (ofBytes? Sample.saturated).any (fun c => c.isSupported = true ∧
      (c.params.band .upperBand).firstPopulated? lastSetting = some 0 ∧
      NoneAround c 3300 Sample.conditions 0 ∧
      toCdbm ((c.params.band .upperBand).dbm 30) ≤ 3300 ∧
      toCdbm ((c.params.band .upperBand).dbm 0) < 3300 ∧
      (c.validRange = (1200, 3500) ∧ (c.params.band .upperBand).adc 2 1 = 3350 ∧
        ∀ i ≤ 30, (c.params.band .upperBand).adc 2 i ≤ 3500 →
          (c.params.band .upperBand).adc 2 i ≤ 3350) ∧
      c.reversePowerToAdc 3300 Sample.conditions = some { adc := 3600, detector := .rx2 }) =
      true := by
    decide +kernel
  simp only [Option.any_eq_true, decide_eq_true_eq, Band.firstPopulated?_eq_some_iff] at h
  obtain ⟨c, hc, hs, hfirst, hnone, hbelow, habove, ⟨hrange, hadc, hhighest⟩, htarget⟩ := h
  refine ⟨c, hc, hs, hfirst, hnone, hbelow, habove, ⟨⟨?_, 1, by decide, hadc⟩, ?_⟩, htarget⟩
  · rw [hrange]
    decide
  · rintro other ⟨hvalid, i, hi, rfl⟩
    rw [hrange] at hvalid
    exact hhighest i hi hvalid.2

set_option maxRecDepth 20000 in
/-- For -3 dBm the fallback gives the lowest valid reading of block 0, at its last setting but
one. -/
theorem reversePowerToAdc_fallback_below :
    ∃ c ∈ ofBytes? Sample.saturated, c.isSupported = true ∧
      (c.params.band .upperBand).StartsAt 0 ∧ NoneAround c (-300) Sample.conditions 0 ∧
      (-300 : Int16).toInt < toCdbm ((c.params.band .upperBand).dbm 30) ∧
      c.reversePowerToAdc (-300) Sample.conditions = some { adc := 1350, detector := .rx0 } ∧
      IsLeast ((c.params.band .upperBand).validReadings c.validRange 0) 1350 := by
  have h : (ofBytes? Sample.saturated).any (fun c => c.isSupported = true ∧
      (c.params.band .upperBand).firstPopulated? lastSetting = some 0 ∧
      NoneAround c (-300) Sample.conditions 0 ∧
      (-300 : Int16).toInt < toCdbm ((c.params.band .upperBand).dbm 30) ∧
      (c.validRange = (1200, 3500) ∧ (c.params.band .upperBand).adc 0 29 = 1350 ∧
        c.params.validMinAdc ≤ (c.params.band .upperBand).adc 0 0) ∧
      c.reversePowerToAdc (-300) Sample.conditions = some { adc := 1350, detector := .rx0 }) =
      true := by
    decide +kernel
  simp only [Option.any_eq_true, decide_eq_true_eq, Band.firstPopulated?_eq_some_iff] at h
  obtain ⟨c, hc, hs, hfirst, hnone, hbelow, ⟨hrange, hadc, hmin⟩, htarget⟩ := h
  have hvalid : (1350 : UInt16) ∈ (c.params.band .upperBand).validReadings c.validRange 0 := by
    refine ⟨?_, 29, by decide, hadc⟩
    rw [hrange]
    decide
  obtain ⟨adc, hadc', hleast, -⟩ := (reversePowerToAdc_fallback_iff c hs (-300) Sample.conditions
    hfirst hnone).1 hbelow ⟨_, hvalid⟩
  obtain rfl : 1350 = adc := by
    rw [htarget] at hadc'
    exact (AdcTarget.mk.inj (Option.some.inj hadc')).1
  exact ⟨c, hc, hs, hfirst, hnone, hbelow, htarget, hleast.2 hmin⟩

end Calibration
end RfidReader
