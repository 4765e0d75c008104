import RfidReader.Proofs.Binary32.Order
import RfidReader.Proofs.Calibration.Layout
import RfidReader.Proofs.Calibration.TableAccess
import RfidReader.Proofs.Calibration.TableChanges

/-!
# RfidReader.Proofs.Calibration.CoarseAttenuation

Which attenuation is picked for a power.

The search goes from the first calibrated setting to the first one that is not
further from the power than the next.  Up to there distances only shrink, and
a skipped setting is further away than where the search started, as it sorts
above every power: the search stops in front of it.  What is picked was
calibrated, for curves of any shape (`Band.populated_closestSetting`).

Along a falling curve distances shrink down to the closest setting and grow
from there, so the first descent to end is the only one.  The setting picked
is then the closest, and the stronger of two that are as close; it can only
move to stronger settings as more power is asked for.  Distances are single
precision: this takes that the comparisons of the search come out as they
would without rounding (`Band.ComparesExactly`).
-/

namespace RfidReader
namespace Calibration

open Binary32

/-! ## Closest values of a falling sequence -/

/-- A place from `first` through `last` where a sequence is closest to a value, and the first such
place. -/
structure IsClosest (v : ℕ → ℚ) (t : ℚ) (first last i : ℕ) : Prop where
  first_le : first ≤ i
  le_last : i ≤ last
  dist_le : ∀ j, first ≤ j → j ≤ last → |v i - t| ≤ |v j - t|
  dist_lt : ∀ j, first ≤ j → j < i → |v i - t| < |v j - t|

section Falling

variable {v : ℕ → ℚ} {t t' : ℚ} {first last i i' : ℕ}

theorem lt_of_falling (hfalls : ∀ j, first ≤ j → j < last → v (j + 1) < v j) {j k : ℕ}
    (hj : first ≤ j) (hjk : j < k) (hk : k ≤ last) : v k < v j := by
  induction k, hjk using Nat.le_induction with
  | base => exact hfalls j hj hk
  | succ k hjk ih => exact (hfalls k (by omega) hk).trans (ih (by omega))

/-- The larger of two values is not further from a third if that is not below their middle. -/
theorem dist_le_iff {lo hi : ℚ} (h : lo < hi) : |hi - t| ≤ |lo - t| ↔ lo + hi ≤ 2 * t := by
  rw [← sq_le_sq]
  constructor <;> intro hle <;> nlinarith

/-- Where the first descent of the distances ends, a falling sequence is closest. -/
theorem isClosest_of_descent (hfalls : ∀ j, first ≤ j → j < last → v (j + 1) < v j)
    (hfirst : first ≤ i) (hlast : i ≤ last)
    (hdescent : ∀ j, first ≤ j → j < i → |v (j + 1) - t| < |v j - t|)
    (hstop : i < last → |v i - t| ≤ |v (i + 1) - t|) : IsClosest v t first last i := by
  have hbefore (j : ℕ) (hj : first ≤ j) (hji : j < i) : |v i - t| < |v j - t| :=
    lt_of_falling (v := fun j => |v j - t|) hdescent hj hji le_rfl
  have hafter (j : ℕ) (hij : i < j) (hj : j ≤ last) : |v i - t| ≤ |v j - t| := by
    have hstop := hstop (hij.trans_le hj)
    have hnext : v (i + 1) < v i := hfalls i hfirst (hij.trans_le hj)
    -- The value has been passed: what follows lies below it, further and further away.
    have hpassed : v (i + 1) ≤ t := by linarith [(dist_le_iff hnext).1 hstop]
    have hle : v j ≤ v (i + 1) := by
      obtain rfl | hlt := (Nat.succ_le_of_lt hij).eq_or_lt
      · exact le_rfl
      · exact (lt_of_falling hfalls (by omega) hlt hj).le
    refine hstop.trans ?_
    rw [abs_of_nonpos (by linarith), abs_of_nonpos (by linarith)]
    linarith
  refine ⟨hfirst, hlast, fun j hj hj' => ?_, hbefore⟩
  obtain hlt | rfl | hgt := lt_trichotomy j i
  · exact (hbefore j hj hlt).le
  · exact le_rfl
  · exact hafter j hgt hj'

/-- A larger value is closest to a place no further down. -/
theorem IsClosest.anti (hfalls : ∀ j, first ≤ j → j < last → v (j + 1) < v j)
    (h : IsClosest v t first last i) (h' : IsClosest v t' first last i') (hle : t ≤ t') :
    i' ≤ i := by
  by_contra hlt
  rw [not_le] at hlt
  have hbelow : v i' < v i := lt_of_falling hfalls h.first_le hlt h'.le_last
  have hnear := (dist_le_iff hbelow).1 (h.dist_le i' h'.first_le h'.le_last)
  have hnear' := mt (dist_le_iff hbelow).2 (h'.dist_lt i h.first_le hlt).not_ge
  linarith

end Falling

/-! ## Powers of a calibration -/

/-- Populated powers are below the one that stands for a skipped setting. -/
def Band.Calibrated (b : Band) : Prop :=
  ∀ i p, b.coarseDbm.valueAt i = some p → p < skippedDbm

theorem coarseSetting_lt {stored p : Float32} (h : coarseSetting stored = some p) :
    p < skippedDbm := by
  rw [coarseSetting] at h
  split_ifs at h with hlt
  obtain rfl := Option.some.inj h
  exact hlt

theorem exists_of_bind_eq_ok {ε α β : Type} {x : Except ε α} {f : α → Except ε β} {result : β}
    (h : x >>= f = .ok result) : ∃ a, x = .ok a ∧ f a = .ok result := by
  cases x with
  | error error => contradiction
  | ok a => exact ⟨a, rfl, h⟩

/-- The parameters of a version 5 region are those of an image. -/
theorem exists_ofBytes_of_imageFrom {ε : Type} {wrap : Fault → ε} {source : Source (Except ε)}
    {customerVersion : UInt8} {params : Params}
    (h : imageFrom wrap source = .ok (.v5, customerVersion, params)) :
    ∃ bs, Params.ofBytes bs = .ok params := by
  unfold imageFrom readImage at h
  obtain ⟨header, -, h⟩ := exists_of_bind_eq_ok h
  simp only at h
  split_ifs at h with hversion
  · obtain ⟨bytes, -, h⟩ := exists_of_bind_eq_ok h
    obtain ⟨read, hread, h⟩ := exists_of_bind_eq_ok h
    obtain ⟨-, hrest⟩ := Prod.mk.inj (Except.ok.inj h)
    obtain rfl := (Prod.mk.inj hrest).2
    refine ⟨bytes.toList, ?_⟩
    change (Params.ofBytes bytes.toList).mapError wrap = .ok _ at hread
    cases hparams : Params.ofBytes bytes.toList with
    | error fault =>
        rw [hparams] at hread
        contradiction
    | ok params =>
        rw [hparams] at hread
        exact congrArg _ (Except.ok.inj hread)
  · exact absurd (Prod.mk.inj (Except.ok.inj h)).1 hversion

theorem calibrated_of_ofBytes {bs : List UInt8} {params : Params}
    (h : Params.ofBytes bs = .ok params) (filter : RfFilter) : (params.band filter).Calibrated := by
  obtain ⟨-, hholds⟩ := Params.ofBytes_eq_ok_iff.1 h
  intro i p hp
  have hi : min i 30 < 31 := by omega
  cases filter with
  | lowerBand =>
      have hread := hholds (.lowerBand .coarseDbm) ⟨min i 30, hi⟩
      exact coarseSetting_lt (hread.symm.trans hp)
  | undefined | upperBand =>
      have hread := hholds (.upperBand .coarseDbm) ⟨min i 30, hi⟩
      exact coarseSetting_lt (hread.symm.trans hp)

theorem Reachable.calibrated {ε : Type} {wrap : Fault → ε} {source : Source (Except ε)}
    {c : Calibration} (h : Reachable wrap source c) (hs : c.isSupported = true)
    (filter : RfFilter) : (c.params.band filter).Calibrated := by
  obtain ⟨himage, -⟩ := h.settled
  have hversion : c.version = .v5 := by simpa [isSupported] using hs
  rw [hversion] at himage
  obtain ⟨bs, hbs⟩ := exists_ofBytes_of_imageFrom himage
  exact calibrated_of_ofBytes hbs filter

namespace Band

variable {b : Band} {target : Float32} {first i : ℕ}

/-- A setting was calibrated. -/
def Populated (b : Band) (i : ℕ) : Prop := (b.coarseDbm.valueAt i).isSome

theorem skippedDbm_spec : skippedDbm.isFinite = true ∧ value skippedDbm = 255 := by
  have h : skippedDbm = ofInt 255 := by decide +kernel
  rw [h]
  exact_mod_cast ofInt_spec (n := 255) (by decide)

theorem dbm_of_not_populated (h : ¬ b.Populated i) : b.dbm i = skippedDbm := by
  rw [Populated, Bool.not_eq_true, Option.isSome_eq_false_iff, Option.isNone_iff_eq_none] at h
  rw [dbm, h]
  rfl

theorem Calibrated.dbm_lt (hb : b.Calibrated) (h : b.Populated i) : b.dbm i < skippedDbm := by
  obtain ⟨p, hp⟩ := Option.isSome_iff_exists.1 h
  rw [dbm, hp]
  exact hb i p hp

/-- The powers that the search looks at are numbers. -/
theorem Calibrated.isNaN_dbm (hb : b.Calibrated) (i : ℕ) : (b.dbm i).isNaN = false := by
  by_cases h : b.Populated i
  · exact (isNaN_of_lt (hb.dbm_lt h)).1
  · rw [dbm_of_not_populated h]
    exact (isNaN_of_lt (show (0 : Float32) < skippedDbm by decide +kernel)).2

/-! ## The search -/

/-- How far the power at a setting is from a power, as the search works it out. -/
def distance (b : Band) (target : Float32) (i : ℕ) : Float32 := (b.dbm i - target).abs

/-- The search takes the strongest setting for powers above it, and else ends where the first
descent of the distances does. -/
theorem closestSetting_spec (target : Float32) (hfirst : b.firstPopulated? 31 = some first) :
    (b.dbm first < target → b.closestSetting target = first) ∧
      (¬ b.dbm first < target →
        first ≤ b.closestSetting target ∧ b.closestSetting target ≤ 30 ∧
          (∀ j, first ≤ j → j < b.closestSetting target →
            ¬ b.distance target j ≤ b.distance target (j + 1)) ∧
          (b.closestSetting target < 30 →
            b.distance target (b.closestSetting target) ≤
              b.distance target (b.closestSetting target + 1))) := by
  have hle := (firstPopulated?_lt hfirst).2
  refine ⟨fun habove => by simp [closestSetting, hfirst, habove], fun habove => ?_⟩
  cases hfound : (settings first lastSetting).find? fun i =>
      (b.dbm i - target).abs ≤ (b.dbm (i + 1) - target).abs with
  | none =>
      have hclosest : b.closestSetting target = 30 := by
        simp only [closestSetting, hfirst, if_neg habove, hfound]
        rfl
      rw [settings, List.find?_range'_eq_none] at hfound
      rw [hclosest]
      refine ⟨hle, le_rfl, fun j hj hj' => ?_, fun hlt => absurd hlt (lt_irrefl _)⟩
      simpa [distance] using hfound j hj (by rw [lastSetting]; omega)
  | some i =>
      have hclosest : b.closestSetting target = i := by
        simp only [closestSetting, hfirst, if_neg habove, hfound]
        rfl
      rw [settings, List.find?_range'_eq_some, List.mem_range'_1] at hfound
      obtain ⟨hi, ⟨hfirst', hlast⟩, hbefore⟩ := hfound
      rw [lastSetting] at hlast
      rw [hclosest]
      refine ⟨hfirst', by omega, fun j hj hj' => ?_, fun _ => ?_⟩
      · simpa [distance] using hbefore j hj hj'
      · simpa [distance] using hi

theorem Calibrated.value_distance_lt (hb : b.Calibrated) (ht : target.isFinite = true) {i j : ℕ}
    (h : ¬ b.distance target i ≤ b.distance target j) :
    value (b.distance target j) < value (b.distance target i) := by
  have hnumber (k : ℕ) : (b.distance target k).isNaN = false := by
    rw [distance, isNaN_abs]
    exact isNaN_sub (hb.isNaN_dbm k) ht
  rw [le_iff_value_le (hnumber i) (hnumber j), not_le] at h
  exact h

/-- A skipped setting is no closer than the strongest one, unless that is exceeded. -/
theorem Calibrated.value_distance_le (hb : b.Calibrated) (ht : target.isFinite = true)
    (hfirst : b.Populated first) (habove : ¬ b.dbm first < target) (hi : ¬ b.Populated i) :
    value (b.distance target first) ≤ value (b.distance target i) := by
  obtain ⟨hfinite, hskipped⟩ := skippedDbm_spec
  have hlt := hb.dbm_lt hfirst
  rw [lt_iff_value_lt (hb.isNaN_dbm first) (isNaN_of_isFinite ht), not_lt] at habove
  rw [lt_iff_value_lt (hb.isNaN_dbm first) (isNaN_of_lt hlt).2, hskipped] at hlt
  have htarget := (abs_lt.1 (abs_value_lt ht)).1
  have hfirst' : (b.dbm first).isFinite = true :=
    isFinite_of_abs_lt (hb.isNaN_dbm first) (abs_lt.2 ⟨by linarith, by linarith⟩)
  rw [distance, distance, dbm_of_not_populated hi]
  refine value_le_of_le (abs_sub_le_abs_sub hfirst' hfinite ht ?_)
  rw [hskipped, abs_of_nonneg (by linarith), abs_of_pos (by linarith)]
  linarith

theorem exists_firstPopulated? (hsome : ∃ i ≤ 30, b.Populated i) :
    ∃ first, b.firstPopulated? 31 = some first := by
  obtain ⟨i, hi, hpopulated⟩ := hsome
  have hne : {i | i < 31 ∧ (b.coarseDbm.valueAt i).isSome}.Nonempty :=
    ⟨i, Nat.lt_succ_of_le hi, hpopulated⟩
  exact ⟨_, (firstPopulated?_eq_some_iff_isLeast le_rfl).2
    ⟨Nat.sInf_mem hne, fun j hj => Nat.sInf_le hj⟩⟩

/-- What is picked was calibrated, for curves of any shape. -/
theorem Calibrated.populated_closestSetting (hb : b.Calibrated) (ht : target.isFinite = true)
    (hsome : ∃ i ≤ 30, b.Populated i) : b.Populated (b.closestSetting target) := by
  obtain ⟨first, hfirst⟩ := exists_firstPopulated? hsome
  have hpopulated : b.Populated first :=
    ((firstPopulated?_eq_some_iff_isLeast le_rfl).1 hfirst).1.2
  obtain ⟨habove, hbelow⟩ := b.closestSetting_spec target hfirst
  by_cases hlt : b.dbm first < target
  · rw [habove hlt]
    exact hpopulated
  · obtain ⟨hle, -, hdescent, -⟩ := hbelow hlt
    by_contra hskipped
    have hne : first ≠ b.closestSetting target := fun heq => hskipped (heq ▸ hpopulated)
    have hshrinks := lt_of_falling (v := fun j => value (b.distance target j))
      (fun j hj hj' => hb.value_distance_lt ht (hdescent j hj hj')) le_rfl
      (lt_of_le_of_ne hle hne) le_rfl
    exact absurd hshrinks (not_lt.2 (hb.value_distance_le ht hpopulated hlt hskipped))

/-! ## Falling curves -/

/-- A curve is populated from a setting on, with powers that fall from each setting to the next. -/
structure FallsFrom (b : Band) (first : ℕ) : Prop where
  isLeast : IsLeast {i | i < 31 ∧ b.Populated i} first
  populated : ∀ i, first ≤ i → i ≤ 30 → b.Populated i
  falls : ∀ i, first ≤ i → i < 30 → b.dbm (i + 1) < b.dbm i

/-- Distances of neighbouring settings compare as they would if powers were compared and subtracted
as exact numbers. -/
def ComparesExactly (b : Band) (first : ℕ) (target : Float32) : Prop :=
  ∀ i, first ≤ i → i < 30 →
    (b.distance target i ≤ b.distance target (i + 1) ↔
      |value (b.dbm i) - value target| ≤ |value (b.dbm (i + 1)) - value target|)

/-- They do where no difference has to be rounded. -/
theorem Calibrated.comparesExactly (hb : b.Calibrated) (ht : target.isFinite = true)
    (hexact : ∀ i, first ≤ i → i ≤ 30 →
      value (b.dbm i - target) = value (b.dbm i) - value target) :
    b.ComparesExactly first target := by
  intro i hi hi'
  have hnumber (k : ℕ) : (b.distance target k).isNaN = false := by
    rw [distance, isNaN_abs]
    exact isNaN_sub (hb.isNaN_dbm k) ht
  rw [le_iff_value_le (hnumber i) (hnumber (i + 1)), distance, distance, value_abs, value_abs,
    hexact i hi hi'.le, hexact (i + 1) (by omega) hi']

/-- On a falling curve the setting picked is the closest. -/
theorem FallsFrom.isClosest (h : b.FallsFrom first) (hb : b.Calibrated)
    (ht : target.isFinite = true) (hexact : b.ComparesExactly first target) :
    IsClosest (fun i => value (b.dbm i)) (value target) first 30 (b.closestSetting target) := by
  have hfirst : b.firstPopulated? 31 = some first :=
    (firstPopulated?_eq_some_iff_isLeast le_rfl).2 h.isLeast
  have hfalls (j : ℕ) (hj : first ≤ j) (hj' : j < 30) : value (b.dbm (j + 1)) < value (b.dbm j) :=
    (lt_iff_value_lt (hb.isNaN_dbm (j + 1)) (hb.isNaN_dbm j)).1 (h.falls j hj hj')
  obtain ⟨habove, hbelow⟩ := b.closestSetting_spec target hfirst
  by_cases hlt : b.dbm first < target
  · rw [habove hlt]
    rw [lt_iff_value_lt (hb.isNaN_dbm first) (isNaN_of_isFinite ht)] at hlt
    refine isClosest_of_descent hfalls le_rfl (firstPopulated?_lt hfirst).2
      (fun j hj hj' => by omega) fun hlast => ?_
    exact (dist_le_iff (hfalls first le_rfl hlast)).2 (by linarith [hfalls first le_rfl hlast])
  · obtain ⟨hle, hlast, hdescent, hstop⟩ := hbelow hlt
    refine isClosest_of_descent hfalls hle hlast (fun j hj hj' => ?_) fun hlt' => ?_
    · exact not_le.1 (mt (hexact j hj (by omega)).2 (hdescent j hj hj'))
    · exact (hexact _ hle hlt').1 (hstop hlt')

/-! ## Targets -/

theorem roundedTo_cdbm (cdbm : Int16) :
    (ofInt cdbm.toInt / 100).isFinite = true ∧
      RoundedTo (cdbm.toInt / 100) (ofInt cdbm.toInt / 100) := by
  have hlt := cdbm.toInt_lt
  have hle := cdbm.le_toInt
  have hhundred : (100 : Float32) = ofInt 100 := by decide +kernel
  obtain ⟨hfinite, hvalue⟩ := ofInt_spec (n := 100) (by decide)
  obtain ⟨hfinite', hvalue'⟩ := ofInt_spec (n := cdbm.toInt) (by omega)
  have hround := roundedTo_div hfinite' hfinite (by rw [hvalue]; norm_num)
  rw [hvalue', hvalue, Int.cast_ofNat, ← hhundred] at hround
  refine ⟨isFinite_of_abs_lt hround.isNaN_eq_false ?_, hround⟩
  have hlt' : (cdbm.toInt : ℚ) < 2 ^ 15 := by exact_mod_cast hlt
  have hle' : -(2 ^ 15 : ℚ) ≤ cdbm.toInt := by exact_mod_cast hle
  have hup := hround.value_le (representable_int (n := 512) (by decide)) (by norm_num)
    (by push_cast; linarith)
  have hdown := hround.le_value (representable_int (n := -512) (by decide)) (by norm_num)
    (by push_cast; linarith)
  push_cast at hup hdown
  exact abs_lt.2 ⟨by linarith, by linarith⟩

/-- More power asked for is no less to search for. -/
theorem value_coarseTarget_le {cdbm cdbm' : Int16} (h : cdbm ≤ cdbm') (conditions : TxConditions)
    (ht : (b.coarseTarget cdbm conditions).isFinite = true) :
    value (b.coarseTarget cdbm conditions) ≤ value (b.coarseTarget cdbm' conditions) := by
  obtain ⟨hfinite, hround⟩ := roundedTo_cdbm cdbm
  obtain ⟨hfinite', hround'⟩ := roundedTo_cdbm cdbm'
  have hoffset : (b.coarseOffset conditions).isFinite = true := isFinite_of_sub hfinite ht
  refine value_sub_le_value_sub hfinite hfinite' hoffset ?_
  obtain hlt | heq := (Int16.le_iff_toInt_le.1 h).lt_or_eq
  · refine hround.value_le_value hround' ?_
    have hlt' : (cdbm.toInt : ℚ) < cdbm'.toInt := by exact_mod_cast hlt
    linarith
  · rw [heq]

end Band

/-- **Coarse attenuation**: for a loaded calibration with a setting that was calibrated, a power
whose target is finite gets one that was.  On a curve that falls from the first such setting on it
is the strongest one for targets above that, and else the one closest to the target, the stronger
of two that are as close; and more power never gets more attenuation. -/
theorem coarseAtten_closest {ε : Type} {wrap : Fault → ε} {source : Source (Except ε)}
    {c : Calibration} (h : Reachable wrap source c) (hs : c.isSupported = true)
    (conditions : TxConditions)
    (hsome : ∃ i ≤ 30, (c.params.band conditions.band).Populated i) :
    let b := c.params.band conditions.band
    (∀ cdbm, (b.coarseTarget cdbm conditions).isFinite = true →
      b.Populated (c.coarseAtten cdbm conditions).toNat) ∧
      ∀ first, b.FallsFrom first →
        (∀ cdbm, (b.coarseTarget cdbm conditions).isFinite = true →
          (b.dbm first < b.coarseTarget cdbm conditions →
            (c.coarseAtten cdbm conditions).toNat = first) ∧
          (b.ComparesExactly first (b.coarseTarget cdbm conditions) →
            IsClosest (fun i => value (b.dbm i)) (value (b.coarseTarget cdbm conditions)) first 30
              (c.coarseAtten cdbm conditions).toNat)) ∧
        ∀ cdbm cdbm', cdbm ≤ cdbm' →
          (∀ asked ∈ [cdbm, cdbm'], (b.coarseTarget asked conditions).isFinite = true ∧
            b.ComparesExactly first (b.coarseTarget asked conditions)) →
          (c.coarseAtten cdbm' conditions).toNat ≤ (c.coarseAtten cdbm conditions).toNat := by
  intro b
  have hb : b.Calibrated := h.calibrated hs conditions.band
  have hatten (cdbm : Int16) : (c.coarseAtten cdbm conditions).toNat =
      b.closestSetting (b.coarseTarget cdbm conditions) := by
    simp only [coarseAtten, band?, if_pos hs]
    exact UInt8.toNat_ofNat_of_lt' ((Band.closestSetting_le _ _).trans_lt (by decide))
  simp only [hatten]
  refine ⟨fun cdbm ht => hb.populated_closestSetting ht hsome, fun first hfalls => ⟨?_, ?_⟩⟩
  · intro cdbm ht
    have hfirst : b.firstPopulated? 31 = some first :=
      (Band.firstPopulated?_eq_some_iff_isLeast le_rfl).2 hfalls.isLeast
    exact ⟨(b.closestSetting_spec _ hfirst).1, hfalls.isClosest hb ht⟩
  · intro cdbm cdbm' hle hasked
    obtain ⟨ht, hexact⟩ := hasked cdbm (by simp)
    obtain ⟨ht', hexact'⟩ := hasked cdbm' (by simp)
    refine (hfalls.isClosest hb ht hexact).anti (fun j hj hj' => ?_)
      (hfalls.isClosest hb ht' hexact') (Band.value_coarseTarget_le hle conditions ht)
    exact (lt_iff_value_lt (hb.isNaN_dbm (j + 1)) (hb.isNaN_dbm j)).1 (hfalls.falls j hj hj')

/-- The sample region with the first three settings of the upper band skipped. -/
def Sample.skippedThree : List UInt8 :=
  Bytes.overwrite image 226 (wordBytes (List.replicate 3 skippedDbm))

/-- The power halfway between 26 and 27 dBm. -/
def Sample.halfway : Float32 := ofInt 53 / ofInt 2

theorem Sample.halfway_spec : halfway.isFinite = true ∧ value halfway = 53 / 2 := by
  obtain ⟨hfinite, hvalue⟩ := ofInt_spec (n := 53) (by decide)
  obtain ⟨hfinite', hvalue'⟩ := ofInt_spec (n := 2) (by decide)
  have hround : RoundedTo (53 / 2) halfway := by
    have hdiv := roundedTo_div hfinite hfinite' (by rw [hvalue']; norm_num)
    rwa [hvalue, hvalue', Int.cast_ofNat, Int.cast_ofNat] at hdiv
  have hexact : value halfway = 53 / 2 := hround.value_eq
    ⟨53, -1, by decide, by decide, by norm_num⟩ (by rw [abs_of_pos (by norm_num)]; norm_num)
  refine ⟨isFinite_of_abs_lt hround.isNaN_eq_false ?_, hexact⟩
  rw [hexact, abs_of_pos (by norm_num)]
  norm_num

set_option maxRecDepth 20000 in
/-- With the first three settings skipped, 26.5 dBm is halfway between the settings 4 and 5 of the
sample curve: the stronger one is picked. -/
theorem coarseAtten_closest_tie :
    ∃ c, Reachable id (Source.ofBytes Sample.skippedThree) c ∧ c.isSupported = true ∧
      let b := c.params.band Sample.conditions.band
      (∃ i ≤ 30, b.Populated i) ∧ b.FallsFrom 3 ∧
        b.ComparesExactly 3 (b.coarseTarget 2650 Sample.conditions) ∧
        IsClosest (fun i => value (b.dbm i)) (value (b.coarseTarget 2650 Sample.conditions)) 3 30
          (c.coarseAtten 2650 Sample.conditions).toNat ∧
        c.coarseAtten 2650 Sample.conditions = 4 := by
  have hload : (loadFrom id (Source.ofBytes Sample.skippedThree) .standard {}).toOption.any
      (fun c => c.isSupported = true ∧
        (c.params.band .upperBand).firstPopulated? 31 = some 3 ∧
        (∀ i : ℕ, i < 31 → 3 ≤ i → (c.params.band .upperBand).coarseDbm.valueAt i =
          some (ofInt (31 - (i : ℤ)))) ∧
        (c.params.band .upperBand).coarseTarget 2650 Sample.conditions = Sample.halfway ∧
        c.coarseAtten 2650 Sample.conditions = 4) = true := by
    decide +kernel
  obtain ⟨c, hreachable, hs, hfirst, hcurve, htarget, hatten⟩ := exists_reachable_of_any hload
  have hb := hreachable.calibrated hs .upperBand
  have hpopulated (i : ℕ) (hi : 3 ≤ i) (hi' : i ≤ 30) :
      (c.params.band .upperBand).Populated i := by
    rw [Band.Populated, hcurve i (by omega) hi]
    rfl
  have hdbm (i : ℕ) (hi : 3 ≤ i) (hi' : i ≤ 30) :
      ((c.params.band .upperBand).dbm i).isFinite = true ∧
        value ((c.params.band .upperBand).dbm i) = 31 - i := by
    have hspec := ofInt_spec (n := 31 - (i : ℤ)) (by omega)
    rw [Band.dbm, hcurve i (by omega) hi]
    exact_mod_cast hspec
  obtain ⟨hfinite, hhalf⟩ := Sample.halfway_spec
  have hfalls : (c.params.band .upperBand).FallsFrom 3 := by
    refine ⟨(Band.firstPopulated?_eq_some_iff_isLeast le_rfl).1 hfirst, hpopulated,
      fun i hi hi' => ?_⟩
    rw [lt_iff_value_lt (hb.isNaN_dbm (i + 1)) (hb.isNaN_dbm i), (hdbm i hi hi'.le).2,
      (hdbm (i + 1) (by omega) hi').2]
    push_cast
    linarith
  have hexact : (c.params.band .upperBand).ComparesExactly 3
      ((c.params.band .upperBand).coarseTarget 2650 Sample.conditions) := by
    rw [htarget]
    refine hb.comparesExactly hfinite fun i hi hi' => ?_
    refine (roundedTo_sub (hdbm i hi hi').1 hfinite).value_eq ?_ ?_
    · -- Every setting is a number of halves away.
      rw [(hdbm i hi hi').2, hhalf]
      refine ⟨9 - 2 * i, -1, abs_lt.2 ⟨by omega, by omega⟩, by decide, ?_⟩
      push_cast
      rw [zpow_neg_one]
      ring
    · have hle : (i : ℚ) ≤ 30 := by exact_mod_cast hi'
      have hnonneg : (0 : ℚ) ≤ i := Nat.cast_nonneg i
      rw [(hdbm i hi hi').2, hhalf]
      exact abs_le.2 ⟨by linarith, by linarith⟩
  have hsome : ∃ i ≤ 30, (c.params.band .upperBand).Populated i :=
    ⟨3, by decide, hpopulated 3 le_rfl (by decide)⟩
  obtain ⟨-, hcases⟩ := coarseAtten_closest hreachable hs Sample.conditions hsome
  exact ⟨c, hreachable, hs, hsome, hfalls, hexact,
    ((hcases 3 hfalls).1 2650 (htarget ▸ hfinite)).2 hexact, hatten⟩

end Calibration
end RfidReader
