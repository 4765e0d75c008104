import Mathlib.Data.List.Chain
import RfidReader.Calibration.Basic
import RfidReader.Calibration.Sample

/-!
# RfidReader.Proofs.Calibration.TableChanges

Calibrations whose tables are changed, again and again and not always with
success.

Whether offsets can be built, and which ones, follows from the image and the
tables alone (`Accepts`, `rebuilt`), so what a failed rebuild leaves behind does
not matter to the next one.  A calibration is `Settled` when its offsets are
those of its tables and its tables are accepted.  Loading gives such a
calibration, and a change that is refused gives back the one before: the tables
that come back were accepted, so rebuilding from them succeeds
(`Settled.outcome_setTables`).  Hence the offsets are always those of a fresh
calibration with the same tables (`Reachable.offsets_fresh`).
-/

namespace RfidReader

open Rssi (CalibrationMode Tables)

namespace AnalogOffsets

variable {rssi : Calibration.RssiParams} {tables : Tables} {modes : List CalibrationMode}

/-! ## Offsets of a filter -/

/-- Offsets can be built for a filter's modes: there is room for them, and one of them is known. -/
structure Usable (rssi : Calibration.RssiParams) (tables : Tables)
    (modes : List CalibrationMode) : Prop where
  length_le : modes.length ≤ maxModes
  known : ∃ m ∈ modes, (analog? rssi tables m.mode).isSome

theorem sorted_iff (modes : List CalibrationMode) :
    sorted modes = true ↔ (modes.map (·.blfKhz)).Pairwise (· < ·) := by
  rw [← List.isChain_iff_pairwise]
  induction modes with
  | nil => simp [sorted]
  | cons a rest ih =>
      cases rest with
      | nil => simp [sorted]
      | cons b rest => simp [sorted, ih]

theorem usable_iff : Usable rssi tables modes ↔
    ¬ maxModes < modes.length ∧
      (modes.all fun m => (analog? rssi tables m.mode).isNone) = false := by
  rw [Nat.not_lt, List.all_eq_false]
  simp only [Bool.not_eq_true, Option.isNone_eq_false_iff]
  exact ⟨fun h => ⟨h.length_le, h.known⟩, fun h => ⟨h.1, h.2⟩⟩

@[simp] theorem blfKhz_ofModes : (ofModes rssi tables modes).blfKhz = modes.map (·.blfKhz) := by
  simp [ofModes, blfKhz, Function.comp_def]

@[simp] theorem length_blfKhz (offsets : AnalogOffsets) :
    offsets.blfKhz.length = offsets.values.length := by
  simp [blfKhz, values]

end AnalogOffsets

namespace Calibration

open AnalogOffsets

/-! ## Outcomes of changes -/

namespace Update

variable {α β : Type}

@[simp] theorem outcome_pure (a : α) (c : Calibration) : outcome (pure a) c = (.ok a, c) := rfl

@[simp] theorem outcome_throw (fault : Fault) (c : Calibration) :
    outcome (throw fault : Update α) c = (.error fault, c) := rfl

@[simp] theorem outcome_set (next c : Calibration) : outcome (set next) c = (.ok (), next) := rfl

@[simp] theorem outcome_getThen (f : Calibration → Update α) (c : Calibration) :
    outcome (get >>= f) c = outcome (f c) c := rfl

@[simp] theorem outcome_setThen (next : Calibration) (f : Unit → Update α) (c : Calibration) :
    outcome (set next >>= f) c = outcome (f ()) next := rfl

@[simp] theorem outcome_modifyThen (g : Calibration → Calibration) (f : Unit → Update α)
    (c : Calibration) : outcome (modify g >>= f) c = outcome (f ()) (g c) := rfl

@[simp] theorem outcome_attemptThen (u : Update α) (f : Except Fault α → Update β)
    (c : Calibration) :
    outcome (u.attempt >>= f) c = outcome (f (u.outcome c).1) (u.outcome c).2 := rfl

theorem outcome_bind (u : Update α) (f : α → Update β) (c : Calibration) :
    outcome (u >>= f) c =
      match u.outcome c with
      | (.ok a, c) => outcome (f a) c
      | (.error fault, c) => (.error fault, c) := by
  unfold outcome
  rw [ExceptT.run_bind, StateT.run_bind]
  rcases u.run.run c with ⟨_ | _, _⟩ <;> rfl

theorem outcome_tryCatch (u : Update α) (handler : Fault → Update α) (c : Calibration) :
    outcome (tryCatch u handler) c =
      match u.outcome c with
      | (.ok a, c) => (.ok a, c)
      | (.error fault, c) => outcome (handler fault) c := by
  unfold outcome ExceptT.run StateT.run
  simp only [tryCatch, tryCatchThe, MonadExceptOf.tryCatch, ExceptT.tryCatch, ExceptT.mk, bind,
    StateT.bind]
  cases u c with
  | mk result next => cases result <;> rfl

end Update

open Update

/-- What filling in comes to: the offsets are in place when it shows that no mode is known. -/
theorem outcome_fillOffsets_eq (modes : List CalibrationMode) (missing : Fault)
    (put : AnalogOffsets → Calibration → Calibration) (c : Calibration) :
    (fillOffsets modes missing put).outcome c =
      if maxModes < modes.length then (.error .tooManyCalibrationModes, c)
      else
        (if modes.all fun m => (analog? c.params.rssi c.tables m.mode).isNone then .error missing
          else .ok (), put (ofModes c.params.rssi c.tables modes) c) := by
  unfold fillOffsets
  by_cases hmany : maxModes < modes.length
  · simp [hmany]
  · cases hnone : modes.all fun m => (analog? c.params.rssi c.tables m.mode).isNone <;>
      simp [hmany, hnone, -List.all_eq_false, -List.all_eq_true]

/-- Filling in succeeds exactly for modes that can be used, and puts their offsets in place. -/
theorem outcome_fillOffsets (modes : List CalibrationMode) (missing : Fault)
    (put : AnalogOffsets → Calibration → Calibration) (c : Calibration) :
    (Usable c.params.rssi c.tables modes ∧ (fillOffsets modes missing put).outcome c =
        (.ok (), put (ofModes c.params.rssi c.tables modes) c)) ∨
      (¬ Usable c.params.rssi c.tables modes ∧ ∃ fault,
        (fillOffsets modes missing put).outcome c = (.error fault, c) ∨
          (fillOffsets modes missing put).outcome c =
            (.error fault, put (ofModes c.params.rssi c.tables modes) c)) := by
  rw [usable_iff, outcome_fillOffsets_eq]
  by_cases hmany : maxModes < modes.length
  · simp [hmany]
  · cases hnone : modes.all fun m => (analog? c.params.rssi c.tables m.mode).isNone <;>
      simp [hmany]

/-! ## Rebuilding -/

/-- Offsets can be built from the tables in use. -/
structure Accepts (c : Calibration) : Prop where
  drm_sorted : sorted c.tables.drmModes = true
  other_sorted : sorted c.tables.otherModes = true
  drm_usable : c.isSupported = true → Usable c.params.rssi c.tables c.tables.drmModes
  other_usable : c.isSupported = true → Usable c.params.rssi c.tables c.tables.otherModes

/-- Whether tables are accepted does not depend on the offsets. -/
theorem Accepts.withOffsets {c : Calibration} (h : c.Accepts)
    (drmOffsets otherOffsets : AnalogOffsets) :
    Accepts { c with drmOffsets, otherOffsets } :=
  ⟨h.drm_sorted, h.other_sorted, h.drm_usable, h.other_usable⟩

/-- The offsets that go with some modes: none without a supported image. -/
def offsetsFor (c : Calibration) (modes : List CalibrationMode) : AnalogOffsets :=
  if c.isSupported then ofModes c.params.rssi c.tables modes else []

/-- The calibration with the offsets of its tables. -/
def rebuilt (c : Calibration) : Calibration :=
  { c with
    drmOffsets := c.offsetsFor c.tables.drmModes
    otherOffsets := c.offsetsFor c.tables.otherModes }

/-- Filling in the offsets of both filters, one after the other. -/
theorem outcome_fillBoth (c : Calibration) :
    let fill : Update Unit := do
      fillOffsets c.tables.drmModes .noDrmModes fun drmOffsets c => { c with drmOffsets }
      fillOffsets c.tables.otherModes .noOtherModes fun otherOffsets c => { c with otherOffsets }
    (Usable c.params.rssi c.tables c.tables.drmModes ∧
        Usable c.params.rssi c.tables c.tables.otherModes ∧
        fill.outcome c = (.ok (), { c with
          drmOffsets := ofModes c.params.rssi c.tables c.tables.drmModes
          otherOffsets := ofModes c.params.rssi c.tables c.tables.otherModes })) ∨
      (¬ (Usable c.params.rssi c.tables c.tables.drmModes ∧
          Usable c.params.rssi c.tables c.tables.otherModes) ∧
        ∃ fault drmOffsets otherOffsets,
          fill.outcome c = (.error fault, { c with drmOffsets, otherOffsets })) := by
  simp only [outcome_bind]
  rcases outcome_fillOffsets c.tables.drmModes .noDrmModes
      (fun drmOffsets c => { c with drmOffsets }) c with
    ⟨hdrm, h⟩ | ⟨hdrm, fault, h | h⟩
  · rw [h]
    rcases outcome_fillOffsets c.tables.otherModes .noOtherModes
        (fun otherOffsets c => { c with otherOffsets })
        { c with drmOffsets := ofModes c.params.rssi c.tables c.tables.drmModes } with
      ⟨hother, h⟩ | ⟨hother, fault, h | h⟩
    · exact .inl ⟨hdrm, hother, h⟩
    · exact .inr ⟨fun hboth => hother hboth.2, fault, _, _, h⟩
    · exact .inr ⟨fun hboth => hother hboth.2, fault, _, _, h⟩
  · exact .inr ⟨fun hboth => hdrm hboth.1, fault, _, _, by rw [h]⟩
  · exact .inr ⟨fun hboth => hdrm hboth.1, fault, _, _, by rw [h]⟩

/-- Rebuilding succeeds exactly from tables that are accepted.  Where it fails, nothing but the
offsets has changed. -/
theorem outcome_rebuildOffsets (c : Calibration) :
    (c.Accepts ∧ rebuildOffsets.outcome c = (.ok (), c.rebuilt)) ∨
      (¬ c.Accepts ∧ ∃ fault drmOffsets otherOffsets,
        rebuildOffsets.outcome c = (.error fault, { c with drmOffsets, otherOffsets })) := by
  unfold rebuildOffsets
  rw [outcome_getThen]
  cases hdrm : sorted c.tables.drmModes with
  | false =>
      refine .inr ⟨fun h => ?_, .unsortedDrmModes, c.drmOffsets, c.otherOffsets, rfl⟩
      simp [h.drm_sorted] at hdrm
  | true =>
  cases hother : sorted c.tables.otherModes with
  | false =>
      refine .inr ⟨fun h => ?_, .unsortedOtherModes, c.drmOffsets, c.otherOffsets, rfl⟩
      simp [h.other_sorted] at hother
  | true =>
  cases hsupported : c.isSupported with
  | false =>
      refine .inl ⟨⟨hdrm, hother, ?_, ?_⟩, ?_⟩
      · simp [hsupported]
      · simp [hsupported]
      · simp [rebuilt, offsetsFor, hsupported]
  | true =>
      simp only [Bool.not_true, Bool.false_eq_true, if_false, if_true, outcome_setThen]
      rcases outcome_fillBoth { c with drmOffsets := [], otherOffsets := [] } with
        ⟨husable, husable', h⟩ | ⟨hnot, h⟩
      · refine .inl ⟨⟨hdrm, hother, fun _ => husable, fun _ => husable'⟩, ?_⟩
        simpa [rebuilt, offsetsFor, hsupported] using h
      · exact .inr ⟨fun h => hnot ⟨h.drm_usable hsupported, h.other_usable hsupported⟩, h⟩

/-! ## Settled calibrations -/

/-- The tables are accepted, and the offsets are those that go with them. -/
structure Settled (c : Calibration) : Prop where
  accepts : c.Accepts
  rebuilt_eq : c.rebuilt = c

theorem Accepts.settled_rebuilt {c : Calibration} (h : c.Accepts) : c.rebuilt.Settled :=
  ⟨h.withOffsets _ _, rfl⟩

theorem Settled.drmOffsets_eq {c : Calibration} (h : c.Settled) :
    c.drmOffsets = c.offsetsFor c.tables.drmModes :=
  (congrArg drmOffsets h.rebuilt_eq).symm

theorem Settled.otherOffsets_eq {c : Calibration} (h : c.Settled) :
    c.otherOffsets = c.offsetsFor c.tables.otherModes :=
  (congrArg otherOffsets h.rebuilt_eq).symm

/-- A calibration put together has the offsets of its tables, and is put together exactly if they
are accepted. -/
theorem ofParams_eq_ok_iff {version : CalibrationVersion} {customerVersion : UInt8}
    {params : Params} {tables : Tables} {filter : BasebandFilter} {c : Calibration} :
    ofParams version customerVersion params tables filter = .ok c ↔
      c.Settled ∧ c.version = version ∧ c.customerVersion = customerVersion ∧
        c.params = params ∧ c.tables = tables ∧ c.filter = filter := by
  let fresh : Calibration :=
    { version, customerVersion, params, tables, filter, drmOffsets := [], otherOffsets := [] }
  show (rebuildOffsets.outcome fresh).1.map (fun _ => (rebuildOffsets.outcome fresh).2) = _ ↔ _
  rcases outcome_rebuildOffsets fresh with ⟨haccepts, h⟩ | ⟨hnot, fault, _, _, h⟩
  · rw [h]
    simp only [Except.map, Except.ok.injEq]
    constructor
    · rintro rfl
      exact ⟨haccepts.settled_rebuilt, rfl, rfl, rfl, rfl, rfl⟩
    · rintro ⟨hsettled, rfl, rfl, rfl, rfl, rfl⟩
      exact hsettled.rebuilt_eq
  · rw [h]
    simp only [Except.map, reduceCtorEq, false_iff]
    rintro ⟨hsettled, rfl, rfl, rfl, rfl, rfl⟩
    exact hnot (hsettled.accepts.withOffsets [] [])

/-- **A change of tables**: it goes through exactly for tables that are accepted, and leaves the
calibration as it was otherwise. -/
theorem Settled.outcome_setTables {c : Calibration} (h : c.Settled) (tables : Tables) :
    (({ c with tables } : Calibration).Accepts ∧
        (setTables tables).outcome c = (.ok (), ({ c with tables } : Calibration).rebuilt)) ∨
      ∃ fault, (setTables tables).outcome c = (.error fault, c) := by
  unfold setTables
  simp only [outcome_getThen, outcome_modifyThen, outcome_tryCatch]
  rcases outcome_rebuildOffsets { c with tables } with
    ⟨haccepts, hnext⟩ | ⟨-, fault, drmOffsets, otherOffsets, hnext⟩
  · exact .inl ⟨haccepts, by rw [hnext]⟩
  · refine .inr ⟨fault, ?_⟩
    have hback : rebuildOffsets.outcome { c with drmOffsets, otherOffsets } = (.ok (), c) := by
      rcases outcome_rebuildOffsets { c with drmOffsets, otherOffsets } with
        ⟨-, hback⟩ | ⟨hnot, -⟩
      · exact hback.trans (congrArg _ h.rebuilt_eq)
      · exact absurd (h.accepts.withOffsets _ _) hnot
    simp only [hnext, outcome_attemptThen, hback]
    rfl

/-! ## Loading -/

section Loading

variable {ε : Type} (wrap : Fault → ε) (source : Source (Except ε))

/-- What a region holds that reads alike whenever it is asked.  Its errors are of any type, and
`wrap` says which of them a fault of the host is. -/
def imageFrom : Except ε (CalibrationVersion × UInt8 × Params) :=
  letI : MonadLift (Except Fault) (Except ε) := ⟨(·.mapError wrap)⟩
  readImage source

/-- The calibration loaded from such a region. -/
def loadFrom (tables : Tables) (filter : BasebandFilter) : Except ε Calibration :=
  letI : MonadLift (Except Fault) (Except ε) := ⟨(·.mapError wrap)⟩
  load source tables filter

variable {wrap source}

/-- A calibration is loaded from a region exactly if it has the region's image and is settled. -/
theorem loadFrom_eq_ok_iff {tables : Tables} {filter : BasebandFilter} {c : Calibration} :
    loadFrom wrap source tables filter = .ok c ↔
      imageFrom wrap source = .ok (c.version, c.customerVersion, c.params) ∧ c.Settled ∧
        c.tables = tables ∧ c.filter = filter := by
  have hload : loadFrom wrap source tables filter = imageFrom wrap source >>= fun image =>
      (ofParams image.1 image.2.1 image.2.2 tables filter).mapError wrap := rfl
  rw [hload]
  cases imageFrom wrap source with
  | error error => exact iff_of_false (fun h => nomatch h) fun h => nomatch h.1
  | ok image =>
      obtain ⟨version, customerVersion, params⟩ := image
      have hmap (x : Except Fault Calibration) : x.mapError wrap = .ok c ↔ x = .ok c := by
        cases x <;> simp [Except.mapError]
      show (ofParams version customerVersion params tables filter).mapError wrap = .ok c ↔ _
      rw [hmap, ofParams_eq_ok_iff, Except.ok.injEq, Prod.mk.injEq, Prod.mk.injEq]
      constructor
      · rintro ⟨hsettled, rfl, rfl, rfl, htables, hfilter⟩
        exact ⟨⟨rfl, rfl, rfl⟩, hsettled, htables, hfilter⟩
      · rintro ⟨⟨rfl, rfl, rfl⟩, hsettled, htables, hfilter⟩
        exact ⟨hsettled, rfl, rfl, rfl, htables, hfilter⟩

/-- Calibrations that come of loading a region and changing the tables and the filter from then
on, with success or not. -/
inductive Reachable (wrap : Fault → ε) (source : Source (Except ε)) : Calibration → Prop where
  | loaded {tables : Tables} {filter : BasebandFilter} {c : Calibration}
      (h : loadFrom wrap source tables filter = .ok c) : Reachable wrap source c
  | changed {c : Calibration} (h : Reachable wrap source c) (tables : Tables) :
      Reachable wrap source ((setTables tables).outcome c).2
  | filtered {c : Calibration} (h : Reachable wrap source c) (filter : BasebandFilter) :
      Reachable wrap source (c.setFilter filter)

/-- A load that gives a calibration with a property reaches one. -/
theorem exists_reachable_of_any {tables : Tables} {filter : BasebandFilter}
    {p : Calibration → Prop} [DecidablePred p]
    (h : (loadFrom wrap source tables filter).toOption.any (fun c => p c) = true) :
    ∃ c, Reachable wrap source c ∧ p c := by
  cases hresult : loadFrom wrap source tables filter with
  | error fault => simp [hresult, Except.toOption] at h
  | ok c => exact ⟨c, .loaded hresult, by simpa [hresult, Except.toOption] using h⟩

theorem Settled.setFilter {c : Calibration} (h : c.Settled) (filter : BasebandFilter) :
    (c.setFilter filter).Settled :=
  ⟨⟨h.accepts.drm_sorted, h.accepts.other_sorted, h.accepts.drm_usable, h.accepts.other_usable⟩,
    congrArg (·.setFilter filter) h.rebuilt_eq⟩

/-- Whatever is changed, the image stays and the calibration is settled. -/
theorem Reachable.settled {c : Calibration} (h : Reachable wrap source c) :
    imageFrom wrap source = .ok (c.version, c.customerVersion, c.params) ∧ c.Settled := by
  induction h with
  | loaded h =>
      obtain ⟨himage, hsettled, -⟩ := loadFrom_eq_ok_iff.mp h
      exact ⟨himage, hsettled⟩
  | changed h tables ih =>
      obtain ⟨himage, hsettled⟩ := ih
      rcases hsettled.outcome_setTables tables with ⟨haccepts, hnext⟩ | ⟨fault, hback⟩
      · rw [hnext]
        exact ⟨himage, haccepts.settled_rebuilt⟩
      · rw [hback]
        exact ⟨himage, hsettled⟩
  | filtered h filter ih => exact ⟨ih.1, ih.2.setFilter filter⟩

end Loading

/-- The offsets of a supported calibration have a place for each mode, and there are at most eight
of them by ascending BLF. -/
theorem Settled.offsets {c : Calibration} (h : c.Settled) (hsupported : c.isSupported = true) :
    ∀ offsets ∈ [c.drmOffsets, c.otherOffsets],
      offsets.blfKhz.length = offsets.values.length ∧ offsets.blfKhz.length ≤ maxModes ∧
        offsets.blfKhz.Pairwise (· < ·) := by
  have hcolumns {modes : List CalibrationMode} (hsorted : sorted modes = true)
      (husable : Usable c.params.rssi c.tables modes) :
      (c.offsetsFor modes).blfKhz.length ≤ maxModes ∧
        (c.offsetsFor modes).blfKhz.Pairwise (· < ·) := by
    simpa [offsetsFor, hsupported, husable.length_le] using (sorted_iff modes).mp hsorted
  intro offsets hoffsets
  refine ⟨length_blfKhz offsets, ?_⟩
  rcases List.mem_pair.mp hoffsets with rfl | rfl
  · rw [h.drmOffsets_eq]
    exact hcolumns h.accepts.drm_sorted (h.accepts.drm_usable hsupported)
  · rw [h.otherOffsets_eq]
    exact hcolumns h.accepts.other_sorted (h.accepts.other_usable hsupported)

/-- **Changes of tables**: however a calibration came about, its offsets are those that loading
the same region afresh gives with the tables in use; for a supported one they are in columns of
one length, at most eight, by ascending BLF; and a change of tables that fails changes nothing at
all. -/
theorem Reachable.offsets_fresh {ε : Type} {wrap : Fault → ε} {source : Source (Except ε)}
    {c : Calibration} (h : Reachable wrap source c) :
    (∀ filter, loadFrom wrap source c.tables filter = .ok (c.setFilter filter)) ∧
      (c.isSupported = true → ∀ offsets ∈ [c.drmOffsets, c.otherOffsets],
        offsets.blfKhz.length = offsets.values.length ∧ offsets.blfKhz.length ≤ maxModes ∧
          offsets.blfKhz.Pairwise (· < ·)) ∧
      ∀ tables fault after, (setTables tables).outcome c = (.error fault, after) → after = c := by
  obtain ⟨himage, hsettled⟩ := h.settled
  refine ⟨fun filter => ?_, hsettled.offsets, fun tables fault after hfails => ?_⟩
  · exact loadFrom_eq_ok_iff.mpr ⟨himage, hsettled.setFilter filter, rfl, rfl⟩
  · rcases hsettled.outcome_setTables tables with ⟨-, hnext⟩ | ⟨fault', hback⟩
    · rw [hnext] at hfails
      exact nomatch (Prod.mk.inj hfails).1
    · rw [hback] at hfails
      exact (Prod.mk.inj hfails).2.symm

/-- Tables whose other modes are all unknown: the offsets of the dense reader modes are in place
when that shows. -/
def Sample.unknownModes : Tables := { Tables.standard with otherModes := [⟨7, 250⟩] }

set_option maxRecDepth 20000 in
/-- The sample calibration refuses tables whose other modes are all unknown, and is as before. -/
theorem Reachable.offsets_fresh_refused :
    ∃ c, Reachable id (Source.ofBytes Sample.image) c ∧ c.isSupported = true ∧
      (setTables Sample.unknownModes).outcome c = (.error .noOtherModes, c) ∧
      loadFrom id (Source.ofBytes Sample.image) c.tables {} = .ok (c.setFilter {}) := by
  have hload : (loadFrom id (Source.ofBytes Sample.image) .standard {}).toOption.any (fun c =>
      c.isSupported ∧ ((setTables Sample.unknownModes).outcome c).1 = .error .noOtherModes)
        = true := by
    decide +kernel
  simp only [Option.any_eq_true, decide_eq_true_eq] at hload
  obtain ⟨c, hc, hsupported, hrefused⟩ := hload
  have hloaded : loadFrom id (Source.ofBytes Sample.image) .standard {} = .ok c := by
    cases h : loadFrom id (Source.ofBytes Sample.image) .standard {} <;>
      simp_all [Except.toOption]
  have hreachable : Reachable id (Source.ofBytes Sample.image) c := .loaded hloaded
  obtain ⟨hfresh, -, hback⟩ := hreachable.offsets_fresh
  exact ⟨c, hreachable, hsupported,
    Prod.ext hrefused (hback _ _ _ (Prod.ext hrefused rfl)), hfresh {}⟩

end Calibration
end RfidReader
