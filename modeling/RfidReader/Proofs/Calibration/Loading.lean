import Mathlib.Data.Fintype.Basic
import RfidReader.Proofs.Calibration.Layout
import RfidReader.Proofs.Calibration.MeasuredOffsets
import RfidReader.Proofs.FirstFault

/-!
# RfidReader.Proofs.Calibration.Loading

When a calibration does not load from a region in memory.

What can be wrong with a region and the tables it is loaded with is listed, in
the order in which it is found, by `loadDefects`; nothing else is, and the first
defect is the fault (`load_ofBytes`).  The order of the modes matters to every
region, how many they are and whether they are known only to one with a version
5 image.  From any other region the rest of the bytes is not read: what is
loaded are the defaults.
-/

namespace RfidReader
namespace Calibration

open AnalogOffsets
open Rssi (CalibrationMode Tables)

/-! ## Defects -/

/-- The modes of a filter have strictly ascending BLF. -/
def Ascending (modes : List CalibrationMode) : Prop := (modes.map (·.blfKhz)).Pairwise (· < ·)

instance (modes : List CalibrationMode) : Decidable (Ascending modes) :=
  inferInstanceAs (Decidable (List.Pairwise _ _))

/-- One of the 32 mode numbers of an image stands for a mode, and the tables have a correction for
it. -/
def Known (bs : List UInt8) (tables : Tables) (m : CalibrationMode) : Prop :=
  (∃ i : Fin 32, RfMode.ofLegacy (Word.decode (bs.drop (996 + 2 * i))) = m.mode) ∧
    (tables.modeCorrection? m.mode).isSome

instance (bs : List UInt8) (tables : Tables) (m : CalibrationMode) :
    Decidable (Known bs tables m) :=
  inferInstanceAs (Decidable (_ ∧ _))

/-- What can be wrong with a region and some tables, in the order in which it is found, and
whether it is. -/
def loadDefects (bs : List UInt8) (tables : Tables) : List (Fault × Bool) :=
  let v5 : Bool := bs.head? = some 5
  [(.calibrationTooShort, bs.length < 2),
    (.calibrationTooShort, v5 ∧ bs.length < 1202),
    (.unsortedDrmModes, ¬ Ascending tables.drmModes),
    (.unsortedOtherModes, ¬ Ascending tables.otherModes),
    (.tooManyCalibrationModes, v5 ∧ 8 < tables.drmModes.length),
    (.noDrmModes, v5 ∧ ∀ m ∈ tables.drmModes, ¬ Known bs tables m),
    (.tooManyCalibrationModes, v5 ∧ 8 < tables.otherModes.length),
    (.noOtherModes, v5 ∧ ∀ m ∈ tables.otherModes, ¬ Known bs tables m)]

/-! ## Rebuilding -/

/-- A change of a calibration fails with the first defect of a table, and for nothing else. -/
def Update.FailsWith (u : Update Unit) (c : Calibration) (table : List (Fault × Bool)) : Prop :=
  ∀ fault, (u.outcome c).1 = .error fault ↔ firstFault table = some fault

namespace Update.FailsWith

variable {u v : Update Unit} {c : Calibration} {table more : List (Fault × Bool)}

theorem pure : FailsWith (pure ()) c [] := fun _ => by simp

theorem getThen {f : Calibration → Update Unit} (h : (f c).FailsWith c table) :
    FailsWith (get >>= f) c table := h

theorem setThen {next : Calibration} {f : Unit → Update Unit} (h : (f ()).FailsWith next table) :
    FailsWith (set next >>= f) c table := h

/-- A check that is made first. -/
theorem check {applies : Bool} {fault : Fault} {f : PUnit → Update Unit}
    (h : applies = false → (f ()).FailsWith c table) :
    FailsWith (if applies then throw fault >>= f else f ()) c ((fault, applies) :: table) := by
  intro found
  rw [firstFault_cons]
  cases applies with
  | true => simp
  | false => exact h rfl found

/-- Defects are found one after the other: the second change is made where the first succeeds. -/
theorem bind (hu : u.FailsWith c table)
    (hv : ∀ next, u.outcome c = (.ok (), next) → v.FailsWith next more) :
    FailsWith (u >>= fun _ => v) c (table ++ more) := by
  intro fault
  rw [outcome_bind, firstFault_append]
  cases hresult : u.outcome c with
  | mk result next =>
      cases result with
      | error found =>
          have hfound := (hu found).mp (by rw [hresult])
          simp [hfound]
      | ok _ =>
          have hnone : firstFault table = none := by
            rw [Option.eq_none_iff_forall_ne_some]
            intro found hfound
            have herror := (hu found).mpr hfound
            rw [hresult] at herror
            contradiction
          rw [hnone, Option.none_or]
          exact hv next hresult fault

end Update.FailsWith

open Update

/-- What can be wrong with the modes of a filter. -/
def filterDefects (c : Calibration) (modes : List CalibrationMode) (missing : Fault) :
    List (Fault × Bool) :=
  [(.tooManyCalibrationModes, maxModes < modes.length),
    (missing, modes.all fun m => (analog? c.params.rssi c.tables m.mode).isNone)]

theorem failsWith_fillOffsets (modes : List CalibrationMode) (missing : Fault)
    (put : AnalogOffsets → Calibration → Calibration) (c : Calibration) :
    (fillOffsets modes missing put).FailsWith c (c.filterDefects modes missing) := by
  intro fault
  rw [outcome_fillOffsets_eq]
  simp only [filterDefects, firstFault_cons, firstFault_nil, decide_eq_true_eq]
  by_cases hmany : maxModes < modes.length
  · simp [hmany]
  · cases hnone : modes.all fun m => (analog? c.params.rssi c.tables m.mode).isNone <;>
      simp [hmany]

/-- What can be wrong with the tables in use. -/
def tableDefects (c : Calibration) : List (Fault × Bool) :=
  (.unsortedDrmModes, !sorted c.tables.drmModes) ::
    (.unsortedOtherModes, !sorted c.tables.otherModes) ::
      if c.isSupported then
        c.filterDefects c.tables.drmModes .noDrmModes
          ++ c.filterDefects c.tables.otherModes .noOtherModes
      else []

theorem failsWith_rebuildOffsets (c : Calibration) :
    rebuildOffsets.FailsWith c c.tableDefects := by
  unfold rebuildOffsets
  refine .getThen (.check fun _ => .check fun _ => .setThen ?_)
  cases hsupported : c.isSupported with
  | false => exact .pure
  | true =>
      refine .bind (failsWith_fillOffsets _ _ _ _) fun next hnext => ?_
      -- The other modes are looked up in what the dense reader modes have left as it was.
      rw [outcome_fillOffsets_eq] at hnext
      obtain rfl : next = { c with
          drmOffsets := ofModes c.params.rssi c.tables c.tables.drmModes, otherOffsets := [] } := by
        split at hnext
        · exact nomatch (Prod.mk.inj hnext).1
        · exact (Prod.mk.inj hnext).2.symm
      exact failsWith_fillOffsets _ _ _ _

/-- A calibration is not put together for the first defect of its tables. -/
theorem ofParams_eq_error_iff {version : CalibrationVersion} {customerVersion : UInt8}
    {params : Params} {tables : Tables} {filter : BasebandFilter} {fault : Fault} :
    ofParams version customerVersion params tables filter = .error fault ↔
      firstFault (tableDefects
        { version, customerVersion, params, tables, filter, drmOffsets := [], otherOffsets := [] })
          = some fault := by
  rw [← failsWith_rebuildOffsets]
  show (rebuildOffsets.outcome _).1.map _ = _ ↔ _
  cases (rebuildOffsets.outcome _).1 <;> simp [Except.map]

/-! ## Reading -/

/-- An image is in the first 1202 bytes of its region. -/
theorem Params.plain_take (bs : List UInt8) : plain (bs.take imageLength) = plain bs := by
  refine ext_fields fun field => Vector.ext fun i hi => ?_
  have hinside : field.run.offset i + field.run.width ≤ imageLength :=
    (field.run.offset_add_width_le ⟨i, hi⟩).trans field.stop_le
  have hbytes : ((bs.take imageLength).drop (field.run.offset i)).take field.run.width
      = (bs.drop (field.run.offset i)).take field.run.width := by
    rw [List.drop_take, List.take_take, Nat.min_eq_left (by omega)]
  calc (field.run.get (plain (bs.take imageLength)))[i]
      = field.run.read ((bs.take imageLength).drop (field.run.offset i)) :=
        plain_holds field _ ⟨i, hi⟩
    _ = field.run.read (bs.drop (field.run.offset i)) := field.run.read_congr hbytes
    _ = (field.run.get (plain bs))[i] := (plain_holds field bs ⟨i, hi⟩).symm

theorem ofByte_eq_v5_iff {raw : UInt8} : CalibrationVersion.ofByte raw = .v5 ↔ raw = 5 := by
  unfold CalibrationVersion.ofByte
  split
  · next h => simp [h]
  · split <;> simp_all

theorem Source.exists_read_ofBytes {bs : List UInt8} (offset n : Nat)
    (h : offset + n ≤ bs.length) : ∃ piece, (ofBytes bs).read offset n = .ok piece ∧
      piece.toList = (bs.drop offset).take n := by
  refine ⟨⟨((bs.drop offset).take n).toArray, by simp; omega⟩, ?_, rfl⟩
  simp [ofBytes, Bytes.slice?, h]

theorem Source.read_ofBytes_short {bs : List UInt8} {offset n : Nat} (h : bs.length < offset + n) :
    (ofBytes bs).read offset n = .error .calibrationTooShort := by
  simp [ofBytes, Bytes.slice?, Nat.not_le_of_lt h]

/-- A region is too short for its version, or for telling its version. -/
def TooShort (bs : List UInt8) : Prop :=
  bs.length < 2 ∨ bs.head? = some 5 ∧ bs.length < imageLength

theorem readImage_ofBytes_short {bs : List UInt8} (h : bs.length < 2) :
    readImage (m := Except Fault) (Source.ofBytes bs) = .error .calibrationTooShort := by
  rw [readImage, Source.read_ofBytes_short (Nat.lt_of_lt_of_eq h (Nat.zero_add 2).symm)]
  rfl

/-- Of a region with a version, only that decides whether the rest is read. -/
theorem readImage_ofBytes_cons (raw customer : UInt8) (rest : List UInt8) :
    readImage (m := Except Fault) (Source.ofBytes (raw :: customer :: rest)) = (do
      let params ← if raw = 5 then do
          let bytes ← (Source.ofBytes (raw :: customer :: rest)).read 0 imageLength
          Params.ofBytes bytes.toList
        else pure Params.uncalibrated
      pure (.ofByte raw, customer, params)) := by
  have hlong : 0 + 2 ≤ (raw :: customer :: rest).length := by simp
  obtain ⟨header, hheader, hbytes⟩ := Source.exists_read_ofBytes 0 2 hlong
  obtain rfl : header = #v[raw, customer] := Vector.toList_inj.mp hbytes
  rw [readImage, hheader]
  simp only [← ofByte_eq_v5_iff]
  rfl

/-- What a region is read as. -/
theorem readImage_ofBytes (bs : List UInt8) :
    (TooShort bs ∧
        readImage (m := Except Fault) (Source.ofBytes bs) = .error .calibrationTooShort) ∨
      ¬ TooShort bs ∧ ∃ version customer, (version = .v5 ↔ bs.head? = some 5) ∧
        readImage (m := Except Fault) (Source.ofBytes bs) = .ok (version, customer,
          if bs.head? = some 5 then Params.plain bs else Params.uncalibrated) := by
  match bs with
  | [] | [_] => exact .inl ⟨.inl (by simp), readImage_ofBytes_short (by simp)⟩
  | raw :: customer :: rest =>
      rw [readImage_ofBytes_cons]
      generalize hbs : raw :: customer :: rest = bs
      have hlong : ¬ bs.length < 2 := by simp [← hbs]
      have hhead : bs.head? = some raw := by rw [← hbs, List.head?_cons]
      by_cases h5 : raw = 5
      · subst h5
        rw [TooShort, hhead]
        by_cases hshort : bs.length < imageLength
        · refine .inl ⟨.inr ⟨rfl, hshort⟩, ?_⟩
          rw [Source.read_ofBytes_short (by simpa using hshort)]
          rfl
        · refine .inr ⟨by simp [hlong, hshort], .v5, customer, by simp, ?_⟩
          obtain ⟨piece, hread, hbytes⟩ :=
            Source.exists_read_ofBytes 0 imageLength (by simpa using hshort)
          have hparams : Params.ofBytes piece.toList = .ok (Params.plain bs) := by
            rw [hbytes, Params.ofBytes_eq, List.drop_zero, Params.plain_take, if_neg]
            simpa using hshort
          rw [hread]
          simp [bind, Except.bind, hparams, ofByte_eq_v5_iff, pure, Except.pure]
      · refine .inr ⟨by simp [TooShort, hhead, hlong, h5], .ofByte raw, customer, ?_, ?_⟩
        · rw [ofByte_eq_v5_iff, hhead, Option.some_inj]
        · rw [if_neg h5, hhead, if_neg (by simpa using h5)]
          rfl

/-! ## Loading from memory -/

variable {bs : List UInt8} {tables : Tables}

theorem sorted_eq_decide (modes : List CalibrationMode) : sorted modes = decide (Ascending modes) := by
  rw [Bool.eq_iff_iff, decide_eq_true_iff]
  exact sorted_iff modes

/-- A mode has an offset if it is known. -/
theorem isNone_analog?_iff (m : CalibrationMode) :
    (analog? (Params.plain bs).rssi tables m.mode).isNone = true ↔ ¬ Known bs tables m := by
  have hentries : ((Params.plain bs).rssi.entries m.mode).Nonempty ↔
      ∃ i : Fin 32, RfMode.ofLegacy (Word.decode (bs.drop (996 + 2 * i))) = m.mode := by
    refine exists_congr fun i => ?_
    have hnumber : (Params.plain bs).rssi.rfModes[i] = Word.decode (bs.drop (996 + i * 2)) :=
      Params.plain_holds .rfModes bs i
    rw [RssiParams.entries, Set.mem_ofPred_eq, hnumber, Nat.mul_comm]
  rw [Known, ← hentries, ← isSome_measured?_iff, analog?]
  cases measured? (Params.plain bs).rssi m.mode <;> cases tables.modeCorrection? m.mode <;> simp

theorem all_isNone_analog?_eq_decide (modes : List CalibrationMode) :
    (modes.all fun m => (analog? (Params.plain bs).rssi tables m.mode).isNone)
      = decide (∀ m ∈ modes, ¬ Known bs tables m) := by
  rw [Bool.eq_iff_iff, decide_eq_true_iff, List.all_eq_true]
  exact forall₂_congr fun m _ => isNone_analog?_iff m

/-- Behind the length of the region, what can be wrong are the tables. -/
theorem firstFault_loadDefects {c : Calibration} (hlong : ¬ TooShort bs)
    (hversion : c.version = .v5 ↔ bs.head? = some 5)
    (hparams : bs.head? = some 5 → c.params = Params.plain bs) :
    firstFault (loadDefects bs c.tables) = firstFault c.tableDefects := by
  obtain ⟨hlong, himage⟩ := not_or.mp hlong
  by_cases h5 : bs.head? = some 5
  · have himage : ¬ bs.length < 1202 := fun hshort => himage ⟨h5, hshort⟩
    have hmax : maxModes = 8 := rfl
    simp [loadDefects, tableDefects, filterDefects, isSupported, hversion, hparams, h5, hlong,
      himage, sorted_eq_decide, all_isNone_analog?_eq_decide, hmax]
  · simp [loadDefects, tableDefects, isSupported, hversion, h5, hlong, sorted_eq_decide]

/-- **Loading from memory**: for any region, tables and filter, a calibration does not load exactly
if there is a defect, and the fault is the first one.  From a region whose image is of another
version the defaults are loaded, without offsets, whatever else it holds. -/
theorem load_ofBytes (bs : List UInt8) (tables : Tables) (filter : BasebandFilter) :
    (∀ fault, load (m := Except Fault) (Source.ofBytes bs) tables filter = .error fault ↔
        firstFault (loadDefects bs tables) = some fault) ∧
      ∀ c, load (m := Except Fault) (Source.ofBytes bs) tables filter = .ok c →
        bs.head? ≠ some 5 →
          c.params = Params.uncalibrated ∧ c.drmOffsets = [] ∧ c.otherOffsets = [] := by
  have hload : load (m := Except Fault) (Source.ofBytes bs) tables filter =
      readImage (Source.ofBytes bs) >>= fun image =>
        ofParams image.1 image.2.1 image.2.2 tables filter := rfl
  rcases readImage_ofBytes bs with ⟨hshort, himage⟩ | ⟨hlong, version, customer, hversion, himage⟩
  · have hfault : firstFault (loadDefects bs tables) = some .calibrationTooShort := by
      rcases hshort with h | ⟨h5, h⟩
      · simp [loadDefects, h]
      · have h : bs.length < 1202 := h
        simp [loadDefects, h5, h]
    have herror : load (m := Except Fault) (Source.ofBytes bs) tables filter
        = .error .calibrationTooShort := by
      rw [hload, himage]
      rfl
    simp [herror, hfault]
  · rw [hload, himage]
    change (∀ fault, ofParams version customer _ tables filter = .error fault ↔ _) ∧
      ∀ c, ofParams version customer _ tables filter = .ok c → _
    constructor
    · intro fault
      rw [ofParams_eq_error_iff, ← firstFault_loadDefects hlong hversion fun h5 => if_pos h5]
    · intro c hc hother
      obtain ⟨hsettled, rfl, -, hparams, -⟩ := ofParams_eq_ok_iff.mp hc
      have hunsupported : ¬ c.isSupported = true := by simpa [isSupported, hversion] using hother
      rw [if_neg hother] at hparams
      exact ⟨hparams, hsettled.drmOffsets_eq.trans (if_neg hunsupported),
        hsettled.otherOffsets_eq.trans (if_neg hunsupported)⟩

set_option maxRecDepth 20000 in
/-- An erased region loads with the defaults, but not with modes out of order; the sample image does
not load with a filter none of whose modes is known. -/
theorem load_ofBytes_erased :
    (∃ c, load (m := Except Fault) (Source.ofBytes [0xFF, 0xFF]) .standard {} = .ok c ∧
        [0xFF, 0xFF].head? ≠ some (5 : UInt8) ∧ c.params = Params.uncalibrated ∧
        c.drmOffsets = [] ∧ c.otherOffsets = []) ∧
      load (m := Except Fault) (Source.ofBytes [0xFF, 0xFF])
        { Tables.standard with otherModes := [⟨102, 320⟩, ⟨103, 320⟩] } {}
          = .error .unsortedOtherModes ∧
      load (m := Except Fault) (Source.ofBytes Sample.image) Sample.unknownModes {}
        = .error .noOtherModes := by
  refine ⟨?_, ?_, ?_⟩
  · cases hresult : load (m := Except Fault) (Source.ofBytes [0xFF, 0xFF]) .standard {} with
    | error fault =>
        have hdefect := ((load_ofBytes [0xFF, 0xFF] .standard {}).1 fault).mp hresult
        have hnone : firstFault (loadDefects [0xFF, 0xFF] .standard) = none := by decide +kernel
        rw [hnone] at hdefect
        contradiction
    | ok c =>
        have hother : [0xFF, 0xFF].head? ≠ some (5 : UInt8) := by decide
        exact ⟨c, rfl, hother, (load_ofBytes [0xFF, 0xFF] .standard {}).2 c hresult hother⟩
  · exact ((load_ofBytes _ _ _).1 _).mpr (by decide +kernel)
  · exact ((load_ofBytes _ _ _).1 _).mpr (by decide +kernel)

end Calibration
end RfidReader
