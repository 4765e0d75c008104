import Mathlib.Data.List.Pairwise
import RfidReader.Calibration.Params
import RfidReader.Calibration.Sample
import RfidReader.Proofs.Cursor

/-!
# RfidReader.Proofs.Calibration.Layout

Where a calibration image keeps its fields.

A `Run` says where values of one width stand one after the other, and which part
of a record they are.  `Field.run` is the layout of an image in these terms: every
field with its offset from the start of the image, in the order they are stored.
An image that is long enough is read without reaching past its end, and each
value is the one at its own offset (`ofBytes_eq_ok_iff`).  As fields do not
overlap, writing over one value of an image changes that value only, and writing
over bytes of no field changes nothing (`Params.layout`).
-/

namespace RfidReader
namespace Calibration

/-! ## Runs of values -/

/-- Equally wide values one after the other in a byte string, and the part of a record they are
read into. -/
structure Run (ρ : Type) where
  Value : Type
  /-- Where the first value stands. -/
  start : Nat
  /-- The bytes of a value. -/
  width : Nat
  count : Nat
  /-- The value that the bytes at the front of a byte string stand for. -/
  read : List UInt8 → Value
  read_take : ∀ bs, read (bs.take width) = read bs
  get : ρ → Vector Value count

namespace Run

variable {ρ σ : Type}

/-- Little-endian words from `start` on. -/
def words (α : Type) [Word α] {n : Nat} (start : Nat) (get : ρ → Vector α n) : Run ρ :=
  ⟨α, start, Word.size α, n, Word.decode, Word.decode_take, get⟩

/-- A single word. -/
def word (α : Type) [Word α] (start : Nat) (get : ρ → α) : Run ρ :=
  words α start fun r => #v[get r]

/-- Powers, each of which may be left out. -/
def powers {n : Nat} (start : Nat) (get : ρ → Vector (Option Float32) n) : Run ρ where
  Value := Option Float32
  start := start
  width := 4
  count := n
  read bs := coarseSetting (Word.decode bs)
  read_take bs := congrArg coarseSetting (Word.decode_take bs)
  get := get

/-- A run of a part that is stored from `base` on. -/
def within (base : Nat) (part : ρ → σ) (run : Run σ) : Run ρ :=
  { run with start := base + run.start, get := fun r => run.get (part r) }

/-- Where a value stands. -/
def offset (run : Run ρ) (i : Nat) : Nat := run.start + i * run.width

/-- Where the bytes behind the last value start. -/
def stop (run : Run ρ) : Nat := run.offset run.count

/-- A record has the values that a byte string keeps in a run. -/
def Holds (run : Run ρ) (bs : List UInt8) (r : ρ) : Prop :=
  ∀ i : Fin run.count, (run.get r)[i] = run.read (bs.drop (run.offset i))

/-- Two runs have no byte in common. -/
def Apart (run : Run ρ) (other : Run ρ) : Prop := run.stop ≤ other.start ∨ other.stop ≤ run.start

instance (run other : Run ρ) : Decidable (run.Apart other) :=
  inferInstanceAs (Decidable (_ ∨ _))

theorem offset_add_width_le (run : Run ρ) (i : Fin run.count) :
    run.offset i + run.width ≤ run.stop := by
  have h : (i.val + 1) * run.width ≤ run.count * run.width := Nat.mul_le_mul_right _ i.isLt
  rw [Nat.succ_mul] at h
  unfold stop offset
  omega

theorem start_le_offset (run : Run ρ) (i : Nat) : run.start ≤ run.offset i := Nat.le_add_right ..

/-- Different values of a run have no byte in common. -/
theorem offset_apart (run : Run ρ) {i j : Nat} (h : i ≠ j) :
    run.offset i + run.width ≤ run.offset j ∨ run.offset j + run.width ≤ run.offset i := by
  have hlt {i j : Nat} (h : i < j) : run.offset i + run.width ≤ run.offset j := by
    have h : (i + 1) * run.width ≤ j * run.width := Nat.mul_le_mul_right _ h
    rw [Nat.succ_mul] at h
    unfold offset
    omega
  rcases Nat.lt_or_gt_of_ne h with h | h
  · exact .inl (hlt h)
  · exact .inr (hlt h)

/-- A value depends on its own bytes only. -/
theorem read_congr (run : Run ρ) {bs cs : List UInt8}
    (h : bs.take run.width = cs.take run.width) : run.read bs = run.read cs := by
  rw [← run.read_take bs, h, run.read_take cs]

/-- Bytes written somewhere else leave a value as it was. -/
theorem read_overwrite (run : Run ρ) {bs piece : List UInt8} {start offset : Nat}
    (h : start ≤ bs.length)
    (hapart : offset + run.width ≤ start ∨ start + piece.length ≤ offset) :
    run.read ((Bytes.overwrite bs start piece).drop offset) = run.read (bs.drop offset) := by
  rcases hapart with hbefore | hafter
  · exact run.read_congr (Bytes.take_drop_overwrite_before h hbefore)
  · rw [Bytes.drop_overwrite_after h hafter]

end Run

/-! ## Fields -/

/-- The fields among the tables of a band. -/
inductive BandField where
  | detectorCurve (detector : Fin 3)
  | coarseDbm
  | forwardTempSlope
  | calibrationTemp
  | detectorTempSlopes
  | detectorShifts (detector : Fin 3)
  | frequenciesMhz
  | forwardShifts
  deriving DecidableEq

/-- Where the tables of a band keep them, from their own start. -/
def BandField.run : BandField → Run Band
  | detectorCurve detector => .words UInt16 (62 * detector) (·.detectorCurves[detector])
  | coarseDbm => .powers 186 (·.coarseDbm)
  | forwardTempSlope => .word Float32 310 (·.forwardTempSlope)
  | calibrationTemp => .word UInt16 314 (·.calibrationTemp)
  | detectorTempSlopes => .words Float32 316 (·.detectorTempSlopes)
  | detectorShifts detector => .words Int16 (328 + 8 * detector) (·.detectorShifts[detector])
  | frequenciesMhz => .words Float32 352 (·.frequenciesMhz)
  | forwardShifts => .words Float32 384 (·.forwardShifts)

/-- The fields of an image. -/
inductive Field where
  | version
  | customerVersion
  | procedures
  | boardId
  | txScalar
  | upperLimits
  | lowerLimits
  | validMinAdc
  | validMaxAdc
  | loopGainDivisor
  | errorThreshold
  | maxIterations
  | upperBand (field : BandField)
  | lowerBand (field : BandField)
  | dcOffsets
  | rfModes
  | rfModeOffsets
  | pga1
  | pga2
  | pga3
  | mixer
  | rxAtten
  | antennas
  | antennaOffsets
  | upperShift
  | lowerShift
  | referenceDbm
  | referenceLog2
  | tempSlope
  | tempIntercept
  deriving DecidableEq

/-- The procedures in the order they are stored. -/
def Procedures.toVector (p : Procedures) : Vector UInt8 6 :=
  #v[p.powerDetector, p.forwardPower, p.powerDetectorTemperature, p.forwardPowerTemperature,
    p.powerDetectorFrequency, p.forwardPowerFrequency]

/-- The limits in the order they are stored. -/
def FilterLimits.toVector (limits : FilterLimits) : Vector Float32 2 := #v[limits.low, limits.high]

/-- Where an image keeps them. -/
def Field.run : Field → Run Params
  | version => .word UInt8 0 (·.version)
  | customerVersion => .word UInt8 1 (·.customerVersion)
  | procedures => .words UInt8 4 (·.procedures.toVector)
  | boardId => .word UInt16 10 (·.boardId)
  | txScalar => .word Int16 12 (·.txScalar)
  | upperLimits => .words Float32 14 (·.upperLimits.toVector)
  | lowerLimits => .words Float32 22 (·.lowerLimits.toVector)
  | validMinAdc => .word UInt16 30 (·.validMinAdc)
  | validMaxAdc => .word UInt16 32 (·.validMaxAdc)
  | loopGainDivisor => .word UInt16 34 (·.loopGainDivisor)
  | errorThreshold => .word UInt8 36 (·.errorThreshold)
  | maxIterations => .word UInt8 37 (·.maxIterations)
  | upperBand field => field.run.within 40 (·.upperBand)
  | lowerBand field => field.run.within 456 (·.lowerBand)
  | dcOffsets => .words Int32 872 (·.dcOffsets)
  | rfModes => .words UInt16 996 (·.rssi.rfModes)
  | rfModeOffsets => .words Int16 1060 (·.rssi.rfModeOffsets)
  | pga1 => .words Int16 1124 (·.rssi.pga1)
  | pga2 => .words Int16 1132 (·.rssi.pga2)
  | pga3 => .words Int16 1140 (·.rssi.pga3)
  | mixer => .words Int16 1148 (·.rssi.mixer)
  | rxAtten => .words Int16 1156 (·.rssi.rxAtten)
  | antennas => .words UInt8 1164 (·.rssi.antennas)
  | antennaOffsets => .words Int16 1172 (·.rssi.antennaOffsets)
  | upperShift => .word Int16 1188 (·.upperBand.rssiShift)
  | lowerShift => .word Int16 1190 (·.lowerBand.rssiShift)
  | referenceDbm => .word Int16 1192 (·.rssi.referenceDbm)
  | referenceLog2 => .word Int16 1194 (·.rssi.referenceLog2)
  | tempSlope => .word Float32 1196 (·.rssi.tempSlope)
  | tempIntercept => .word UInt16 1200 (·.rssi.tempIntercept)

/-- The pieces that belong to no field, each from its first to its last byte. -/
def gaps : List (Nat × Nat) :=
  [(2, 3), (38, 39), (40 + 368, 40 + 383), (440, 455), (456 + 368, 456 + 383), (856, 871)]

/-- A byte of no field: in a gap or behind the last field. -/
def Unused (n : Nat) : Prop := (∃ gap ∈ gaps, gap.1 ≤ n ∧ n ≤ gap.2) ∨ 1202 ≤ n

/-! ## Fields do not overlap -/

/-- The fields of a band in the order they are stored. -/
def BandField.all : List BandField :=
  [.detectorCurve 0, .detectorCurve 1, .detectorCurve 2, .coarseDbm, .forwardTempSlope,
    .calibrationTemp, .detectorTempSlopes, .detectorShifts 0, .detectorShifts 1, .detectorShifts 2,
    .frequenciesMhz, .forwardShifts]

theorem BandField.mem_all : ∀ field : BandField, field ∈ all
  | detectorCurve detector => by revert detector; decide
  | detectorShifts detector => by revert detector; decide
  | coarseDbm | forwardTempSlope | calibrationTemp | detectorTempSlopes | frequenciesMhz
  | forwardShifts => by decide

namespace Field

/-- The fields of an image in the order they are stored. -/
def all : List Field :=
  [version, customerVersion, procedures, boardId, txScalar, upperLimits, lowerLimits, validMinAdc,
      validMaxAdc, loopGainDivisor, errorThreshold, maxIterations]
    ++ BandField.all.map upperBand ++ BandField.all.map lowerBand
    ++ [dcOffsets, rfModes, rfModeOffsets, pga1, pga2, pga3, mixer, rxAtten, antennas,
      antennaOffsets, upperShift, lowerShift, referenceDbm, referenceLog2, tempSlope, tempIntercept]

theorem mem_all (field : Field) : field ∈ all := by
  have hband := BandField.mem_all
  cases field <;> simp [all, hband]

theorem ascending : all.Pairwise fun f g => f.run.stop ≤ g.run.start := by decide +kernel

/-- Different fields have no byte in common. -/
theorem apart {f g : Field} (h : f ≠ g) : f.run.Apart g.run := by
  have hapart : all.Pairwise fun f g => f.run.Apart g.run := ascending.imp .inl
  have : Std.Symm fun f g : Field => f.run.Apart g.run := ⟨fun _ _ => Or.symm⟩
  exact hapart.forall f.mem_all g.mem_all h

theorem stop_le (field : Field) : field.run.stop ≤ 1202 := by
  have hall : ∀ f ∈ all, f.run.stop ≤ 1202 := by decide +kernel
  exact hall field field.mem_all

/-- No field has bytes in a gap. -/
theorem apart_unused (field : Field) {n : Nat} (h : Unused n) :
    n < field.run.start ∨ field.run.stop ≤ n := by
  have hall : ∀ f ∈ all, ∀ gap ∈ gaps, gap.2 < f.run.start ∨ f.run.stop ≤ gap.1 := by
    decide +kernel
  rcases h with ⟨gap, hgap, hfirst, hlast⟩ | hbehind
  · have := hall field field.mem_all gap hgap
    omega
  · have := field.stop_le
    omega

end Field

/-! ## Reading an image -/

section Bounds

variable {m : Type → Type} [Monad m] [Slicing m] [LawfulSlicing m]

open CursorT

theorem Band.reads (rssiShift : Int16) :
    Reads (m := m) 400 (Band.cursor rssiShift) (Band.cursor rssiShift) :=
  ((Reads.words UInt16 31).vector 3).bind fun _ => (Reads.words Float32 31).bind fun _ =>
    (Reads.word Float32).bind fun _ => (Reads.word UInt16).bind fun _ =>
    (Reads.words Float32 3).bind fun _ => ((Reads.words Int16 4).vector 3).bind fun _ =>
    (Reads.words Float32 4).bind fun _ => (Reads.skip 16).bind fun _ =>
    (Reads.words Float32 4).bind fun _ => .pure _

theorem RssiParams.reads : Reads (m := m) 206 cursor cursor :=
  (Reads.words UInt16 32).bind fun _ => (Reads.words Int16 32).bind fun _ =>
    (Reads.words Int16 4).bind fun _ => (Reads.words Int16 4).bind fun _ =>
    (Reads.words Int16 4).bind fun _ => (Reads.words Int16 4).bind fun _ =>
    (Reads.words Int16 4).bind fun _ => (Reads.words UInt8 8).bind fun _ =>
    (Reads.words Int16 8).bind fun _ => (Reads.word Int16).bind fun _ =>
    (Reads.word Int16).bind fun _ => (Reads.word Int16).bind fun _ =>
    (Reads.word Int16).bind fun _ => (Reads.word Float32).bind fun _ =>
    (Reads.word UInt16).bind fun _ => .pure _

theorem Params.reads (upperBand lowerBand : Band) (dcOffsets : Curve Int32) (rssi : RssiParams) :
    Reads (m := m) 38 (cursor upperBand lowerBand dcOffsets rssi)
      (cursor upperBand lowerBand dcOffsets rssi) :=
  (Reads.word UInt8).bind fun _ => (Reads.word UInt8).bind fun _ => (Reads.skip 2).bind fun _ =>
    (Reads.word UInt8).bind fun _ => (Reads.word UInt8).bind fun _ =>
    (Reads.word UInt8).bind fun _ => (Reads.word UInt8).bind fun _ =>
    (Reads.word UInt8).bind fun _ => (Reads.word UInt8).bind fun _ =>
    (Reads.word UInt16).bind fun _ => (Reads.word Int16).bind fun _ =>
    (Reads.word Float32).bind fun _ => (Reads.word Float32).bind fun _ =>
    (Reads.word Float32).bind fun _ => (Reads.word Float32).bind fun _ =>
    (Reads.word UInt16).bind fun _ => (Reads.word UInt16).bind fun _ =>
    (Reads.word UInt16).bind fun _ => (Reads.word UInt8).bind fun _ =>
    (Reads.word UInt8).bind fun _ => .pure _

/-- What the plain reading gives for a byte string that is long enough. -/
def Params.plain (bs : List UInt8) : Params :=
  let (rssi, upperShift, lowerShift) := Cursor.runAt RssiParams.cursor bs rssiOffset
  let upperBand := Cursor.runAt (Band.cursor upperShift) bs upperBandOffset
  let lowerBand := Cursor.runAt (Band.cursor lowerShift) bs lowerBandOffset
  let dcOffsets := Cursor.runAt (Cursor.words Int32 31) bs dcOffsetOffset
  Cursor.runAt (Params.cursor upperBand lowerBand dcOffsets rssi) bs 0

/-- An image is read alike wherever bytes are cut alike inside their string: nothing is cut
outside it. -/
theorem Params.run_read (bs : List UInt8) :
    (read bs : ExceptT Fault m Params).run
      = pure (if bs.length < imageLength then .error .imageTooShort else .ok (plain bs)) := by
  unfold read
  by_cases h : bs.length < imageLength
  · simp [h]
  · have hlength : 1202 ≤ bs.length := Nat.le_of_not_lt h
    have hrssi := RssiParams.reads (m := m).readAt
      (show rssiOffset + 206 ≤ bs.length from hlength)
    have hband (shift : Int16) {offset : Nat} (hoffset : offset ≤ 802) :=
      (Band.reads (m := m) shift).readAt (show offset + 400 ≤ bs.length by omega)
    have hdc := (CursorT.Reads.words (m := m) Int32 31).readAt
      (show dcOffsetOffset + 124 ≤ bs.length from Nat.le_trans (by decide) hlength)
    have hfront (u l d r) := (Params.reads (m := m) u l d r).readAt
      (show 0 + 38 ≤ bs.length by omega)
    have hupper := hband (Cursor.runAt RssiParams.cursor bs rssiOffset).2.1
      (show upperBandOffset ≤ 802 by decide)
    have hlower := hband (Cursor.runAt RssiParams.cursor bs rssiOffset).2.2
      (show lowerBandOffset ≤ 802 by decide)
    simp [h, hrssi, hupper, hlower, hdc, hfront, plain]

end Bounds

/-! ## Values in place -/

namespace Run

variable {ρ σ : Type} {bs : List UInt8} {r : ρ} {start : Nat}

@[simp] theorem holds_words {α : Type} [Word α] {n : Nat} {get : ρ → Vector α n} :
    (words α start get).Holds bs r ↔
      ∀ i : Fin n, (get r)[i] = Word.decode (bs.drop (start + i * Word.size α)) := Iff.rfl

@[simp] theorem holds_word {α : Type} [Word α] {get : ρ → α} :
    (word α start get).Holds bs r ↔ get r = Word.decode (bs.drop start) := by
  simp [word]

@[simp] theorem holds_powers {n : Nat} {get : ρ → Vector (Option Float32) n} :
    (powers start get).Holds bs r ↔
      ∀ i : Fin n, (get r)[i] = coarseSetting (Word.decode (bs.drop (start + i * 4))) := Iff.rfl

@[simp] theorem holds_within {base : Nat} {part : ρ → σ} {run : Run σ} :
    (run.within base part).Holds bs r ↔ run.Holds (bs.drop base) (part r) := by
  have hread (i : Nat) : bs.drop ((run.within base part).offset i)
      = (bs.drop base).drop (run.offset i) := by
    simp [within, offset, Nat.add_assoc]
  unfold Holds
  simp only [hread]
  rfl

end Run

/-- The tables of a band are read from their places. -/
theorem Band.holds (field : BandField) (rssiShift : Int16) (bs : List UInt8) :
    field.run.Holds bs ((cursor rssiShift : Cursor Band).run bs).1 := by
  have hrows (α : Type) [Word α] (n k : Nat) (bs : List UInt8) :=
    Cursor.run_vector (Cursor.run_words α k) n bs
  simp only [cursor, hrows, Cursor.run_bind, Cursor.run_pure, Cursor.run_words, Cursor.run_word,
    Cursor.run_skip, Word.size, List.drop_drop]
  cases field <;> simp [BandField.run, Word.size, Nat.mul_comm]

@[simp] theorem Band.rssiShift_cursor (rssiShift : Int16) (bs : List UInt8) :
    ((cursor rssiShift : Cursor Band).run bs).1.rssiShift = rssiShift := rfl

/-- Every field of an image is read from its place. -/
theorem Params.plain_holds (field : Field) (bs : List UInt8) : field.run.Holds bs (plain bs) := by
  simp only [plain, Cursor.runAt, RssiParams.cursor, cursor, Cursor.run_bind, Cursor.run_pure,
    Cursor.run_words, Cursor.run_word, Cursor.run_skip, Word.size, List.drop_drop, rssiOffset,
    dcOffsetOffset]
  cases field with
  | upperBand field => exact Run.holds_within.mpr (Band.holds field _ _)
  | lowerBand field => exact Run.holds_within.mpr (Band.holds field _ _)
  | procedures => simp [Field.run, Word.size, Procedures.toVector, Fin.forall_fin_succ]
  | upperLimits | lowerLimits =>
    simp [Field.run, Word.size, FilterLimits.toVector, Fin.forall_fin_succ]
  | _ => simp [Field.run, Word.size]

/-! ## Fields make up an image -/

/-- A single word is told apart by what is read. -/
theorem Run.eq_of_get_word {ρ α : Type} [Word α] {start : Nat} {get : ρ → α} {r s : ρ}
    (h : (word α start get).get r = (word α start get).get s) : get r = get s :=
  congrArg (fun v : Vector α 1 => v[0]) h

theorem Procedures.toVector_inj {a b : Procedures} (h : a.toVector = b.toVector) : a = b := by
  cases a
  cases b
  simpa [toVector] using h

theorem FilterLimits.toVector_inj {a b : FilterLimits} (h : a.toVector = b.toVector) : a = b := by
  cases a
  cases b
  simpa [toVector] using h

/-- A band is its fields, with the offset of receiving in it. -/
theorem Band.ext_fields {a b : Band} (h : ∀ field : BandField, field.run.get a = field.run.get b)
    (hshift : a.rssiShift = b.rssiShift) : a = b := by
  have hcurves : a.detectorCurves = b.detectorCurves :=
    Vector.ext fun d hd => h (.detectorCurve ⟨d, hd⟩)
  have hshifts : a.detectorShifts = b.detectorShifts :=
    Vector.ext fun d hd => h (.detectorShifts ⟨d, hd⟩)
  have hslope := Run.eq_of_get_word (h .forwardTempSlope)
  have htemp := Run.eq_of_get_word (h .calibrationTemp)
  cases a
  cases b
  rw [mk.injEq]
  exact ⟨hcurves, h .coarseDbm, hslope, htemp, h .detectorTempSlopes, hshifts, h .frequenciesMhz,
    h .forwardShifts, hshift⟩

theorem RssiParams.ext_fields {a b : Params}
    (h : ∀ field : Field, field.run.get a = field.run.get b) : a.rssi = b.rssi := by
  have hdbm := Run.eq_of_get_word (h .referenceDbm)
  have hlog2 := Run.eq_of_get_word (h .referenceLog2)
  have hslope := Run.eq_of_get_word (h .tempSlope)
  have hintercept := Run.eq_of_get_word (h .tempIntercept)
  show RssiParams.mk .. = RssiParams.mk ..
  rw [mk.injEq]
  exact ⟨h .rfModes, h .rfModeOffsets, h .pga1, h .pga2, h .pga3, h .mixer, h .rxAtten, h .antennas,
    h .antennaOffsets, hdbm, hlog2, hslope, hintercept⟩

/-- An image is its fields. -/
theorem Params.ext_fields {a b : Params} (h : ∀ field : Field, field.run.get a = field.run.get b) :
    a = b := by
  have hversion := Run.eq_of_get_word (h .version)
  have hcustomer := Run.eq_of_get_word (h .customerVersion)
  have hprocedures := Procedures.toVector_inj (h .procedures)
  have hboard := Run.eq_of_get_word (h .boardId)
  have hscalar := Run.eq_of_get_word (h .txScalar)
  have hupperLimits := FilterLimits.toVector_inj (h .upperLimits)
  have hlowerLimits := FilterLimits.toVector_inj (h .lowerLimits)
  have hmin := Run.eq_of_get_word (h .validMinAdc)
  have hmax := Run.eq_of_get_word (h .validMaxAdc)
  have hdivisor := Run.eq_of_get_word (h .loopGainDivisor)
  have hthreshold := Run.eq_of_get_word (h .errorThreshold)
  have hiterations := Run.eq_of_get_word (h .maxIterations)
  have hupperShift := Run.eq_of_get_word (h .upperShift)
  have hlowerShift := Run.eq_of_get_word (h .lowerShift)
  have hupper : a.upperBand = b.upperBand :=
    Band.ext_fields (fun field => h (.upperBand field)) hupperShift
  have hlower : a.lowerBand = b.lowerBand :=
    Band.ext_fields (fun field => h (.lowerBand field)) hlowerShift
  have hrssi := RssiParams.ext_fields h
  cases a
  cases b
  rw [mk.injEq]
  exact ⟨hversion, hcustomer, hprocedures, hboard, hscalar, hupperLimits, hlowerLimits, hmin, hmax,
    hdivisor, hthreshold, hiterations, hupper, hlower, h .dcOffsets, hrssi⟩

/-! ## Images -/

namespace Params

variable {bs : List UInt8} {p : Params}

theorem ofBytes_eq (bs : List UInt8) :
    ofBytes bs = if bs.length < imageLength then .error .imageTooShort else .ok (plain bs) :=
  run_read (m := Id) bs

/-- The image at the front of a byte string is there if the bytes are, and its fields are where
the layout says. -/
theorem ofBytes_eq_ok_iff :
    ofBytes bs = .ok p ↔ 1202 ≤ bs.length ∧ ∀ field : Field, field.run.Holds bs p := by
  rw [ofBytes_eq]
  by_cases h : bs.length < imageLength
  · have hshort : ¬ 1202 ≤ bs.length := Nat.not_le_of_lt h
    simp [h, hshort]
  · have hlong : 1202 ≤ bs.length := Nat.le_of_not_lt h
    simp only [h, if_false, Except.ok.injEq, hlong, true_and]
    constructor
    · rintro rfl field
      exact plain_holds field bs
    · intro hp
      refine ext_fields fun field => Vector.ext fun i hi => ?_
      exact (plain_holds field bs ⟨i, hi⟩).trans (hp field ⟨i, hi⟩).symm

/-- Writing over some bytes leaves an image, with the values of the bytes it has now. -/
theorem exists_ofBytes_overwrite (h : ofBytes bs = .ok p) {start : Nat} {piece : List UInt8}
    (hinside : start + piece.length ≤ bs.length) :
    ∃ q, ofBytes (Bytes.overwrite bs start piece) = .ok q ∧
      (∀ field : Field, field.run.Holds (Bytes.overwrite bs start piece) q) ∧
      ∀ (field : Field) (i : Fin field.run.count),
        (field.run.offset i + field.run.width ≤ start ∨
            start + piece.length ≤ field.run.offset i) →
          (field.run.get q)[i] = (field.run.get p)[i] := by
  obtain ⟨hlength, hp⟩ := ofBytes_eq_ok_iff.mp h
  have hq (field : Field) := plain_holds field (Bytes.overwrite bs start piece)
  refine ⟨plain (Bytes.overwrite bs start piece), ?_, hq, fun field i hapart => ?_⟩
  · exact ofBytes_eq_ok_iff.mpr ⟨by rwa [Bytes.length_overwrite hinside], hq⟩
  · rw [hq field i, hp field i, field.run.read_overwrite (by omega) hapart]

/-- Writing over a value gives that value and no other. -/
theorem exists_ofBytes_overwrite_value (h : ofBytes bs = .ok p) (field : Field)
    (i : Fin field.run.count) {piece : List UInt8} (hpiece : piece.length = field.run.width) :
    ∃ q, ofBytes (Bytes.overwrite bs (field.run.offset i) piece) = .ok q ∧
      (field.run.get q)[i] = field.run.read piece ∧
      ∀ (other : Field) (j : Fin other.run.count), ¬ (other = field ∧ j.val = i.val) →
        (other.run.get q)[j] = (other.run.get p)[j] := by
  have hlength := (ofBytes_eq_ok_iff.mp h).1
  have hstop := field.stop_le
  have hwidth := field.run.offset_add_width_le i
  have hinside : field.run.offset i + piece.length ≤ bs.length := by omega
  obtain ⟨q, hq, hholds, hsame⟩ := exists_ofBytes_overwrite h hinside
  refine ⟨q, hq, ?_, fun other j hother => hsame other j ?_⟩
  · rw [hholds field i]
    refine field.run.read_congr ?_
    rw [← hpiece, Bytes.take_drop_overwrite (by omega), List.take_length]
  · rw [hpiece]
    by_cases heq : other = field
    · subst heq
      exact other.run.offset_apart fun hij => hother ⟨rfl, hij⟩
    · have hj := other.run.offset_add_width_le j
      have hstart := other.run.start_le_offset j
      have hstart' := field.run.start_le_offset i
      rcases Field.apart heq with hbefore | hafter
      · exact .inl (by omega)
      · exact .inr (by omega)

/-- Writing over bytes leaves the fields that have none of them as they were. -/
theorem exists_ofBytes_overwrite_apart (h : ofBytes bs = .ok p) {start : Nat}
    {piece : List UInt8} (hinside : start + piece.length ≤ bs.length) :
    ∃ q, ofBytes (Bytes.overwrite bs start piece) = .ok q ∧ ∀ field : Field,
      (field.run.stop ≤ start ∨ start + piece.length ≤ field.run.start) →
        field.run.get q = field.run.get p := by
  obtain ⟨q, hq, -, hsame⟩ := exists_ofBytes_overwrite h hinside
  refine ⟨q, hq, fun field hapart => Vector.ext fun i hi => hsame field (Fin.mk i hi) ?_⟩
  have hlast := field.run.offset_add_width_le (Fin.mk i hi)
  have hfirst := field.run.start_le_offset (Fin.mk i hi)
  omega

/-- Writing over bytes of a field changes no other field. -/
theorem exists_ofBytes_overwrite_field (h : ofBytes bs = .ok p) (field : Field) {start : Nat}
    {piece : List UInt8} (hstart : field.run.start ≤ start)
    (hstop : start + piece.length ≤ field.run.stop) :
    ∃ q, ofBytes (Bytes.overwrite bs start piece) = .ok q ∧
      ∀ other : Field, other ≠ field → other.run.get q = other.run.get p := by
  have hlength := (ofBytes_eq_ok_iff.mp h).1
  have hfield := field.stop_le
  have hinside : start + piece.length ≤ bs.length := by omega
  obtain ⟨q, hq, hsame⟩ := exists_ofBytes_overwrite_apart h hinside
  refine ⟨q, hq, fun other hother => hsame other ?_⟩
  rcases Field.apart hother with hbefore | hafter
  · exact .inl (by omega)
  · exact .inr (by omega)

/-- Bytes of no field do not matter. -/
theorem ofBytes_overwrite_unused (h : ofBytes bs = .ok p) {n : Nat} (hn : n < bs.length)
    (hunused : Unused n) (byte : UInt8) : ofBytes (Bytes.overwrite bs n [byte]) = .ok p := by
  have hinside : n + [byte].length ≤ bs.length := hn
  obtain ⟨q, hq, hsame⟩ := exists_ofBytes_overwrite_apart h hinside
  have heq : q = p := ext_fields fun field => hsame field (field.apart_unused hunused).symm
  rw [hq, heq]

theorem coarseSetting_eq_none_iff {dbm : Float32} : coarseSetting dbm = none ↔ ¬ dbm < 255 := by
  unfold coarseSetting skippedDbm
  split <;> simp_all

/-- **The layout of an image**: it is read without reaching past its end, and it is there exactly
if 1202 bytes are.  Each value is then the one at its offset, powers of at least 255 dBm being left
out.  Writing over a value gives that value and no other, writing over bytes of a field changes no
other field, and the bytes of no field do not matter. -/
theorem layout (bs : List UInt8) :
    (read bs : ExceptT Fault Option Params).run = some (ofBytes bs) ∧
      ((∃ p, ofBytes bs = .ok p) ↔ 1202 ≤ bs.length) ∧
      ∀ p, ofBytes bs = .ok p →
        (∀ (field : Field) (i : Fin field.run.count),
          (field.run.get p)[i] = field.run.read (bs.drop (field.run.offset i))) ∧
        (∀ i : Fin 31,
          (p.upperBand.coarseDbm[i] = none ↔
            ¬ (Word.decode (bs.drop (40 + 186 + 4 * i)) : Float32) < 255) ∧
          (p.lowerBand.coarseDbm[i] = none ↔
            ¬ (Word.decode (bs.drop (456 + 186 + 4 * i)) : Float32) < 255)) ∧
        (∀ (field : Field) (i : Fin field.run.count) (piece : List UInt8),
          piece.length = field.run.width →
          ∃ q, ofBytes (Bytes.overwrite bs (field.run.offset i) piece) = .ok q ∧
            (field.run.get q)[i] = field.run.read piece ∧
            ∀ (other : Field) (j : Fin other.run.count), ¬ (other = field ∧ j.val = i.val) →
              (other.run.get q)[j] = (other.run.get p)[j]) ∧
        (∀ (field : Field) (start : Nat) (piece : List UInt8),
          field.run.start ≤ start → start + piece.length ≤ field.run.stop →
          ∃ q, ofBytes (Bytes.overwrite bs start piece) = .ok q ∧
            ∀ other : Field, other ≠ field → other.run.get q = other.run.get p) ∧
        ∀ n byte, n < bs.length → Unused n → ofBytes (Bytes.overwrite bs n [byte]) = .ok p := by
  refine ⟨?_, ?_, fun p hp => ?_⟩
  · rw [run_read, ← ofBytes_eq]
    rfl
  · constructor
    · rintro ⟨p, hp⟩
      exact (ofBytes_eq_ok_iff.mp hp).1
    · intro hlength
      exact ⟨plain bs, ofBytes_eq_ok_iff.mpr ⟨hlength, fun field => plain_holds field bs⟩⟩
  · have hholds := (ofBytes_eq_ok_iff.mp hp).2
    refine ⟨hholds, fun i => ⟨?_, ?_⟩, ?_, ?_, ?_⟩
    · have hcoarse : p.upperBand.coarseDbm[i] = _ := hholds (.upperBand .coarseDbm) i
      rw [hcoarse, Nat.mul_comm 4]
      exact coarseSetting_eq_none_iff
    · have hcoarse : p.lowerBand.coarseDbm[i] = _ := hholds (.lowerBand .coarseDbm) i
      rw [hcoarse, Nat.mul_comm 4]
      exact coarseSetting_eq_none_iff
    · exact fun field i piece => exists_ofBytes_overwrite_value hp field i
    · exact fun field start piece => exists_ofBytes_overwrite_field hp field
    · exact fun n byte hn hunused => ofBytes_overwrite_unused hp hn hunused byte

/-- An erased region with another transmit scalar, and with another byte behind the versions. -/
theorem layout_erased :
    ∃ p, ofBytes Sample.erased = .ok p ∧
      (∃ q, ofBytes (Bytes.overwrite Sample.erased 12 [0xE8, 0x03]) = .ok q ∧
        q.txScalar = 1000 ∧ q.dcOffsets = p.dcOffsets) ∧
      ofBytes (Bytes.overwrite Sample.erased 2 [0]) = .ok p := by
  have hlength : Sample.erased.length = 2048 := List.length_replicate
  obtain ⟨-, hiff, hlayout⟩ := layout Sample.erased
  obtain ⟨p, hp⟩ := hiff.mpr (by omega)
  obtain ⟨-, -, hvalue, hfield, hunused⟩ := hlayout p hp
  obtain ⟨q, hq, hscalar, hsame⟩ := hvalue .txScalar ⟨0, by decide⟩ [0xE8, 0x03] rfl
  have hthousand : (Word.decode [0xE8, 0x03] : Int16) = 1000 := by decide
  have hgap : Unused 2 := .inl ⟨(2, 3), by decide, by decide⟩
  refine ⟨p, hp, ⟨q, hq, hscalar.trans hthousand, ?_⟩, hunused 2 0 (by omega) hgap⟩
  exact Vector.ext fun i hi => hsame .dcOffsets ⟨i, hi⟩ fun h => nomatch h.1

end Params
end Calibration
end RfidReader
