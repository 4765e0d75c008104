import RfidReader.Proofs.Register.BitFields
import RfidReader.Register.Map

/-!
# RfidReader.Proofs.Register.RoundTrip

Every register of the chip read back from what is written for it.

The bits of each kind of value are listed as fields (`OpStatus.fields` and so on),
and every register of the map has a layout in these terms (`Name.mapped`).  The
fields tell all values apart, except for DC offsets: the twenty bits of one are read
back as a number between -2^19 and 2^19, whatever was written (`dcOffset_read_back`).
-/

namespace RfidReader

/-! ## Fields of values -/

section Fields

open BitField

namespace OpStatus

def fields : List (BitField OpStatus) :=
  [.ofWord 0 (·.opCode), .ofBool 8 (·.busy), .ofWord 16 (·.errorCode)]

theorem exact_fields : Exact fields := by
  intro v w h
  cases v
  cases w
  simpa [fields] using h

end OpStatus

namespace RxGains

def fields : List (BitField RxGains) :=
  [.ofFin 0 2 (·.rxAtten), .ofFin 2 2 (·.pga1), .ofFin 4 2 (·.pga2), .ofFin 6 2 (·.pga3),
    .ofFin 10 2 (·.mixer), .ofBool 12 (·.pga1RinSelect), .ofBool 14 (·.mixerBandwidth)]

theorem exact_fields : Exact fields := by
  intro v w h
  cases v
  cases w
  simpa [fields] using h

end RxGains

namespace DroopCompensation

def fields : List (BitField DroopCompensation) :=
  [.ofBool 0 (·.enable), .ofWord 16 (·.intervalMs), .ofWord 24 (·.stepCdb)]

theorem exact_fields : Exact fields := by
  intro v w h
  cases v
  cases w
  simpa [fields] using h

end DroopCompensation

namespace LoopThresholds

def fields : List (BitField LoopThresholds) := [.ofWord 0 (·.stop), .ofWord 16 (·.opError)]

theorem exact_fields : Exact fields := by
  intro v w h
  cases v
  cases w
  simpa [fields] using h

end LoopThresholds

namespace SynthesizerSetting

def fields : List (BitField SynthesizerSetting) :=
  [.ofWord 0 (·.nDivider), .ofFin 16 3 (·.rIndex), .ofBool 24 (·.loopFilter)]

theorem exact_fields : Exact fields := by
  intro v w h
  cases v
  cases w
  simpa [fields] using h

end SynthesizerSetting

namespace PinChanges

def fields : List (BitField PinChanges) :=
  [.ofWord 0 (·.levelSet), .ofWord 32 (·.levelClear), .ofWord 64 (·.enableSet),
    .ofWord 96 (·.enableClear)]

theorem exact_fields : Exact fields := by
  intro v w h
  cases v
  cases w
  simpa [fields] using h

end PinChanges
end Fields

namespace Register

open BitField

/-! ## Layouts -/

/-- A register of one word has the word in its lowest bits. -/
def wordLayout (α : Type) [Word α] [LawfulWord α] [ExactWord α] (address : UInt16) (width : Nat)
    (h : Word.size α ≤ width) : BitLayout (ofWord α address width) where
  fields := [.ofWord 0 id]
  ascending := List.pairwise_singleton ..
  stop_le := by
    have : 8 * Word.size α ≤ 8 * width := Nat.mul_le_mul_left 8 h
    simpa [ofWord]
  copies_pos := Nat.one_pos
  needed_le := by simp [ofWord, length, h]
  pack_eq v := by simp [ofWord, join, get_ofWord]
  get_unpack := by simp [ofWord, get_ofWord]
  unpack_ext w w' h := by simpa using h

def flagLayout (address : UInt16) : BitLayout (ofFlag address) where
  fields := [.ofBool 0 id]
  ascending := List.pairwise_singleton ..
  stop_le := by simp [ofFlag]
  copies_pos := Nat.one_pos
  needed_le := by simp [ofFlag, length]
  pack_eq v := by simp [ofFlag, join, get_ofBool]
  get_unpack := by simp [ofFlag, get_ofBool]
  unpack_ext w w' h := by simpa using h

def opsStatusLayout : BitLayout opsStatus where
  fields := OpStatus.fields
  ascending := by simp [Ascending, OpStatus.fields, Word.size]
  stop_le := by simp [OpStatus.fields, Word.size, opsStatus]
  copies_pos := Nat.one_pos
  needed_le := by decide
  pack_eq v := by
    simp [join, OpStatus.fields, get_ofBool, get_ofWord, opsStatus, Word.toBits, Nat.add_assoc]
  get_unpack := by
    simp [OpStatus.fields, get_ofBool, get_ofWord, opsStatus, Word.toBits, Word.ofBits]
  unpack_ext w w' := OpStatus.exact_fields _ _

def coarseGainLayout : BitLayout coarseGain where
  fields := [.ofFin 0 5 id]
  ascending := List.pairwise_singleton ..
  stop_le := by simp [coarseGain]
  copies_pos := Nat.one_pos
  needed_le := by decide
  pack_eq v := by simp [coarseGain, join, get_ofFin]
  get_unpack := by simp [coarseGain, get_ofFin, lowFive]
  unpack_ext w w' h := by simpa using h

def rxGainsLayout : BitLayout rxGains where
  fields := RxGains.fields
  ascending := by simp [Ascending, RxGains.fields]
  stop_le := by simp [RxGains.fields, rxGains]
  copies_pos := Nat.one_pos
  needed_le := by decide
  pack_eq v := by simp [join, RxGains.fields, get_ofBool, get_ofFin, rxGains, Nat.add_assoc]
  get_unpack := by simp [RxGains.fields, get_ofBool, get_ofFin, rxGains, lowTwo]
  unpack_ext w w' := RxGains.exact_fields _ _

def droopLayout : BitLayout droop where
  fields := DroopCompensation.fields
  ascending := by simp [Ascending, DroopCompensation.fields, Word.size]
  stop_le := by simp [DroopCompensation.fields, Word.size, droop]
  copies_pos := Nat.one_pos
  needed_le := by decide
  pack_eq v := by
    simp [join, DroopCompensation.fields, get_ofBool, get_ofWord, droop, Word.toBits, Nat.add_assoc]
  get_unpack := by
    simp [DroopCompensation.fields, get_ofBool, get_ofWord, droop, Word.toBits, Word.ofBits]
  unpack_ext w w' := DroopCompensation.exact_fields _ _

def loopThresholdsLayout : BitLayout loopThresholds where
  fields := LoopThresholds.fields
  ascending := by simp [Ascending, LoopThresholds.fields, Word.size]
  stop_le := by simp [LoopThresholds.fields, Word.size, loopThresholds]
  copies_pos := Nat.one_pos
  needed_le := by decide
  pack_eq v := by simp [join, LoopThresholds.fields, get_ofWord, loopThresholds, Word.toBits]
  get_unpack := by
    simp [LoopThresholds.fields, get_ofWord, loopThresholds, Word.toBits, Word.ofBits]
  unpack_ext w w' := LoopThresholds.exact_fields _ _

def synthesizerLayout : BitLayout synthesizer where
  fields := SynthesizerSetting.fields
  ascending := by simp [Ascending, SynthesizerSetting.fields, Word.size]
  stop_le := by simp [SynthesizerSetting.fields, Word.size, synthesizer]
  copies_pos := by decide
  needed_le := by decide
  pack_eq v := by
    simp [join, SynthesizerSetting.fields, get_ofBool, get_ofFin, get_ofWord, synthesizer,
      Word.toBits, Nat.add_assoc]
  get_unpack := by
    simp [SynthesizerSetting.fields, get_ofBool, get_ofFin, get_ofWord, synthesizer, Word.toBits,
      Word.ofBits, lowThree]
  unpack_ext w w' := SynthesizerSetting.exact_fields _ _

def pinChangesLayout : BitLayout pinChanges where
  fields := PinChanges.fields
  ascending := by simp [Ascending, PinChanges.fields, Word.size]
  stop_le := by simp [PinChanges.fields, Word.size, pinChanges]
  copies_pos := Nat.one_pos
  needed_le := by decide
  pack_eq v := by
    simp [join, PinChanges.fields, get_ofWord, pinChanges, Word.toBits, Nat.add_assoc]
  get_unpack := by simp [PinChanges.fields, get_ofWord, pinChanges, Word.toBits, Word.ofBits]
  unpack_ext w w' := PinChanges.exact_fields _ _

/-! ## DC offset -/

/-- The lowest twenty bits of an offset. -/
def dcOffsetField : BitField Int32 where
  start := 0
  width := 20
  get v := (BitVec.ofInt 20 v.toInt).toNat
  get_lt v := (BitVec.ofInt 20 v.toInt).isLt

/-- Twenty bits are the same number in 32. -/
theorem toInt_ofInt_twenty (x : BitVec 20) : (Int32.ofInt x.toInt).toInt = x.toInt := by
  have hlow : -2 ^ 19 ≤ x.toInt := x.le_toInt
  have hhigh : x.toInt < 2 ^ 19 := x.toInt_lt
  exact Int32.toInt_ofInt_of_le (by omega) (by omega)

theorem get_dcOffsetField_unpack (w : Nat) :
    dcOffsetField.get (dcOffset.unpack w) = w % 2 ^ 20 := by
  show (BitVec.ofInt 20 (Int32.ofInt (BitVec.ofNat 20 w).toInt).toInt).toNat = _
  rw [toInt_ofInt_twenty, BitVec.ofInt_toInt, BitVec.toNat_ofNat]

def dcOffsetLayout : BitLayout dcOffset where
  fields := [dcOffsetField]
  ascending := List.pairwise_singleton ..
  stop_le := by simp [dcOffset, dcOffsetField, stop]
  copies_pos := Nat.one_pos
  needed_le := by decide
  pack_eq v := by simp [dcOffset, join, dcOffsetField]
  get_unpack := by
    simp only [List.mem_singleton, forall_eq]
    exact get_dcOffsetField_unpack
  unpack_ext w w' h := by
    have hbits := h dcOffsetField (List.mem_singleton_self _)
    rw [get_dcOffsetField_unpack, get_dcOffsetField_unpack] at hbits
    have hsame : BitVec.ofNat 20 w = BitVec.ofNat 20 w' := BitVec.eq_of_toNat_eq hbits
    exact congrArg (fun x : BitVec 20 => Int32.ofInt x.toInt) hsame

/-- The twenty bits of a DC offset are read back as a signed number. -/
theorem decode?_encode_dcOffset (v : Int32) :
    dcOffset.decode? (dcOffset.encode v) = some (Int32.ofInt (v.toInt.bmod (2 ^ 20))) := by
  let x := BitVec.ofInt 20 v.toInt
  have hx : x.toInt = v.toInt.bmod (2 ^ 20) := BitVec.toInt_ofInt ..
  rw [dcOffsetLayout.decode?_eq (Nat.le_of_eq (dcOffset.length_encode v).symm),
    decode_encode dcOffsetLayout.copies_pos (dcOffsetLayout.pack_lt v), ← hx]
  show some (Int32.ofInt (BitVec.ofNat 20 x.toNat).toInt) = _
  rw [BitVec.ofNat_toNat, BitVec.setWidth_eq]

/-- A DC offset is read back as the number of twenty bits that is congruent to it. -/
theorem dcOffset_read_back (v : Int32) : ∃ w : Int32,
    dcOffset.decode? (dcOffset.encode v) = some w ∧ -2 ^ 19 ≤ w.toInt ∧ w.toInt < 2 ^ 19 ∧
      w.toInt % 2 ^ 20 = v.toInt % 2 ^ 20 ∧
      (w = v ↔ -2 ^ 19 ≤ v.toInt ∧ v.toInt < 2 ^ 19) := by
  let x := BitVec.ofInt 20 v.toInt
  have hlow : -2 ^ 19 ≤ x.toInt := x.le_toInt
  have hhigh : x.toInt < 2 ^ 19 := x.toInt_lt
  have hw : (Int32.ofInt x.toInt).toInt = x.toInt := toInt_ofInt_twenty x
  have hbmod : x.toInt = v.toInt.bmod (2 ^ 20) := BitVec.toInt_ofInt ..
  have hback := decode?_encode_dcOffset v
  rw [← hbmod] at hback
  refine ⟨Int32.ofInt x.toInt, hback, hlow.trans_eq hw.symm, hw.trans_lt hhigh, ?_, ?_⟩
  · rw [hw, hbmod]
    exact Int.bmod_emod
  · rw [← Int32.toInt_inj, hw]
    constructor
    · intro heq
      omega
    · intro hrange
      rw [hbmod]
      exact Int.bmod_eq_of_le (by omega) (by omega)

/-! ## Every register -/

theorem exact_word (α : Type) [Word α] [LawfulWord α] :
    Exact [(BitField.ofWord 0 id : BitField α)] := by
  intro v w h
  simpa using h

theorem exact_flag : Exact [(BitField.ofBool 0 id : BitField Bool)] := by
  intro v w h
  simpa using h

theorem exact_coarseGain : Exact coarseGainLayout.fields := by
  intro v w h
  simpa [coarseGainLayout] using h

/-- The registers of the chip. -/
inductive Name where
  | opsControl
  | opsStatus
  | timestamp
  | delayUs
  | auxControl
  | loopDetectors
  | loopGainDivisor
  | loopMaxIterations
  | loopAdcTarget
  | loopThresholds
  | fineGain
  | coarseGain
  | dcOffset
  | cwIsOn
  | synthesizer
  | analogEnable
  | droop
  | lastRampUpMs
  | lastRampUpKhz
  | lastRampDownMs
  | lastRampDownKhz
  | nominalStop
  | extendedStop
  | regulatoryStop
  | txMutexTime
  | burstOffTime
  | rfMode
  | rxGains
  | pinChanges
  deriving DecidableEq

/-- A register with the layout of its values. -/
structure Mapped where
  Value : Type
  register : Register Value
  layout : BitLayout register

/-- The register of a name. -/
def Name.mapped : Name → Mapped
  | opsControl => ⟨_, Register.opsControl, wordLayout UInt8 0x0300 1 (by decide)⟩
  | opsStatus => ⟨_, _, opsStatusLayout⟩
  | timestamp => ⟨_, Register.timestamp, wordLayout _ _ _ (by decide)⟩
  | delayUs => ⟨_, Register.delayUs, wordLayout _ _ _ (by decide)⟩
  | auxControl => ⟨_, Register.auxControl, wordLayout _ _ _ (by decide)⟩
  | loopDetectors => ⟨_, Register.loopDetectors, wordLayout _ _ _ (by decide)⟩
  | loopGainDivisor => ⟨_, Register.loopGainDivisor, wordLayout _ _ _ (by decide)⟩
  | loopMaxIterations => ⟨_, Register.loopMaxIterations, wordLayout _ _ _ (by decide)⟩
  | loopAdcTarget => ⟨_, Register.loopAdcTarget, wordLayout _ _ _ (by decide)⟩
  | loopThresholds => ⟨_, _, loopThresholdsLayout⟩
  | fineGain => ⟨_, Register.fineGain, wordLayout _ _ _ (by decide)⟩
  | coarseGain => ⟨_, _, coarseGainLayout⟩
  | dcOffset => ⟨_, _, dcOffsetLayout⟩
  | cwIsOn => ⟨_, Register.cwIsOn, flagLayout _⟩
  | synthesizer => ⟨_, _, synthesizerLayout⟩
  | analogEnable => ⟨_, Register.analogEnable, flagLayout _⟩
  | droop => ⟨_, _, droopLayout⟩
  | lastRampUpMs => ⟨_, Register.lastRampUpMs, wordLayout _ _ _ (by decide)⟩
  | lastRampUpKhz => ⟨_, Register.lastRampUpKhz, wordLayout _ _ _ (by decide)⟩
  | lastRampDownMs => ⟨_, Register.lastRampDownMs, wordLayout _ _ _ (by decide)⟩
  | lastRampDownKhz => ⟨_, Register.lastRampDownKhz, wordLayout _ _ _ (by decide)⟩
  | nominalStop => ⟨_, Register.nominalStop, wordLayout _ _ _ (by decide)⟩
  | extendedStop => ⟨_, Register.extendedStop, wordLayout _ _ _ (by decide)⟩
  | regulatoryStop => ⟨_, Register.regulatoryStop, wordLayout _ _ _ (by decide)⟩
  | txMutexTime => ⟨_, Register.txMutexTime, wordLayout _ _ _ (by decide)⟩
  | burstOffTime => ⟨_, Register.burstOffTime, wordLayout _ _ _ (by decide)⟩
  | rfMode => ⟨_, Register.rfMode, wordLayout _ _ _ (by decide)⟩
  | rxGains => ⟨_, _, rxGainsLayout⟩
  | pinChanges => ⟨_, _, pinChangesLayout⟩

theorem Name.exact (name : Name) (h : name ≠ .dcOffset) : Exact name.mapped.layout.fields := by
  cases name with
  | opsStatus => exact OpStatus.exact_fields
  | loopThresholds => exact LoopThresholds.exact_fields
  | coarseGain => exact exact_coarseGain
  | dcOffset => contradiction
  | cwIsOn | analogEnable => exact exact_flag
  | synthesizer => exact SynthesizerSetting.exact_fields
  | droop => exact DroopCompensation.exact_fields
  | rxGains => exact RxGains.exact_fields
  | pinChanges => exact PinChanges.exact_fields
  | opsControl => exact exact_word UInt8
  | timestamp | delayUs | loopMaxIterations | lastRampUpMs | lastRampUpKhz | lastRampDownMs
  | lastRampDownKhz => exact exact_word UInt32
  | fineGain => exact exact_word Int16
  | _ => exact exact_word UInt16

/-- **Registers read back**: every value of every register is read back from the bytes written for
it, but for DC offsets, which come back as the number of twenty bits congruent to them.  What is
read from any bytes is read back, and written as equal entries in which the bits of no field are
clear. -/
theorem Name.read_back (name : Name) :
    (name ≠ .dcOffset → ∀ v,
      name.mapped.register.decode? (name.mapped.register.encode v) = some v) ∧
    (∀ v : Int32, ∃ w : Int32,
      Register.dcOffset.decode? (Register.dcOffset.encode v) = some w ∧
        -2 ^ 19 ≤ w.toInt ∧ w.toInt < 2 ^ 19 ∧ w.toInt % 2 ^ 20 = v.toInt % 2 ^ 20 ∧
        (w = v ↔ -2 ^ 19 ≤ v.toInt ∧ v.toInt < 2 ^ 19)) ∧
    ∀ bs, name.mapped.register.length ≤ bs.length → ∃ v,
      name.mapped.register.decode? bs = some v ∧
        name.mapped.register.decode? (name.mapped.register.encode v) = some v ∧
        ∃ entry : List UInt8, entry.length = name.mapped.register.width ∧
          name.mapped.register.encode v =
            (List.replicate name.mapped.register.copies entry).flatten ∧
          ∀ i, (Bytes.leNat entry).testBit i =
            ((Bytes.leNat (bs.take name.mapped.register.width)).testBit i &&
              name.mapped.layout.fields.any (·.covers i)) := by
  refine ⟨fun h => name.mapped.layout.decode?_encode (name.exact h), dcOffset_read_back,
    fun bs hlength => ?_⟩
  exact ⟨_, name.mapped.layout.decode?_eq hlength, name.mapped.layout.decode?_reencode bs,
    name.mapped.layout.exists_entry bs⟩

/-- Receiver gains read back, and those that two bytes of ones stand for. -/
theorem Name.read_back_gains :
    Register.rxGains.decode? (Register.rxGains.encode (.ofCodes 1 2 3 0 1))
        = some (.ofCodes 1 2 3 0 1) ∧
      ∃ v : RxGains, Register.rxGains.decode? [0xFF, 0xFF] = some v ∧
        Register.rxGains.decode? (Register.rxGains.encode v) = some v := by
  obtain ⟨hback, -, hread⟩ := Name.read_back .rxGains
  obtain ⟨v, hv, hagain, -⟩ := hread [0xFF, 0xFF] (by decide)
  exact ⟨hback (by decide) _, v, hv, hagain⟩

end Register
end RfidReader
