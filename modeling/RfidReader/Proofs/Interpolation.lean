import RfidReader.Interpolation

/-!
# RfidReader.Proofs.Interpolation

Integer tables at their samples.  In a table with ascending `x` the walk to a
sample passes only samples below it, so it stops there and gives the `y` of that
sample, untouched by the division between samples (`integer_of_mem`).
-/

namespace RfidReader
namespace Interpolation

variable {first lo sample : UInt16 × Int16} {rest samples : List (UInt16 × Int16)}

/-- The first sample of an ascending table has the smallest `x`. -/
theorem first_le (h : (first :: rest).Pairwise (·.1 < ·.1)) (hs : sample ∈ first :: rest) :
    first.1 ≤ sample.1 := by
  rcases List.mem_cons.mp hs with rfl | hs
  · exact UInt16.le_refl _
  · exact UInt16.le_of_lt ((List.pairwise_cons.mp h).1 sample hs)

/-- The last sample of an ascending table has the largest `x`. -/
theorem le_last (h : (first :: rest).Pairwise (·.1 < ·.1)) (hs : sample ∈ first :: rest) :
    sample.1 ≤ (rest.getLast?.getD first).1 := by
  induction rest generalizing first sample with
  | nil =>
      rw [List.mem_singleton.mp hs]
      exact UInt16.le_refl _
  | cons second rest ih =>
      obtain ⟨hfirst, htail⟩ := List.pairwise_cons.mp h
      rw [List.getLast?_cons, Option.getD_some]
      rcases List.mem_cons.mp hs with rfl | hs
      · exact UInt16.le_trans (UInt16.le_of_lt (hfirst second List.mem_cons_self))
          (ih htail List.mem_cons_self)
      · exact ih htail hs

/-- The walk stops at a sample further on. -/
theorem integerAbove_of_mem (h : rest.Pairwise (·.1 < ·.1)) (hs : sample ∈ rest) :
    integerAbove lo sample.1.toNat rest = sample.2 := by
  induction rest generalizing lo with
  | nil => contradiction
  | cons hi rest ih =>
      obtain ⟨hhi, htail⟩ := List.pairwise_cons.mp h
      rcases List.mem_cons.mp hs with rfl | hs
      · rw [integerAbove, if_pos rfl]
      · have hlt := UInt16.lt_iff_toNat_lt.mp (hhi sample hs)
        rw [integerAbove, if_neg (by omega), if_neg (by omega), ih htail hs]

/-- **At a sample** an ascending table gives the value of that sample. -/
theorem integer_of_mem (h : samples.Pairwise (·.1 < ·.1)) (hs : sample ∈ samples) {x : Int16}
    (hx : x.toInt = sample.1.toNat) : integer samples x = sample.2 := by
  cases samples with
  | nil => contradiction
  | cons first rest =>
      obtain ⟨hfirst, htail⟩ := List.pairwise_cons.mp h
      have hlast := UInt16.le_iff_toNat_le.mp (le_last h hs)
      rw [integer, hx]
      rcases List.mem_cons.mp hs with rfl | hs
      · rw [if_neg (by omega), if_neg (by omega), if_pos rfl]
      · have hlt := UInt16.lt_iff_toNat_lt.mp (hfirst sample hs)
        rw [if_neg (by omega), if_neg (by omega), if_neg (by omega), integerAbove_of_mem htail hs]

end Interpolation
end RfidReader
