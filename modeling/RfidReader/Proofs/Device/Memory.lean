import RfidReader.Device.Memory

/-!
# RfidReader.Proofs.Device.Memory

What a load finds after a store.

A byte string no longer than the memory overwrites each address once: the byte
at an address is the one written at its distance from the start, or the one
that was there (`byteAt_store`).  So a load over the place finds the byte
string and, behind it, the rest of what a load found before
(`toList_load_store`).
-/

namespace RfidReader
namespace Memory

/-- The byte at an address after a store, by its distance from where the store starts. -/
theorem byteAt_store (m : Memory) (a a' : UInt16) {bs : List UInt8} (h : bs.length ≤ 65536) :
    (m.store a bs).byteAt a' = bs[(a' - a).toNat]?.getD (m.byteAt a') := by
  induction bs generalizing m a with
  | nil => rfl
  | cons b bs ih =>
      rw [List.length_cons] at h
      have ha := a.toNat_lt
      have ha' := a'.toNat_lt
      have hdistance : (a' - (a + 1)).toNat =
          (65536 - (a.toNat + 1) % 65536 + a'.toNat) % 65536 := by
        rw [UInt16.toNat_sub, UInt16.toNat_add]
        rfl
      rw [store, ih _ _ (by omega), byteAt_setByte, hdistance, UInt16.toNat_sub]
      by_cases haddress : a = a'
      · -- The rest of the store is too short to come round to where it started.
        subst haddress
        have hfirst : (2 ^ 16 - a.toNat + a.toNat) % 2 ^ 16 = 0 := by omega
        rw [if_pos rfl, hfirst, List.getElem?_eq_none (by omega)]
        rfl
      · have hne : a.toNat ≠ a'.toNat := fun heq => haddress (UInt16.toNat_inj.mp heq)
        have hnext : (2 ^ 16 - a.toNat + a'.toNat) % 2 ^ 16 =
            (65536 - (a.toNat + 1) % 65536 + a'.toNat) % 65536 + 1 := by omega
        rw [if_neg haddress, hnext, List.getElem?_cons_succ]

theorem getElem_toList_load (m : Memory) (a : UInt16) {n i : Nat}
    (h : i < (m.load a n).toList.length) :
    (m.load a n).toList[i] = m.byteAt (a + UInt16.ofNat i) := by
  rw [Vector.getElem_toList]
  exact Vector.getElem_ofFn _

/-- A load over a store finds the bytes that were written, and then those that were behind. -/
theorem toList_load_store (m : Memory) (a : UInt16) {bs : List UInt8} {n : Nat}
    (hbs : bs.length ≤ n) (hn : n ≤ 65536) :
    ((m.store a bs).load a n).toList = bs ++ (m.load a n).toList.drop bs.length := by
  refine List.ext_getElem ?_ fun i hi _ => ?_
  · simp only [Vector.length_toList, List.length_append, List.length_drop]
    omega
  · rw [Vector.length_toList] at hi
    have hdistance : (a + UInt16.ofNat i - a).toNat = i := by
      rw [UInt16.add_comm, UInt16.add_sub_cancel]
      exact UInt16.toNat_ofNat_of_lt' (Nat.lt_of_lt_of_le hi hn)
    rw [getElem_toList_load, byteAt_store m a _ (Nat.le_trans hbs hn), hdistance,
      List.getElem_append]
    by_cases hin : i < bs.length
    · rw [dif_pos hin, List.getElem?_eq_getElem hin]
      rfl
    · have hout : bs.length ≤ i := Nat.le_of_not_lt hin
      rw [dif_neg hin, List.getElem?_eq_none hout, Option.getD_none, List.getElem_drop,
        getElem_toList_load, Nat.add_sub_cancel' hout]

end Memory
end RfidReader
