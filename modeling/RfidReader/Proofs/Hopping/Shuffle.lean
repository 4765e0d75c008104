import Mathlib.Data.List.Basic
import RfidReader.Hopping.Shuffle

/-!
# RfidReader.Proofs.Hopping.Shuffle

Hop orders hold the channels of their plan.

Every step of a shuffle exchanges two entries of the deck, so whatever picks a
source gives, the order they lead to is a permutation of the deck
(`arrange_perm`), and so is a hop order of the plan it was made from
(`order_perm`).
-/

namespace RfidReader
namespace Hopping

variable {α ρ : Type}

/-- Exchanging two entries loses none. -/
theorem swap_perm (deck : List α) (i j : Nat) : (swap deck i j).Perm deck := by
  unfold swap
  split
  · next a b hi hj =>
      obtain ⟨hilt, rfl⟩ := List.getElem?_eq_some_iff.mp hi
      obtain ⟨hjlt, rfl⟩ := List.getElem?_eq_some_iff.mp hj
      exact List.set_set_perm hilt hjlt
  · exact .refl deck

theorem arrangeFrom_perm (index : Nat) (picks : List Nat) (deck : List α) :
    (arrangeFrom index picks deck).Perm deck := by
  induction picks generalizing index deck with
  | nil => exact .refl deck
  | cons pick picks ih => exact (ih (index + 1) (swap deck index pick)).trans (swap_perm ..)

/-- **Shuffles keep the deck**, whatever the picks are. -/
theorem arrange_perm (picks : List Nat) (deck : List α) : (arrange picks deck).Perm deck :=
  arrangeFrom_perm 0 picks deck

/-- A hop order holds the channels of its plan, whatever the source of random numbers gives. -/
theorem order_perm [RandomSource ρ] (random : Bool) (plan : List α) (source : ρ) :
    ((order random plan : StateM ρ (List α)).run source).1.Perm plan := by
  cases random with
  | false => exact .refl plan
  | true => exact arrange_perm _ plan

end Hopping
end RfidReader
