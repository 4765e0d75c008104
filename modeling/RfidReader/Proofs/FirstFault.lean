import RfidReader.Fault

/-!
# RfidReader.Proofs.FirstFault

Tables of what can be wrong, in the order in which it is found.

An entry of a table is a fault and whether it applies.  What goes down the table
stops at the first entry that does (`firstFault`), and so comes to its end exactly
if none does (`firstFault_isSome_iff`).
-/

namespace RfidReader

/-- The first fault of a table that applies. -/
def firstFault (table : List (Fault × Bool)) : Option Fault := (table.find? (·.2)).map (·.1)

@[simp] theorem firstFault_nil : firstFault [] = none := rfl

@[simp] theorem firstFault_cons (fault : Fault) (applies : Bool) (table : List (Fault × Bool)) :
    firstFault ((fault, applies) :: table) = if applies then some fault else firstFault table := by
  cases applies <;> rfl

theorem firstFault_append (table more : List (Fault × Bool)) :
    firstFault (table ++ more) = (firstFault table).or (firstFault more) := by
  rw [firstFault, List.find?_append, Option.map_or]
  rfl

theorem firstFault_isSome_iff (table : List (Fault × Bool)) :
    (firstFault table).isSome ↔ ∃ entry ∈ table, entry.2 = true := by
  rw [firstFault, Option.isSome_map, List.find?_isSome]

end RfidReader
