import Mathlib.Data.List.DropRight

/-!
# The latest elements

A buffer with a limit keeps the last elements of all that have been put into it, however it gets rid
of the others.
-/

namespace LabStreamGate

variable {α : Type*} {l l' : List α} {limit : Nat}

/-- Removes the first element as long as there are too many. -/
def trimFront (limit : Nat) : List α → List α
  | [] => []
  | a :: l => if limit < (a :: l).length then trimFront limit l else a :: l

theorem rtake_of_le (h : l.length ≤ limit) : l.rtake limit = l := by
  rw [List.rtake, Nat.sub_eq_zero_of_le h, List.drop_zero]

theorem trimFront_eq : trimFront limit l = l.rtake limit := by
  induction l with
  | nil => exact (rtake_of_le (Nat.zero_le limit)).symm
  | cons a l ih =>
    rw [trimFront]
    split
    · rename_i hlt
      rw [List.length_cons] at hlt
      have hsub : (a :: l).length - limit = l.length - limit + 1 := by
        rw [List.length_cons]
        omega
      rw [ih, List.rtake, List.rtake, hsub, List.drop_succ_cons]
    · exact (rtake_of_le (by omega)).symm

/-- What is not kept would not be kept later either. -/
theorem rtake_append : (l.rtake limit ++ l').rtake limit = (l ++ l').rtake limit := by
  let k := l.length - limit
  have hk : k ≤ l.length := Nat.sub_le ..
  have hdrop : l.rtake limit ++ l' = (l ++ l').drop k := (List.drop_append_of_le_length hk).symm
  rw [hdrop, List.rtake, List.drop_drop, List.rtake, List.length_drop, List.length_append]
  congr 1
  omega

end LabStreamGate
