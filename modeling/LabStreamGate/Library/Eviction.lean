import Mathlib.Algebra.Order.BigOperators.Group.List
import Mathlib.Algebra.Order.Group.Nat
import Mathlib.Algebra.Ring.Nat
import Mathlib.Data.List.Sort

/-!
# Eviction down to a limit

Elements are removed in their order as long as the sizes of those that are left exceed a limit; the
removal of some may fail.  What is left fits the limit or cannot be removed, and no removal is tried
that the limit would have had room for.
-/

namespace LabStreamGate

/-! ## Sorting a part of a list -/

section

variable {α : Type*} {r : α → α → Prop} [DecidableRel r] {p : α → Bool} {a : α} {l : List α}

theorem orderedInsert_of_forall (h : ∀ b ∈ l, r a b) : l.orderedInsert r a = a :: l := by
  cases l with
  | nil => rfl
  | cons b l => rw [List.orderedInsert_cons, if_pos (h b List.mem_cons_self)]

theorem filter_orderedInsert [IsTrans α r] (hsorted : l.Pairwise r) :
    (l.orderedInsert r a).filter p =
      if p a then (l.filter p).orderedInsert r a else l.filter p := by
  induction l with
  | nil => by_cases ha : p a <;> simp [ha]
  | cons b l ih =>
    obtain ⟨hb, hl⟩ := List.pairwise_cons.mp hsorted
    by_cases hab : r a b
    · -- all that comes later is not before `a` either
      have hall : ∀ c ∈ (b :: l).filter p, r a c := by
        intro c hc
        rcases List.mem_cons.mp (List.mem_filter.mp hc).1 with rfl | hc
        · exact hab
        · exact IsTrans.trans a b c hab (hb c hc)
      rw [List.orderedInsert_cons, if_pos hab, orderedInsert_of_forall hall, List.filter_cons]
    · rw [List.orderedInsert_cons, if_neg hab, List.filter_cons, List.filter_cons, ih hl]
      by_cases hpb : p b = true
      · rw [if_pos hpb, if_pos hpb, List.orderedInsert_cons, if_neg hab]
        split <;> rfl
      · rw [if_neg hpb, if_neg hpb]

/-- Sorting is stable: what is taken out of a sorted list is as it would have been sorted alone. -/
theorem filter_insertionSort [IsTrans α r] [Std.Total r] :
    (l.insertionSort r).filter p = (l.filter p).insertionSort r := by
  induction l with
  | nil => rfl
  | cons a l ih =>
    rw [List.insertionSort_cons, filter_orderedInsert (List.pairwise_insertionSort r l), ih,
      List.filter_cons]
    split <;> rfl

end

/-! ## Removing until the rest fits -/

section

variable {α : Type*} (size : α → Nat) (fails : α → Bool) (limit : Nat)

/-- The elements whose removal is tried, in their order; `total` is the size of all that is left. -/
def evict : Nat → List α → List α
  | _, [] => []
  | total, a :: l =>
    if total ≤ limit then [] else a :: evict (if fails a then total else total - size a) l

variable {size fails limit} {total spared : Nat} {l : List α} {a : α}

theorem evict_isPrefix : evict size fails limit total l <+: l := by
  induction l generalizing total with
  | nil => exact List.prefix_refl []
  | cons a l ih =>
    rw [evict]
    split
    · exact List.nil_prefix
    · exact List.prefix_cons_inj a |>.mpr ih

/-- What an attempt leaves, where `spared` is what all earlier attempts have left. -/
theorem total_step (htotal : total = spared + ((a :: l).map size).sum) :
    (if fails a then total else total - size a) =
      spared + (if fails a then size a else 0) + (l.map size).sum := by
  rw [List.map_cons, List.sum_cons] at htotal
  split <;> omega

variable [DecidableEq α] {tried later : List α}

/-- The size of what is left of a list. -/
def sizeLeft (size : α → Nat) (fails : α → Bool) (tried l : List α) : Nat :=
  ((l.filter fun a ↦ a ∉ tried ∨ fails a = true).map size).sum

theorem sizeLeft_nil : sizeLeft size fails [] l = (l.map size).sum := by
  rw [sizeLeft, List.filter_eq_self.mpr (by simp)]

theorem sizeLeft_cons (h : a ∉ l) : sizeLeft size fails (a :: tried) (a :: l) =
    (if fails a then size a else 0) + sizeLeft size fails tried l := by
  have hrest : l.filter (fun b ↦ b ∉ a :: tried ∨ fails b = true) =
      l.filter fun b ↦ b ∉ tried ∨ fails b = true := by
    refine List.filter_congr fun b hb ↦ ?_
    have hne : b ≠ a := ne_of_mem_of_not_mem hb h
    simp [hne]
  rw [sizeLeft, List.filter_cons, hrest, sizeLeft]
  by_cases hfails : fails a = true
  · rw [if_pos (by simp [hfails]), if_pos hfails, List.map_cons, List.sum_cons]
  · rw [if_neg (by simp [hfails]), if_neg hfails, Nat.zero_add]

theorem sizeLeft_perm {l' : List α} (h : l.Perm l') :
    sizeLeft size fails tried l = sizeLeft size fails tried l' :=
  ((h.filter _).map size).sum_eq

/-- What is left after two rounds is left of the rest after the first one. -/
theorem sizeLeft_append : sizeLeft size fails (tried ++ later) l =
    sizeLeft size fails later (l.filter fun a ↦ a ∉ tried ∨ fails a = true) := by
  rw [sizeLeft, sizeLeft, List.filter_filter]
  congr 2
  refine List.filter_congr fun a _ ↦ ?_
  by_cases hfails : fails a = true
  · simp [hfails]
  · simp [hfails, Bool.and_comm]

/-- What is left fits the limit, or the removal of everything has been tried. -/
theorem evict_enough (hnodup : l.Nodup) (htotal : total = spared + (l.map size).sum) :
    spared + sizeLeft size fails (evict size fails limit total l) l ≤ limit ∨
      evict size fails limit total l = l := by
  induction l generalizing total spared with
  | nil => exact .inr rfl
  | cons a l ih =>
    obtain ⟨hnew, hl⟩ := List.nodup_cons.mp hnodup
    rw [evict]
    split
    · rename_i hfits
      rw [sizeLeft_nil, ← htotal]
      exact .inl hfits
    · rw [sizeLeft_cons hnew, ← Nat.add_assoc]
      exact (ih hl (total_step htotal)).imp_right (congrArg (a :: ·))

/-- A removal is tried only where what is left exceeds the limit. -/
theorem evict_needed (hnodup : l.Nodup) (htotal : total = spared + (l.map size).sum)
    (h : evict size fails limit total l = tried ++ a :: later) :
    limit < spared + sizeLeft size fails tried l := by
  induction l generalizing total spared tried with
  | nil => simp [evict] at h
  | cons b l ih =>
    obtain ⟨hnew, hl⟩ := List.nodup_cons.mp hnodup
    rw [evict] at h
    split at h
    · simp at h
    · rename_i hexceeds
      cases tried with
      | nil =>
        rw [sizeLeft_nil, ← htotal]
        exact Nat.lt_of_not_le hexceeds
      | cons c tried =>
        obtain ⟨rfl, htail⟩ := List.cons.inj h
        rw [sizeLeft_cons hnew, ← Nat.add_assoc]
        exact ih hl (total_step htotal) htail

end

end LabStreamGate
