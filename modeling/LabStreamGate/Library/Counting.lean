import Mathlib.Algebra.BigOperators.Group.Finset.Basic
import Mathlib.Data.List.AList

/-!
# Counting what is held

Holders are numbered in the order in which they come.  How much they have together, and how often
they hold one thing, changes by what one holder takes or gives back.  A map that keeps such counts
has an entry for what is held and for nothing else.
-/

namespace LabStreamGate

open Function

/-! ## What all of them have together -/

section

variable {β : Type*} {n i : Nat} {weight : β → Nat} {held held' : Nat → β} {b : β}

/-- What the first `n` holders have together, where `weight` says how much one of them has. -/
def totalHeld (n : Nat) (weight : β → Nat) (held : Nat → β) : Nat :=
  ∑ i ∈ Finset.range n, weight (held i)

theorem totalHeld_eq_zero (h : ∀ i, weight (held i) = 0) : totalHeld n weight held = 0 :=
  Finset.sum_eq_zero fun i _ ↦ h i

/-- A newcomer with nothing. -/
theorem totalHeld_succ (h : weight (held n) = 0) :
    totalHeld (n + 1) weight held = totalHeld n weight held := by
  unfold totalHeld
  rw [Finset.sum_range_succ, h, Nat.add_zero]

theorem totalHeld_congr (h : ∀ i, i < n → weight (held i) = weight (held' i)) :
    totalHeld n weight held = totalHeld n weight held' :=
  Finset.sum_congr rfl fun i hi ↦ h i (Finset.mem_range.mp hi)

/-- A newcomer that comes with `b`. -/
theorem totalHeld_spawn :
    totalHeld (n + 1) weight (update held n b) = totalHeld n weight held + weight b := by
  unfold totalHeld
  rw [Finset.sum_range_succ, update_self]
  congr 1
  exact totalHeld_congr fun i hi ↦ by rw [update_of_ne (Nat.ne_of_lt hi)]

/-- One holder goes from what it has to `b`. -/
theorem totalHeld_update (h : i < n) :
    totalHeld n weight (update held i b) + weight (held i) =
      totalHeld n weight held + weight b := by
  have hi : i ∈ Finset.range n := Finset.mem_range.mpr h
  have hrest : ∑ j ∈ (Finset.range n).erase i, weight (update held i b j) =
      ∑ j ∈ (Finset.range n).erase i, weight (held j) := by
    apply Finset.sum_congr rfl
    intro j hj
    rw [update_of_ne (Finset.ne_of_mem_erase hj)]
  unfold totalHeld
  rw [← Finset.add_sum_erase _ _ hi, ← Finset.add_sum_erase _ (fun j ↦ weight (held j)) hi, hrest,
    update_self]
  omega

end

/-! ## Things held -/

section

variable {γ : Type*} [DecidableEq γ] {n i : Nat} {held : Nat → List γ} {things : List γ} {g : γ}

/-- How often the first `n` holders hold `g`. -/
def timesHeld (n : Nat) (held : Nat → List γ) (g : γ) : Nat :=
  ∑ i ∈ Finset.range n, (held i).count g

theorem timesHeld_eq : timesHeld n held g = totalHeld n (List.count g) held := rfl

theorem timesHeld_of_none (h : ∀ i, held i = []) : timesHeld n held g = 0 :=
  totalHeld_eq_zero fun i ↦ by rw [h i, List.count_nil]

/-- A newcomer that holds nothing. -/
theorem timesHeld_succ (h : held n = []) : timesHeld (n + 1) held g = timesHeld n held g :=
  totalHeld_succ (by rw [h, List.count_nil])

theorem timesHeld_congr {held' : Nat → List γ} (h : ∀ i, i < n → held i = held' i) :
    timesHeld n held g = timesHeld n held' g :=
  totalHeld_congr fun i hi ↦ by rw [h i hi]

/-- Those that come later and hold nothing do not count. -/
theorem timesHeld_of_le {m : Nat} (hm : n ≤ m) (h : ∀ i, n ≤ i → held i = []) :
    timesHeld m held g = timesHeld n held g := by
  induction m, hm using Nat.le_induction with
  | base => rfl
  | succ m hm ih => rw [timesHeld_succ (h m hm), ih]

/-- One holder goes from what it has to `things`. -/
theorem timesHeld_update (h : i < n) :
    timesHeld n (update held i things) g + (held i).count g =
      timesHeld n held g + things.count g := by
  rw [timesHeld_eq, timesHeld_eq]
  exact totalHeld_update h

end

/-! ## A map of counts -/

section

variable {α : Type*} [DecidableEq α] {counts : AList fun _ : α ↦ Nat} {f g : α → Nat} {a : α}
  {n : Nat}

/-- The map has an entry for what is counted at least once, and the count there. -/
def Counts (counts : AList fun _ : α ↦ Nat) (f : α → Nat) : Prop :=
  ∀ a, counts.lookup a = if f a = 0 then none else some (f a)

theorem Counts.empty : Counts ∅ fun _ : α ↦ 0 := by
  intro a
  rw [AList.lookup_empty, if_pos rfl]

theorem Counts.congr (h : Counts counts f) (hfg : ∀ a, f a = g a) : Counts counts g := by
  intro a
  rw [h a, hfg a]

/-- What the map has, it has counted. -/
theorem Counts.lookup_eq_some_iff (h : Counts counts f) :
    counts.lookup a = some n ↔ n = f a ∧ 1 ≤ n := by
  rw [h a]
  split
  · simp only [reduceCtorEq, false_iff]
    omega
  · rw [Option.some.injEq]
    omega

theorem Counts.getD (h : Counts counts f) : (counts.lookup a).getD 0 = f a := by
  rw [h a]
  split
  · rename_i hzero
    rw [hzero, Option.getD_none]
  · rfl

theorem Counts.insert (h : Counts counts f) (hn : n ≠ 0) :
    Counts (counts.insert a n) (update f a n) := by
  intro b
  by_cases hb : b = a
  · subst hb
    rw [AList.lookup_insert, update_self, if_neg hn]
  · rw [AList.lookup_insert_ne hb, update_of_ne hb, h b]

theorem Counts.erase (h : Counts counts f) : Counts (counts.erase a) (update f a 0) := by
  intro b
  by_cases hb : b = a
  · subst hb
    rw [AList.lookup_erase, update_self, if_pos rfl]
  · rw [AList.lookup_erase_ne hb, update_of_ne hb, h b]

end

end LabStreamGate
