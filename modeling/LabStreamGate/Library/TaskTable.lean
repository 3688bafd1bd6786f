import Mathlib.Logic.Function.Basic

/-!
# Numbered tasks

Tasks get their numbers in the order in which they start, and a table has what each of them is at.
A number that has been given out is not given again.
-/

namespace LabStreamGate

open Function

variable {τ : Type*} {tasks : Nat → Option τ} {n id id' : Nat} {task task' : τ}
  {after : Option τ}

/-- Where a task found after a step of the task `id` came from. -/
theorem tasks_of_update (h : update tasks id after id' = some task') :
    (id' = id ∧ after = some task') ∨ (id' ≠ id ∧ tasks id' = some task') := by
  by_cases hid : id' = id
  · subst hid
    rw [update_self] at h
    exact .inl ⟨rfl, h⟩
  · rw [update_of_ne hid] at h
    exact .inr ⟨hid, h⟩

/-- Only the numbers below `n` belong to tasks. -/
def TasksBelow (n : Nat) (tasks : Nat → Option τ) : Prop := ∀ id, n ≤ id → tasks id = none

namespace TasksBelow

theorem of_none : TasksBelow n fun _ ↦ (none : Option τ) := fun _ _ ↦ rfl

theorem lt (h : TasksBelow n tasks) (ht : tasks id = some task) : id < n := by
  by_contra hle
  rw [h id (Nat.le_of_not_lt hle)] at ht
  cases ht

/-- A new task takes the next number. -/
theorem spawn (h : TasksBelow n tasks) : TasksBelow (n + 1) (update tasks n (some task)) := by
  intro id hid
  rw [update_of_ne (by omega)]
  exact h id (by omega)

/-- A task that is there takes a step. -/
theorem step (h : TasksBelow n tasks) (hid : id < n) : TasksBelow n (update tasks id after) := by
  intro id' hid'
  rw [update_of_ne (by omega)]
  exact h id' hid'

-- The others stay where they are when a task starts.
theorem spawn_of_some (h : TasksBelow n tasks) (ht : tasks id = some task') :
    update tasks n (some task) id = some task' := by
  rw [update_of_ne (Nat.ne_of_lt (h.lt ht))]
  exact ht

/-- No task is under way where none of those that were started is. -/
theorem all_none (h : TasksBelow n tasks)
    (hidle : (List.range n).all (fun id ↦ (tasks id).isNone) = true) (id : Nat) :
    tasks id = none := by
  by_cases hid : id < n
  · exact Option.isNone_iff_eq_none.mp (List.all_eq_true.mp hidle id (List.mem_range.mpr hid))
  · exact h id (Nat.le_of_not_lt hid)

end TasksBelow

/-- `Q` holds between every two tasks. -/
def TasksApart (Q : τ → τ → Prop) (tasks : Nat → Option τ) : Prop :=
  ∀ id id' t t', id ≠ id' → tasks id = some t → tasks id' = some t' → Q t t'

/-- After a step of one task, it is that task beside the others, and the others among themselves,
that have to be looked at. -/
theorem TasksApart.update {Q Q' : τ → τ → Prop} (h : TasksApart Q tasks)
    (hothers : ∀ id₁ id₂ t₁ t₂, id₁ ≠ id → tasks id₁ = some t₁ → tasks id₂ = some t₂ → Q t₁ t₂ →
      Q' t₁ t₂)
    (hown : ∀ t id' t', after = some t → id' ≠ id → tasks id' = some t' → Q' t t' ∧ Q' t' t) :
    TasksApart Q' (update tasks id after) := by
  intro id₁ id₂ t₁ t₂ hne h₁ h₂
  obtain ⟨rfl, hafter⟩ | ⟨hid₁, ht₁⟩ := tasks_of_update h₁ <;>
    obtain ⟨hid, hafter₂⟩ | ⟨hid₂, ht₂⟩ := tasks_of_update h₂
  · exact absurd hid.symm hne
  · exact (hown t₁ id₂ t₂ hafter hid₂ ht₂).1
  · rw [hid] at hne
    exact (hown t₂ id₁ t₁ hafter₂ hne ht₁).2
  · exact hothers id₁ id₂ t₁ t₂ hid₁ ht₁ ht₂ (h id₁ id₂ t₁ t₂ hne ht₁ ht₂)

end LabStreamGate
