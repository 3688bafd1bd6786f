import Mathlib.Data.Nat.Init

/-!
# Runs that tile a range

Some runs lie in a range, one after the other and with gaps between them.  With the gaps filled they
tile it: each starts where the one before it ends.
-/

namespace LabStreamGate

/-- A half-open range of offsets in one style. -/
structure StyledRun (σ : Type) where
  start : Nat
  stop : Nat
  style : σ
  deriving DecidableEq, Repr

variable {σ : Type} {start start' middle stop len cursor : Nat} {runs runs' : List (StyledRun σ)}

/-- The runs are not empty, and they come one after the other. -/
def InOrder : Nat → Nat → List (StyledRun σ) → Prop
  | start, stop, [] => start ≤ stop
  | start, stop, run :: runs =>
    start ≤ run.start ∧ run.start < run.stop ∧ InOrder run.stop stop runs

/-- The runs are not empty, and each of them starts where the one before it ends. -/
def Covers : Nat → Nat → List (StyledRun σ) → Prop
  | start, stop, [] => start = stop
  | start, stop, run :: runs =>
    run.start = start ∧ run.start < run.stop ∧ Covers run.stop stop runs

theorem InOrder.le (h : InOrder start stop runs) : start ≤ stop := by
  induction runs generalizing start with
  | nil => exact h
  | cons run runs ih => exact Nat.le_trans h.1 (Nat.le_trans (Nat.le_of_lt h.2.1) (ih h.2.2))

theorem InOrder.mono (h : InOrder start stop runs) (hle : start' ≤ start) :
    InOrder start' stop runs := by
  cases runs with
  | nil => exact Nat.le_trans hle h
  | cons run runs => exact ⟨Nat.le_trans hle h.1, h.2⟩

theorem InOrder.append (h : InOrder start middle runs) (h' : InOrder middle stop runs') :
    InOrder start stop (runs ++ runs') := by
  induction runs generalizing start with
  | nil => exact h'.mono h
  | cons run runs ih => exact ⟨h.1, h.2.1, ih h.2.2⟩

theorem Covers.ne_nil (h : Covers start stop runs) (hlt : start < stop) : runs ≠ [] := by
  rintro rfl
  exact Nat.ne_of_lt hlt h

end LabStreamGate
