import Mathlib.Logic.Function.Basic
import Mathlib.Order.WellFounded

/-!
# Locks for readers and writers

A lock has any number of readers or one writer, and knows the tasks by their numbers.  Where tasks
wait for locks only beyond those they hold, somebody can always go on.
-/

namespace LabStreamGate

open Function

inductive LockMode
  | read
  | write
  deriving DecidableEq, Repr

structure RwLock where
  readers : List Nat
  writer : Option Nat
  deriving DecidableEq, Repr

namespace RwLock

def free : RwLock := ⟨[], none⟩

/-- A reader is let in where no writer holds the lock, even if one waits for it; a lock that puts
writers first would let it wait. -/
def acquire (lock : RwLock) (id : Nat) : LockMode → Option RwLock
  | .read => if lock.writer = none then some { lock with readers := id :: lock.readers } else none
  | .write =>
    if lock.writer = none ∧ lock.readers = [] then some { lock with writer := some id } else none

def release (lock : RwLock) (id : Nat) : RwLock where
  readers := lock.readers.filter (· != id)
  writer := if lock.writer = some id then none else lock.writer

/-- The lock is held as `held` says, and a writer has it alone. -/
structure Tracks (lock : RwLock) (held : Nat → Option LockMode) : Prop where
  readers : ∀ id, id ∈ lock.readers ↔ held id = some .read
  writer : ∀ id, lock.writer = some id ↔ held id = some .write
  alone : lock.writer ≠ none → lock.readers = []

variable {lock lock' : RwLock} {held held' : Nat → Option LockMode} {id id' : Nat}
  {mode : LockMode}

theorem free_tracks : free.Tracks fun _ ↦ none :=
  ⟨fun _ ↦ by simp [free], fun _ ↦ by simp [free], fun h ↦ absurd rfl h⟩

namespace Tracks

theorem congr (h : lock.Tracks held) (heq : ∀ id, held' id = held id) : lock.Tracks held' := by
  obtain rfl : held' = held := funext heq
  exact h

theorem acquire (h : lock.Tracks held) (hacquire : lock.acquire id mode = some lock') :
    lock'.Tracks (update held id (some mode)) := by
  have hother : ∀ id', id' ≠ id → update held id (some mode) id' = held id' :=
    fun id' hne ↦ update_of_ne hne ..
  cases mode with
  | read =>
    simp only [RwLock.acquire, Option.ite_none_right_eq_some, Option.some.injEq] at hacquire
    obtain ⟨hwriter, rfl⟩ := hacquire
    refine ⟨fun id' ↦ ?_, fun id' ↦ ?_, fun hsome ↦ absurd hwriter hsome⟩ <;>
      by_cases hid : id' = id
    · rw [hid, update_self]
      exact ⟨fun _ ↦ rfl, fun _ ↦ List.mem_cons_self ..⟩
    · rw [hother id' hid, ← h.readers id']
      exact ⟨fun hmem ↦ (List.mem_cons.mp hmem).resolve_left hid, List.mem_cons_of_mem _⟩
    · rw [hid, update_self]
      exact ⟨fun hsome ↦ absurd (hwriter ▸ hsome) nofun, nofun⟩
    · rw [hother id' hid]
      exact h.writer id'
  | write =>
    simp only [RwLock.acquire, Option.ite_none_right_eq_some, Option.some.injEq] at hacquire
    obtain ⟨⟨hwriter, hreaders⟩, rfl⟩ := hacquire
    refine ⟨fun id' ↦ ?_, fun id' ↦ ?_, fun _ ↦ hreaders⟩ <;> by_cases hid : id' = id
    · rw [hid, update_self]
      exact ⟨fun hmem ↦ absurd (hreaders ▸ hmem) List.not_mem_nil, nofun⟩
    · rw [hother id' hid]
      exact h.readers id'
    · rw [hid, update_self]
      exact ⟨fun _ ↦ rfl, fun _ ↦ rfl⟩
    · rw [hother id' hid, ← h.writer id', hwriter]
      exact ⟨fun hsome ↦ absurd (Option.some.inj hsome).symm hid, nofun⟩

theorem release (h : lock.Tracks held) : (lock.release id).Tracks (update held id none) := by
  refine ⟨fun id' ↦ ?_, fun id' ↦ ?_, fun hsome ↦ ?_⟩
  · rw [RwLock.release, List.mem_filter, h.readers id', bne_iff_ne]
    by_cases hid : id' = id
    · simp [hid]
    · simp [hid]
  · by_cases hid : id' = id
    · rw [hid, update_self, RwLock.release]
      split <;> simp_all
    · rw [update_of_ne hid, ← h.writer id', RwLock.release]
      split
      · rename_i hwriter
        rw [hwriter]
        exact ⟨nofun, fun hsome ↦ absurd (Option.some.inj hsome).symm hid⟩
      · rfl
  · rw [RwLock.release] at hsome ⊢
    rw [h.alone fun hnone ↦ hsome (by simp [hnone]), List.filter_nil]

theorem eq_free (h : lock.Tracks held) (hnone : ∀ id, held id = none) : lock = free := by
  have hreaders : lock.readers = [] := by
    refine List.eq_nil_iff_forall_not_mem.mpr fun id hid ↦ ?_
    rw [h.readers, hnone] at hid
    cases hid
  have hwriter : lock.writer = none := by
    refine Option.eq_none_iff_forall_ne_some.mpr fun id hid ↦ ?_
    rw [h.writer, hnone] at hid
    cases hid
  obtain ⟨readers, writer⟩ := lock
  cases hreaders
  cases hwriter
  rfl

/-- A writer shares the lock with nobody. -/
theorem exclusive (h : lock.Tracks held) (hwrite : held id = some .write)
    (hheld : held id' ≠ none) : id' = id := by
  have hwriter := (h.writer id).mpr hwrite
  cases hmode : held id' with
  | none => exact absurd hmode hheld
  | some mode =>
    cases mode with
    | read =>
      have hmem := (h.readers id').mpr hmode
      rw [h.alone (by rw [hwriter]; exact nofun)] at hmem
      cases hmem
    | write =>
      have hwriter' := (h.writer id').mpr hmode
      exact Option.some.inj (hwriter'.symm.trans hwriter)

/-- A task that has to wait waits for another one. -/
theorem exists_holder (h : lock.Tracks held) (hacquire : lock.acquire id mode = none) :
    ∃ id', held id' ≠ none := by
  cases hwriter : lock.writer with
  | some id' =>
    refine ⟨id', ?_⟩
    rw [(h.writer id').mp hwriter]
    exact nofun
  | none =>
    cases mode with
    | read => simp [RwLock.acquire, hwriter] at hacquire
    | write =>
      cases hreaders : lock.readers with
      | nil => simp [RwLock.acquire, hwriter, hreaders] at hacquire
      | cons id' readers =>
        have hmem : id' ∈ lock.readers := by rw [hreaders]; exact List.mem_cons_self ..
        refine ⟨id', ?_⟩
        rw [(h.readers id').mp hmem]
        exact nofun

end Tracks

end RwLock

/-! ## Locks in an order -/

/-- Where a task that cannot go on waits for a lock that another live task holds, and no task waits
for a lock that is not beyond those it holds, some live task can go on. -/
theorem exists_going {ι T : Type*} [Preorder ι] [WellFoundedGT ι] {live goes : T → Prop}
    {waits : T → Option ι} {holds : T → ι → Prop}
    (hstuck : ∀ t, live t → ¬ goes t → ∃ i t', waits t = some i ∧ live t' ∧ holds t' i)
    (horder : ∀ t i j, holds t i → waits t = some j → i < j) {t : T} (ht : live t) :
    ∃ t, live t ∧ goes t := by
  by_contra hnone
  have hstuck' : ∀ t, live t → ∃ i t', waits t = some i ∧ live t' ∧ holds t' i :=
    fun t ht ↦ hstuck t ht fun hgoes ↦ hnone ⟨t, ht, hgoes⟩
  -- whoever holds what a task waits for waits for something beyond it
  have hfalse : ∀ i t, live t → waits t = some i → False := by
    intro i
    induction i using WellFoundedGT.induction with
    | ind i ih =>
      intro t ht hwaits
      obtain ⟨i', t', hwaits', ht', hholds⟩ := hstuck' t ht
      obtain rfl : i = i' := Option.some.inj (hwaits.symm.trans hwaits')
      obtain ⟨j, -, hj, -, -⟩ := hstuck' t' ht'
      exact ih j (horder t' i j hholds hj) t' ht' hj
  obtain ⟨i, -, hwaits, -, -⟩ := hstuck' t ht
  exact hfalse i t ht hwaits

end LabStreamGate
