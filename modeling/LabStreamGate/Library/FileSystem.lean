import Mathlib.Data.List.Basic
import Mathlib.Order.Lattice

/-!
# Files that several writers share

A directory maps paths to inodes and every inode has bytes.  An open file is an inode with an
offset of its own, so two writers of one path overwrite each other's bytes, and a writer goes on
writing to its inode after the path has been renamed.  `create` opens with truncation, `write`
puts bytes at the writer's offset, `rename` moves a name in one step.
-/

namespace LabStreamGate

open Function

abbrev Bytes := List UInt8

/-- No two names share an inode, and inodes from `unused` on have never been given out. -/
structure DirOk {P : Type*} (dir : P → Option Nat) (unused : Nat) : Prop where
  lt : ∀ p i, dir p = some i → i < unused
  inj : ∀ p q i, dir p = some i → dir q = some i → p = q

/-- The files under the names `P`. -/
structure Fs (P : Type*) where
  dir : P → Option Nat
  data : Nat → Bytes
  unused : Nat
  ok : DirOk dir unused

/-- A file opened for writing. -/
structure Handle where
  inode : Nat
  offset : Nat
  deriving DecidableEq, Repr

/-- `old` with `new` put at `offset`; a gap before `offset` reads as zeros. -/
def overwrite (old : Bytes) (offset : Nat) (new : Bytes) : Bytes :=
  old.take offset ++ List.replicate (offset - old.length) 0 ++ new ++
    old.drop (offset + new.length)

theorem overwrite_end (old new : Bytes) : overwrite old old.length new = old ++ new := by
  simp [overwrite]

namespace DirOk

variable {P : Type*} [DecidableEq P] {dir : P → Option Nat} {unused : Nat}

-- The new name gets an inode that no other name can have.
theorem insert (h : DirOk dir unused) (p : P) :
    DirOk (update dir p (some unused)) (unused + 1) := by
  have hlt : ∀ q, q ≠ p → ∀ i, update dir p (some unused) q = some i → i < unused := by
    intro q hqp i hq
    rw [update_of_ne hqp] at hq
    exact h.lt q i hq
  constructor
  · intro q i hq
    by_cases hqp : q = p
    · simp only [hqp, update_self, Option.some.injEq] at hq
      omega
    · have := hlt q hqp i hq
      omega
  · intro q r i hq hr
    by_cases hqp : q = p <;> by_cases hrp : r = p
    · rw [hqp, hrp]
    · have := hlt r hrp i hr
      simp only [hqp, update_self, Option.some.injEq] at hq
      omega
    · have := hlt q hqp i hq
      simp only [hrp, update_self, Option.some.injEq] at hr
      omega
    · rw [update_of_ne hqp] at hq
      rw [update_of_ne hrp] at hr
      exact h.inj q r i hq hr

theorem remove (h : DirOk dir unused) (p : P) : DirOk (update dir p none) unused := by
  have hdir : ∀ q i, update dir p none q = some i → dir q = some i := by
    intro q i hq
    by_cases hqp : q = p
    · rw [hqp, update_self] at hq
      cases hq
    · rwa [update_of_ne hqp] at hq
  exact ⟨fun q i hq ↦ h.lt q i (hdir q i hq),
    fun q r i hq hr ↦ h.inj q r i (hdir q i hq) (hdir r i hr)⟩

-- Each name after the move stands for one name before it.
theorem move (h : DirOk dir unused) (p q : P) :
    DirOk (fun r ↦ if r = q then dir p else if r = p then none else dir r) unused := by
  have hdir : ∀ r i, (if r = q then dir p else if r = p then none else dir r) = some i →
      dir (if r = q then p else r) = some i ∧ (r ≠ q → r ≠ p) := by
    intro r i hr
    by_cases hrq : r = q
    · simpa [hrq] using hr
    · by_cases hrp : r = p
      · simp only [if_neg hrq, if_pos hrp, reduceCtorEq] at hr
      · simpa [hrq, hrp] using hr
  constructor
  · intro r i hr
    exact h.lt _ i (hdir r i hr).1
  · intro r s i hr hs
    obtain ⟨hr, hrp⟩ := hdir r i hr
    obtain ⟨hs, hsp⟩ := hdir s i hs
    have heq := h.inj _ _ i hr hs
    by_cases hrq : r = q <;> by_cases hsq : s = q
    · rw [hrq, hsq]
    · rw [if_pos hrq, if_neg hsq] at heq
      exact absurd heq.symm (hsp hsq)
    · rw [if_neg hrq, if_pos hsq] at heq
      exact absurd heq (hrp hrq)
    · rwa [if_neg hrq, if_neg hsq] at heq

end DirOk

namespace Fs

variable {P : Type*}

def empty : Fs P where
  dir := fun _ ↦ none
  data := fun _ ↦ []
  unused := 0
  ok := ⟨by simp, by simp⟩

/-- The bytes a reader of `p` sees, `none` where there is no such file. -/
def read (fs : Fs P) (p : P) : Option Bytes :=
  (fs.dir p).map fs.data

/-- The bytes written through `h` go to its inode, wherever that inode is named now. -/
def write (fs : Fs P) (h : Handle) (bytes : Bytes) : Fs P × Handle :=
  ({ fs with data := update fs.data h.inode (overwrite (fs.data h.inode) h.offset bytes) },
    { h with offset := h.offset + bytes.length })

variable [DecidableEq P]

/-- Opens `p` for writing: an existing file loses its bytes, a missing one is made. -/
def create (fs : Fs P) (p : P) : Fs P × Handle :=
  match fs.dir p with
  | some i => ({ fs with data := update fs.data i [] }, ⟨i, 0⟩)
  | none =>
    ({ dir := update fs.dir p (some fs.unused)
       data := update fs.data fs.unused []
       unused := fs.unused + 1
       ok := fs.ok.insert p }, ⟨fs.unused, 0⟩)

/-- Takes the name `p` away; the bytes stay for those who have the file open. -/
def remove (fs : Fs P) (p : P) : Fs P :=
  { fs with
    dir := update fs.dir p none
    ok := fs.ok.remove p }

/-- Moves the file named `p` onto the name `q`; there is none to move where `p` is missing. -/
def rename (fs : Fs P) (p q : P) : Option (Fs P) :=
  if (fs.dir p).isSome then
    some
      { fs with
        dir := fun r ↦ if r = q then fs.dir p else if r = p then none else fs.dir r
        ok := fs.ok.move p q }
  else none

variable {fs fs' : Fs P} {p q : P} {h : Handle} {bytes data : Bytes}

/-! ## One writer at a time -/

/-- `h` has the file named `p` open and has put there exactly what `data` has before its
offset. -/
structure Writing (fs : Fs P) (p : P) (h : Handle) (data : Bytes) : Prop where
  named : fs.dir p = some h.inode
  written : fs.data h.inode = data.take h.offset
  le : h.offset ≤ data.length

-- Opening with truncation leaves nothing of what was there.
theorem create_writing (fs : Fs P) (p : P) (data : Bytes) :
    (fs.create p).1.Writing p (fs.create p).2 data := by
  unfold create
  split
  · rename_i i hi
    exact ⟨hi, by simp, Nat.zero_le _⟩
  · exact ⟨by simp, by simp, Nat.zero_le _⟩

theorem create_offset (fs : Fs P) (p : P) : (fs.create p).2.offset = 0 := by
  unfold create
  split <;> rfl

-- Another name has another inode, also where the file is made anew.
theorem read_create_of_ne (hq : q ≠ p) : (fs.create p).1.read q = fs.read q := by
  unfold create read
  split
  · rename_i i hi
    cases hj : fs.dir q with
    | none => rfl
    | some j =>
      have hij : j ≠ i := fun heq ↦ hq (fs.ok.inj q p i (heq ▸ hj) hi)
      simp [update_of_ne hij]
  · show Option.map (update fs.data fs.unused []) (update fs.dir p (some fs.unused) q) = _
    rw [update_of_ne hq]
    cases hj : fs.dir q with
    | none => rfl
    | some j =>
      have hij : j ≠ fs.unused := Nat.ne_of_lt (fs.ok.lt q j hj)
      simp [update_of_ne hij]

omit [DecidableEq P] in
/-- Writing on from where `data` was left keeps the file a prefix of `data`. -/
theorem Writing.write (hw : fs.Writing p h data) (n : Nat) :
    (fs.write h ((data.drop h.offset).take n)).1.Writing p
      (fs.write h ((data.drop h.offset).take n)).2 data := by
  have hle := hw.le
  have hlen : (fs.data h.inode).length = h.offset := by
    rw [hw.written, List.length_take, Nat.min_eq_left hle]
  have hend := overwrite_end (fs.data h.inode) ((data.drop h.offset).take n)
  rw [hlen, hw.written] at hend
  refine ⟨hw.named, ?_, ?_⟩
  · simp only [Fs.write, update_self, hw.written, hend, List.length_take, List.length_drop]
    rw [List.take_add, ← List.length_drop, ← List.take_eq_take_min]
  · simp only [Fs.write, List.length_take, List.length_drop]
    omega

omit [DecidableEq P] in
theorem Writing.read_of_done (hw : fs.Writing p h data) (hdone : data.length ≤ h.offset) :
    fs.read p = some data := by
  rw [read, hw.named, Option.map_some, hw.written, List.take_of_length_le hdone]

omit [DecidableEq P] in
/-- A text that is written in one piece. -/
theorem Writing.read_write (hw : fs.Writing p h data) (hoffset : h.offset = 0) :
    (fs.write h data).1.read p = some data := by
  have hstep := hw.write data.length
  rw [hoffset, List.drop_zero, List.take_length] at hstep
  exact hstep.read_of_done (Nat.le_add_left _ _)

omit [DecidableEq P] in
/-- Bytes written to the file of `p` are not seen under another name. -/
theorem read_write_of_ne (hp : fs.dir p = some h.inode) (hq : q ≠ p) :
    (fs.write h bytes).1.read q = fs.read q := by
  show Option.map (update fs.data h.inode _) (fs.dir q) = _
  unfold read
  cases hj : fs.dir q with
  | none => rfl
  | some j =>
    have hij : j ≠ h.inode := fun heq ↦ hq (fs.ok.inj q p _ (heq ▸ hj) hp)
    simp [update_of_ne hij]

/-! ## Renaming -/

theorem rename_isSome : (fs.rename p q).isSome = (fs.read p).isSome := by
  unfold rename read
  split <;> simp_all

/-- A move changes two names and no bytes. -/
theorem rename_eq (hr : fs.rename p q = some fs') : ∃ i, fs.dir p = some i ∧
    fs'.data = fs.data ∧ fs'.unused = fs.unused ∧
    ∀ r, fs'.dir r = if r = q then some i else if r = p then none else fs.dir r := by
  unfold rename at hr
  split at hr
  · rename_i hsome
    obtain ⟨i, hi⟩ := Option.isSome_iff_exists.mp hsome
    cases hr
    refine ⟨i, hi, rfl, rfl, fun r ↦ ?_⟩
    dsimp only
    rw [hi]
  · cases hr

/-- The file found under the new name is the one that was moved. -/
theorem read_rename (hr : fs.rename p q = some fs') : fs'.read q = fs.read p := by
  unfold rename at hr
  split at hr
  · cases hr
    simp [read]
  · cases hr

end Fs

end LabStreamGate
