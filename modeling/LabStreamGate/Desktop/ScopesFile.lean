import Mathlib.Algebra.Ring.Nat
import LabStreamGate.Library.Run
import LabStreamGate.Desktop.Models

/-!
# Writing `scopes.toml`

One call of `write_scopes_to_disk`, cut where the file system is asked: the text is made first, then
the directory, then the file is opened with truncation and the text goes into it in pieces.  An
error is logged and ends the call.
-/

namespace LabStreamGate.Desktop

/-- The name within the configuration directory. -/
def scopesFile : String := "scopes.toml"

/-- The answer of the file system; a write takes as much as it likes. -/
inductive FileIo
  | done
  | wrote (count : Nat)
  | failed (error : String)
  deriving DecidableEq, Repr

def FileIo.count : FileIo → Nat
  | .wrote count => count
  | _ => 0

def FileIo.isFailed : FileIo → Bool
  | .failed _ => true
  | _ => false

/-- Where a `persist_to` call is, with the text it has to write. -/
inductive WriteStage
  | createDirAll (data : Bytes)
  | create (data : Bytes)
  | write (data : Bytes) (handle : Handle)
  deriving DecidableEq, Repr

def WriteStage.run (fs : Fs String) : WriteStage → FileIo → Option (Fs String × Option WriteStage)
  | .createDirAll data, .done => some (fs, some (.create data))
  | .create data, .done =>
    let opened := fs.create scopesFile
    some (opened.1, some (.write data opened.2))
  | .write data handle, .wrote count =>
    if handle.offset < data.length then
      let written := fs.write handle ((data.drop handle.offset).take count)
      some (written.1, some (.write data written.2))
    else none
  | .write data handle, .done => if data.length ≤ handle.offset then some (fs, none) else none
  | _, .failed _ => some (fs, none)
  | _, _ => none

/-- The call on its own, from its first step on. -/
def writeNext : Fs String × Option WriteStage → FileIo →
    Option (Unit × (Fs String × Option WriteStage))
  | (fs, some stage), io => (stage.run fs io).map fun r ↦ ((), r)
  | (_, none), _ => none

abbrev WriteEvent := Event (Fs String × Option WriteStage) FileIo Unit

/-- The step that opens the file, which empties it. -/
def opens (e : WriteEvent) : Bool :=
  match e.pre.2, e.act with
  | some (.create _), .done => true
  | _, _ => false

/-- How much has been written. -/
def written (tr : List WriteEvent) : Nat := (tr.map fun e ↦ e.act.count).sum

/-- `write_scopes_to_disk` has taken the steps `tr`. -/
def WriteScopes (toml : TomlText) (scopes : List ScopeData) (fs : Fs String)
    (tr : List WriteEvent) (fs' : Fs String) (stage : Option WriteStage) : Prop :=
  Run writeNext (fs, some (.createDirAll (scopesText toml scopes))) tr (fs', stage)

/-! ## What a call has done to the file -/

variable {fs fs' : Fs String} {stage : WriteStage} {stage' : Option WriteStage} {data : Bytes}
  {io : FileIo} {tr : List WriteEvent}

/-- What one step of a call can come to. -/
inductive WriteStage.Ran (fs : Fs String) : WriteStage → FileIo → Fs String → Option WriteStage →
    Prop
  | createDirAll {data : Bytes} : Ran fs (.createDirAll data) .done fs (some (.create data))
  | create {data : Bytes} : Ran fs (.create data) .done (fs.create scopesFile).1
      (some (.write data (fs.create scopesFile).2))
  | write {data : Bytes} {handle : Handle} {count : Nat} : handle.offset < data.length →
      Ran fs (.write data handle) (.wrote count)
        (fs.write handle ((data.drop handle.offset).take count)).1
        (some (.write data (fs.write handle ((data.drop handle.offset).take count)).2))
  | finish {data : Bytes} {handle : Handle} : data.length ≤ handle.offset →
      Ran fs (.write data handle) .done fs none
  | fail {stage : WriteStage} {error : String} : Ran fs stage (.failed error) fs none

-- The case analysis over stages and answers, made once.
theorem WriteStage.run_ran (h : stage.run fs io = some (fs', stage')) :
    stage.Ran fs io fs' stage' := by
  cases io with
  | failed error =>
    cases stage <;> cases h <;> exact .fail
  | done =>
    cases stage with
    | createDirAll data =>
      cases h
      exact .createDirAll
    | create data =>
      cases h
      exact .create
    | write data handle =>
      simp only [run, Option.ite_none_right_eq_some] at h
      obtain ⟨hle, h⟩ := h
      cases h
      exact .finish hle
  | wrote count =>
    cases stage with
    | createDirAll data => cases h
    | create data => cases h
    | write data handle =>
      simp only [run, Option.ite_none_right_eq_some] at h
      obtain ⟨hlt, h⟩ := h
      cases h
      exact .write hlt

/-- A call with the text `data`, begun with the files `fs₀`, after the steps `tr`. -/
inductive Progress (fs₀ : Fs String) (data : Bytes) (tr : List WriteEvent) :
    Fs String × Option WriteStage → Prop
  | waiting {fs : Fs String} {stage : WriteStage} : tr.any opens = false → written tr = 0 →
      fs.read scopesFile = fs₀.read scopesFile →
      stage = .createDirAll data ∨ stage = .create data → Progress fs₀ data tr (fs, some stage)
  | writing {fs : Fs String} {handle : Handle} : tr.any opens = true →
      fs.Writing scopesFile handle data → handle.offset = min (written tr) data.length →
      Progress fs₀ data tr (fs, some (.write data handle))
  | finished {fs : Fs String} : tr.any opens = true →
      fs.read scopesFile = some (data.take (written tr)) → data.length ≤ written tr →
      Progress fs₀ data tr (fs, none)
  | failed {fs : Fs String} : (∃ e ∈ tr, e.act.isFailed = true) →
      (tr.any opens = false ∧ fs.read scopesFile = fs₀.read scopesFile) ∨
        (tr.any opens = true ∧ fs.read scopesFile = some (data.take (written tr))) →
      Progress fs₀ data tr (fs, none)

theorem written_snoc {e : WriteEvent} : written (tr ++ [e]) = written tr + e.act.count := by
  simp [written]

theorem read_of_writing {handle : Handle} (hw : fs.Writing scopesFile handle data)
    (ho : handle.offset = min (written tr) data.length) :
    fs.read scopesFile = some (data.take (written tr)) := by
  rw [Fs.read, hw.named, Option.map_some, hw.written, ho, ← List.take_eq_take_min]

-- The induction step: each stage has one form of progress that it can be in.
theorem Progress.step {fs₀ : Fs String} (hp : Progress fs₀ data tr (fs, some stage))
    (h : stage.Ran fs io fs' stage') :
    Progress fs₀ data (tr ++ [⟨(fs, some stage), io, ()⟩]) (fs', stage') := by
  have hopens : ∀ e, (tr ++ [e]).any opens = (tr.any opens || opens e) := by simp
  cases h with
  | createDirAll =>
    cases hp with
    | waiting hnot hzero hread hstage =>
      obtain rfl : _ = data := by simpa using hstage
      refine .waiting ?_ ?_ hread (.inr rfl)
      · rw [hopens, hnot]
        rfl
      · rw [written_snoc, hzero]
        rfl
  | create =>
    cases hp with
    | waiting hnot hzero hread hstage =>
      obtain rfl : _ = data := by simpa using hstage
      refine .writing ?_ (Fs.create_writing ..) ?_
      · rw [hopens]
        exact Bool.or_true _
      · rw [Fs.create_offset, written_snoc, hzero]
        exact (Nat.zero_min _).symm
  | write hlt =>
    cases hp with
    | waiting _ _ _ hstage => simp at hstage
    | writing hopen hw ho =>
      refine .writing ?_ (hw.write _) ?_
      · rw [hopens, hopen]
        rfl
      · simp only [Fs.write, written_snoc, FileIo.count, List.length_take, List.length_drop]
        omega
  | finish hle =>
    cases hp with
    | waiting _ _ _ hstage => simp at hstage
    | writing hopen hw ho =>
      refine .finished ?_ ?_ ?_
      · rw [hopens, hopen]
        rfl
      · rw [written_snoc]
        exact read_of_writing hw ho
      · rw [written_snoc]
        exact Nat.le_add_right_of_le (by omega)
  | fail =>
    -- an error leaves the file as it is at that moment, opened or not
    refine .failed ⟨_, List.mem_append_right _ (List.mem_singleton_self _), rfl⟩ ?_
    have hnone : ∀ error, opens ⟨(fs, some stage), .failed error, ()⟩ = false := by
      intro error
      cases stage <;> rfl
    rw [hopens, hnone, Bool.or_false, written_snoc]
    cases hp with
    | waiting hnot _ hread _ => exact .inl ⟨hnot, hread⟩
    | writing hopen hw ho => exact .inr ⟨hopen, read_of_writing hw ho⟩

-- By induction on the steps of the call.
theorem progress {fs₀ : Fs String} {r : Fs String × Option WriteStage}
    (h : Run writeNext (fs₀, some (.createDirAll data)) tr r) : Progress fs₀ data tr r := by
  refine h.history (P := Progress fs₀ data) (C := fun _ ↦ True)
    (.waiting rfl rfl rfl (.inl rfl)) ?_ (fun _ _ ↦ trivial)
  rintro l ⟨fs, _ | stage⟩ io ⟨⟩ r hp - hnext
  · cases hnext
  · simp only [writeNext, Option.map_eq_some_iff, Prod.mk.injEq, true_and, exists_eq_right] at hnext
    exact hp.step (WriteStage.run_ran hnext)

/-- Until the file is opened it is as before; from then on it holds what has been written. -/
theorem read_after {fs₀ : Fs String} {r : Fs String × Option WriteStage}
    (h : Run writeNext (fs₀, some (.createDirAll data)) tr r) :
    (tr.any opens = false ∧ r.1.read scopesFile = fs₀.read scopesFile) ∨
      (tr.any opens = true ∧ r.1.read scopesFile = some (data.take (written tr))) := by
  cases progress h with
  | waiting hnot _ hread _ => exact .inl ⟨hnot, hread⟩
  | writing hopen hw ho => exact .inr ⟨hopen, read_of_writing hw ho⟩
  | finished hopen hread _ => exact .inr ⟨hopen, hread⟩
  | failed _ hread => exact hread

/-- A call that met no error has written the whole text. -/
theorem read_of_finished {fs₀ : Fs String}
    (h : Run writeNext (fs₀, some (.createDirAll data)) tr (fs, none))
    (hio : ∀ e ∈ tr, e.act.isFailed = false) : fs.read scopesFile = some data := by
  cases progress h with
  | finished _ hread hle => rw [hread, List.take_of_length_le hle]
  | failed hfailed _ =>
    obtain ⟨e, he, hfail⟩ := hfailed
    rw [hio e he] at hfail
    cases hfail

end LabStreamGate.Desktop
