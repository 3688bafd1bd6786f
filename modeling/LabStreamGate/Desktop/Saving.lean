import LabStreamGate.Library.SharedWrites
import LabStreamGate.Desktop.Frame

/-!
# The file follows the scopes

Calls of `persist_scopes` overlap: each holds the scopes for reading, so all that are under way
write the same text to the same file.  While no call fails, what the file still lacks is ahead of a
writer, or a task is on its way to write all of it.
-/

namespace LabStreamGate.Desktop

open Function

variable {toml : TomlText} {s t : State} {a : Action} {o : Out} {task : Task} {io : Io}
  {e : Effect} {id : Nat} {fs fs' : Fs String} {stage : WriteStage} {stage' : Option WriteStage}
  {fileIo : FileIo} {scopes : List ScopeData}

/-! ## Writers -/

def WriteStage.data : WriteStage → Bytes
  | .createDirAll data => data
  | .create data => data
  | .write data _ => data

/-- An open handle is that of the file, and is not past the text. -/
def WriteStage.Holds (fs : Fs String) : WriteStage → Prop
  | .write data handle => fs.dir scopesFile = some handle.inode ∧ handle.offset ≤ data.length
  | _ => True

/-- A writer has the text of the scopes as they are. -/
def Task.Fits (toml : TomlText) (scopes : List ScopeData) (fs : Fs String) : Task → Prop
  | .persistTo stage _ => stage.data = scopesText toml scopes ∧ stage.Holds fs
  | _ => True

theorem Task.Fits.of_not_writing (h : task.isWriting = false) : task.Fits toml scopes fs := by
  cases task with
  | persistTo stage caller => cases h
  | _ => trivial

theorem Task.Fits.of_isPlain (h : task.isPlain = true) : task.Fits toml scopes fs := by
  rw [isPlain, Bool.and_eq_true, Bool.not_eq_true'] at h
  exact .of_not_writing (Bool.eq_false_iff.mpr (by simpa using h.2))

/-- The name of the file stays with its inode. -/
theorem WriteStage.Ran.dir {i : Nat} (h : stage.Ran fs fileIo fs' stage')
    (hdir : fs.dir scopesFile = some i) : fs'.dir scopesFile = some i := by
  cases h with
  | create =>
    unfold Fs.create
    rw [hdir]
    exact hdir
  | _ => exact hdir

theorem WriteStage.Holds.ran {other : WriteStage} (h : stage.Ran fs fileIo fs' stage')
    (hother : other.Holds fs) : other.Holds fs' := by
  cases other with
  | write data handle => exact ⟨h.dir hother.1, hother.2⟩
  | _ => trivial

theorem Task.Fits.ran (h : stage.Ran fs fileIo fs' stage') (ht : task.Fits toml scopes fs) :
    task.Fits toml scopes fs' := by
  cases task with
  | persistTo other caller => exact ⟨ht.1, ht.2.ran h⟩
  | _ => trivial

-- A writer keeps its text, and what it holds stays that of the file.
theorem WriteStage.Ran.goOn {next : WriteStage} (h : stage.Ran fs fileIo fs' (some next))
    (hstage : stage.Holds fs) : next.data = stage.data ∧ next.Holds fs' := by
  cases h with
  | createDirAll => exact ⟨rfl, trivial⟩
  | @create data =>
    have hw := fs.create_writing scopesFile data
    exact ⟨rfl, hw.named, hw.le⟩
  | @write data handle count =>
    obtain ⟨hdir, hle⟩ := hstage
    refine ⟨rfl, hdir, ?_⟩
    simp only [Fs.write, List.length_take, List.length_drop]
    omega

/-- Every writer has the text of the scopes as they are. -/
structure Writers (toml : TomlText) (s : State) : Prop where
  below : s.Below
  fits : ∀ id task, s.tasks id = some task → task.Fits toml s.scopes s.files

-- No request and no button starts with an open file.
theorem Action.task_isWriting (h : a.task = some task) : task.isWriting = false := by
  cases a with
  | pool header request =>
    cases request with
    | get =>
      cases h
      rfl
    | _ =>
      simp only [Action.task, PoolRequest.task, Option.map_eq_some_iff] at h
      obtain ⟨_, -, rfl⟩ := h
      rfl
  | connect header request =>
    cases request with
    | patch =>
      simp only [Action.task, ConnectRequest.task, Option.map_eq_some_iff] at h
      obtain ⟨_, -, rfl⟩ := h
      rfl
    | _ =>
      cases h
      rfl
  | _ =>
    cases h
    try rfl

/-- Where the scopes are not locked no task is writing. -/
theorem Writers.not_writing (h : Writers toml s) (hread : s.scopesRead = false)
    (ht : s.tasks id = some task) : task.isWriting = false := by
  cases task with
  | persistTo stage caller =>
    rw [h.below.scopesRead ht rfl] at hread
    cases hread
  | _ => rfl

/-- A step of a task with what it and the others fit after it. -/
theorem Writers.apply (h : Writers toml s) (ht : s.tasks id = some task)
    (htask : ∀ t ∈ e.task, t.Fits toml e.scopes e.files)
    (hspawned : ∀ t ∈ e.spawned, t.Fits toml e.scopes e.files)
    (hothers : ∀ id' t, s.tasks id' = some t → t.Fits toml e.scopes e.files) :
    Writers toml (s.apply id e) := by
  refine ⟨h.below.apply ht, fun id' t ht' ↦ ?_⟩
  rw [State.apply_scopes, State.apply_files]
  rcases State.apply_tasks ht' with ⟨-, ht'⟩ | ⟨-, ht'⟩ | ht'
  · exact htask t ht'
  · exact hothers id' t ht'
  · exact hspawned t ht'

-- A step that changes the scopes finds no writer: writers hold the scopes for reading.
theorem Writers.step (h : Writers toml s) (hm : Moved toml s a o t) : Writers toml t := by
  cases hm with
  | reject => exact h
  | spawn _ htask =>
    refine ⟨h.below.spawn, fun id t ht ↦ ?_⟩
    rcases State.spawn_tasks ht with rfl | ht
    · exact .of_not_writing (Action.task_isWriting htask)
    · exact h.fits id t ht
  | read => exact ⟨h.below, h.fits⟩
  | overwrite _ hread =>
    -- the load waits until nobody reads, so there is no writer whose text would be out of date
    exact ⟨h.below, fun id t ht ↦ .of_not_writing (h.not_writing hread ht)⟩
  | @run id io task e htask hrun =>
    have hran := run_ran hrun
    have hspawned : ∀ t ∈ e.spawned, t.Fits toml e.scopes e.files :=
      fun t ht ↦ .of_isPlain (hran.spawned_isPlain ht)
    have hplain : ∀ {after : Option Task} {scopes fs}, (∀ t ∈ after, t.isPlain = true) →
        ∀ t ∈ after, t.Fits toml scopes fs :=
      fun hafter t ht ↦ .of_isPlain (hafter t ht)
    have hfree : ∀ {scopes fs}, s.scopesRead = false → ∀ id' t, s.tasks id' = some t →
        t.Fits toml scopes fs :=
      fun hread _ t ht ↦ .of_not_writing (h.not_writing hread ht)
    have hstage : ∀ {stage io files stage'}, WriteStage.Ran s.files stage io files stage' →
        ∀ id' t, s.tasks id' = some t → t.Fits toml s.scopes files :=
      fun hstep id' t ht ↦ (h.fits id' t ht).ran hstep
    refine h.apply htask ?_ hspawned ?_
    · cases hran with
      | quiet _ _ _ hafter => exact hplain hafter
      | launch => exact hplain resume_isPlain
      | finish => exact hplain resume_isPlain
      | snapshot =>
        rintro t ⟨⟩
        exact ⟨rfl, trivial⟩
      | goOn hstep =>
        rintro t ⟨⟩
        obtain ⟨hdata, hholds⟩ := h.fits _ _ htask
        obtain ⟨hdata', hholds'⟩ := hstep.goOn hholds
        exact ⟨hdata'.trans hdata, hholds'⟩
      | _ =>
        rintro t ⟨⟩
        trivial
    · cases hran with
      | push hread => exact hfree hread
      | update hread => exact hfree hread
      | allow hread => exact hfree hread
      | remove hread => exact hfree hread
      | goOn hstep => exact hstage hstep
      | finish hstep => exact hstage hstep
      | _ => exact h.fits

theorem writers {files : Fs String} {tr : List (Event State Action Out)}
    (h : Run (next toml) (State.spawnBackground files) tr s) : Writers toml s :=
  h.invariant (C := fun _ ↦ True) ⟨fun _ _ ↦ rfl, spawnBackground_tasks⟩
    (fun _ _ _ _ hw _ hnext ↦ hw.step (next_moved hnext)) (fun _ _ ↦ trivial)

/-! ## What the file still lacks -/

/-- The tasks that will still empty the file and write the scopes as they are then. -/
def Task.willWrite : Task → Bool
  | .removeInstances _ => true
  | .persistScopes _ => true
  | .persistTo (.createDirAll _) _ => true
  | .persistTo (.create _) _ => true
  | _ => false

/-- A writer is at offset `k`. -/
def State.Ahead (s : State) (k : Nat) : Prop :=
  ∃ id data handle caller,
    s.tasks id = some (.persistTo (.write data handle) caller) ∧ handle.offset = k

def Saved (toml : TomlText) (s : State) : Prop :=
  (∃ id task, s.tasks id = some task ∧ task.willWrite = true) ∨
    s.files.FilledBut scopesFile (scopesText toml s.scopes) s.Ahead

theorem Task.savesScopes_of_willWrite (h : task.willWrite = true) : task.savesScopes = true := by
  cases task <;> first | rfl | cases h

/-- With no task under way the file has the text of the scopes. -/
theorem Saved.read_eq (h : Saved toml s) (hidle : ∀ id, s.tasks id = none) :
    s.files.read scopesFile = some (scopesText toml s.scopes) := by
  rcases h with ⟨id, task, ht, -⟩ | h
  · rw [hidle id] at ht
    cases ht
  · refine h.read_eq ?_
    rintro k ⟨id, data, handle, caller, ht, -⟩
    rw [hidle id] at ht
    cases ht

/-- A task that is on its way and does not step is still on its way. -/
theorem Saved.of_other {id' : Nat} (hw : Writers toml s) (ht : s.tasks id' = some task)
    (hwill : task.willWrite = true) (hid : id' ≠ id) : Saved toml (s.apply id e) :=
  .inl ⟨id', task, hw.below.apply_tasks_of_ne hid ht, hwill⟩

/-- A step that comes to a task on its way to the file. -/
theorem Saved.of_task {after : Task} (hw : Writers toml s) (ht : s.tasks id = some task)
    (hafter : e.task = some after) (hwill : after.willWrite = true) : Saved toml (s.apply id e) :=
  .inl ⟨id, after, (hw.below.apply_tasks_self ht).trans hafter, hwill⟩

/-- The step of a task that neither changes the scopes nor writes. -/
theorem Saved.kept (h : Saved toml s) (hw : Writers toml s) (ht : s.tasks id = some task)
    (hsaves : task.savesScopes = false) (hscopes : e.scopes = s.scopes)
    (hfiles : e.files = s.files) : Saved toml (s.apply id e) := by
  rcases h with ⟨id', task', ht', hwill⟩ | h
  · refine .of_other hw ht' hwill ?_
    rintro rfl
    obtain rfl := Option.some.inj (ht.symm.trans ht')
    rw [Task.savesScopes_of_willWrite hwill] at hsaves
    cases hsaves
  · right
    rw [State.apply_files, State.apply_scopes, hscopes, hfiles]
    refine h.mono ?_
    rintro k - ⟨id', data, handle, caller, ht', hk⟩
    refine ⟨id', data, handle, caller, hw.below.apply_tasks_of_ne ?_ ht', hk⟩
    rintro rfl
    obtain rfl := Option.some.inj (ht.symm.trans ht')
    cases hsaves

/-- A writer goes on. -/
theorem Saved.goOn {caller : Caller} {next : WriteStage} (h : Saved toml s) (hw : Writers toml s)
    (ht : s.tasks id = some (.persistTo stage caller))
    (hran : stage.Ran s.files fileIo fs (some next)) :
    Saved toml (s.apply id
      { s.keep .silent (some (.persistTo next caller)) with files := fs }) := by
  cases hran with
  | createDirAll => exact .of_task hw ht rfl rfl
  | @create data =>
    obtain ⟨rfl, -⟩ := hw.fits _ _ ht
    right
    rw [State.apply_files, State.apply_scopes]
    refine Fs.create_filledBut ⟨id, _, _, caller, hw.below.apply_tasks_self ht, ?_⟩
    unfold Fs.create
    split <;> rfl
  | @write data handle count hlt =>
    obtain ⟨hdata, hdir, hle⟩ := hw.fits _ _ ht
    obtain rfl : data = scopesText toml s.scopes := hdata
    rcases h with ⟨id', task', ht', hwill⟩ | h
    -- some other task still has everything to write
    · refine .of_other hw ht' hwill ?_
      rintro rfl
      obtain rfl := Option.some.inj (ht.symm.trans ht')
      cases hwill
    -- what was ahead of this writer is written or ahead of it still
    · right
      rw [State.apply_files, State.apply_scopes]
      refine h.write hdir hle ⟨id, _, _, caller, hw.below.apply_tasks_self ht, rfl⟩ ?_
      rintro k ⟨id', data', handle', caller', ht', hk⟩
      by_cases hid : id' = id
      · subst hid
        cases ht.symm.trans ht'
        exact .inl hk.symm
      · exact .inr ⟨id', data', handle', caller', hw.below.apply_tasks_of_ne hid ht', hk⟩

/-- A writer that has written all of the text ends. -/
theorem Saved.finish {caller : Caller} (h : Saved toml s) (hw : Writers toml s)
    (ht : s.tasks id = some (.persistTo stage caller)) (hran : stage.Ran s.files fileIo fs none)
    (hio : fileIo.isFailed = false) :
    Saved toml (s.apply id { s.keep .silent (caller.resume .ok .empty) with files := fs }) := by
  cases hran with
  | fail => cases hio
  | @finish data handle hdone =>
    obtain ⟨hdata, -⟩ := hw.fits _ _ ht
    obtain rfl : data = scopesText toml s.scopes := hdata
    rcases h with ⟨id', task', ht', hwill⟩ | h
    · refine .of_other hw ht' hwill ?_
      rintro rfl
      obtain rfl := Option.some.inj (ht.symm.trans ht')
      cases hwill
    · right
      rw [State.apply_files, State.apply_scopes]
      refine h.mono ?_
      -- this writer is past the end, so nothing was ahead of it
      rintro k hk ⟨id', data', handle', caller', ht', rfl⟩
      refine ⟨id', data', handle', caller', hw.below.apply_tasks_of_ne ?_ ht', rfl⟩
      rintro rfl
      cases ht.symm.trans ht'
      exact absurd hdone (Nat.not_le_of_lt hk)

/-- The call that an action goes on with meets an error. -/
def Action.isFailed : Action → Bool
  | .run _ (.file io) => io.isFailed
  | _ => false

-- The invariant of overlapping calls; the load is excluded as it replaces the scopes.
theorem Saved.step (h : Saved toml s) (hw : Writers toml s) (hm : Moved toml s a o t)
    (hloader : s.loader = none) (hio : a.isFailed = false) : Saved toml t := by
  cases hm with
  | reject => exact h
  | @spawn _ started _ _ =>
    have hold : ∀ {id task}, s.tasks id = some task → (s.spawn started).tasks id = some task :=
      fun ht ↦ hw.below.spawn_tasks_of_some ht
    rcases h with ⟨id, task, ht, hwill⟩ | h
    · exact .inl ⟨id, task, hold ht, hwill⟩
    · refine .inr (h.mono ?_)
      rintro k - ⟨id, data, handle, caller, ht, hk⟩
      exact ⟨id, data, handle, caller, hold ht, hk⟩
  | read hread =>
    rw [hloader] at hread
    cases hread
  | overwrite hread =>
    rw [hloader] at hread
    cases hread
  | run htask hrun =>
    cases run_ran hrun with
    | quiet hsaves => exact h.kept hw htask hsaves rfl rfl
    | launch => exact h.kept hw htask rfl rfl rfl
    | goOn hran => exact h.goOn hw htask hran
    | finish hran => exact h.finish hw htask hran hio
    | _ => exact .of_task hw htask rfl rfl

/-! ## After start-up -/

/-- No step but the load itself makes the load go on. -/
theorem Moved.loader (hm : Moved toml s a o t) (hloader : s.loader = none) : t.loader = none := by
  cases hm with
  | reject => exact hloader
  | spawn => exact hloader
  | read hread =>
    rw [hloader] at hread
    cases hread
  | overwrite => rfl
  | run => exact State.apply_loader.trans hloader

variable {tr tr₀ : List (Event State Action Out)} {files : Fs String}

theorem loader_eq_none (h : Run (next toml) s tr t) (hloader : s.loader = none) :
    t.loader = none :=
  h.invariant (I := fun s ↦ s.loader = none) (C := fun _ ↦ True) hloader
    (fun _ _ _ _ hl _ hnext ↦ (next_moved hnext).loader hl) (fun _ _ ↦ trivial)

/-- The calls that overlap bring the file up to date, from any state in which it is not behind. -/
theorem Saved.run (h : Saved toml s) (hw : Writers toml s) (hloader : s.loader = none)
    (hrun : Run (next toml) s tr t) (hio : ∀ e ∈ tr, e.act.isFailed = false) : Saved toml t := by
  have hall : Writers toml t ∧ t.loader = none ∧ Saved toml t := by
    refine hrun.invariant (I := fun s ↦ Writers toml s ∧ s.loader = none ∧ Saved toml s)
      (C := fun e ↦ e.act.isFailed = false) ⟨hw, hloader, h⟩ ?_ hio
    rintro v a o w ⟨hv, hl, hsaved⟩ hC hnext
    have hm := next_moved hnext
    exact ⟨hv.step hm, hm.loader hl, hsaved.step hv hm hl hC⟩
  exact hall.2.2

/-- The start of a call of `persist_scopes`. -/
def savesScopes (e : Event State Action Out) : Bool :=
  match e.pre.stepping e.act with
  | some (.persistScopes _) => true
  | _ => false

-- Whoever calls it, all of the text is then still to be written.
theorem saved_of_savesScopes (hw : Writers toml s) (hm : Moved toml s a o t)
    (hsave : savesScopes ⟨s, a, o⟩ = true) : Saved toml t := by
  cases hm with
  | @run id io task e htask hrun =>
    rw [savesScopes, State.stepping, htask] at hsave
    cases task with
    | persistScopes caller =>
      cases run_ran hrun with
      | quiet hnot => cases hnot
      | snapshot => exact .of_task hw htask rfl rfl
    | _ => cases hsave
  | reject hidle =>
    rw [savesScopes, hidle] at hsave
    cases hsave
  | spawn hidle =>
    rw [savesScopes, hidle] at hsave
    cases hsave
  | _ => cases hsave

/-- Once start-up is over and the scopes have been saved by a call of `persist_scopes`, the file has
the text of the scopes in memory whenever no call is under way, however the calls overlapped. -/
theorem file_follows_scopes (hstart : Run (next toml) (State.spawnBackground files) tr₀ s)
    (hloader : s.loader = none) (h : Run (next toml) s tr t)
    (hio : ∀ e ∈ tr, e.act.isFailed = false) (hsave : ∃ e ∈ tr, savesScopes e = true)
    (hidle : ∀ id, t.tasks id = none) :
    t.files.read scopesFile = some (scopesText toml t.scopes) := by
  obtain ⟨e, he, hsave⟩ := hsave
  obtain ⟨tr₁, tr₂, rfl⟩ := List.append_of_mem he
  obtain ⟨u, hbefore, hnext, hafter⟩ := h.cut
  have hm := next_moved hnext
  have hw : Writers toml e.pre := writers (hstart.append hbefore)
  have hsaved : Saved toml u := saved_of_savesScopes hw hm hsave
  have hloader' : u.loader = none := hm.loader (loader_eq_none hbefore hloader)
  have hio' : ∀ e ∈ tr₂, e.act.isFailed = false :=
    fun e' he' ↦ hio e' (List.mem_append_right _ (List.mem_cons_of_mem _ he'))
  exact (hsaved.run (hw.step hm) hloader' hafter hio').read_eq hidle

/-- Two websites ask for control, and both calls write the file at the same time. -/
theorem file_follows_scopes_sample : ∃ toml files tr₀ s tr t,
    Run (next toml) (State.spawnBackground files) tr₀ s ∧ Run (next toml) s tr t ∧
      t.scopes.length = 2 ∧ t.files.read scopesFile = some (scopesText toml t.scopes) := by
  have hstart : Run (next .compact) (State.spawnBackground Fs.empty) _ (State.idle Fs.empty) :=
    (Run.single (a := .load) rfl).snoc (a := .load) rfl
  obtain ⟨tr, t, hrun, hp⟩ := exists_run (next .compact) (State.idle Fs.empty)
    [sampleConnect, .connect (some ⟨utf8 "https://other.example"⟩) (.post none), .run 0 .done,
      .run 1 .done, .run 0 .done, .run 1 .done, .run 0 (.file .done), .run 0 (.file .done),
      .run 0 (.file (.wrote 5)), .run 1 (.file .done), .run 1 (.file .done),
      .run 1 (.file (.wrote 4096)), .run 0 (.file (.wrote 4096)), .run 0 (.file .done),
      .run 1 (.file .done), .run 0 .done, .run 1 .done]
    (fun tr t ↦ t.scopes.length == 2 && tr.all (fun e ↦ !e.act.isFailed) && tr.any savesScopes &&
      (List.range t.nextTask).all fun id ↦ (t.tasks id).isNone)
    (by decide +kernel)
  simp only [Bool.and_eq_true, beq_iff_eq, List.all_eq_true, List.any_eq_true,
    Bool.not_eq_true'] at hp
  obtain ⟨⟨⟨hlength, hio⟩, hsave⟩, hidle⟩ := hp
  refine ⟨_, _, _, _, tr, t, hstart, hrun, hlength, ?_⟩
  exact file_follows_scopes hstart rfl hrun hio hsave
    ((below (hstart.append hrun)).all_idle (by simpa using hidle))

end LabStreamGate.Desktop
