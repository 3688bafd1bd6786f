import LabStreamGate.Gateway.Window
import LabStreamGate.Library.JsonText

/-!
# The state file

What the file at the configured path holds while calls of `persist_registry` overlap, and after
them.  The calls take their snapshots and rename the temporary file without a common lock, so both
results need that no call opens the temporary file while another has it open.
-/

namespace LabStreamGate.Gateway

variable {json : JsonText} {stateFile : Option FilePath} {path : FilePath} {s s₀ t : State}
  {a : Action} {o : Out} {tr : List (Event State Action Out)}

/-! ## Never torn -/

/-- The registry is that of the state or of an earlier one of the run. -/
def Held (tr : List (Event State Action Out)) (s : State) (registry : Registry) : Prop :=
  registry = s.connections ∨ ∃ e ∈ tr, e.pre.connections = registry

theorem Held.snoc {registry : Registry} (h : Held tr s registry) :
    Held (tr ++ [⟨s, a, o⟩]) t registry := by
  rcases h with rfl | ⟨e, he, heq⟩
  · exact .inr ⟨⟨s, a, o⟩, by simp, rfl⟩
  · exact .inr ⟨e, List.mem_append_left _ he, heq⟩

/-- The snapshot that a call is about to write or writes. -/
def Task.snapshot : Task → Option Bytes
  | .persist (.create data) _ => some data
  | .persist (.write data _) _ => some data
  | _ => none

-- A call holds no snapshot before it has taken one.
theorem Task.snapshot_of_not_persist {task : Task}
    (h : ∀ stage caller, task = .persist stage caller → stage = .createDirAll) :
    task.snapshot = none := by
  cases task with
  | persist stage caller =>
    obtain rfl := h stage caller rfl
    rfl
  | _ => rfl

/-- A snapshot is kept as it was taken. -/
theorem Task.run_snapshot {task task' : Task} {io : Io} {e : Effect} {data : Bytes}
    (h : task.run json stateFile s io = some e) (ht : e.task = some task')
    (hdata : task'.snapshot = some data) :
    task.snapshot = some data ∨ data = serialize json s.connections := by
  rcases Task.saving_or h with ⟨stage, caller, path, rfl, -, hran⟩ | hp
  · have hresume : ∀ result, caller.resume result ≠ some task' := by
      intro result heq
      rw [snapshot_of_not_persist fun stage' caller' hpersist ↦
        absurd (hpersist ▸ heq) Caller.resume_ne_persist] at hdata
      cases hdata
    cases hran with
    | createDirAll =>
      cases ht
      cases hdata
    | snapshot =>
      cases ht
      cases hdata
      exact .inr rfl
    | create =>
      cases ht
      exact .inl hdata
    | write _ =>
      cases ht
      exact .inl hdata
    | rename _ _ => exact absurd ht (hresume _)
    | missing _ _ => exact absurd ht (hresume _)
    | failed => exact absurd ht (hresume _)
  · obtain ⟨-, -, -, hstage⟩ := Task.run_files hp h
    rw [snapshot_of_not_persist fun stage caller hpersist ↦
      hstage stage caller (hpersist ▸ ht)] at hdata
    cases hdata

/-- All snapshots and the state file are those of registries that the process had, or the file is
still the one found at the start. -/
structure Whole (json : JsonText) (path : FilePath) (s₀ : State)
    (tr : List (Event State Action Out)) (s : State) : Prop where
  below : Below s
  window : Window path s
  snapshots : ∀ id task data, s.tasks id = some task → task.snapshot = some data →
    ∃ registry, Held tr s registry ∧ data = serialize json registry
  file : s.files.read path = s₀.files.read path ∨
    ∃ registry, Held tr s registry ∧ s.files.read path = some (serialize json registry)

-- A process that was just started holds no snapshot.
theorem Whole.of_no_tasks (h : s.tasks = fun _ ↦ none) : Whole json path s [] s where
  below := .of_no_tasks h
  window := .of_no_tasks h
  snapshots := by
    intro id task data htask
    rw [h] at htask
    cases htask
  file := .inl rfl

/-- The state file changes by a rename only, and then holds the snapshot of the call. -/
theorem Window.read {id : Nat} {task : Task} {io : Io} {e : Effect} (hs : Window path s)
    (hne : path ≠ path.withExtension "tmp") (htask : s.tasks id = some task)
    (h : task.run json (some path) s io = some e) :
    e.files.read path = s.files.read path ∨
      ∃ data, task.snapshot = some data ∧ e.files.read path = some data := by
  rcases Task.saving_or h with ⟨stage, caller, path', rfl, hpath, hran⟩ | hp
  · cases hpath
    cases hran with
    | create => exact .inl (Fs.read_create_of_ne hne)
    | @write data handle count _ =>
      have hw : s.writer id = some (data, handle) := by
        rw [State.writer, htask, Option.bind_some, Task.writing]
      exact .inl (Fs.read_write_of_ne (hs.writing id data handle hw).named hne)
    | @rename data handle files hdone hrename =>
      have hw : s.writer id = some (data, handle) := by
        rw [State.writer, htask, Option.bind_some, Task.writing]
      refine .inr ⟨data, rfl, ?_⟩
      rw [← (hs.writing id data handle hw).read_of_done hdone, ← Fs.read_rename hrename]
    | _ => exact .inl rfl
  · rw [(Task.run_files hp h).1]
    exact .inl rfl

-- The state file changes by a rename only, and what is renamed is a whole snapshot.
theorem Whole.step (hs : Whole json path s₀ tr s) (hne : path ≠ path.withExtension "tmp")
    (hopen : opensAlone ⟨s, a, o⟩ = true) (h : next json (some path) s a = some (o, t)) :
    Whole json path s₀ (tr ++ [⟨s, a, o⟩]) t := by
  have hbelow := hs.below.step h
  have hwindow := hs.window.step hs.below hopen h
  have hfile : s.files.read path = s₀.files.read path ∨ ∃ registry,
      Held (tr ++ [⟨s, a, o⟩]) t registry ∧
        s.files.read path = some (serialize json registry) :=
    hs.file.imp id fun ⟨registry, hheld, hread⟩ ↦ ⟨registry, hheld.snoc, hread⟩
  have hold : ∀ id task data, s.tasks id = some task → task.snapshot = some data →
      ∃ registry, Held (tr ++ [⟨s, a, o⟩]) t registry ∧ data = serialize json registry := by
    intro id task data htask hdata
    obtain ⟨registry, hheld, heq⟩ := hs.snapshots id task data htask hdata
    exact ⟨registry, hheld.snoc, heq⟩
  cases next_moved h with
  | tick _ => exact ⟨hbelow, hwindow, hold, hfile⟩
  | reject => exact ⟨hbelow, hwindow, hold, hfile⟩
  | answer => exact ⟨hbelow, hwindow, hold, hfile⟩
  | spawn _ _ hstart =>
    refine ⟨hbelow, hwindow, ?_, hfile⟩
    intro id task data htask hdata
    rcases State.spawn_tasks htask with rfl | htask
    · cases hstart <;> cases hdata
    · exact hold id task data htask hdata
  | start hlaunch =>
    obtain ⟨-, hfiles, htasks, -⟩ := launch_eq hlaunch
    refine ⟨hbelow, hwindow, ?_, ?_⟩
    · intro id task data htask
      rw [htasks] at htask
      cases htask
    · rw [hfiles]
      exact hfile
  | @run id io task e htask hrun =>
    refine ⟨hbelow, hwindow, ?_, ?_⟩
    · intro id' task' data htask' hdata
      rcases State.apply_tasks htask' with ⟨-, hnew⟩ | ⟨-, htask'⟩
      · rcases Task.run_snapshot hrun hnew hdata with hkept | rfl
        · exact hold id task data htask hkept
        · exact ⟨s.connections, Held.snoc (.inl rfl), rfl⟩
      · exact hold id' task' data htask' hdata
    · rw [State.apply_files]
      rcases hs.window.read hne htask hrun with hread | ⟨data, hdata, hread⟩
      · rw [hread]
        exact hfile
      · obtain ⟨registry, hheld, rfl⟩ := hold id task data htask hdata
        exact .inr ⟨registry, hheld, hread⟩

/-- At every moment of a history of processes the state file is the one that the first of them
found, or all of the serialization of a registry that was in memory earlier on, and is then
restored as that registry: where the temporary file is another file, and no call of
`persist_registry` opens it while another call has it open. -/
theorem state_file_whole {config : Config} {now : UInt64} {files : Fs FilePath} {nextTask : Nat}
    (hne : path ≠ path.withExtension "tmp")
    (hlaunch : launch json (some path) config now files nextTask = some s)
    (hrun : Run (next json (some path)) s tr t) (hopen : ∀ e ∈ tr, opensAlone e = true) :
    t.files.read path = files.read path ∨ ∃ registry, Held tr t registry ∧
      t.files.read path = some (serialize json registry) ∧
      ∀ now, restore json now (t.files.read path) =
        registry.retain fun record ↦ !record.isExpired now := by
  obtain ⟨-, hfiles, htasks, -⟩ := launch_eq hlaunch
  have hwhole : Whole json path s tr t :=
    hrun.history (P := Whole json path s) (Whole.of_no_tasks htasks)
      (fun _ _ _ _ _ hv hC hstep ↦ hv.step hne hC hstep) hopen
  rcases hwhole.file with hfile | ⟨registry, hheld, hfile⟩
  · exact .inl (by rw [hfile, hfiles])
  · refine .inr ⟨registry, hheld, hfile, ?_⟩
    intro now
    rw [hfile, restore_serialize]

/-- A registration that is saved in two pieces. -/
theorem state_file_whole_sample : ∃ s tr t,
    Run (next JsonText.compact (some sampleFile)) s tr t ∧
    (t.files.read sampleFile).isSome = true ∧
    (t.files.read sampleFile = Fs.empty.read sampleFile ∨ ∃ registry, Held tr t registry ∧
      t.files.read sampleFile = some (serialize JsonText.compact registry) ∧
      ∀ now, restore JsonText.compact now (t.files.read sampleFile) =
        registry.retain fun record ↦ !record.isExpired now) := by
  obtain ⟨s, hs⟩ : ∃ s, launch JsonText.compact (some sampleFile) sampleConfig 0 Fs.empty 0 =
    some s := Option.isSome_iff_exists.mp (by decide)
  obtain ⟨tr, t, hrun, hp⟩ := exists_run (next JsonText.compact (some sampleFile)) s
    ([samplePost none, .run 0 .done, .run 0 .done, .run 0 .done, .run 0 .done,
      .run 0 (.wrote 7), .run 0 (.wrote 1024), .run 0 .done])
    (fun tr t ↦ tr.all opensAlone && (t.files.read sampleFile).isSome)
    (by cases hs; decide +kernel)
  simp only [Bool.and_eq_true, List.all_eq_true] at hp
  exact ⟨s, tr, t, hrun, hp.2, state_file_whole (by decide) hs hrun hp.1⟩

/-- A second call opens the temporary file that a first one has just written; the first call then
publishes an empty file. -/
theorem empty_file_published : ¬ ∀ s tr t,
    launch JsonText.compact (some sampleFile) sampleConfig 0 Fs.empty 0 = some s →
    Run (next JsonText.compact (some sampleFile)) s tr t →
    t.files.read sampleFile = none ∨ ∃ registry, Held tr t registry ∧
      t.files.read sampleFile = some (serialize JsonText.compact registry) := by
  intro hclaim
  obtain ⟨s, hs⟩ : ∃ s, launch JsonText.compact (some sampleFile) sampleConfig 0 Fs.empty 0 =
    some s := Option.isSome_iff_exists.mp (by decide)
  obtain ⟨tr, t, hrun, hp⟩ := exists_run (next JsonText.compact (some sampleFile)) s
    ([samplePost none, .run 0 .done, .run 0 .done, .run 0 .done, .run 0 .done,
      .run 0 (.wrote 1024), samplePost (some 10), .run 1 .done, .run 1 .done, .run 1 .done,
      .run 1 .done, .run 0 .done])
    (fun _ t ↦ t.files.read sampleFile = some [])
    (by cases hs; decide +kernel)
  rw [decide_eq_true_eq] at hp
  rcases hclaim s tr t hs hrun with hnone | ⟨registry, -, hsome⟩
  · rw [hp] at hnone
    cases hnone
  · rw [hp, Option.some.injEq] at hsome
    exact JsonText.compact_toVec_ne_nil _ hsome.symm

/-! ## Up to date -/

/-- The call has changed the registry or is about to, and has not saved it yet. -/
def Task.saving : Task → Bool
  | .launchInsert _ _ => true
  | .evict _ _ => true
  | .persist _ _ => true
  | _ => false

/-- The call will write a snapshot that is not out of date: it is still to take it, or has one of
this registry. -/
def Task.fresh (json : JsonText) (registry : Registry) : Task → Bool
  | .launchInsert _ _ => true
  | .evict _ _ => true
  | .persist .createDirAll _ => true
  | .persist .snapshot _ => true
  | .persist (.create data) _ => data = serialize json registry
  | .persist (.write _ _) _ => false
  | _ => false

theorem Task.saving_of_writing {task : Task} {w : Bytes × Handle} (h : task.writing = some w) :
    task.saving = true := by
  cases task <;> first | rfl | cases h

theorem Task.saving_of_fresh {task : Task} {registry : Registry}
    (h : task.fresh json registry = true) : task.saving = true := by
  cases task <;> first | rfl | cases h

-- All that is on its way to the file is one of these three kinds of tasks.
theorem Task.not_saving {task : Task} (hp : ∀ stage caller, task ≠ .persist stage caller)
    (hinsert : ∀ key record, task ≠ .launchInsert key record)
    (hevict : ∀ key use, task ≠ .evict key use) : task.saving = false := by
  cases task with
  | persist stage caller => exact absurd rfl (hp stage caller)
  | launchInsert key record => exact absurd rfl (hinsert key record)
  | evict key use => exact absurd rfl (hevict key use)
  | _ => rfl

/-- No file operation of a call that saves the registry is made to fail. -/
def faultless (e : Event State Action Out) : Bool :=
  match e.act, e.pre.stepping e.act with
  | .run _ (.failed _), some (.persist _ _) => false
  | _, _ => true

/-- A call that publishes an older registry than the present one leaves another call behind that
will write the present one. -/
def publishesCurrent (json : JsonText) (e : Event State Action Out) : Bool :=
  match e.act, e.pre.stepping e.act with
  | .run _ .done, some (.persist (.write data _) _) =>
    data = serialize json e.pre.connections ||
      (List.range e.pre.nextTask).any fun id ↦
        (e.pre.tasks id).any (Task.fresh json e.pre.connections)
  | _, _ => true

/-- The state file is up to date, or a call is on its way to make it so. -/
def Covered (json : JsonText) (path : FilePath) (s : State) : Prop :=
  s.files.read path = some (serialize json s.connections) ∨
    (∃ id w, s.writer id = some w) ∨
    ∃ id task, s.tasks id = some task ∧ task.fresh json s.connections = true

-- With no call in flight nothing but the file itself covers the registry.
theorem Covered.of_quiet (h : Covered json path s)
    (hquiet : ∀ id task, s.tasks id = some task → task.saving = false) :
    s.files.read path = some (serialize json s.connections) := by
  rcases h with hfile | ⟨id, w, hw⟩ | ⟨id, task, htask, hfresh⟩
  · exact hfile
  · obtain ⟨task, htask, hw⟩ := Option.bind_eq_some_iff.mp hw
    exact absurd (Task.saving_of_writing hw) (by simp [hquiet id task htask])
  · exact absurd (Task.saving_of_fresh hfresh) (by simp [hquiet id task htask])

/-- Where no file operation is made to fail, the only step that could fail is the rename of a file
that is gone, and the caller's own file is there. -/
theorem Window.no_failure {id : Nat} {task : Task} {io : Io} {e : Effect} (hs : Window path s)
    (htask : s.tasks id = some task) (hfault : faultless ⟨s, .run id io, o⟩ = true)
    (h : task.run json (some path) s io = some e) (text : String) :
    e.out ≠ .persistFailed text := by
  rcases Task.saving_or h with ⟨stage, caller, path', rfl, hpath, hran⟩ | hp
  · cases hpath
    cases hran with
    | @missing data handle hdone hrename =>
      have hw : s.writer id = some (data, handle) := by
        rw [State.writer, htask, Option.bind_some, Task.writing]
      have hsome := @Fs.rename_isSome _ _ s.files (path.withExtension "tmp") path
      rw [hrename, (hs.writing id data handle hw).read_of_done hdone] at hsome
      cases hsome
    | failed => simp [faultless, State.stepping, htask] at hfault
    | _ => simp
  · exact (Task.run_files hp h).2.2.1 text

/-- Every step but a rename keeps the file covered, whatever it was before. -/
theorem Covered.step (hs : Covered json path s) (hb : Below s) (hstart : a.isStart = false)
    (hfault : faultless ⟨s, a, o⟩ = true) (ho : o ≠ .persisted)
    (hfail : ∀ text, o ≠ .persistFailed text)
    (h : next json (some path) s a = some (o, t)) : Covered json path t := by
  cases next_moved h with
  | tick _ => exact hs
  | reject => exact hs
  | answer => exact hs
  | start hlaunch => cases hstart
  | spawn _ _ _ =>
    rcases hs with hfile | ⟨id, w, hw⟩ | ⟨id, task, htask, hfresh⟩
    · exact .inl hfile
    · obtain ⟨task, htask, hw⟩ := Option.bind_eq_some_iff.mp hw
      exact .inr (.inl ⟨id, w, Option.bind_eq_some_iff.mpr ⟨task, hb.spawn_tasks htask, hw⟩⟩)
    · exact .inr (.inr ⟨id, task, hb.spawn_tasks htask, hfresh⟩)
  | @run id io task e htask hrun =>
    have hself : ∀ {task'}, e.task = some task' → (s.apply id e).tasks id = some task' := by
      intro task' ht
      rw [State.apply_tasks_self, ht]
    rcases Task.saving_or hrun with ⟨stage, caller, path', rfl, hpath, hran⟩ | hp
    · cases hpath
      cases hran with
      | createDirAll => exact .inr (.inr ⟨id, _, hself rfl, rfl⟩)
      | snapshot => exact .inr (.inr ⟨id, _, hself rfl, decide_eq_true rfl⟩)
      | create =>
        exact .inr (.inl ⟨id, _, Option.bind_eq_some_iff.mpr ⟨_, hself rfl, rfl⟩⟩)
      | write _ =>
        exact .inr (.inl ⟨id, _, Option.bind_eq_some_iff.mpr ⟨_, hself rfl, rfl⟩⟩)
      | rename _ _ => exact absurd rfl ho
      | missing _ _ => exact absurd rfl (hfail _)
      | failed => exact absurd rfl (hfail _)
    · obtain ⟨hfiles, -⟩ := Task.run_files hp hrun
      rcases Task.run_saves hp hrun with ⟨hsame, hinsert, hevict⟩ | ⟨caller, hsaves⟩
      · have hkeep : ∀ {id' task'}, s.tasks id' = some task' → task'.saving = true →
            (s.apply id e).tasks id' = some task' := by
          intro id' task' htask' hsaving
          have hne : id' ≠ id := by
            rintro rfl
            rw [htask, Option.some.injEq] at htask'
            rw [← htask', Task.not_saving hp hinsert hevict] at hsaving
            cases hsaving
          rw [State.apply_tasks_of_ne hne, htask']
        rcases hs with hfile | ⟨id', w, hw⟩ | ⟨id', task', htask', hfresh⟩
        · refine .inl ?_
          rw [State.apply_files, State.apply_connections, hfiles, hsame, hfile]
        · obtain ⟨task', htask', hw'⟩ := Option.bind_eq_some_iff.mp hw
          have hkept := hkeep htask' (Task.saving_of_writing hw')
          exact .inr (.inl ⟨id', w, Option.bind_eq_some_iff.mpr ⟨task', hkept, hw'⟩⟩)
        · refine .inr (.inr ⟨id', task', hkeep htask' (Task.saving_of_fresh hfresh), ?_⟩)
          rw [State.apply_connections, hsame, hfresh]
      · exact .inr (.inr ⟨id, _, hself hsaves, rfl⟩)

/-- A rename publishes the present registry or leaves it to another call. -/
theorem Covered.of_persisted (hs : Window path s) (hpub : publishesCurrent json ⟨s, a, o⟩ = true)
    (ho : o = .persisted) (h : next json (some path) s a = some (o, t)) : Covered json path t := by
  cases next_moved h with
  | @run id io task e htask hrun =>
    rcases Task.saving_or hrun with ⟨stage, caller, path', rfl, hpath, hran⟩ | hp
    · cases hpath
      cases hran with
      | @rename data handle files hdone hrename =>
        have hw : s.writer id = some (data, handle) := by
          rw [State.writer, htask, Option.bind_some, Task.writing]
        have hread : files.read path = some data := by
          rw [Fs.read_rename hrename, (hs.writing id data handle hw).read_of_done hdone]
        simp only [publishesCurrent, State.stepping, htask, Bool.or_eq_true, decide_eq_true_eq,
          List.any_eq_true, List.mem_range, Option.any_eq_true] at hpub
        rcases hpub with rfl | ⟨id', -, task', htask', hfresh⟩
        · exact .inl hread
        · have hne : id' ≠ id := by
            rintro rfl
            rw [htask] at htask'
            cases htask'
            cases hfresh
          refine .inr (.inr ⟨id', task', ?_, hfresh⟩)
          rw [State.apply_tasks_of_ne hne, htask']
      | _ => cases ho
    · exact absurd ho (Task.run_files hp hrun).2.1
  | _ => cases ho

/-- What has come of the steps so far: no call failed, and since a call has published its snapshot
the state file has been covered. -/
structure Synced (json : JsonText) (path : FilePath) (tr : List (Event State Action Out))
    (s : State) : Prop where
  below : Below s
  window : Window path s
  no_failure : ∀ e ∈ tr, ∀ text, e.out ≠ .persistFailed text
  covered : (∃ e ∈ tr, e.out = .persisted) → Covered json path s

-- Each part is kept by a lemma of its own; the registry is covered from the first save on.
theorem Synced.step (hs : Synced json path tr s) (hstart : a.isStart = false)
    (hfault : faultless ⟨s, a, o⟩ = true) (hopen : opensAlone ⟨s, a, o⟩ = true)
    (hpub : publishesCurrent json ⟨s, a, o⟩ = true)
    (h : next json (some path) s a = some (o, t)) :
    Synced json path (tr ++ [⟨s, a, o⟩]) t := by
  have hfail : ∀ text, o ≠ .persistFailed text := by
    intro text
    cases next_moved h with
    | run htask hrun => exact hs.window.no_failure htask hfault hrun text
    | _ => simp
  refine ⟨hs.below.step h, hs.window.step hs.below hopen h, ?_, ?_⟩
  · intro e he
    rcases List.mem_append.mp he with he | he
    · exact hs.no_failure e he
    · rw [List.mem_singleton.mp he]
      exact hfail
  · rintro ⟨e, he, hpersisted⟩
    by_cases ho : o = .persisted
    · exact .of_persisted hs.window hpub ho h
    · have hold : e ∈ tr := by
        rcases List.mem_append.mp he with he | he
        · exact he
        · rw [List.mem_singleton.mp he] at hpersisted
          exact absurd hpersisted ho
      exact (hs.covered ⟨e, hold, hpersisted⟩).step hs.below hstart hfault ho hfail h

/-- In one process on a file system that does not fail, no call of `persist_registry` fails, and
whenever none is on its way after a first one the state file is the serialization of the registry:
where no call opens the temporary file while another has it open, and none publishes an older
registry with no other call on its way to write the present one. -/
theorem state_file_current {config : Config} {now : UInt64} {files : Fs FilePath} {nextTask : Nat}
    (hlaunch : launch json (some path) config now files nextTask = some s)
    (hrun : Run (next json (some path)) s tr t) (hstart : ∀ e ∈ tr, e.act.isStart = false)
    (hfault : ∀ e ∈ tr, faultless e = true) (hopen : ∀ e ∈ tr, opensAlone e = true)
    (hpub : ∀ e ∈ tr, publishesCurrent json e = true) :
    (∀ e ∈ tr, ∀ text, e.out ≠ .persistFailed text) ∧
      ((∃ e ∈ tr, e.out = .persisted) →
        (∀ id task, t.tasks id = some task → task.saving = false) →
        t.files.read path = some (serialize json t.connections)) := by
  have htasks := (launch_eq hlaunch).2.2.1
  have hsynced : Synced json path tr t :=
    hrun.history (P := Synced json path)
      (C := fun e ↦ e.act.isStart = false ∧ faultless e = true ∧ opensAlone e = true ∧
        publishesCurrent json e = true)
      ⟨.of_no_tasks htasks, .of_no_tasks htasks, by simp, by simp⟩
      (fun _ _ _ _ _ hv hC hstep ↦ hv.step hC.1 hC.2.1 hC.2.2.1 hC.2.2.2 hstep)
      fun e he ↦ ⟨hstart e he, hfault e he, hopen e he, hpub e he⟩
  exact ⟨hsynced.no_failure, fun hpersisted hquiet ↦ (hsynced.covered hpersisted).of_quiet hquiet⟩

/-- A call that snapshots after another one has published. -/
theorem state_file_current_sample : ∃ s tr t,
    Run (next JsonText.compact (some sampleFile)) s tr t ∧
    (∃ e ∈ tr, e.out = .persisted) ∧
    (∀ e ∈ tr, ∀ text, e.out ≠ .persistFailed text) ∧
      ((∃ e ∈ tr, e.out = .persisted) →
        (∀ id task, t.tasks id = some task → task.saving = false) →
        t.files.read sampleFile = some (serialize JsonText.compact t.connections)) := by
  obtain ⟨s, hs⟩ : ∃ s, launch JsonText.compact (some sampleFile) sampleConfig 0 Fs.empty 0 =
    some s := Option.isSome_iff_exists.mp (by decide)
  obtain ⟨tr, t, hrun, hp⟩ := exists_run (next JsonText.compact (some sampleFile)) s
    ([samplePost none, .run 0 .done, samplePost (some 10), .run 1 .done] ++
      samplePersist 0 ++ samplePersist 1 ++ [.run 0 .done, .run 1 .done])
    (fun tr _ ↦ tr.all (fun e ↦ !e.act.isStart && faultless e && opensAlone e &&
      publishesCurrent JsonText.compact e) && tr.any (fun e ↦ e.out = .persisted))
    (by cases hs; decide +kernel)
  simp only [Bool.and_eq_true, List.all_eq_true, List.any_eq_true, Bool.not_eq_true',
    decide_eq_true_eq] at hp
  obtain ⟨hall, hany⟩ := hp
  exact ⟨s, tr, t, hrun, hany, state_file_current hs hrun (fun e he ↦ (hall e he).1.1.1)
    (fun e he ↦ (hall e he).1.1.2) (fun e he ↦ (hall e he).1.2) fun e he ↦ (hall e he).2⟩

/-- Two registrations write the temporary file one after the other; the first one to rename it
takes it from the other. -/
theorem second_rename_fails : ¬ ∀ s tr t,
    launch JsonText.compact (some sampleFile) sampleConfig 0 Fs.empty 0 = some s →
    Run (next JsonText.compact (some sampleFile)) s tr t →
    (∀ e ∈ tr, e.act.isStart = false) → (∀ e ∈ tr, faultless e = true) →
    (∀ e ∈ tr, ∀ text, e.out ≠ .persistFailed text) ∧
      ((∃ e ∈ tr, e.out = .persisted) →
        (∀ id task, t.tasks id = some task → task.saving = false) →
        t.files.read sampleFile = some (serialize JsonText.compact t.connections)) := by
  intro hclaim
  obtain ⟨s, hs⟩ : ∃ s, launch JsonText.compact (some sampleFile) sampleConfig 0 Fs.empty 0 =
    some s := Option.isSome_iff_exists.mp (by decide)
  obtain ⟨tr, t, hrun, hp⟩ := exists_run (next JsonText.compact (some sampleFile)) s
    ([samplePost none, .run 0 .done, samplePost (some 10), .run 1 .done, .run 0 .done,
      .run 1 .done, .run 0 .done, .run 1 .done, .run 0 .done, .run 0 (.wrote 1024), .run 1 .done,
      .run 1 (.wrote 1024), .run 0 .done, .run 1 .done])
    (fun tr _ ↦ tr.all (fun e ↦ !e.act.isStart && faultless e) &&
      tr.any (fun e ↦ e.out =
        .persistFailed (internalIoError "No such file or directory (os error 2)")))
    (by cases hs; decide +kernel)
  simp only [Bool.and_eq_true, List.all_eq_true, List.any_eq_true, Bool.not_eq_true',
    decide_eq_true_eq] at hp
  obtain ⟨hall, e, he, hfailed⟩ := hp
  exact (hclaim s tr t hs hrun (fun e he ↦ (hall e he).1) fun e he ↦ (hall e he).2).1 e he _ hfailed

end LabStreamGate.Gateway
