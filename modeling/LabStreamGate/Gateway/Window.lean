import LabStreamGate.Gateway.Frame

/-!
# Who has the temporary file open

`persist_registry` writes a file whose name all calls share and renames it once it is written.
While no call opens it in another's hands, each call writes exactly its own snapshot there and
publishes all of it.
-/

namespace LabStreamGate.Gateway

variable {json : JsonText} {stateFile : Option FilePath} {path : FilePath} {s t : State}
  {a : Action} {o : Out} {tr : List (Event State Action Out)}

/-! ## Tasks have been given out -/

/-- Only the numbers below `nextTask` belong to tasks. -/
def Below (s : State) : Prop := ∀ id, s.nextTask ≤ id → s.tasks id = none

theorem Below.of_no_tasks (h : s.tasks = fun _ ↦ none) : Below s := by
  unfold Below
  rw [h]
  exact TasksBelow.of_none

theorem Below.lt {id : Nat} {task : Task} (hs : Below s) (h : s.tasks id = some task) :
    id < s.nextTask := TasksBelow.lt hs h

theorem Below.spawn_tasks {id : Nat} {task task' : Task} (hs : Below s)
    (h : s.tasks id = some task) : (s.spawn task').tasks id = some task :=
  TasksBelow.spawn_of_some hs h

-- Numbers are given in order, so the one given out is never given again.
theorem Below.step (hs : Below s) (h : next json stateFile s a = some (o, t)) : Below t := by
  cases next_moved h with
  | tick _ => exact hs
  | reject => exact hs
  | answer => exact hs
  | spawn _ _ _ => exact TasksBelow.spawn hs
  | run htask _ => exact TasksBelow.step hs (hs.lt htask)
  | start hlaunch => exact .of_no_tasks (launch_eq hlaunch).2.2.1

/-! ## The window between open and rename -/

/-- The snapshot and the handle of a call that has the temporary file open. -/
def Task.writing : Task → Option (Bytes × Handle)
  | .persist (.write data handle) _ => some (data, handle)
  | _ => none

def State.writer (s : State) (id : Nat) : Option (Bytes × Handle) :=
  (s.tasks id).bind Task.writing

/-- A call that opens the temporary file is the only one to have it open. -/
def opensAlone (e : Event State Action Out) : Bool :=
  match e.pre.stepping e.act with
  | some (.persist (.create _) _) =>
    (List.range e.pre.nextTask).all fun id ↦ (e.pre.writer id).isNone
  | _ => true

-- The guard looks at the numbers given out so far, which are all there are.
theorem Below.no_writer {id : Nat} {data : Bytes} {caller : Caller} {io : Io} (hs : Below s)
    (htask : s.tasks id = some (.persist (.create data) caller))
    (hopen : opensAlone ⟨s, .run id io, o⟩ = true) (id' : Nat) : s.writer id' = none := by
  simp only [opensAlone, State.stepping, htask, List.all_eq_true, List.mem_range,
    Option.isNone_iff_eq_none] at hopen
  by_cases hlt : id' < s.nextTask
  · exact hopen id' hlt
  · rw [State.writer, hs id' (Nat.le_of_not_lt hlt), Option.bind_none]

/-- At most one call has the temporary file open, and it has written there what its own snapshot
has before its offset. -/
structure Window (path : FilePath) (s : State) : Prop where
  unique : ∀ id id' w w', s.writer id = some w → s.writer id' = some w' → id = id'
  writing : ∀ id data handle, s.writer id = some (data, handle) →
    s.files.Writing (path.withExtension "tmp") handle data

-- With nobody writing, the temporary file may hold anything.
theorem Window.of_no_writer (h : ∀ id, s.writer id = none) : Window path s := by
  constructor
  · intro id id' w w' hw
    rw [h id] at hw
    cases hw
  · intro id data handle hw
    rw [h id] at hw
    cases hw

theorem Window.of_no_tasks (h : s.tasks = fun _ ↦ none) : Window path s := by
  apply of_no_writer
  intro id
  rw [State.writer, h, Option.bind_none]

-- A writer after a step was one before, or is the stepping task.
theorem State.apply_writer {id id' : Nat} {e : Effect} {w : Bytes × Handle}
    (h : (s.apply id e).writer id' = some w) :
    (id' = id ∧ e.task.bind Task.writing = some w) ∨ (id' ≠ id ∧ s.writer id' = some w) := by
  rw [writer, Option.bind_eq_some_iff] at h
  obtain ⟨task, htask, hw⟩ := h
  rcases State.apply_tasks htask with ⟨rfl, hnew⟩ | ⟨hne, hold⟩
  · exact .inl ⟨rfl, by rw [hnew, Option.bind_some, hw]⟩
  · exact .inr ⟨hne, by rw [writer, hold, Option.bind_some, hw]⟩

-- No task starts as a writer.
theorem State.spawn_writer {id : Nat} {task : Task} {w : Bytes × Handle} (hstart : s.Starts task)
    (h : (s.spawn task).writer id = some w) : s.writer id = some w := by
  rw [writer, Option.bind_eq_some_iff] at h
  obtain ⟨task', htask', hw⟩ := h
  rcases State.spawn_tasks htask' with rfl | hold
  · cases hstart <;> cases hw
  · rw [writer, hold, Option.bind_some, hw]

-- No caller of `persist_registry` goes on as a writer.
theorem writing_resume {caller : Caller} {result : Except String Unit} :
    (caller.resume result).bind Task.writing = none := by
  cases h : caller.resume result with
  | none => rfl
  | some task =>
    rw [Option.bind_some]
    unfold Task.writing
    split
    · exact absurd h Caller.resume_ne_persist
    · rfl

/-- Where the task that stepped does not have the file open and the files are as they were. -/
theorem Window.apply {id : Nat} {e : Effect} (hs : Window path s) (hfiles : e.files = s.files)
    (hw : e.task.bind Task.writing = none) : Window path (s.apply id e) := by
  have hold : ∀ {id' w}, (s.apply id e).writer id' = some w → s.writer id' = some w := by
    intro id' w h
    rcases State.apply_writer h with ⟨-, hnew⟩ | ⟨-, hold⟩
    · rw [hw] at hnew
      cases hnew
    · exact hold
  constructor
  · intro id' id'' w w' h h'
    exact hs.unique id' id'' w w' (hold h) (hold h')
  · intro id' data handle h
    rw [State.apply_files, hfiles]
    exact hs.writing id' data handle (hold h)

/-- Where the task that stepped is the only one that may have the file open. -/
theorem Window.apply_alone {id : Nat} {e : Effect} (halone : ∀ id', id' ≠ id → s.writer id' = none)
    (hw : ∀ data handle, e.task.bind Task.writing = some (data, handle) →
      e.files.Writing (path.withExtension "tmp") handle data) : Window path (s.apply id e) := by
  have honly : ∀ {id' w}, (s.apply id e).writer id' = some w →
      id' = id ∧ e.task.bind Task.writing = some w := by
    intro id' w h
    rcases State.apply_writer h with hnew | ⟨hne, hold⟩
    · exact hnew
    · rw [halone id' hne] at hold
      cases hold
  constructor
  · intro id' id'' w w' h h'
    rw [(honly h).1, (honly h').1]
  · intro id' data handle h
    exact hw data handle (honly h).2

theorem Window.alone {id : Nat} {w : Bytes × Handle} (hs : Window path s)
    (h : s.writer id = some w) (id' : Nat) (hne : id' ≠ id) : s.writer id' = none := by
  cases hw' : s.writer id' with
  | none => rfl
  | some w' => exact absurd (hs.unique id' id w' w hw' h) hne

-- The guard keeps a second writer out until the first has renamed its file.
theorem Window.step (hs : Window path s) (hb : Below s) (hopen : opensAlone ⟨s, a, o⟩ = true)
    (h : next json (some path) s a = some (o, t)) : Window path t := by
  cases next_moved h with
  | tick _ => exact ⟨hs.unique, hs.writing⟩
  | reject => exact hs
  | answer => exact hs
  | spawn _ _ hstart =>
    constructor
    · intro id id' w w' hw hw'
      exact hs.unique id id' w w' (State.spawn_writer hstart hw) (State.spawn_writer hstart hw')
    · intro id data handle hw
      exact hs.writing id data handle (State.spawn_writer hstart hw)
  | start hlaunch => exact .of_no_tasks (launch_eq hlaunch).2.2.1
  | @run id io task e htask hrun =>
    rcases Task.saving_or hrun with ⟨stage, caller, path', rfl, hpath, hran⟩ | hp
    · cases hpath
      cases hran with
      | createDirAll => exact hs.apply rfl rfl
      | snapshot => exact hs.apply rfl rfl
      | @create data =>
        apply apply_alone fun id' _ ↦ hb.no_writer htask hopen id'
        intro data' handle hw
        cases hw
        exact Fs.create_writing _ _ _
      | @write data handle count _ =>
        have hw : s.writer id = some (data, handle) := by rw [State.writer, htask]; rfl
        apply apply_alone (hs.alone hw)
        intro data' handle' hw'
        cases hw'
        exact (hs.writing id data handle hw).write count
      | @rename data handle files _ _ =>
        have hw : s.writer id = some (data, handle) := by rw [State.writer, htask]; rfl
        apply apply_alone (hs.alone hw)
        intro data' handle' hw'
        rw [State.keep_task, writing_resume] at hw'
        cases hw'
      | missing _ _ => exact hs.apply rfl writing_resume
      | failed => exact hs.apply rfl writing_resume
    · obtain ⟨hfiles, -, -, hstage⟩ := Task.run_files hp hrun
      refine hs.apply hfiles ?_
      cases htask' : e.task with
      | none => rfl
      | some task' =>
        rw [Option.bind_some]
        unfold Task.writing
        split
        · cases hstage _ _ htask'
        · rfl

end LabStreamGate.Gateway
