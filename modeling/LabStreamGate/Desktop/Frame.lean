import LabStreamGate.Desktop.Step
import LabStreamGate.Library.TaskTable

/-!
# What one step of the desktop controller can do

The step function is opened here once, for the scopes, for the file and for new instances; the
invariants cite these lemmas.
-/

namespace LabStreamGate.Desktop

open Function

variable {toml : TomlText} {s t : State} {task task' : Task} {io : Io} {e : Effect} {o : Out}
  {a : Action} {id id' : Nat}

/-! ## Fields after a step -/

section

variable {after : Option Task}

@[simp] theorem State.keep_out : (s.keep o after).out = o := rfl
@[simp] theorem State.keep_task : (s.keep o after).task = after := rfl
@[simp] theorem State.keep_spawned : (s.keep o after).spawned = none := rfl
@[simp] theorem State.keep_files : (s.keep o after).files = s.files := rfl
@[simp] theorem State.keep_scopes : (s.keep o after).scopes = s.scopes := rfl
@[simp] theorem State.keep_instances : (s.keep o after).instances = s.instances := rfl

@[simp] theorem State.spawn_files : (s.spawn task).files = s.files := rfl
@[simp] theorem State.spawn_scopes : (s.spawn task).scopes = s.scopes := rfl
@[simp] theorem State.spawn_instances : (s.spawn task).instances = s.instances := rfl
@[simp] theorem State.spawn_loader : (s.spawn task).loader = s.loader := rfl
@[simp] theorem State.spawn_nextTask : (s.spawn task).nextTask = s.nextTask + 1 := rfl

@[simp] theorem State.apply_files : (s.apply id e).files = e.files := by
  unfold apply
  cases e.spawned <;> rfl

@[simp] theorem State.apply_scopes : (s.apply id e).scopes = e.scopes := by
  unfold apply
  cases e.spawned <;> rfl

@[simp] theorem State.apply_instances : (s.apply id e).instances = e.instances := by
  unfold apply
  cases e.spawned <;> rfl

@[simp] theorem State.apply_nextTunnel : (s.apply id e).nextTunnel = e.nextTunnel := by
  unfold apply
  cases e.spawned <;> rfl

theorem State.le_apply_nextTask : s.nextTask ≤ (s.apply id e).nextTask := by
  unfold apply
  cases e.spawned with
  | none => exact Nat.le_refl _
  | some spawned => exact Nat.le_succ _

@[simp] theorem State.apply_loader : (s.apply id e).loader = s.loader := by
  unfold apply
  cases e.spawned <;> rfl

end

-- Read backwards: where a task found after `spawn` came from.
theorem State.spawn_tasks (h : (s.spawn task).tasks id = some task') :
    task' = task ∨ s.tasks id = some task' := by
  rcases tasks_of_update h with ⟨-, hnew⟩ | ⟨-, hold⟩
  · exact .inl (Option.some.inj hnew).symm
  · exact .inr hold

/-- A task after a step was there before, is what the stepping one came to, or was started. -/
theorem State.apply_tasks (h : (s.apply id e).tasks id' = some task') :
    (id' = id ∧ e.task = some task') ∨ (id' ≠ id ∧ s.tasks id' = some task') ∨
      e.spawned = some task' := by
  unfold apply at h
  cases hspawned : e.spawned with
  | none =>
    rw [hspawned] at h
    exact (tasks_of_update h).imp_right .inl
  | some spawned =>
    rw [hspawned] at h
    rcases spawn_tasks h with rfl | h
    · exact .inr (.inr rfl)
    · exact (tasks_of_update h).imp_right .inl

/-! ## No task has a number that is still to be given -/

def State.Below (s : State) : Prop := ∀ id, s.nextTask ≤ id → s.tasks id = none

theorem State.Below.lt (h : s.Below) (ht : s.tasks id = some task) : id < s.nextTask :=
  TasksBelow.lt h ht

-- Numbers are given in order, so the one given out is never given again.
theorem State.Below.spawn (h : s.Below) : (s.spawn task).Below := TasksBelow.spawn h

theorem State.Below.spawn_tasks_of_some (h : s.Below) (ht : s.tasks id = some task') :
    (s.spawn task).tasks id = some task' := TasksBelow.spawn_of_some h ht

-- A step may start a task of its own, which then takes the next number.
theorem State.Below.apply (h : s.Below) (ht : s.tasks id = some task) : (s.apply id e).Below := by
  have hmoved : TasksBelow s.nextTask (update s.tasks id e.task) := TasksBelow.step h (h.lt ht)
  unfold State.apply
  cases e.spawned with
  | none => exact hmoved
  | some spawned =>
    apply spawn
    exact hmoved

/-- The step keeps what every other task is at. -/
theorem State.Below.apply_tasks_of_ne (h : s.Below) (hid : id' ≠ id)
    (ht : s.tasks id' = some task') : (s.apply id e).tasks id' = some task' := by
  have hlt := h.lt ht
  unfold State.apply
  cases e.spawned with
  | none =>
    show update s.tasks id e.task id' = some task'
    rwa [update_of_ne hid]
  | some spawned =>
    show update (update s.tasks id e.task) s.nextTask (some spawned) id' = some task'
    rwa [update_of_ne (by omega), update_of_ne hid]

-- The same read backwards: a number that was already given out is not given to a new task.
theorem State.apply_tasks_of_lt (hid : id' ≠ id) (hlt : id' < s.nextTask)
    (ht : (s.apply id e).tasks id' = some task') : s.tasks id' = some task' := by
  unfold apply at ht
  cases hspawned : e.spawned with
  | none =>
    rw [hspawned] at ht
    change update s.tasks id e.task id' = some task' at ht
    rwa [update_of_ne hid] at ht
  | some spawned =>
    rw [hspawned] at ht
    change update (update s.tasks id e.task) s.nextTask (some spawned) id' = some task' at ht
    rwa [update_of_ne (Nat.ne_of_lt hlt), update_of_ne hid] at ht

-- A task started by the step has another number than the stepping one.
theorem State.Below.apply_tasks_self (h : s.Below) (ht : s.tasks id = some task) :
    (s.apply id e).tasks id = e.task := by
  have hlt := h.lt ht
  unfold State.apply
  cases e.spawned with
  | none => exact update_self ..
  | some spawned =>
    show update (update s.tasks id e.task) s.nextTask (some spawned) id = e.task
    rw [update_of_ne (by omega), update_self]

/-- No task is under way where none of those that were started is. -/
theorem State.Below.all_idle (h : s.Below)
    (hidle : (List.range s.nextTask).all (fun id ↦ (s.tasks id).isNone) = true) (id : Nat) :
    s.tasks id = none := TasksBelow.all_none h hidle id

/-- While a task holds the scopes they are locked for reading. -/
theorem State.Below.scopesRead (h : s.Below) (ht : s.tasks id = some task)
    (hreads : task.readsScopes = true) : s.scopesRead = true := by
  refine List.any_eq_true.mpr ⟨id, List.mem_range.mpr (h.lt ht), ?_⟩
  rw [ht]
  exact hreads

/-! ## One action -/

/-- What an action can come to. -/
inductive Moved (toml : TomlText) (s : State) : Action → Out → State → Prop
  | reject {a : Action} : s.stepping a = none → Moved toml s a .rejected s
  | spawn {a : Action} {task : Task} : s.stepping a = none → a.task = some task →
      Moved toml s a .silent (s.spawn task)
  | run {id : Nat} {io : Io} {task : Task} {e : Effect} : s.tasks id = some task →
      task.run toml s io = some e → Moved toml s (.run id io) e.out (s.apply id e)
  | read : s.loader = some .read → Moved toml s .load .silent
      { s with loader := some (.overwrite (loadScopes toml (s.files.read scopesFile))) }
  | overwrite {scopes : List ScopeData} : s.loader = some (.overwrite scopes) →
      s.scopesRead = false → Moved toml s .load .loaded { s with scopes := scopes, loader := none }

-- The step function is unfolded here and nowhere else.
theorem next_moved (h : next toml s a = some (o, t)) : Moved toml s a o t := by
  unfold next at h
  split at h
  · simp only [Option.bind_eq_some_iff, Option.map_eq_some_iff] at h
    obtain ⟨task, htask, e, he, h⟩ := h
    cases h
    exact .run htask he
  · unfold load at h
    split at h
    · cases h
    · rename_i hloader
      cases h
      exact .read hloader
    · rename_i hloader
      split at h
      · cases h
      · rename_i hread
        cases h
        exact .overwrite hloader (Bool.eq_false_iff.mpr hread)
  · rename_i hrun _
    have hidle : s.stepping a = none := by
      cases a with
      | run id io => exact absurd rfl (hrun id io)
      | _ => rfl
    split at h
    · rename_i htask
      cases h
      exact .spawn hidle htask
    · cases h
      exact .reject hidle

theorem State.Below.step (h : s.Below) (hm : Moved toml s a o t) : t.Below := by
  cases hm with
  | reject => exact h
  | spawn => exact h.spawn
  | run htask => exact h.apply htask
  | read => exact h
  | overwrite => exact h

/-- A step of something else leaves a task that has started where it is. -/
theorem Moved.tasks_of_other (hm : Moved toml s a o t) (hlt : id < s.nextTask)
    (hother : ∀ io, a ≠ .run id io) : t.tasks id = s.tasks id ∧ s.nextTask ≤ t.nextTask := by
  cases hm with
  | reject => exact ⟨rfl, Nat.le_refl _⟩
  | spawn => exact ⟨update_of_ne (Nat.ne_of_lt hlt) _ _, Nat.le_succ _⟩
  | @run id' io task e htask =>
    have hne : id ≠ id' := fun heq ↦ hother io (heq ▸ rfl)
    refine ⟨?_, State.le_apply_nextTask⟩
    unfold State.apply
    cases e.spawned with
    | none => exact update_of_ne hne _ _
    | some spawned =>
      show update (update s.tasks id' e.task) s.nextTask (some spawned) id = s.tasks id
      rw [update_of_ne (Nat.ne_of_lt hlt), update_of_ne hne]
  | read => exact ⟨rfl, Nat.le_refl _⟩
  | overwrite => exact ⟨rfl, Nat.le_refl _⟩

/-- At the start there is no task. -/
theorem spawnBackground_tasks {files : Fs String} {P : Nat → Task → Prop} :
    ∀ id task, (State.spawnBackground files).tasks id = some task → P id task := by
  intro id task ht
  cases ht

theorem below {files : Fs String} {tr : List (Event State Action Out)}
    (h : Run (next toml) (State.spawnBackground files) tr s) : s.Below :=
  h.invariant (C := fun _ ↦ True) (fun _ _ ↦ rfl)
    (fun _ _ _ _ hb _ hnext ↦ hb.step (next_moved hnext)) (fun _ _ ↦ trivial)

/-! ## One step of a task -/

/-- Another instance listens on this address. -/
def isTaken (instances : List ProxyInstance) (localAddr : String) : Bool :=
  instances.any fun i ↦ i.data.localAddr == localAddr

/-- The scope has an instance for this remote already. -/
def isLaunched (instances : List ProxyInstance) (remote scope : String) : Bool :=
  instances.any fun i ↦ i.data.remote == remote && i.data.scopeHost == scope

/-- The steps after which the scopes may be others. -/
def Out.changesScopes : Out → Bool
  | .loaded => true
  | .pushed _ => true
  | .updated _ => true
  | .allowed _ => true
  | .removed _ => true
  | _ => false

def Out.isAdded : Out → Bool
  | .added _ => true
  | _ => false

/-- The tasks that are on their way to the file. -/
def Task.savesScopes : Task → Bool
  | .removeInstances _ => true
  | .persistScopes _ => true
  | .persistTo _ _ => true
  | _ => false

def Task.changesScopes : Task → Bool
  | .requestControl _ _ => true
  | .updateWebsiteInfo _ _ => true
  | .allowScope _ => true
  | .removeScope _ => true
  | _ => false

def Task.isWriting : Task → Bool
  | .persistTo _ _ => true
  | _ => false

/-- The tasks that neither change the scopes nor write the file. -/
def Task.isPlain (t : Task) : Bool := !t.changesScopes && !t.isWriting

/-- What a task can come to. -/
inductive Ran (toml : TomlText) (s : State) : Task → Io → Effect → Prop
  | quiet {task : Task} {io : Io} {o : Out} {after : Option Task} {instances : List ProxyInstance} :
      task.savesScopes = false → o.changesScopes = false → o.isAdded = false →
      (∀ t ∈ after, t.isPlain = true) →
      Ran toml s task io { s.keep o after with instances := instances }
  | launch {data : InstanceData} {localAddr : String} {caller : Caller} {i : ProxyInstance}
      {reply : Reply} {instances : List ProxyInstance} {nextTunnel : Nat} :
      isTaken s.instances localAddr = false →
      isLaunched s.instances data.remote data.scopeHost = false →
      i.data.scopeHost = data.scopeHost →
      Ran toml s (.launchInstance data localAddr caller) .done
        { s.keep (.added i) (caller.resume .ok reply) with
          spawned := some (.ping i.data none)
          instances := instances
          nextTunnel := nextTunnel }
  | push {host : String} {body : Option ScopeData} : s.scopesRead = false →
      hasHost s.scopes host = false →
      Ran toml s (.requestControl host body) .done
        { s.keep (.pushed (requestedScope host body)) (some (.persistScopes .http)) with
          scopes := s.scopes ++ [requestedScope host body] }
  | update {host : String} {data : ScopeData} : s.scopesRead = false →
      Ran toml s (.updateWebsiteInfo host data) .done
        { s.keep (.updated host) (some (.persistScopes .http)) with
          scopes := updateWebsiteInfo s.scopes host data }
  | allow {host : String} : s.scopesRead = false → hasHost s.scopes host = true →
      Ran toml s (.allowScope host) .done
        { s.keep (.allowed host) (some (.persistScopes .ui)) with
          scopes := allowScope s.scopes host }
  | remove {host : String} : s.scopesRead = false →
      Ran toml s (.removeScope host) .done
        { s.keep (.removed host) (some (.removeInstances host)) with
          scopes := removeScope s.scopes host }
  | removeInstances {host : String} {instances : List ProxyInstance} :
      Ran toml s (.removeInstances host) .done
        { s.keep .silent (some (.persistScopes .ui)) with instances := instances }
  | snapshot {caller : Caller} :
      Ran toml s (.persistScopes caller) .done
        (s.keep .silent (some (.persistTo (.createDirAll (scopesText toml s.scopes)) caller)))
  | goOn {stage stage' : WriteStage} {io : FileIo} {files : Fs String} {caller : Caller} :
      stage.Ran s.files io files (some stage') →
      Ran toml s (.persistTo stage caller) (.file io)
        { s.keep .silent (some (.persistTo stage' caller)) with files := files }
  | finish {stage : WriteStage} {io : FileIo} {files : Fs String} {caller : Caller} :
      stage.Ran s.files io files none →
      Ran toml s (.persistTo stage caller) (.file io)
        { s.keep .silent (caller.resume .ok .empty) with files := files }

theorem resume_isPlain {caller : Caller} {status : StatusCode} {reply : Reply} :
    ∀ t ∈ caller.resume status reply, t.isPlain = true := by
  cases caller <;> simp [Caller.resume, Task.isPlain, Task.changesScopes, Task.isWriting]

theorem pingNext_isPlain {rest : List InstanceData} :
    ∀ t ∈ pingNext rest, t.isPlain = true := by
  cases rest <;> simp [pingNext, Task.isPlain, Task.changesScopes, Task.isWriting]

/-- A step of a task that leaves the scopes, the file and the list of instances as they are. -/
theorem Ran.keep {after : Option Task} (hsaves : task.savesScopes = false)
    (hscopes : o.changesScopes = false) (hadded : o.isAdded = false)
    (hafter : ∀ t ∈ after, t.isPlain = true) : Ran toml s task io (s.keep o after) :=
  @Ran.quiet toml s task io o after s.instances hsaves hscopes hadded hafter

theorem isPlain_none : ∀ t ∈ (none : Option Task), t.isPlain = true := by simp

theorem isPlain_some (h : task.isPlain = true) : ∀ t ∈ some task, t.isPlain = true := by
  simpa using h

/-- An instance is added where its address and its remote are new. -/
theorem launchInstance_ran {data : InstanceData} {localAddr : String} {caller : Caller} :
    Ran toml s (.launchInstance data localAddr caller) .done
      (launchInstance s data localAddr caller) := by
  unfold launchInstance
  split
  · exact .keep rfl rfl rfl resume_isPlain
  · rename_i htaken
    dsimp only
    split
    · exact .quiet rfl rfl rfl resume_isPlain
    · rename_i hnone
      exact .launch (Bool.eq_false_iff.mpr htaken)
        (List.any_eq_false.mpr (List.find?_eq_none.mp hnone)) rfl

-- The other half: where both are new, one is added.
theorem launchInstance_added {data : InstanceData} {localAddr : String} {caller : Caller}
    (htaken : isTaken s.instances localAddr = false)
    (hlaunched : isLaunched s.instances data.remote data.scopeHost = false) :
    ∃ i, (launchInstance s data localAddr caller).out = .added i ∧
      i.data.scopeHost = data.scopeHost := by
  unfold launchInstance
  split
  · rename_i h
    exact absurd h (Bool.eq_false_iff.mp htaken)
  · dsimp only
    split
    · rename_i found hfound
      exact absurd (List.find?_some hfound)
        (List.any_eq_false.mp hlaunched found (List.mem_of_find?_eq_some hfound))
    · exact ⟨_, rfl, rfl⟩

theorem closeInstance_ran {localAddr scope : String} :
    Ran toml s (.closeInstance localAddr scope) .done (closeInstance s localAddr scope) := by
  unfold closeInstance
  split
  · exact .keep rfl rfl rfl (isPlain_some rfl)
  · split <;> exact .keep rfl rfl rfl (isPlain_some rfl)

-- The case analysis over tasks and answers that the invariants share.
theorem run_ran (h : task.run toml s io = some e) : Ran toml s task io e := by
  -- pairs of a task and an answer that it does not wait for are `none` and fall away here
  cases task <;> cases io <;> try (cases h; done)
  case requestControl.done host body =>
    simp only [Task.run, Option.ite_none_left_eq_some] at h
    obtain ⟨hread, h⟩ := h
    split at h
    · cases h
      exact .keep rfl rfl rfl (isPlain_some rfl)
    · rename_i hhost
      cases h
      exact .push (Bool.eq_false_iff.mpr hread) (Bool.eq_false_iff.mpr hhost)
  case updateWebsiteInfo.done host data =>
    simp only [Task.run, Option.ite_none_left_eq_some] at h
    obtain ⟨hread, h⟩ := h
    split at h
    · cases h
      exact .update (Bool.eq_false_iff.mpr hread)
    · cases h
      exact .keep rfl rfl rfl (isPlain_some rfl)
  case allowScope.done host =>
    simp only [Task.run, Option.ite_none_left_eq_some] at h
    obtain ⟨hread, h⟩ := h
    cases h
    by_cases hhost : hasHost s.scopes host = true
    · rw [if_pos hhost]
      exact .allow (Bool.eq_false_iff.mpr hread) hhost
    · rw [if_neg hhost, allowScope_of_not_hasHost (Bool.eq_false_iff.mpr hhost)]
      exact .keep rfl rfl rfl (isPlain_some rfl)
  case removeScope.done host =>
    simp only [Task.run, Option.ite_none_left_eq_some] at h
    obtain ⟨hread, h⟩ := h
    split at h
    · cases h
      exact .remove (Bool.eq_false_iff.mpr hread)
    · cases h
      exact .keep rfl rfl rfl isPlain_none
  case launchInstance.done =>
    cases h
    exact launchInstance_ran
  case closeInstance.done =>
    cases h
    exact closeInstance_ran
  case removeInstances.done =>
    cases h
    exact .removeInstances
  case persistScopes.done =>
    cases h
    exact .snapshot
  case persistTo.file stage caller io =>
    simp only [Task.run, Option.map_eq_some_iff] at h
    obtain ⟨⟨files, stage'⟩, hr, rfl⟩ := h
    have hran := WriteStage.run_ran hr
    cases stage' with
    | some stage' => exact .goOn hran
    | none => exact .finish hran
  case pingfall.done =>
    simp only [Task.run] at h
    split at h
    · cases h
      exact .keep rfl rfl rfl (isPlain_some rfl)
    · cases h
      exact .keep rfl rfl rfl pingNext_isPlain
  case updateInstanceState.done data result rest =>
    cases h
    refine .quiet rfl rfl rfl ?_
    cases result <;> cases rest
    · exact isPlain_none
    · exact isPlain_some rfl
    · exact isPlain_none
    · exact pingNext_isPlain
  case createListener.bound =>
    cases h
    exact .keep rfl rfl rfl (isPlain_some rfl)
  case createListener.refused =>
    cases h
    exact .keep rfl rfl rfl resume_isPlain
  case removeInstance.done =>
    cases h
    exact .quiet rfl rfl rfl resume_isPlain
  case latencySnapshot.done =>
    cases h
    exact .keep rfl rfl rfl pingNext_isPlain
  case ping.pinged =>
    cases h
    exact .keep rfl rfl rfl (isPlain_some rfl)
  case pingfallRemove.done =>
    cases h
    exact .quiet rfl rfl rfl pingNext_isPlain
  -- answers: the task is over
  all_goals
    cases h
    exact .keep rfl rfl rfl isPlain_none

theorem Ran.spawned_isPlain (h : Ran toml s task io e) (hs : e.spawned = some task') :
    task'.isPlain = true := by
  cases h <;> cases hs
  rfl

/-- What changes the scopes comes from a request or a button only. -/
theorem Ran.task_changesScopes (h : Ran toml s task io e) (ht : e.task = some task') :
    task'.changesScopes = false := by
  have hplain : ∀ {after : Option Task}, (∀ t ∈ after, t.isPlain = true) → after = some task' →
      task'.changesScopes = false := by
    intro after hafter heq
    have hp := hafter task' heq
    rw [Task.isPlain, Bool.and_eq_true, Bool.not_eq_true'] at hp
    exact hp.1
  cases h with
  | quiet _ _ _ hafter => exact hplain hafter ht
  | launch => exact hplain resume_isPlain ht
  | finish => exact hplain resume_isPlain ht
  | _ =>
    cases ht
    rfl

/-! ## The scopes after a step -/

/-- What a step makes of the scopes once they have been loaded. -/
inductive ScopesMoved (s : State) : Out → State → Prop
  | kept {o : Out} {t : State} : t.scopes = s.scopes → o.changesScopes = false → ScopesMoved s o t
  | push {host : String} {body : Option ScopeData} {t : State} : hasHost s.scopes host = false →
      t.scopes = s.scopes ++ [requestedScope host body] →
      ScopesMoved s (.pushed (requestedScope host body)) t
  | update {host : String} {data : ScopeData} {t : State} :
      t.scopes = updateWebsiteInfo s.scopes host data → ScopesMoved s (.updated host) t
  | allow {host : String} {t : State} : hasHost s.scopes host = true →
      t.scopes = allowScope s.scopes host → ScopesMoved s (.allowed host) t
  | remove {host : String} {t : State} : t.scopes = removeScope s.scopes host →
      ScopesMoved s (.removed host) t

theorem Moved.scopes (hm : Moved toml s a o t) (hloader : s.loader = none) :
    t.loader = none ∧ ScopesMoved s o t := by
  cases hm with
  | reject => exact ⟨hloader, .kept rfl rfl⟩
  | spawn => exact ⟨hloader, .kept rfl rfl⟩
  | read hread =>
    rw [hloader] at hread
    cases hread
  | overwrite hread =>
    rw [hloader] at hread
    cases hread
  | run _ hrun =>
    refine ⟨State.apply_loader.trans hloader, ?_⟩
    cases run_ran hrun with
    | quiet _ hout => exact .kept State.apply_scopes hout
    | push _ hnew => exact .push hnew State.apply_scopes
    | update => exact .update State.apply_scopes
    | allow _ hhost => exact .allow hhost State.apply_scopes
    | remove => exact .remove State.apply_scopes
    | launch | removeInstances | snapshot | goOn | finish => exact .kept State.apply_scopes rfl

theorem ScopesMoved.distinct (h : ScopesMoved s o t) (hdistinct : DistinctHosts s.scopes) :
    DistinctHosts t.scopes := by
  cases h with
  | kept hscopes => exact hscopes ▸ hdistinct
  | push hnew hscopes => exact hscopes ▸ hdistinct.push hnew
  | update hscopes => exact hscopes ▸ hdistinct.update
  | allow _ hscopes => exact hscopes ▸ hdistinct.allow
  | remove hscopes => exact hscopes ▸ hdistinct.remove

end LabStreamGate.Desktop
