import LabStreamGate.Gateway.Step
import LabStreamGate.Library.TaskTable

/-!
# What one step of the gateway can do

The step function is opened here once; the invariants cite these lemmas.
-/

namespace LabStreamGate.Gateway

open Function

variable {json : JsonText} {stateFile : Option FilePath} {path : FilePath} {s t : State}
  {task : Task} {io : Io} {e : Effect} {o : Out} {a : Action}

/-! ## Fields after a step -/

section

variable {id id' : Nat} {task' : Option Task}

@[simp] theorem State.keep_out : (s.keep o task').out = o := rfl
@[simp] theorem State.keep_task : (s.keep o task').task = task' := rfl
@[simp] theorem State.keep_connections : (s.keep o task').connections = s.connections := rfl
@[simp] theorem State.keep_files : (s.keep o task').files = s.files := rfl

@[simp] theorem State.hangUp_out {key : String} : (s.hangUp o key).out = o := rfl
@[simp] theorem State.hangUp_task {key : String} :
    (s.hangUp o key).task = some (.release [.tunnelPermit key, .permit] none) := rfl
@[simp] theorem State.hangUp_files {key : String} : (s.hangUp o key).files = s.files := rfl
@[simp] theorem State.hangUp_connections {key : String} :
    (s.hangUp o key).connections = s.connections := rfl

section

variable {answer : Option (StatusCode × Reply)} {guards : List Guard}

@[simp] theorem State.release_out : (s.release answer guards).out = .silent := by
  unfold release
  split <;> rfl

@[simp] theorem State.release_connections :
    (s.release answer guards).connections = s.connections := by
  unfold release
  split <;> rfl

@[simp] theorem State.release_files : (s.release answer guards).files = s.files := by
  unfold release
  split <;> rfl

-- A connection that ends drops what it holds and is answered, if it has not been.
theorem State.release_task {task : Task} (h : (s.release answer guards).task = some task) :
    (∃ guards, task = .release guards answer) ∨ ∃ status reply, task = .respond status reply := by
  unfold release at h
  split at h
  · obtain ⟨⟨status, reply⟩, -, rfl⟩ := Option.map_eq_some_iff.mp h
    exact .inr ⟨status, reply, rfl⟩
  · exact .inl ⟨_, (Option.some.inj h).symm⟩
  · exact .inl ⟨_, (Option.some.inj h).symm⟩

end

@[simp] theorem State.apply_now : (s.apply id e).now = s.now := rfl
@[simp] theorem State.apply_connections : (s.apply id e).connections = e.connections := rfl
@[simp] theorem State.apply_files : (s.apply id e).files = e.files := rfl
@[simp] theorem State.apply_allowedTargetHosts :
    (s.apply id e).allowedTargetHosts = s.allowedTargetHosts := rfl
@[simp] theorem State.apply_tasks_self : (s.apply id e).tasks id = e.task := update_self ..

theorem State.apply_tasks_of_ne (h : id' ≠ id) : (s.apply id e).tasks id' = s.tasks id' :=
  update_of_ne h ..

@[simp] theorem State.spawn_now : (s.spawn task).now = s.now := rfl
@[simp] theorem State.spawn_connections : (s.spawn task).connections = s.connections := rfl
@[simp] theorem State.spawn_files : (s.spawn task).files = s.files := rfl
@[simp] theorem State.spawn_allowedTargetHosts :
    (s.spawn task).allowedTargetHosts = s.allowedTargetHosts := rfl

end

-- Read backwards: where a task found after a step came from.
theorem State.apply_tasks {id id' : Nat} {task' : Task}
    (h : (s.apply id e).tasks id' = some task') :
    (id' = id ∧ e.task = some task') ∨ (id' ≠ id ∧ s.tasks id' = some task') :=
  tasks_of_update h

-- Read backwards: where a task found after `spawn` came from.
theorem State.spawn_tasks {id : Nat} {task' : Task} (h : (s.spawn task).tasks id = some task') :
    task' = task ∨ s.tasks id = some task' := by
  rcases tasks_of_update h with ⟨-, hnew⟩ | ⟨-, hold⟩
  · exact .inl (Option.some.inj hnew).symm
  · exact .inr hold

/-! ## One action -/

/-- The tasks a request can start. -/
inductive State.Starts (s : State) : Task → Prop
  | launchInsert (req : TunnelRequest) : validateKey req.key = .ok () →
      validateTarget req.target s.allowedTargetHosts = .ok () →
      req.record.isExpired s.now = false → s.Starts (.launchInsert req.key req.record)
  | closeRemove (key : String) : s.Starts (.closeRemove key)
  | lookup (key : String) (use : Use) : s.Starts (.lookup key use)
  | retain (listing : Bool) : s.Starts (.retain s.now listing)

/-- What an action can come to. -/
inductive Moved (json : JsonText) (stateFile : Option FilePath) (s : State) :
    Action → Out → State → Prop
  | tick {now : UInt64} : s.now ≤ now → Moved json stateFile s (.tick now) .silent { s with now }
  | reject {authorization : Option HeaderValue} {request : PoolRequest} :
      Moved json stateFile s (.pool authorization request) .rejected s
  | answer {authorization : Option HeaderValue} {request : PoolRequest} {status : StatusCode}
      {reply : Reply} :
      Moved json stateFile s (.pool authorization request) (.responded status reply) s
  | spawn {a : Action} {task : Task} : (∀ id io, a ≠ .run id io) → (∀ config, a ≠ .start config) →
      s.Starts task → Moved json stateFile s a .silent (s.spawn task)
  | run {id : Nat} {io : Io} {task : Task} {e : Effect} : s.tasks id = some task →
      task.run json stateFile s io = some e →
      Moved json stateFile s (.run id io) e.out (s.apply id e)
  | start {config : Config} {t : State} :
      launch json stateFile config s.now s.files s.nextTask = some t →
      Moved json stateFile s (.start config) .silent t

-- What a new process takes over, and what it begins without.
theorem launch_eq {config : Config} {now : UInt64} {files : Fs FilePath} {nextTask : Nat}
    (h : launch json stateFile config now files nextTask = some s) :
    s.now = now ∧ s.files = files ∧ s.tasks = (fun _ ↦ none) ∧
      s.allowedTargetHosts = parseAllowedHosts config.allowedTargetHosts ∧
      s.connections = loadRegistry json stateFile now files := by
  simp only [launch, Option.ite_none_right_eq_some] at h
  obtain ⟨-, h⟩ := h
  cases h
  exact ⟨rfl, rfl, rfl, rfl, rfl⟩

-- The checks are made in this order and the first that fails answers the request.
theorem launchTunnel_starts {req : TunnelRequest} (h : launchTunnel s req = .ok task) :
    s.Starts task := by
  unfold launchTunnel at h
  cases hkey : validateKey req.key with
  | error refusal => simp [hkey, bind, Except.bind] at h
  | ok =>
    cases htarget : validateTarget req.target s.allowedTargetHosts with
    | error refusal => simp [hkey, htarget, bind, Except.bind] at h
    | ok =>
      cases hexp : req.record.isExpired s.now with
      | true =>
        simp [hkey, htarget, hexp, bind, Except.bind, throw, throwThe, MonadExceptOf.throw] at h
      | false =>
        simp [hkey, htarget, hexp, bind, Except.bind, pure, Except.pure] at h
        subst h
        exact .launchInsert req hkey htarget hexp

-- The task inserts the record of the request under its key.
theorem launchTunnel_eq {req : TunnelRequest} (h : launchTunnel s req = .ok task) :
    task = .launchInsert req.key req.record := by
  cases hkey : validateKey req.key with
  | error refusal => simp [launchTunnel, hkey, bind, Except.bind] at h
  | ok =>
    cases htarget : validateTarget req.target s.allowedTargetHosts with
    | error refusal => simp [launchTunnel, hkey, htarget, bind, Except.bind] at h
    | ok =>
      simp only [launchTunnel, hkey, htarget, bind, Except.bind, pure, Except.pure] at h
      split at h
      · split at h <;> cases h
        rfl
      · cases h
        rfl

-- A request either starts one task or is answered at once.
theorem pool_moved {authorization : Option HeaderValue} {request : PoolRequest} :
    Moved json stateFile s (.pool authorization request) (pool s request).1
      (pool s request).2 := by
  have hspawn : ∀ {task}, s.Starts task →
      Moved json stateFile s (.pool authorization request) .silent (s.spawn task) :=
    fun h ↦ .spawn (by simp) (by simp) h
  unfold pool
  split
  · exact hspawn (.retain true)
  · split
    · exact .reject
    · split
      · exact .answer
      · rename_i hlaunch
        exact hspawn (launchTunnel_starts hlaunch)
  · split
    · exact .reject
    · exact hspawn (.closeRemove _)

-- The step function is unfolded here and nowhere else.
theorem next_moved (h : next json stateFile s a = some (o, t)) :
    Moved json stateFile s a o t := by
  cases a with
  | tick now =>
    simp only [next, Option.ite_none_right_eq_some, Option.some.injEq, Prod.mk.injEq] at h
    obtain ⟨hle, rfl, rfl⟩ := h
    exact .tick hle
  | pool authorization request =>
    simp only [next] at h
    split at h
    · obtain ⟨rfl, rfl⟩ := Prod.mk.inj (Option.some.inj h)
      exact pool_moved
    · cases h
      exact .answer
  | ping key =>
    cases h
    exact .spawn (by simp) (by simp) (.lookup key .ping)
  | processTraffic key =>
    cases h
    exact .spawn (by simp) (by simp) (.lookup key .processTraffic)
  | cleanup =>
    cases h
    exact .spawn (by simp) (by simp) (.retain false)
  | run id io =>
    simp only [next, Option.bind_eq_some_iff, Option.map_eq_some_iff, Prod.mk.injEq] at h
    obtain ⟨task, htask, e, he, rfl, rfl⟩ := h
    exact .run htask he
  | start config =>
    simp only [next, Option.map_eq_some_iff, Prod.mk.injEq] at h
    obtain ⟨t, ht, rfl, rfl⟩ := h
    exact .start ht

/-! ## Saving the registry -/

theorem Use.refuse_eq (use : Use) (status : StatusCode) (text : String) :
    ∃ reply, use.refuse status text = .respond status reply := by
  cases use
  · exact ⟨_, rfl⟩
  · exact ⟨_, rfl⟩

-- After a call of `persist_registry` its caller never makes a second one.
theorem Caller.resume_ne_persist {caller : Caller} {result : Except String Unit}
    {stage : PersistStage} {caller' : Caller} :
    caller.resume result ≠ some (.persist stage caller') := by
  cases caller with
  | launchTunnel => cases result <;> simp [resume]
  | closeTunnel => cases result <;> simp [resume]
  | activeRecord use => cases use <;> simp [resume, Use.refuse]
  | removeExpired listing => cases listing <;> simp [resume]

theorem Task.run_persist {stage : PersistStage} {caller : Caller}
    (h : (Task.persist stage caller).run json stateFile s io = some e) :
    ∃ path, stateFile = some path ∧ stage.run json path s caller io = some e :=
  Option.bind_eq_some_iff.mp h

/-- The steps of `persist_registry`. -/
inductive PersistStage.Ran (json : JsonText) (path : FilePath) (s : State) (caller : Caller) :
    PersistStage → Io → Effect → Prop
  | createDirAll : Ran json path s caller .createDirAll .done
      (s.keep .silent (some (.persist .snapshot caller)))
  | snapshot : Ran json path s caller .snapshot .done
      (s.keep .silent (some (.persist (.create (serialize json s.connections)) caller)))
  | create {data} : Ran json path s caller (.create data) .done
      { s.keep .silent
          (some (.persist (.write data (s.files.create (path.withExtension "tmp")).2) caller)) with
        files := (s.files.create (path.withExtension "tmp")).1 }
  | write {data handle count} : handle.offset < data.length →
      Ran json path s caller (.write data handle) (.wrote count)
        { s.keep .silent (some (.persist (.write data
            (s.files.write handle ((data.drop handle.offset).take count)).2) caller)) with
          files := (s.files.write handle ((data.drop handle.offset).take count)).1 }
  | rename {data handle files} : data.length ≤ handle.offset →
      s.files.rename (path.withExtension "tmp") path = some files →
      Ran json path s caller (.write data handle) .done
        { s.keep .persisted (caller.resume (.ok ())) with files := files }
  | missing {data handle} : data.length ≤ handle.offset →
      s.files.rename (path.withExtension "tmp") path = none →
      Ran json path s caller (.write data handle) .done
        (persistError s caller (internalIoError "No such file or directory (os error 2)"))
  | failed {stage error text} :
      Ran json path s caller stage (.failed error) (persistError s caller text)

-- The case analysis over stages and answers, made once.
theorem PersistStage.run_ran {stage : PersistStage} {caller : Caller}
    (h : stage.run json path s caller io = some e) : stage.Ran json path s caller io e := by
  cases stage with
  | createDirAll =>
    cases io <;> simp only [run, reduceCtorEq] at h <;> cases h
    · exact .createDirAll
    · exact .failed
  | snapshot =>
    cases io <;> simp only [run, reduceCtorEq] at h <;> cases h
    · exact .snapshot
    · exact .failed
  | create data =>
    cases io <;> simp only [run, reduceCtorEq] at h <;> cases h
    · exact .create
    · exact .failed
  | write data handle =>
    cases io <;> simp only [run, reduceCtorEq] at h
    · split at h
      · rename_i hdone
        split at h
        · cases h
          exact .rename hdone ‹_›
        · cases h
          exact .missing hdone ‹_›
      · cases h
    · split at h
      · cases h
        exact .write ‹_›
      · cases h
    · cases h
      exact .failed

/-- A task that steps is saving the registry or is not. -/
theorem Task.saving_or (h : task.run json stateFile s io = some e) :
    (∃ stage caller path, task = .persist stage caller ∧ stateFile = some path ∧
      stage.Ran json path s caller io e) ∨ ∀ stage caller, task ≠ .persist stage caller := by
  cases task with
  | persist stage caller =>
    obtain ⟨path, hpath, hstage⟩ := run_persist h
    exact .inl ⟨stage, caller, path, rfl, hpath, PersistStage.run_ran hstage⟩
  | _ => exact .inr (by simp)

theorem PersistStage.Ran.connections {stage : PersistStage} {caller : Caller}
    (h : stage.Ran json path s caller io e) : e.connections = s.connections := by
  cases h <;> rfl

/-! ## The other tasks -/

/-- What a step of a task does to the registry, and what the task is after a change of it. -/
theorem Task.run_connections (h : task.run json stateFile s io = some e) :
    e.connections = s.connections ∨
    (∃ key record, task = .launchInsert key record ∧ e.out = .inserted key record ∧
      e.connections = s.connections.insert key record) ∨
    (∃ key, task = .closeRemove key ∧ e.out = .removed key ∧
      e.connections = s.connections.erase key) ∨
    (∃ key use, task = .evict key use ∧ e.connections = s.connections.erase key) ∨
    (∃ now listing, task = .retain now listing ∧
      e.connections = s.connections.retain fun record ↦ !record.isExpired now) := by
  cases task with
  | launchInsert key record =>
    cases io <;> simp only [Task.run.eq_def, reduceCtorEq] at h
    cases h
    exact .inr (.inl ⟨key, record, rfl, rfl, rfl⟩)
  | closeRemove key =>
    cases io <;> simp only [Task.run.eq_def, reduceCtorEq] at h
    split at h <;> cases h
    · exact .inl rfl
    · exact .inr (.inr (.inl ⟨key, rfl, rfl, rfl⟩))
  | evict key use =>
    cases io <;> simp only [Task.run.eq_def, reduceCtorEq] at h
    cases h
    exact .inr (.inr (.inr (.inl ⟨key, use, rfl, rfl⟩)))
  | retain now listing =>
    cases io <;> simp only [Task.run.eq_def, reduceCtorEq] at h
    split at h <;> cases h
    · exact .inl rfl
    · exact .inr (.inr (.inr (.inr ⟨now, listing, rfl, rfl⟩)))
  | persist stage caller =>
    obtain ⟨path, -, hstage⟩ := run_persist h
    exact .inl (PersistStage.run_ran hstage).connections
  | _ =>
    cases io <;> simp only [Task.run.eq_def, reduceCtorEq] at h <;>
      grind [State.keep, State.hangUp, State.release_connections, State.release_out]

/-- Which task was seen to do what. -/
theorem Task.run_out (h : task.run json stateFile s io = some e) :
    match e.out with
    | .inserted key record =>
      task = .launchInsert key record ∧ e.connections = s.connections.insert key record
    | .removed key => task = .closeRemove key ∧ e.connections = s.connections.erase key
    | .dialed target => ∃ key record, task = .connect key record ∧ target = record.target
    | .relayed key record _ _ => ∃ deadline, task = .relay key record deadline
    | _ => True := by
  cases task with
  | persist stage caller =>
    obtain ⟨path, -, hstage⟩ := run_persist h
    cases PersistStage.run_ran hstage <;> exact trivial
  | launchInsert key record =>
    cases io <;> simp only [Task.run.eq_def, reduceCtorEq] at h
    cases h
    exact ⟨rfl, rfl⟩
  | closeRemove key =>
    cases io <;> simp only [Task.run.eq_def, reduceCtorEq] at h
    split at h <;> cases h
    · exact trivial
    · exact ⟨rfl, rfl⟩
  | connect key record =>
    cases io <;> simp only [Task.run.eq_def, reduceCtorEq] at h <;> cases h <;>
      exact ⟨key, record, rfl, rfl⟩
  | relay key record deadline =>
    cases io <;> simp only [Task.run.eq_def, reduceCtorEq] at h
    · cases h
      exact trivial
    · cases h
      exact ⟨deadline, rfl⟩
    · split at h <;> cases h <;> exact trivial
    · cases h
      exact trivial
  | _ =>
    cases io <;> simp only [Task.run.eq_def, reduceCtorEq] at h <;>
      grind [State.keep, State.hangUp, State.release_connections, State.release_out]

/-- Whether a task is one that only answers or saves the registry. -/
def Task.isTail : Task → Bool
  | .respond _ _ => true
  | .list => true
  | .persist _ _ => true
  | .release _ _ => true
  | _ => false

-- What comes after saving holds no record.
theorem Caller.resume_isTail {caller : Caller} {result : Except String Unit} {task' : Task}
    (h : caller.resume result = some task') : task'.isTail = true := by
  cases caller with
  | launchTunnel => cases result <;> cases h <;> rfl
  | closeTunnel => cases result <;> cases h <;> rfl
  | activeRecord use => cases use <;> cases h <;> rfl
  | removeExpired listing =>
    cases listing <;> cases h
    rfl

-- Saving, or what comes after it where there is no state file.
theorem persistRegistry_isTail {caller : Caller} {task' : Task}
    (h : persistRegistry stateFile caller = some task') : task'.isTail = true := by
  unfold persistRegistry at h
  split at h
  · exact Caller.resume_isTail h
  · cases h
    rfl

/-- `s.Leads io task task'`: answered `io`, `task` can go on as `task'`. -/
inductive State.Leads (s : State) : Io → Task → Task → Prop
  | checkExpiry {key : String} {record : TunnelRecord} {use : Use} :
      s.connections.lookup key = some record →
      s.Leads .done (.lookup key use) (.checkExpiry key record use)
  | evict {key : String} {record : TunnelRecord} {use : Use} : record.isExpired s.now = true →
      s.Leads .done (.checkExpiry key record use) (.evict key use)
  | acquireTunnel {key : String} {record : TunnelRecord} : record.isExpired s.now = false →
      s.Leads .done (.checkExpiry key record .processTraffic) (.acquireTunnel key record)
  | acquireSlot {key : String} {record : TunnelRecord} :
      s.Leads .done (.acquireTunnel key record) (.acquireSlot key record)
  | upgrade {key : String} {record : TunnelRecord} :
      s.Leads .done (.acquireSlot key record) (.upgrade key record)
  | connect {key : String} {record : TunnelRecord} :
      s.Leads .done (.upgrade key record) (.connect key record)
  | startCapture {key : String} {record : TunnelRecord} : record.capture = true →
      s.Leads .done (.connect key record) (.startCapture key record)
  | relay {key : String} {record : TunnelRecord} : record.capture = false →
      s.Leads .done (.connect key record) (s.startRelay key record)
  | captured {io : Io} {key : String} {record : TunnelRecord} :
      s.Leads io (.startCapture key record) (s.startRelay key record)
  | forward {key : String} {record : TunnelRecord} {deadline : Nat}
      {direction : Relay.TrafficDirection} {data : Bytes} :
      s.Leads (.forwarded direction data) (.relay key record deadline) (.relay key record deadline)
  | wait {key : String} {record : TunnelRecord} {deadline : Nat} : s.now.toNat < deadline →
      s.Leads .pending (.relay key record deadline) (.relay key record deadline)
  | tail {io : Io} {task task' : Task} : task'.isTail = true → s.Leads io task task'

-- From the look-up to the relay a connection keeps the record it found.
theorem Task.run_leads {task' : Task} (h : task.run json stateFile s io = some e)
    (ht : e.task = some task') : s.Leads io task task' := by
  cases task with
  | persist stage caller =>
    obtain ⟨path, -, hstage⟩ := run_persist h
    apply State.Leads.tail
    cases PersistStage.run_ran hstage with
    | rename _ _ => exact Caller.resume_isTail ht
    | missing _ _ => exact Caller.resume_isTail ht
    | failed => exact Caller.resume_isTail ht
    | _ =>
      cases ht
      rfl
  | launchInsert key record =>
    cases io <;> simp only [Task.run.eq_def, reduceCtorEq] at h
    cases h
    exact .tail (persistRegistry_isTail ht)
  | closeRemove key =>
    cases io <;> simp only [Task.run.eq_def, reduceCtorEq] at h
    split at h <;> cases h
    · cases ht
      exact .tail rfl
    · exact .tail (persistRegistry_isTail ht)
  | lookup key use =>
    cases io <;> simp only [Task.run.eq_def, reduceCtorEq] at h
    split at h <;> cases h <;> cases ht
    · obtain ⟨reply, hreply⟩ := use.refuse_eq .notFound "tunnel not found"
      exact .tail (by rw [hreply, isTail])
    · exact .checkExpiry ‹_›
  | checkExpiry key record use =>
    cases io <;> simp only [Task.run.eq_def, reduceCtorEq] at h
    split at h
    · cases h
      cases ht
      exact .evict ‹_›
    · split at h <;> cases h <;> cases ht
      · exact .tail rfl
      · exact .acquireTunnel (Bool.eq_false_of_not_eq_true ‹_›)
  | evict key use =>
    cases io <;> simp only [Task.run.eq_def, reduceCtorEq] at h
    cases h
    exact .tail (persistRegistry_isTail ht)
  | retain now listing =>
    cases io <;> simp only [Task.run.eq_def, reduceCtorEq] at h
    split at h <;> cases h
    · exact .tail (@Caller.resume_isTail (.removeExpired listing) (.ok ()) _ ht)
    · exact .tail (persistRegistry_isTail ht)
  | list =>
    cases io <;> simp only [Task.run.eq_def, reduceCtorEq] at h
    cases h
    cases ht
  | respond status reply =>
    cases io <;> simp only [Task.run.eq_def, reduceCtorEq] at h
    cases h
    cases ht
  | acquireTunnel key record =>
    cases io <;> simp only [Task.run.eq_def, reduceCtorEq] at h
    cases h
    cases ht
    split
    · exact .acquireSlot
    · exact .tail rfl
  | acquireSlot key record =>
    cases io <;> simp only [Task.run.eq_def, reduceCtorEq] at h
    split at h <;> cases h <;> cases ht
    · exact .tail rfl
    · exact .upgrade
  | upgrade key record =>
    cases io <;> simp only [Task.run.eq_def, reduceCtorEq] at h <;> cases h <;> cases ht
    · exact .connect
    · exact .tail rfl
  | connect key record =>
    cases io <;> simp only [Task.run.eq_def, reduceCtorEq] at h <;> cases h <;> cases ht
    · split
      · exact .startCapture ‹_›
      · exact .relay (Bool.eq_false_of_not_eq_true ‹_›)
    · exact .tail rfl
    · exact .tail rfl
  | startCapture key record =>
    cases io <;> simp only [Task.run.eq_def, reduceCtorEq] at h <;> cases h <;> cases ht <;>
      exact .captured
  | relay key record deadline =>
    cases io <;> simp only [Task.run.eq_def, reduceCtorEq] at h
    · cases h
      cases ht
      exact .tail rfl
    · cases h
      cases ht
      exact .forward
    · split at h <;> cases h <;> cases ht
      · exact .tail rfl
      · exact .wait (Nat.lt_of_not_le ‹_›)
    · cases h
      cases ht
      exact .tail rfl
  | release guards answer =>
    cases io <;> simp only [Task.run.eq_def, reduceCtorEq] at h
    cases h
    rcases State.release_task ht with ⟨guards', rfl⟩ | ⟨status, reply, rfl⟩
    · exact .tail rfl
    · exact .tail rfl

/-- The key and the record a handler goes on with. -/
def Task.holds : Task → Option (String × TunnelRecord)
  | .launchInsert key record => some (key, record)
  | .checkExpiry key record _ => some (key, record)
  | .acquireTunnel key record => some (key, record)
  | .acquireSlot key record => some (key, record)
  | .upgrade key record => some (key, record)
  | .connect key record => some (key, record)
  | .startCapture key record => some (key, record)
  | .relay key record _ => some (key, record)
  | _ => none

theorem Task.holds_of_isTail (h : task.isTail = true) : task.holds = none := by
  cases task <;> simp_all [isTail, holds]

/-- A handler has its record from the registry or from its own request. -/
theorem State.Leads.holds {task' : Task} {key : String} {record : TunnelRecord}
    (h : s.Leads io task task') (hh : task'.holds = some (key, record)) :
    task.holds = some (key, record) ∨
      ∃ use, task = .lookup key use ∧ s.connections.lookup key = some record := by
  cases h with
  | checkExpiry hlook =>
    cases hh
    exact .inr ⟨_, rfl, hlook⟩
  | evict _ => cases hh
  | tail htail =>
    rw [Task.holds_of_isTail htail] at hh
    cases hh
  | _ => exact .inl hh

/-- A task that changes the registry goes on to save it; so do those that are about to insert or
to remove a record. -/
theorem Task.run_saves (hp : ∀ stage caller, task ≠ .persist stage caller)
    (h : task.run json stateFile s io = some e) :
    (e.connections = s.connections ∧ (∀ key record, task ≠ .launchInsert key record) ∧
      ∀ key use, task ≠ .evict key use) ∨
    ∃ caller, e.task = persistRegistry stateFile caller := by
  cases task with
  | persist stage caller => exact absurd rfl (hp stage caller)
  | launchInsert key record =>
    cases io <;> simp only [Task.run.eq_def, reduceCtorEq] at h
    cases h
    exact .inr ⟨_, rfl⟩
  | closeRemove key =>
    cases io <;> simp only [Task.run.eq_def, reduceCtorEq] at h
    split at h <;> cases h
    · exact .inl ⟨rfl, by simp, by simp⟩
    · exact .inr ⟨_, rfl⟩
  | evict key use =>
    cases io <;> simp only [Task.run.eq_def, reduceCtorEq] at h
    cases h
    exact .inr ⟨_, rfl⟩
  | retain now listing =>
    cases io <;> simp only [Task.run.eq_def, reduceCtorEq] at h
    split at h <;> cases h
    · exact .inl ⟨rfl, by simp, by simp⟩
    · exact .inr ⟨_, rfl⟩
  | _ =>
    left
    refine ⟨?_, by simp, by simp⟩
    cases io <;> simp only [Task.run.eq_def, reduceCtorEq] at h <;>
      grind [State.keep, State.hangUp, State.release_connections]

/-- A task that is not saving the registry leaves the files alone; it comes to save the registry
with nothing done for it yet. -/
theorem Task.run_files (hp : ∀ stage caller, task ≠ .persist stage caller)
    (h : task.run json stateFile s io = some e) :
    e.files = s.files ∧ e.out ≠ .persisted ∧ (∀ text, e.out ≠ .persistFailed text) ∧
      ∀ stage caller, e.task = some (.persist stage caller) → stage = .createDirAll := by
  have hstart : ∀ caller stage caller', persistRegistry stateFile caller =
      some (.persist stage caller') → stage = .createDirAll := by
    intro caller stage caller' heq
    unfold persistRegistry at heq
    split at heq
    · exact absurd heq Caller.resume_ne_persist
    · cases heq
      rfl
  have hresume := @Caller.resume_ne_persist
  cases task with
  | persist stage caller => exact absurd rfl (hp stage caller)
  | lookup key use =>
    obtain ⟨reply, hreply⟩ := use.refuse_eq .notFound "tunnel not found"
    cases io <;> simp only [Task.run.eq_def, reduceCtorEq] at h
    grind [State.keep]
  | _ =>
    cases io <;> simp only [Task.run.eq_def, reduceCtorEq] at h <;>
      grind [State.keep, State.hangUp, State.startRelay, Use.refuse, State.release_files,
        State.release_out, State.release_task]

end LabStreamGate.Gateway
