import LabStreamGate.Gateway.Failure
import LabStreamGate.Gateway.Window

/-!
# A restart between calls

Calls that remove what has expired go on when the registry cannot be saved, so the state file may
have more than the registry.  What it has more has expired, and a new process leaves that out.
-/

namespace LabStreamGate.Gateway

open Function

variable {json : JsonText} {path : FilePath} {s t u : State} {a : Action} {o : Out} {id : Nat}
  {io : Io} {e : Effect} {task : Task} {caller : Caller} {key : String} {record : TunnelRecord}
  {registry registry' : Registry} {now now' : UInt64} {tr : List (Event State Action Out)}

/-! ## What is still valid -/

/-- `active_record` at the time `now`, as far as it is answered from the registry. -/
def activeRecord (connections : Registry) (now : UInt64) (key : String) :
    Except Refusal TunnelRecord :=
  match connections.lookup key with
  | some record => if record.isExpired now then .error (.gone, "tunnel expired") else .ok record
  | none => .error (.notFound, "tunnel not found")

/-- What the caller of `active_record` does with a record. -/
def Use.accept : Use → String → TunnelRecord → Task
  | .ping, _, _ => .respond .ok .empty
  | .processTraffic, key, record => .acquireTunnel key record

theorem activeRecord_eq_ok {connections : Registry} :
    activeRecord connections now key = .ok record ↔
      connections.lookup key = some record ∧ record.isExpired now = false := by
  unfold activeRecord
  cases connections.lookup key with
  | none => simp
  | some found =>
    simp only [Option.some.injEq]
    by_cases hexpired : found.isExpired now = true
    · rw [if_pos hexpired]
      simp only [reduceCtorEq, false_iff, not_and]
      rintro rfl
      simp [hexpired]
    · rw [if_neg hexpired]
      simp only [Except.ok.injEq]
      refine ⟨fun hfound ↦ ⟨hfound, ?_⟩, And.left⟩
      rw [← hfound]
      exact Bool.eq_false_of_not_eq_true hexpired

/-- The task of `active_record` hands on what `activeRecord` says. -/
theorem run_activeRecord {stateFile : Option FilePath} {use : Use} :
    activeRecord s.connections s.now key = .ok record ↔
      (∃ e, (Task.lookup key use).run json stateFile s .done = some e ∧
        e.task = some (.checkExpiry key record use)) ∧
      ∃ e, (Task.checkExpiry key record use).run json stateFile s .done = some e ∧
        e.task = some (use.accept key record) := by
  have hlookup : (∃ e, (Task.lookup key use).run json stateFile s .done = some e ∧
      e.task = some (.checkExpiry key record use)) ↔ s.connections.lookup key = some record := by
    simp only [Task.run.eq_def]
    cases s.connections.lookup key with
    | none => cases use <;> simp [Use.refuse]
    | some found => simp
  have hexpiry : (∃ e, (Task.checkExpiry key record use).run json stateFile s .done = some e ∧
      e.task = some (use.accept key record)) ↔ record.isExpired s.now = false := by
    simp only [Task.run.eq_def]
    cases record.isExpired s.now <;> cases use <;> simp [Use.accept]
  rw [activeRecord_eq_ok, hlookup, hexpiry]

/-- The two have the same records that are valid at the time `now`. -/
def SameLive (now : UInt64) (registry registry' : Registry) : Prop :=
  ∀ key record, record.isExpired now = false →
    (registry.lookup key = some record ↔ registry'.lookup key = some record)

theorem SameLive.refl : SameLive now registry registry := fun _ _ _ ↦ Iff.rfl

-- What is valid later is valid now.
theorem SameLive.mono (h : SameLive now registry registry') (hle : now ≤ now') :
    SameLive now' registry registry' := by
  intro key record hlive
  refine h key record (Bool.eq_false_of_not_eq_true fun hexpired ↦ ?_)
  rw [TunnelRecord.isExpired_mono hexpired hle] at hlive
  cases hlive

theorem SameLive.erase (h : SameLive now registry registry')
    (hkey : registry'.lookup key = some record) (hexpired : record.isExpired now = true) :
    SameLive now registry (registry'.erase key) := by
  intro key' record' hlive
  rw [h key' record' hlive]
  by_cases hsame : key' = key
  · subst hsame
    rw [AList.lookup_erase, hkey]
    simp only [Option.some.injEq, reduceCtorEq, iff_false]
    rintro rfl
    rw [hexpired] at hlive
    cases hlive
  · rw [AList.lookup_erase_ne hsame]

theorem SameLive.retain (h : SameLive now registry registry') (hle : now' ≤ now) :
    SameLive now registry (registry'.retain fun record ↦ !record.isExpired now') := by
  intro key record hlive
  have hnow : record.isExpired now' = false := by
    refine Bool.eq_false_of_not_eq_true fun hexpired ↦ ?_
    rw [TunnelRecord.isExpired_mono hexpired hle] at hlive
    cases hlive
  rw [h key record hlive, Registry.lookup_retain, Option.filter_eq_some_iff]
  simp [hnow]

theorem SameLive.active (h : SameLive now registry registry') (key : String)
    (record : TunnelRecord) :
    activeRecord registry now key = .ok record ↔ activeRecord registry' now key = .ok record := by
  rw [activeRecord_eq_ok, activeRecord_eq_ok]
  exact and_congr_left (h key record)

/-- The state file has the registry but for records that have expired. -/
def Settled (json : JsonText) (path : FilePath) (s : State) : Prop :=
  ∃ registry, (s.files.read path = none ∧ registry = ∅ ∨
    s.files.read path = some (serialize json registry)) ∧ SameLive s.now registry s.connections

theorem Settled.of_saved (h : s.files.read path = some (serialize json s.connections)) :
    Settled json path s := ⟨s.connections, .inr h, .refl⟩

/-- A new process has what is valid in the registry. -/
theorem Settled.restart {config : Config} {nextTask : Nat} (h : Settled json path s)
    (hlaunch : launch json (some path) config s.now s.files nextTask = some t) :
    SameLive t.now t.connections s.connections := by
  obtain ⟨hnow, -, -, -, hconnections⟩ := launch_eq hlaunch
  obtain ⟨registry, hfile, hlive⟩ := h
  have hrestored : t.connections = registry.retain fun record ↦ !record.isExpired s.now := by
    rw [hconnections, loadRegistry]
    rcases hfile with ⟨hnone, rfl⟩ | hsome
    · rw [hnone]
      rfl
    · rw [hsome, restore_serialize]
  intro key record hvalid
  rw [hnow] at hvalid
  rw [← hlive key record hvalid, hrestored, Registry.lookup_retain, Option.filter_eq_some_iff]
  simp [hvalid]

theorem SameLive.trans {registry'' : Registry} (h : SameLive now registry registry')
    (h' : SameLive now registry' registry'') : SameLive now registry registry'' :=
  fun key record hlive ↦ (h key record hlive).trans (h' key record hlive)

theorem SameLive.symm (h : SameLive now registry registry') : SameLive now registry' registry :=
  fun key record hlive ↦ (h key record hlive).symm

theorem Settled.of_restart {config : Config} {nextTask : Nat} (h : Settled json path s)
    (hlaunch : launch json (some path) config s.now s.files nextTask = some t) :
    Settled json path t := by
  obtain ⟨hnow, hfiles, -, -, -⟩ := launch_eq hlaunch
  have hrestart := h.restart hlaunch
  obtain ⟨registry, hfile, hlive⟩ := h
  refine ⟨registry, hfiles ▸ hfile, ?_⟩
  rw [hnow] at hrestart ⊢
  exact hlive.trans hrestart.symm

/-! ## Calls one after another -/

/-- The task is at work on a call that makes use of the registry or saves it. -/
def Task.calls : Task → Bool
  | .launchInsert _ _ => true
  | .closeRemove _ => true
  | .lookup _ _ => true
  | .checkExpiry _ _ _ => true
  | .evict _ _ => true
  | .retain _ _ => true
  | .list => true
  | .persist _ _ => true
  | _ => false

def State.idle (s : State) : Bool :=
  (List.range s.nextTask).all fun id ↦ (s.tasks id).all fun task ↦ !task.calls

/-- A call begins, or the process is started anew, only after the call before it. -/
def inTurn (e : Event State Action Out) : Bool :=
  match e.act with
  | .run _ _ => true
  | .tick _ => true
  | _ => e.pre.idle

/-- Saving the registry does not fail for a request that reports it. -/
def saves (e : Event State Action Out) : Bool :=
  match e.out, e.pre.stepping e.act with
  | .persistFailed _, some (.persist _ caller) => !caller.reports
  | _, _ => true

/-- A write fails, and the temporary file has less than all of the registry. -/
def breaksOff (e : Event State Action Out) : Bool :=
  match e.act, e.pre.stepping e.act with
  | .run _ (.failed _), some (.persist (.write data handle) _) => handle.offset < data.length
  | _, _ => false

/-- What is so of the registry and the files while the call is at work. -/
def Task.Ready (json : JsonText) (path : FilePath) (s : State) : Task → Prop
  | .checkExpiry key record _ => Settled json path s ∧ s.connections.lookup key = some record
  | .evict key _ => Settled json path s ∧
      ∃ record, s.connections.lookup key = some record ∧ record.isExpired s.now = true
  | .retain now _ => Settled json path s ∧ now ≤ s.now
  | .persist (.create data) caller => (caller.reports = false → Settled json path s) ∧
      data = serialize json s.connections
  | .persist (.write data handle) caller =>
      (caller.reports = false → path ≠ path.withExtension "tmp" → Settled json path s) ∧
        data = serialize json s.connections ∧
        s.files.Writing (path.withExtension "tmp") handle data
  | .persist _ caller => caller.reports = false → Settled json path s
  | _ => Settled json path s

/-- The same of the task that there is after a step, if there is one. -/
structure Follows (json : JsonText) (path : FilePath) (s : State) (task : Option Task) : Prop where
  ready : ∀ task' ∈ task, task'.calls = true → task'.Ready json path s
  settled : (∀ task' ∈ task, task'.calls = false) → Settled json path s

theorem Follows.of_calls (hcalls : task.calls = true) (hready : task.Ready json path s) :
    Follows json path s (some task) where
  ready := by
    intro task' htask' _
    cases htask'
    exact hready
  settled := by
    intro hnone
    rw [hnone task rfl] at hcalls
    cases hcalls

theorem Follows.of_settled {after : Option Task} (hsettled : Settled json path s)
    (hafter : ∀ task' ∈ after, task'.calls = true → task' = .list) :
    Follows json path s after where
  ready := by
    intro task' htask' hcalls
    rw [hafter task' htask' hcalls]
    exact hsettled
  settled := fun _ ↦ hsettled

theorem Use.calls_refuse (use : Use) (status : StatusCode) (text : String) :
    (use.refuse status text).calls = false := by
  cases use <;> rfl

-- What comes after saving is an answer or the list of the tunnels.
theorem Follows.of_resume {result : Except String Unit} (hsettled : Settled json path s) :
    Follows json path s (caller.resume result) := by
  refine .of_settled hsettled fun task' htask' hcalls ↦ ?_
  cases caller with
  | launchTunnel => cases result <;> cases htask' <;> cases hcalls
  | closeTunnel => cases result <;> cases htask' <;> cases hcalls
  | activeRecord use =>
    cases htask'
    rw [Use.calls_refuse] at hcalls
    cases hcalls
  | removeExpired listing =>
    cases listing <;> cases htask'
    rfl

theorem Follows.of_persist (hsettled : caller.reports = false → Settled json path s) :
    Follows json path s (persistRegistry (some path) caller) := .of_calls rfl hsettled

theorem Settled.of_same (h : Settled json path s) (hnow : s.now ≤ t.now)
    (hconnections : t.connections = s.connections) (hfiles : t.files = s.files) :
    Settled json path t := by
  obtain ⟨registry, hfile, hlive⟩ := h
  refine ⟨registry, by rwa [hfiles], ?_⟩
  rw [hconnections]
  exact hlive.mono hnow

/-- One step of saving the registry. -/
theorem PersistStage.Ran.follows {stage : PersistStage}
    (hran : stage.Ran json path s caller io e)
    (hready : (Task.persist stage caller).Ready json path s)
    (hsaves : ∀ text, e.out = .persistFailed text → caller.reports = false)
    (hkeeps : path ≠ path.withExtension "tmp" ∨
      ∀ data handle error, stage = .write data handle → io = .failed error →
        data.length ≤ handle.offset)
    (ht : t = s.apply id e) : Follows json path t e.task := by
  subst ht
  cases hran with
  | createDirAll => exact .of_calls rfl hready
  | snapshot => exact .of_calls rfl ⟨hready, rfl⟩
  | @create data =>
    obtain ⟨hsettled, hdata⟩ := hready
    refine .of_calls rfl ⟨fun hcaller hne ↦ ?_, hdata, Fs.create_writing _ _ _⟩
    obtain ⟨registry, hfile, hlive⟩ := hsettled hcaller
    refine ⟨registry, ?_, hlive⟩
    rwa [State.apply_files, Fs.read_create_of_ne hne]
  | @write data handle count _ =>
    obtain ⟨hsettled, hdata, hw⟩ := hready
    refine .of_calls rfl ⟨fun hcaller hne ↦ ?_, hdata, hw.write count⟩
    obtain ⟨registry, hfile, hlive⟩ := hsettled hcaller hne
    refine ⟨registry, ?_, hlive⟩
    rwa [State.apply_files, Fs.read_write_of_ne hw.named hne]
  | @rename data handle files hdone hrename =>
    obtain ⟨-, hdata, hw⟩ := hready
    refine .of_resume (.of_saved ?_)
    rw [State.apply_files, Fs.read_rename hrename, hw.read_of_done hdone, hdata]
    rfl
  | @missing data handle hdone hrename =>
    obtain ⟨-, -, hw⟩ := hready
    have hsome : (s.files.rename (path.withExtension "tmp") path).isSome =
        (s.files.read (path.withExtension "tmp")).isSome := Fs.rename_isSome
    rw [hrename, hw.read_of_done hdone] at hsome
    cases hsome
  | @failed stage error text =>
    have hcaller := hsaves text rfl
    have hsame : Settled json path s →
        Settled json path (s.apply id (persistError s caller text)) :=
      fun h ↦ h.of_same (UInt64.le_refl _) rfl rfl
    refine .of_resume ?_
    cases stage with
    | createDirAll => exact hsame (hready hcaller)
    | snapshot => exact hsame (hready hcaller)
    | create data => exact hsame (hready.1 hcaller)
    | write data handle =>
      obtain ⟨hsettled, hdata, hw⟩ := hready
      by_cases hne : path = path.withExtension "tmp"
      · -- the state file is the temporary file, and all of it has been written
        have hdone := hkeeps.resolve_left (not_not.mpr hne) data handle error rfl rfl
        refine hsame (.of_saved ?_)
        rw [hne, hw.read_of_done hdone, hdata]
      · exact hsame (hsettled hcaller hne)

/-- One step of a call that is not saving the registry. -/
theorem Task.Ready.follows (hready : task.Ready json path s)
    (hcalls : task.calls = true) (hp : ∀ stage caller, task ≠ .persist stage caller)
    (hrun : task.run json (some path) s io = some e) (ht : t = s.apply id e) :
    Follows json path t e.task := by
  subst ht
  have hsame : ∀ {e' : Effect}, e'.connections = s.connections → e'.files = s.files →
      Settled json path s → Settled json path (s.apply id e') :=
    fun hconnections hfiles h ↦ h.of_same (UInt64.le_refl _) hconnections hfiles
  cases task with
  | launchInsert key record =>
    cases io <;> simp only [Task.run.eq_def, reduceCtorEq] at hrun
    cases hrun
    exact .of_persist fun hcaller ↦ by cases hcaller
  | closeRemove key =>
    cases io <;> simp only [Task.run.eq_def, reduceCtorEq] at hrun
    split at hrun <;> cases hrun
    · refine .of_settled (hsame rfl rfl hready) fun task' htask' hlist ↦ ?_
      cases htask'
      cases hlist
    · exact .of_persist fun hcaller ↦ by cases hcaller
  | lookup key use =>
    cases io <;> simp only [Task.run.eq_def, reduceCtorEq] at hrun
    split at hrun <;> cases hrun
    · refine .of_settled (hsame rfl rfl hready) fun task' htask' hlist ↦ ?_
      cases htask'
      rw [Use.calls_refuse] at hlist
      cases hlist
    · exact .of_calls rfl ⟨hsame rfl rfl hready, ‹_›⟩
  | checkExpiry key record use =>
    obtain ⟨hsettled, hlookup⟩ := hready
    cases io <;> simp only [Task.run.eq_def, reduceCtorEq] at hrun
    split at hrun
    · cases hrun
      exact .of_calls rfl ⟨hsame rfl rfl hsettled, record, hlookup, ‹_›⟩
    · cases use <;> cases hrun <;>
      · refine .of_settled (hsame rfl rfl hsettled) fun task' htask' hlist ↦ ?_
        cases htask'
        cases hlist
  | evict key use =>
    obtain ⟨⟨registry, hfile, hlive⟩, record, hlookup, hexpired⟩ := hready
    cases io <;> simp only [Task.run.eq_def, reduceCtorEq] at hrun
    cases hrun
    exact .of_persist fun _ ↦ ⟨registry, hfile, hlive.erase hlookup hexpired⟩
  | retain now listing =>
    obtain ⟨hsettled, hle⟩ := hready
    cases io <;> simp only [Task.run.eq_def, reduceCtorEq] at hrun
    split at hrun <;> cases hrun
    · show Follows json path _ ((Caller.removeExpired listing).resume (.ok ()))
      exact .of_resume (hsettled.of_same (UInt64.le_refl _) rfl rfl)
    · obtain ⟨registry, hfile, hlive⟩ := hsettled
      exact .of_persist fun _ ↦ ⟨registry, hfile, hlive.retain hle⟩
  | list =>
    cases io <;> simp only [Task.run.eq_def, reduceCtorEq] at hrun
    cases hrun
    refine .of_settled (hsame rfl rfl hready) fun task' htask' ↦ ?_
    cases htask'
  | persist stage caller => exact absurd rfl (hp stage caller)
  | _ => cases hcalls

/-- The other tasks leave the registry and the files alone, and make no call. -/
theorem Task.run_quiet (hcalls : task.calls = false)
    (hrun : task.run json (some path) s io = some e) :
    e.connections = s.connections ∧ e.files = s.files ∧ ∀ task' ∈ e.task, task'.calls = false := by
  have hgoes : ∀ {o : Out} {after : Task}, e = s.keep o (some after) → after.calls = false →
      e.connections = s.connections ∧ e.files = s.files ∧
        ∀ task' ∈ e.task, task'.calls = false := by
    rintro o after rfl hafter
    refine ⟨rfl, rfl, fun task' htask' ↦ ?_⟩
    cases htask'
    exact hafter
  cases task with
  | respond status reply =>
    cases io <;> simp only [Task.run.eq_def, reduceCtorEq] at hrun
    cases hrun
    exact ⟨rfl, rfl, fun task' htask' ↦ by cases htask'⟩
  | acquireTunnel key record =>
    cases io <;> simp only [Task.run.eq_def, reduceCtorEq] at hrun
    cases hrun
    refine ⟨rfl, rfl, fun task' htask' ↦ ?_⟩
    cases htask'
    split <;> rfl
  | acquireSlot key record =>
    cases io <;> simp only [Task.run.eq_def, reduceCtorEq] at hrun
    split at hrun <;> cases hrun
    · exact hgoes rfl rfl
    · refine ⟨rfl, rfl, fun task' htask' ↦ ?_⟩
      cases htask'
      rfl
  | upgrade key record =>
    cases io <;> simp only [Task.run.eq_def, reduceCtorEq] at hrun <;> cases hrun <;>
      exact hgoes rfl rfl
  | connect key record =>
    cases io <;> simp only [Task.run.eq_def, reduceCtorEq] at hrun <;> cases hrun
    · exact hgoes rfl (by split <;> rfl)
    · exact hgoes rfl rfl
    · exact hgoes rfl rfl
  | startCapture key record =>
    cases io <;> simp only [Task.run.eq_def, reduceCtorEq] at hrun <;> cases hrun <;>
      exact hgoes rfl rfl
  | relay key record deadline =>
    cases io <;> simp only [Task.run.eq_def, reduceCtorEq] at hrun
    case pending => split at hrun <;> cases hrun <;> exact hgoes rfl rfl
    all_goals
      cases hrun
      exact hgoes rfl rfl
  | release guards answer =>
    cases io <;> simp only [Task.run.eq_def, reduceCtorEq] at hrun
    cases hrun
    refine ⟨State.release_connections, State.release_files, fun task' htask' ↦ ?_⟩
    rcases State.release_task htask' with ⟨guards', rfl⟩ | ⟨status, reply, rfl⟩
    · rfl
    · rfl
  | _ => cases hcalls

/-- At most one call is at work, and without one the state file is up to date. -/
structure Ordered (json : JsonText) (path : FilePath) (s : State) : Prop where
  below : Below s
  single : ∀ id id' task task', s.tasks id = some task → s.tasks id' = some task' →
    task.calls = true → task'.calls = true → id = id'
  ready : ∀ id task, s.tasks id = some task → task.calls = true → task.Ready json path s
  settled : (∀ id task, s.tasks id = some task → task.calls = false) → Settled json path s

theorem Below.idle_iff (h : Below s) :
    s.idle = true ↔ ∀ id task, s.tasks id = some task → task.calls = false := by
  simp only [State.idle, List.all_eq_true, List.mem_range, Option.all_eq_true, Bool.not_eq_true']
  exact ⟨fun hall id task htask ↦ hall id (h.lt htask) task htask,
    fun hall id _ task htask ↦ hall id task htask⟩

theorem Task.Ready.mono (h : task.Ready json path s) (hnow : s.now ≤ t.now)
    (hconnections : t.connections = s.connections) (hfiles : t.files = s.files) :
    task.Ready json path t := by
  have hsettled : Settled json path s → Settled json path t :=
    fun h ↦ h.of_same hnow hconnections hfiles
  cases task with
  | checkExpiry key record use => exact ⟨hsettled h.1, hconnections ▸ h.2⟩
  | evict key use =>
    obtain ⟨hs, record, hlookup, hexpired⟩ := h
    exact ⟨hsettled hs, record, hconnections ▸ hlookup, TunnelRecord.isExpired_mono hexpired hnow⟩
  | retain now listing => exact ⟨hsettled h.1, UInt64.le_trans h.2 hnow⟩
  | persist stage caller =>
    cases stage with
    | createDirAll => exact fun hcaller ↦ hsettled (h hcaller)
    | snapshot => exact fun hcaller ↦ hsettled (h hcaller)
    | create data => exact ⟨fun hcaller ↦ hsettled (h.1 hcaller), hconnections ▸ h.2⟩
    | write data handle =>
      exact ⟨fun hcaller hne ↦ hsettled (h.1 hcaller hne), hconnections ▸ h.2.1, hfiles ▸ h.2.2⟩
  | _ => exact hsettled h

/-- A step of one task, after which `Follows` holds of what it has become. -/
theorem Ordered.apply (h : Ordered json path s) (htask : s.tasks id = some task)
    (hcalls : task.calls = true) (hfollows : Follows json path (s.apply id e) e.task) :
    Ordered json path (s.apply id e) := by
  have honly : ∀ {id' task'}, (s.apply id e).tasks id' = some task' → task'.calls = true →
      id' = id ∧ e.task = some task' := by
    intro id' task' htask' hcalls'
    rcases State.apply_tasks htask' with hnew | ⟨hne, hold⟩
    · exact hnew
    · exact absurd (h.single id' id task' task hold htask hcalls' hcalls) hne
  refine ⟨TasksBelow.step h.below (h.below.lt htask), ?_, ?_, ?_⟩
  · intro id₁ id₂ task₁ task₂ h₁ h₂ hcalls₁ hcalls₂
    rw [(honly h₁ hcalls₁).1, (honly h₂ hcalls₂).1]
  · intro id' task' htask' hcalls'
    exact hfollows.ready task' (honly htask' hcalls').2 hcalls'
  · intro hquiet
    refine hfollows.settled fun task' htask' ↦ hquiet id task' ?_
    rw [State.apply_tasks_self]
    exact htask'

/-- A step of a task that makes no call. -/
theorem Ordered.quiet (h : Ordered json path s) (htask : s.tasks id = some task)
    (hcalls : task.calls = false) (hconnections : e.connections = s.connections)
    (hfiles : e.files = s.files) (hafter : ∀ task' ∈ e.task, task'.calls = false) :
    Ordered json path (s.apply id e) := by
  have hold : ∀ {id' task'}, (s.apply id e).tasks id' = some task' → task'.calls = true →
      s.tasks id' = some task' := by
    intro id' task' htask' hcalls'
    rcases State.apply_tasks htask' with ⟨-, hnew⟩ | ⟨-, hold⟩
    · rw [hafter task' hnew] at hcalls'
      cases hcalls'
    · exact hold
  refine ⟨TasksBelow.step h.below (h.below.lt htask), ?_, ?_, ?_⟩
  · intro id₁ id₂ task₁ task₂ h₁ h₂ hcalls₁ hcalls₂
    exact h.single id₁ id₂ task₁ task₂ (hold h₁ hcalls₁) (hold h₂ hcalls₂) hcalls₁ hcalls₂
  · intro id' task' htask' hcalls'
    exact (h.ready id' task' (hold htask' hcalls') hcalls').mono (UInt64.le_refl _) hconnections
      hfiles
  · intro hquiet
    refine (h.settled fun id' task' htask' ↦ ?_).of_same (UInt64.le_refl _) hconnections hfiles
    by_cases hsame : id' = id
    · subst hsame
      rw [htask] at htask'
      cases htask'
      exact hcalls
    · refine hquiet id' task' ?_
      rw [State.apply_tasks_of_ne hsame]
      exact htask'

/-- A call begins while no other is at work. -/
theorem Ordered.spawn (h : Ordered json path s)
    (hidle : ∀ id task, s.tasks id = some task → task.calls = false) (hstarts : s.Starts task) :
    Ordered json path (s.spawn task) := by
  have hsettled := h.settled hidle
  have hready : task.Ready json path s := by
    cases hstarts with
    | retain => exact ⟨hsettled, UInt64.le_refl _⟩
    | _ => exact hsettled
  have honly : ∀ {id' task'}, (s.spawn task).tasks id' = some task' → task'.calls = true →
      id' = s.nextTask ∧ task' = task := by
    intro id' task' htask' hcalls'
    rcases tasks_of_update htask' with ⟨hid, hnew⟩ | ⟨-, hold⟩
    · exact ⟨hid, (Option.some.inj hnew).symm⟩
    · rw [hidle id' task' hold] at hcalls'
      cases hcalls'
  refine ⟨TasksBelow.spawn h.below, ?_, ?_, fun _ ↦ ?_⟩
  · intro id₁ id₂ task₁ task₂ h₁ h₂ hcalls₁ hcalls₂
    rw [(honly h₁ hcalls₁).1, (honly h₂ hcalls₂).1]
  · intro id' task' htask' hcalls'
    rw [(honly htask' hcalls').2]
    exact hready.mono (UInt64.le_refl _) rfl rfl
  · exact hsettled.of_same (UInt64.le_refl _) rfl rfl

theorem Ordered.step (h : Ordered json path s) (hturn : inTurn ⟨s, a, o⟩ = true)
    (hsaves : saves ⟨s, a, o⟩ = true)
    (hkeeps : path ≠ path.withExtension "tmp" ∨ breaksOff ⟨s, a, o⟩ = false)
    (hnext : next json (some path) s a = some (o, t)) : Ordered json path t := by
  have hbelow := h.below.step hnext
  cases next_moved hnext with
  | @tick now hle =>
    refine ⟨hbelow, h.single, fun id task htask hcalls ↦ ?_, fun hquiet ↦ ?_⟩
    · exact (h.ready id task htask hcalls).mono hle rfl rfl
    · exact (h.settled hquiet).of_same hle rfl rfl
  | reject => exact h
  | answer => exact h
  | @spawn _ task hrun _ hstarts =>
    have hidle : ∀ id task, s.tasks id = some task → task.calls = false := by
      refine h.below.idle_iff.mp ?_
      cases a with
      | run id io => exact absurd rfl (hrun id io)
      | tick now =>
        simp only [next, Option.ite_none_right_eq_some, Option.some.injEq, Prod.mk.injEq] at hnext
        exact absurd (congrArg State.nextTask hnext.2.2) (Nat.ne_of_lt (Nat.lt_succ_self _))
      | _ => exact hturn
    exact h.spawn hidle hstarts
  | @run id io task e htask hrun =>
    cases hcalls : task.calls with
    | false =>
      obtain ⟨hconnections, hfiles, hafter⟩ := Task.run_quiet hcalls hrun
      exact h.quiet htask hcalls hconnections hfiles hafter
    | true =>
      have hready := h.ready id task htask hcalls
      refine h.apply htask hcalls ?_
      rcases Task.saving_or hrun with ⟨stage, caller, path', rfl, hpath, hran⟩ | hp
      · cases hpath
        refine hran.follows hready (fun text hout ↦ ?_) (hkeeps.imp_right fun hbreaks ↦ ?_) rfl
        · simpa [saves, hout, State.stepping, htask] using hsaves
        · rintro data handle error rfl rfl
          simpa [breaksOff, State.stepping, htask] using hbreaks
      · exact hready.follows hcalls hp hrun rfl
  | @start config _ hlaunch =>
    have hidle := h.below.idle_iff.mp hturn
    have hnone := (launch_eq hlaunch).2.2.1
    refine ⟨hbelow, fun id _ task _ htask ↦ ?_, fun id task htask ↦ ?_, fun _ ↦ ?_⟩
    · rw [hnone] at htask
      cases htask
    · rw [hnone] at htask
      cases htask
    · exact (h.settled hidle).of_restart hlaunch

theorem ordered_launch {config : Config} {files : Fs FilePath} {nextTask : Nat}
    (hfile : files.read path = none)
    (h : launch json (some path) config now files nextTask = some s) : Ordered json path s := by
  obtain ⟨-, hfiles, hnone, -, hconnections⟩ := launch_eq h
  refine ⟨.of_no_tasks hnone, fun id _ task _ htask ↦ ?_, fun id task htask ↦ ?_,
    fun _ ↦ ⟨∅, .inl ⟨by rw [hfiles, hfile], rfl⟩, ?_⟩⟩
  · rw [hnone] at htask
    cases htask
  · rw [hnone] at htask
    cases htask
  · rw [hconnections, loadRegistry, hfile]
    exact .refl

/-- From a missing state file, with calls and restarts one after another, a new process hands out
the same records as the old one would from then on, as long as the state file is not its own
temporary file or no write of that file is broken off. -/
theorem restart_invisible {config config' : Config} {files : Fs FilePath} {nextTask : Nat}
    (hfile : files.read path = none)
    (hlaunch : launch json (some path) config now files nextTask = some s)
    (hrun : Run (next json (some path)) s tr t)
    (hturn : ∀ e ∈ tr, inTurn e = true) (hsaves : ∀ e ∈ tr, saves e = true)
    (hkeeps : path ≠ path.withExtension "tmp" ∨ ∀ e ∈ tr, breaksOff e = false)
    (hidle : t.idle = true) (hrestart : next json (some path) t (.start config') = some (o, u)) :
    ∀ now, u.now ≤ now → ∀ key record,
      activeRecord u.connections now key = .ok record ↔
        activeRecord t.connections now key = .ok record := by
  have hordered : Ordered json path t := by
    refine hrun.invariant (C := fun e ↦ inTurn e = true ∧ saves e = true ∧
      (path ≠ path.withExtension "tmp" ∨ breaksOff e = false)) (ordered_launch hfile hlaunch) ?_ ?_
    · rintro v a o w hv ⟨hturn, hsaves, hkeeps⟩ hnext
      exact hv.step hturn hsaves hkeeps hnext
    · exact fun e he ↦ ⟨hturn e he, hsaves e he, hkeeps.imp_right fun hall ↦ hall e he⟩
  have hsettled := hordered.settled (hordered.below.idle_iff.mp hidle)
  obtain ⟨u', hlaunch', heq⟩ := Option.map_eq_some_iff.mp hrestart
  cases heq
  intro now hle
  exact ((hsettled.restart hlaunch').mono hle).active

/-- A request for a tunnel under another key, which lasts until the time 10. -/
def sampleLease : Action :=
  .pool (some ⟨utf8 sampleSecret⟩) (.post (some (.obj [("key", .str "instance-key-0002"),
    ("target", .str "lab:80"), ("expiresAt", .num (.int 10))])))

/-- Two tunnels are registered; the second expires and is removed, and saving that breaks off. -/
def sampleCleanup : List Action :=
  [samplePost none, .run 0 .done] ++ samplePersist 0 ++ [.run 0 .done, sampleLease, .run 1 .done] ++
    samplePersist 1 ++ [.run 1 .done, .tick 20, .cleanup, .run 2 .done, .run 2 .done, .run 2 .done,
      .run 2 .done, .run 2 (.failed "disk full")]

-- The state file still has the second tunnel, and the new process leaves it out.
theorem restart_invisible_sample : ∃ s tr t u,
    Run (next JsonText.compact (some sampleFile)) s tr t ∧
    next JsonText.compact (some sampleFile) t (.start sampleConfig) = some (.silent, u) ∧
    activeRecord u.connections 30 sampleKey = .ok (sampleRecord none) := by
  obtain ⟨s, hs⟩ : ∃ s, launch JsonText.compact (some sampleFile) sampleConfig 0 Fs.empty 0 =
    some s := Option.isSome_iff_exists.mp (by decide)
  obtain ⟨tr, t, hrun, hp⟩ := exists_run (next JsonText.compact (some sampleFile)) s sampleCleanup
    (fun tr t ↦ tr.all inTurn && tr.all saves && t.idle && decide (t.now = 20) &&
      decide (t.connections.lookup sampleKey = some (sampleRecord none)) &&
      (launch JsonText.compact (some sampleFile) sampleConfig t.now t.files t.nextTask).isSome)
    (by cases hs; decide +kernel)
  simp only [Bool.and_eq_true, List.all_eq_true, decide_eq_true_eq] at hp
  obtain ⟨⟨⟨⟨⟨hturn, hsaves⟩, hidle⟩, hnow⟩, hlookup⟩, hstarts⟩ := hp
  obtain ⟨u, hu⟩ := Option.isSome_iff_exists.mp hstarts
  have hrestart : next JsonText.compact (some sampleFile) t (.start sampleConfig) =
      some (.silent, u) := by
    rw [next, hu]
    rfl
  refine ⟨s, tr, t, u, hrun, hrestart, ?_⟩
  refine (restart_invisible rfl hs hrun hturn hsaves (.inl (by decide)) hidle hrestart 30 ?_
    sampleKey (sampleRecord none)).mpr (activeRecord_eq_ok.mpr ⟨hlookup, rfl⟩)
  rw [(launch_eq hu).1, hnow]
  decide

/-- A state file whose name is that of its own temporary file. -/
def sampleTemporary : FilePath := ⟨"/var/lib/wsrx", "registry.tmp"⟩

/-- The save that breaks off has emptied the state file, and the first tunnel is lost. -/
theorem restart_loses_tunnel : ¬ ∀ path config config' now files nextTask s tr t o u,
    files.read path = none →
    launch JsonText.compact (some path) config now files nextTask = some s →
    Run (next JsonText.compact (some path)) s tr t →
    (∀ e ∈ tr, inTurn e = true) → (∀ e ∈ tr, saves e = true) → t.idle = true →
    next JsonText.compact (some path) t (.start config') = some (o, u) →
    ∀ now, u.now ≤ now → ∀ key record,
      activeRecord u.connections now key = .ok record ↔
        activeRecord t.connections now key = .ok record := by
  intro hclaim
  obtain ⟨s, hs⟩ : ∃ s, launch JsonText.compact (some sampleTemporary) sampleConfig 0 Fs.empty 0 =
    some s := Option.isSome_iff_exists.mp (by decide)
  obtain ⟨tr, t, hrun, hp⟩ := exists_run (next JsonText.compact (some sampleTemporary)) s
    sampleCleanup
    (fun tr t ↦ tr.all inTurn && tr.all saves && t.idle &&
      decide (t.connections.lookup sampleKey = some (sampleRecord none)) &&
      decide (t.files.read sampleTemporary = some []) &&
      (launch JsonText.compact (some sampleTemporary) sampleConfig t.now t.files
        t.nextTask).isSome)
    (by cases hs; decide +kernel)
  simp only [Bool.and_eq_true, List.all_eq_true, decide_eq_true_eq] at hp
  obtain ⟨⟨⟨⟨⟨hturn, hsaves⟩, hidle⟩, hlookup⟩, hempty⟩, hstarts⟩ := hp
  obtain ⟨u, hu⟩ := Option.isSome_iff_exists.mp hstarts
  have hrestart : next JsonText.compact (some sampleTemporary) t (.start sampleConfig) =
      some (.silent, u) := by
    rw [next, hu]
    rfl
  have hafter := (hclaim sampleTemporary sampleConfig sampleConfig 0 Fs.empty 0 s tr t .silent u rfl
    hs hrun hturn hsaves hidle hrestart u.now (UInt64.le_refl _) sampleKey (sampleRecord none)).mpr
      (activeRecord_eq_ok.mpr ⟨hlookup, rfl⟩)
  have hnone : u.connections = ∅ := by
    rw [(launch_eq hu).2.2.2.2, loadRegistry, hempty, restore, parse, JsonText.compact_nil]
    rfl
  rw [activeRecord_eq_ok, hnone] at hafter
  cases hafter.1

end LabStreamGate.Gateway
