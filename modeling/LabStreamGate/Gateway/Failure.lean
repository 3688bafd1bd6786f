import Mathlib.Algebra.Ring.Nat
import LabStreamGate.Gateway.Frame
import LabStreamGate.Library.JsonText

/-!
# Management requests that fail

A request that is turned down by its checks changes nothing.  One that passes them changes the
registry first and saves it then; where saving fails the request is answered with an error, and
the registry stays as the request has made it.
-/

namespace LabStreamGate.Gateway

open Function

variable {json : JsonText} {stateFile : Option FilePath} {path : FilePath} {s t u v : State}
  {a : Action} {o : Out} {tr : List (Event State Action Out)} {id : Nat} {io : Io} {e : Effect}
  {files files' : Fs FilePath} {data : Bytes} {stage : PersistStage} {caller : Caller}
  {authorization : Option HeaderValue} {request : PoolRequest}

/-! ## One call of `persist_registry` on its own -/

/-- The step opens the temporary file, which empties it. -/
def opensTemporary (e : Event State Action Out) : Bool :=
  match e.act, e.pre.stepping e.act with
  | .run _ .done, some (.persist (.create _) _) => true
  | _, _ => false

def Action.count : Action → Nat
  | .run _ (.wrote count) => count
  | _ => 0

/-- How much has been written. -/
def written (tr : List (Event State Action Out)) : Nat := (tr.map fun e ↦ e.act.count).sum

theorem written_snoc : written (tr ++ [⟨s, a, o⟩]) = written tr + a.count := by
  simp [written]

theorem opens_snoc : List.any (tr ++ [⟨s, a, o⟩]) opensTemporary =
    (tr.any opensTemporary || opensTemporary ⟨s, a, o⟩) := by
  simp

/-- The files after the steps `tr` of a call that has `data` to write. -/
def FilesAfter (path : FilePath) (files : Fs FilePath) (data : Bytes)
    (tr : List (Event State Action Out)) (files' : Fs FilePath) : Prop :=
  tr.any opensTemporary = false ∧ files' = files ∨
    tr.any opensTemporary = true ∧
      files'.read (path.withExtension "tmp") = some (data.take (written tr)) ∧
      (path ≠ path.withExtension "tmp" → files'.read path = files.read path)

/-- What the state file is then. -/
theorem FilesAfter.read_eq_iff (h : FilesAfter path files data tr files') :
    files'.read path = files.read path ↔
      path ≠ path.withExtension "tmp" ∨ tr.any opensTemporary = false ∨
        files.read path = some (data.take (written tr)) := by
  rcases h with ⟨hnot, rfl⟩ | ⟨hopen, htmp, hread⟩
  · simp [hnot]
  · by_cases hne : path = path.withExtension "tmp"
    · rw [← hne] at htmp
      simp [← hne, hopen, htmp, eq_comm]
    · simp [hne, hread hne]

/-- The stage of a call that has met no error. -/
inductive Saving (path : FilePath) (files : Fs FilePath) (data : Bytes)
    (tr : List (Event State Action Out)) : Fs FilePath → PersistStage → Prop
  | waiting {stage : PersistStage} : tr.any opensTemporary = false → written tr = 0 →
      stage = .createDirAll ∨ stage = .snapshot ∨ stage = .create data →
      Saving path files data tr files stage
  | writing {files' : Fs FilePath} {handle : Handle} : tr.any opensTemporary = true →
      files'.Writing (path.withExtension "tmp") handle data →
      handle.offset = min (written tr) data.length →
      (path ≠ path.withExtension "tmp" → files'.read path = files.read path) →
      Saving path files data tr files' (.write data handle)

-- Wherever an error ends the call, the files are as it has left them.
theorem Saving.filesAfter (h : Saving path files data tr files' stage) :
    FilesAfter path files data tr files' := by
  cases h with
  | waiting hnot _ _ => exact .inl ⟨hnot, rfl⟩
  | writing hopen hw ho hread =>
    refine .inr ⟨hopen, ?_, hread⟩
    rw [Fs.read, hw.named, Option.map_some, hw.written, ho, ← List.take_eq_take_min]

/-- A step that neither opens the file nor writes. -/
theorem FilesAfter.kept (h : FilesAfter path files data tr files')
    (hopen : opensTemporary ⟨s, a, o⟩ = false) (hcount : a.count = 0) :
    FilesAfter path files data (tr ++ [⟨s, a, o⟩]) files' := by
  unfold FilesAfter
  rw [opens_snoc, hopen, Bool.or_false, written_snoc, hcount, Nat.add_zero]
  exact h

theorem Saving.kept (h : Saving path files data tr files' stage)
    (hopen : opensTemporary ⟨s, a, o⟩ = false) (hcount : a.count = 0) :
    Saving path files data (tr ++ [⟨s, a, o⟩]) files' stage := by
  have hopens : List.any (tr ++ [⟨s, a, o⟩]) opensTemporary = tr.any opensTemporary := by
    rw [opens_snoc, hopen, Bool.or_false]
  have hwritten : written (tr ++ [⟨s, a, o⟩]) = written tr := by
    rw [written_snoc, hcount, Nat.add_zero]
  cases h with
  | waiting hnot hzero hstage => exact .waiting (hopens.trans hnot) (hwritten.trans hzero) hstage
  | writing hopen hw ho hread =>
    exact .writing (hopens.trans hopen) hw (hwritten ▸ ho) hread

/-- One step of the call: it goes on, is done, or ends with an error. -/
theorem Saving.step (h : Saving path files data tr v.files stage)
    (hdata : serialize json v.connections = data)
    (ht : v.tasks id = some (.persist stage caller)) (hran : stage.Ran json path v caller io e) :
    (∃ stage', e.task = some (.persist stage' caller) ∧ e.out = .silent ∧
        Saving path files data (tr ++ [⟨v, .run id io, o⟩]) e.files stage') ∨
      e.task = caller.resume (.ok ()) ∧ e.out = .persisted ∨
      ∃ text, e.task = caller.resume (.error text) ∧ e.out = .persistFailed text ∧
        FilesAfter path files data (tr ++ [⟨v, .run id io, o⟩]) e.files := by
  have hopens : opensTemporary ⟨v, .run id io, o⟩ = true ↔
      io = .done ∧ ∃ data, stage = .create data := by
    simp only [opensTemporary, State.stepping, ht]
    cases io <;> cases stage <;> simp
  have hnot : (¬ ∃ data, stage = .create data) → opensTemporary ⟨v, .run id io, o⟩ = false :=
    fun hstage ↦ Bool.eq_false_iff.mpr fun htrue ↦ hstage (hopens.mp htrue).2
  cases hran with
  | createDirAll =>
    left
    cases h with
    | waiting hnone hzero _ =>
      exact ⟨_, rfl, rfl, .kept (.waiting hnone hzero (.inr (.inl rfl))) (hnot (by simp)) rfl⟩
  | snapshot =>
    left
    cases h with
    | waiting hnone hzero _ =>
      refine ⟨_, rfl, rfl, .kept (.waiting hnone hzero (.inr (.inr ?_))) (hnot (by simp)) rfl⟩
      rw [hdata]
  | @create data' =>
    left
    cases h with
    | waiting hnone hzero hstage =>
      obtain rfl : data' = data := by simpa using hstage
      refine ⟨_, rfl, rfl, .writing ?_ (Fs.create_writing ..) ?_ Fs.read_create_of_ne⟩
      · rw [opens_snoc, hopens.mpr ⟨rfl, _, rfl⟩, Bool.or_true]
      · rw [Fs.create_offset, written_snoc, hzero]
        exact (Nat.zero_min _).symm
  | @write data' handle count hlt =>
    left
    cases h with
    | waiting _ _ hstage => simp at hstage
    | writing hopen hw ho hread =>
      refine ⟨_, rfl, rfl, .writing ?_ (hw.write _) ?_ fun hne ↦ ?_⟩
      · rw [opens_snoc, hopen, Bool.true_or]
      · simp only [Fs.write, written_snoc, Action.count, List.length_take, List.length_drop]
        omega
      · rw [Fs.read_write_of_ne hw.named hne]
        exact hread hne
  | rename _ _ => exact .inr (.inl ⟨rfl, rfl⟩)
  | missing _ _ => exact .inr (.inr ⟨_, rfl, rfl, h.filesAfter.kept (hnot (by simp)) rfl⟩)
  | @failed _ _ text =>
    have hnone : opensTemporary ⟨v, .run id (.failed _), o⟩ = false :=
      Bool.eq_false_iff.mpr fun htrue ↦ by cases (hopens.mp htrue).1
    exact .inr (.inr ⟨text, rfl, rfl, h.filesAfter.kept hnone rfl⟩)

/-! ## One request on its own -/

def StatusCode.isError : StatusCode → Bool
  | .ok => false
  | .created => false
  | .accepted => false
  | .noContent => false
  | _ => true

/-- The request is answered with an error. -/
def Out.isError : Out → Bool
  | .rejected => true
  | .responded status _ => StatusCode.isError status
  | _ => false

/-- The request does not come as far as to change the registry. -/
def refused (s : State) (authorization : Option HeaderValue) : PoolRequest → Bool
  | .get => !authorizeManagement s.secret authorization
  | .post body =>
    !authorizeManagement s.secret authorization ||
      (body.bind TunnelRequest.ofJson).all fun req ↦ !(launchTunnel s req).isOk
  | .delete body =>
    !authorizeManagement s.secret authorization ||
      (body.bind CloseTunnelRequest.ofJson).all fun req ↦ (s.connections.lookup req.key).isNone

/-- The registry that the request asks for. -/
def registryAfter (s : State) : PoolRequest → Registry
  | .get => s.connections
  | .post body =>
    (body.bind TunnelRequest.ofJson).elim s.connections fun req ↦
      s.connections.insert req.key req.record
  | .delete body =>
    (body.bind CloseTunnelRequest.ofJson).elim s.connections fun req ↦ s.connections.erase req.key

/-- The registry has what the request registers already. -/
def repeats (s : State) : PoolRequest → Bool
  | .post body => (body.bind TunnelRequest.ofJson).any fun req ↦
      decide (s.connections.lookup req.key = some req.record)
  | _ => false

/-- The first task of a request that passes its checks. -/
inductive Changes (s : State) (request : PoolRequest) : Task → Prop
  | insert {key : String} {record : TunnelRecord} :
      registryAfter s request = s.connections.insert key record →
      Changes s request (.launchInsert key record)
  | remove {key : String} {record : TunnelRecord} : s.connections.lookup key = some record →
      registryAfter s request = s.connections.erase key → Changes s request (.closeRemove key)

/-- Those that report to the client how saving went. -/
def Caller.reports : Caller → Bool
  | .launchTunnel _ => true
  | .closeTunnel => true
  | _ => false

def Task.isRespond : Task → Bool
  | .respond _ _ => true
  | _ => false

/-- The answer is not an error. -/
def Task.succeeds : Task → Bool
  | .respond status _ => !StatusCode.isError status
  | _ => false

theorem Caller.resume_ok_succeeds {task : Task} (hcaller : caller.reports = true)
    (h : caller.resume (.ok ()) = some task) : task.succeeds = true := by
  cases caller <;> first | cases hcaller; done | (cases h; rfl)

theorem Caller.resume_isRespond {result : Except String Unit} {task : Task}
    (hcaller : caller.reports = true) (h : caller.resume result = some task) :
    task.isRespond = true := by
  cases caller <;> cases result <;> first | cases hcaller; done | (cases h; rfl)

/-- Where a request to change the registry is after its first step and the steps `tr`. -/
inductive Phase (json : JsonText) (stateFile : Option FilePath) (s : State)
    (authorization : Option HeaderValue) (request : PoolRequest)
    (tr : List (Event State Action Out)) (t : State) : Prop
  | refused : refused s authorization request = true → t.connections = s.connections →
      t.files = s.files → (∀ task, t.tasks s.nextTask = some task → task.isRespond = true ∨
        ∃ key, task = .closeRemove key ∧ s.connections.lookup key = none) →
      Phase json stateFile s authorization request tr t
  | starting {task : Task} : Gateway.refused s authorization request = false →
      (∀ e ∈ tr, e.out.isError = false) → tr.any opensTemporary = false → written tr = 0 →
      t.connections = s.connections → t.files = s.files → t.tasks s.nextTask = some task →
      Changes s request task → Phase json stateFile s authorization request tr t
  | saving {path : FilePath} {stage : PersistStage} {caller : Caller} :
      Gateway.refused s authorization request = false → (∀ e ∈ tr, e.out.isError = false) →
      stateFile = some path → t.connections = registryAfter s request →
      t.tasks s.nextTask = some (.persist stage caller) → caller.reports = true →
      Saving path s.files (serialize json (registryAfter s request)) tr t.files stage →
      Phase json stateFile s authorization request tr t
  | done : Gateway.refused s authorization request = false → (∀ e ∈ tr, e.out.isError = false) →
      (∀ task, t.tasks s.nextTask = some task → task.succeeds = true) →
      Phase json stateFile s authorization request tr t
  | failed {path : FilePath} : Gateway.refused s authorization request = false →
      stateFile = some path → t.connections = registryAfter s request →
      FilesAfter path s.files (serialize json (registryAfter s request)) tr t.files →
      (∀ task, t.tasks s.nextTask = some task → task.isRespond = true) →
      Phase json stateFile s authorization request tr t

-- A request is answered in one step, which changes nothing.
theorem run_isRespond {task : Task} (ht : task.isRespond = true)
    (h : task.run json stateFile s io = some e) :
    io = .done ∧ ∃ status reply, task = .respond status reply ∧
      e = s.keep (.responded status reply) none := by
  cases task with
  | respond status reply =>
    cases io <;> simp only [Task.run.eq_def, reduceCtorEq] at h
    cases h
    exact ⟨rfl, status, reply, rfl, rfl⟩
  | _ => cases ht

theorem Task.isRespond_of_succeeds {task : Task} (h : task.succeeds = true) :
    task.isRespond = true := by
  cases task with
  | respond => rfl
  | _ => cases h

theorem opensTemporary_of_not_persist {task : Task} (ht : v.tasks id = some task)
    (htask : ∀ stage caller, task ≠ .persist stage caller) :
    opensTemporary ⟨v, .run id io, o⟩ = false := by
  unfold opensTemporary
  split
  · rename_i h
    exact absurd (Option.some.inj (ht.symm.trans h)) (htask _ _)
  · rfl

theorem forall_isError_snoc (h : ∀ e ∈ tr, e.out.isError = false) (ho : o.isError = false) :
    ∀ e ∈ tr ++ [⟨s, a, o⟩], e.out.isError = false := by
  rw [List.forall_mem_append]
  exact ⟨h, by simpa using ho⟩

/-- The registry has been changed and is to be saved, if there is a state file. -/
theorem Phase.persist {e : Effect} (hpass : Gateway.refused s authorization request = false)
    (hquiet : ∀ e ∈ tr, e.out.isError = false) (hnot : tr.any opensTemporary = false)
    (hzero : written tr = 0) (hcaller : caller.reports = true)
    (htask : e.task = persistRegistry stateFile caller)
    (hconnections : e.connections = registryAfter s request) (hfiles : e.files = s.files) :
    Phase json stateFile s authorization request tr (v.apply s.nextTask e) := by
  cases stateFile with
  | none =>
    refine .done hpass hquiet fun task ht ↦ ?_
    rw [State.apply_tasks_self, htask] at ht
    exact Caller.resume_ok_succeeds hcaller ht
  | some path =>
    refine .saving hpass hquiet rfl hconnections (State.apply_tasks_self.trans htask) hcaller ?_
    rw [State.apply_files, hfiles]
    exact .waiting hnot hzero (.inl rfl)

/-- The request goes one step on. -/
theorem Phase.run {task : Task} (h : Phase json stateFile s authorization request tr v)
    (ht : v.tasks s.nextTask = some task) (hrun : task.run json stateFile v io = some e) :
    Phase json stateFile s authorization request (tr ++ [⟨v, .run s.nextTask io, e.out⟩])
      (v.apply s.nextTask e) := by
  cases h with
  | refused hrefused hconnections hfiles htask =>
    rcases htask task ht with hrespond | ⟨key, rfl, hlookup⟩
    · obtain ⟨-, status, reply, rfl, rfl⟩ := run_isRespond hrespond hrun
      refine .refused hrefused hconnections hfiles fun task' ht' ↦ ?_
      rw [State.apply_tasks_self] at ht'
      cases ht'
    · cases io <;> simp only [Task.run.eq_def, reduceCtorEq] at hrun
      rw [hconnections, hlookup] at hrun
      cases hrun
      refine .refused hrefused hconnections hfiles fun task' ht' ↦ ?_
      rw [State.apply_tasks_self] at ht'
      cases ht'
      exact .inl rfl
  | @starting task' hpass hquiet hnot hzero hconnections hfiles htask hchanges =>
    obtain rfl := Option.some.inj (htask.symm.trans ht)
    have hopens : ∀ {io}, opensTemporary ⟨v, .run s.nextTask io, e.out⟩ = false :=
      opensTemporary_of_not_persist ht (by cases hchanges <;> simp)
    cases hchanges with
    | insert hafter =>
      cases io <;> simp only [Task.run.eq_def, reduceCtorEq] at hrun
      cases hrun
      refine .persist hpass (forall_isError_snoc hquiet rfl) ?_ ?_ rfl rfl ?_ hfiles
      · rw [opens_snoc, hnot, hopens, Bool.or_false]
      · rw [written_snoc, hzero]
        rfl
      · rw [hafter, ← hconnections]
    | remove hlookup hafter =>
      cases io <;> simp only [Task.run.eq_def, reduceCtorEq] at hrun
      rw [hconnections, hlookup] at hrun
      cases hrun
      refine .persist hpass (forall_isError_snoc hquiet rfl) ?_ ?_ rfl rfl ?_ hfiles
      · rw [opens_snoc, hnot, hopens, Bool.or_false]
      · rw [written_snoc, hzero]
        rfl
      · rw [hafter]
  | @saving path stage caller hpass hquiet hpath hconnections htask hcaller hsaving =>
    obtain rfl := Option.some.inj (htask.symm.trans ht)
    obtain ⟨path', hpath', hstage⟩ := Task.run_persist hrun
    obtain rfl := Option.some.inj (hpath.symm.trans hpath')
    have hran := PersistStage.run_ran hstage
    have hafter : e.connections = registryAfter s request := hran.connections.trans hconnections
    have hdata : serialize json v.connections = serialize json (registryAfter s request) := by
      rw [hconnections]
    rcases hsaving.step (o := e.out) hdata ht hran with
      ⟨stage', htask', hout, hsaving'⟩ | ⟨htask', hout⟩ | ⟨text, htask', hout, hfiles⟩
    · refine .saving hpass (forall_isError_snoc hquiet ?_) hpath hafter
        (State.apply_tasks_self.trans htask') hcaller hsaving'
      rw [hout]
      rfl
    · refine .done hpass (forall_isError_snoc hquiet ?_) fun task ht' ↦ ?_
      · rw [hout]
        rfl
      · rw [State.apply_tasks_self, htask'] at ht'
        exact Caller.resume_ok_succeeds hcaller ht'
    · refine .failed hpass hpath hafter hfiles fun task ht' ↦ ?_
      rw [State.apply_tasks_self, htask'] at ht'
      exact Caller.resume_isRespond hcaller ht'
  | done hpass hquiet htask =>
    have hsucceeds := htask task ht
    obtain ⟨-, status, reply, rfl, rfl⟩ :=
      run_isRespond (Task.isRespond_of_succeeds hsucceeds) hrun
    refine .done hpass (forall_isError_snoc hquiet ?_) fun task' ht' ↦ ?_
    · rw [Task.succeeds, Bool.not_eq_true'] at hsucceeds
      exact hsucceeds
    · rw [State.apply_tasks_self] at ht'
      cases ht'
  | failed hpass hpath hconnections hfiles htask =>
    obtain ⟨rfl, status, reply, rfl, rfl⟩ := run_isRespond (htask task ht) hrun
    have hopens : opensTemporary ⟨v, .run s.nextTask .done, .responded status reply⟩ = false :=
      opensTemporary_of_not_persist ht (by simp)
    refine .failed hpass hpath hconnections (hfiles.kept hopens rfl) fun task' ht' ↦ ?_
    rw [State.apply_tasks_self] at ht'
    cases ht'

-- Time passes and nothing else.
theorem Phase.tick {now : UInt64} (h : Phase json stateFile s authorization request tr v) :
    Phase json stateFile s authorization request (tr ++ [⟨v, .tick now, .silent⟩])
      { v with now := now } := by
  cases h with
  | refused hrefused hconnections hfiles htask =>
    exact .refused hrefused hconnections hfiles htask
  | starting hpass hquiet hnot hzero hconnections hfiles htask hchanges =>
    refine .starting hpass (forall_isError_snoc hquiet rfl) ?_ ?_ hconnections hfiles htask hchanges
    · rw [opens_snoc, hnot, opensTemporary, Bool.or_false]
    · rw [written_snoc, hzero]
      rfl
  | saving hpass hquiet hpath hconnections htask hcaller hsaving =>
    exact .saving hpass (forall_isError_snoc hquiet rfl) hpath hconnections htask hcaller
      (hsaving.kept rfl rfl)
  | done hpass hquiet htask => exact .done hpass (forall_isError_snoc hquiet rfl) htask
  | failed hpass hpath hconnections hfiles htask =>
    exact .failed hpass hpath hconnections (hfiles.kept rfl rfl) htask

/-- The step is one of the task or of the clock. -/
def alone (id : Nat) (e : Event State Action Out) : Bool :=
  match e.act with
  | .run id' _ => id' == id
  | .tick _ => true
  | _ => false

theorem Phase.step (h : Phase json stateFile s authorization request tr v)
    (hact : alone s.nextTask ⟨v, a, o⟩ = true) (hnext : next json stateFile v a = some (o, t)) :
    Phase json stateFile s authorization request (tr ++ [⟨v, a, o⟩]) t := by
  cases a with
  | run id io =>
    obtain rfl := beq_iff_eq.mp hact
    cases next_moved hnext with
    | run ht hrun => exact h.run ht hrun
    | spawn hne _ _ => exact absurd rfl (hne _ _)
  | tick now =>
    simp only [next, Option.ite_none_right_eq_some, Option.some.injEq, Prod.mk.injEq] at hnext
    obtain ⟨-, rfl, rfl⟩ := hnext
    exact h.tick
  | _ => cases hact

/-- The first step checks the request. -/
theorem Phase.first (hrequest : request ≠ .get) (hfree : s.tasks s.nextTask = none)
    (hnext : next json stateFile s (.pool authorization request) = some (o, t)) :
    Phase json stateFile s authorization request [⟨s, .pool authorization request, o⟩] t := by
  have hstay : Gateway.refused s authorization request = true →
      Phase json stateFile s authorization request [⟨s, .pool authorization request, o⟩] s := by
    intro hrefused
    refine .refused hrefused rfl rfl fun task ht ↦ ?_
    rw [hfree] at ht
    cases ht
  have hspawned : ∀ task, (s.spawn task).tasks s.nextTask = some task := fun _ ↦ update_self ..
  simp only [next] at hnext
  split at hnext
  · rename_i hauthorized
    unfold pool at hnext
    split at hnext
    · exact absurd rfl hrequest
    · split at hnext
      · rename_i hbody
        cases hnext
        exact hstay (by simp [Gateway.refused, hbody])
      · rename_i req hbody
        split at hnext
        · rename_i hlaunch
          cases hnext
          exact hstay (by simp [Gateway.refused, hbody, hlaunch, Except.isOk, Except.toBool])
        · rename_i task hlaunch
          cases hnext
          obtain rfl := launchTunnel_eq hlaunch
          refine .starting ?_ (by simp [Out.isError]) rfl rfl rfl rfl (hspawned _) (.insert ?_)
          · simp [Gateway.refused, hauthorized, hbody, hlaunch, Except.isOk, Except.toBool]
          · simp [registryAfter, hbody]
    · split at hnext
      · rename_i hbody
        cases hnext
        exact hstay (by simp [Gateway.refused, hbody])
      · rename_i req hbody
        cases hnext
        cases hlookup : s.connections.lookup req.key with
        | none =>
          refine .refused (by simp [Gateway.refused, hbody, hlookup]) rfl rfl fun task ht ↦ ?_
          obtain rfl := Option.some.inj ((hspawned _).symm.trans ht)
          exact .inr ⟨req.key, rfl, hlookup⟩
        | some record =>
          refine .starting ?_ (by simp [Out.isError]) rfl rfl rfl rfl (hspawned _)
            (.remove hlookup ?_)
          · simp [Gateway.refused, hauthorized, hbody, hlookup]
          · simp [registryAfter, hbody]
  · rename_i hauthorized
    cases hnext
    refine hstay ?_
    cases request with
    | get => exact absurd rfl hrequest
    | post => simp [Gateway.refused, hauthorized]
    | delete => simp [Gateway.refused, hauthorized]

/-- Registry and state file are the same as before. -/
def Unchanged (stateFile : Option FilePath) (s t : State) : Prop :=
  (∀ key, t.connections.lookup key = s.connections.lookup key) ∧
    ∀ path, stateFile = some path → t.files.read path = s.files.read path

-- A registration keeps the registry if it repeats one; a removal never does.
theorem lookup_registryAfter_iff (hrequest : request ≠ .get)
    (hpass : refused s authorization request = false) :
    (∀ key, (registryAfter s request).lookup key = s.connections.lookup key) ↔
      repeats s request = true := by
  cases request with
  | get => exact absurd rfl hrequest
  | post body =>
    cases hbody : body.bind TunnelRequest.ofJson with
    | none => simp [refused, hbody] at hpass
    | some req =>
      simp only [registryAfter, repeats, hbody, Option.elim_some, Option.any_some,
        decide_eq_true_eq]
      constructor
      · intro hall
        rw [← hall req.key, AList.lookup_insert]
      · intro hsame key
        by_cases hkey : key = req.key
        · rw [hkey, AList.lookup_insert, hsame]
        · rw [AList.lookup_insert_ne hkey]
  | delete body =>
    cases hbody : body.bind CloseTunnelRequest.ofJson with
    | none => simp [refused, hbody] at hpass
    | some req =>
      simp only [registryAfter, repeats, hbody, Option.elim_some, Bool.false_eq_true, iff_false]
      intro hall
      have hnone := hall req.key
      rw [AList.lookup_erase] at hnone
      simp [refused, hbody, ← hnone] at hpass

/-- A request to change the registry that is answered with an error, with no other request in
between, leaves the registry and the state file as they were if and only if its checks turned it
down, or it registers what is registered already; where the temporary file is the state file
itself, that file must also not have been opened or hold what it held before. -/
theorem failed_request_changes_nothing (hrequest : request ≠ .get)
    (hfree : s.tasks s.nextTask = none)
    (h : Run (next json stateFile) s (⟨s, .pool authorization request, o⟩ :: tr) t)
    (halone : ∀ e ∈ tr, alone s.nextTask e = true)
    (herror : o.isError = true ∨ ∃ e ∈ tr, e.out.isError = true) :
    Unchanged stateFile s t ↔
      refused s authorization request = true ∨
        (repeats s request = true ∧ ∀ path, stateFile = some path →
          path ≠ path.withExtension "tmp" ∨ tr.any opensTemporary = false ∨
            s.files.read path =
              some ((serialize json (registryAfter s request)).take (written tr))) := by
  obtain ⟨u, -, hnext, hrun⟩ := Run.cut (show Run _ s ([] ++ _ :: tr) t from h)
  have hphase : Phase json stateFile s authorization request
      (⟨s, .pool authorization request, o⟩ :: tr) t := by
    refine hrun.history (C := fun e ↦ alone s.nextTask e = true)
      (P := fun l v ↦ Phase json stateFile s authorization request
        (⟨s, .pool authorization request, o⟩ :: l) v) (.first hrequest hfree hnext) ?_ halone
    intro l v a o' w hl hact hstep
    exact hl.step hact hstep
  have hloud : ¬ ∀ e ∈ (⟨s, .pool authorization request, o⟩ :: tr : List (Event State Action Out)),
      e.out.isError = false := by
    intro hquiet
    rcases herror with ho | ⟨e, he, hout⟩
    · have hsilent : o.isError = false := hquiet _ List.mem_cons_self
      rw [ho] at hsilent
      cases hsilent
    · rw [hquiet e (List.mem_cons_of_mem _ he)] at hout
      cases hout
  cases hphase with
  | refused hrefused hconnections hfiles _ =>
    exact iff_of_true ⟨fun key ↦ by rw [hconnections], fun path _ ↦ by rw [hfiles]⟩ (.inl hrefused)
  | starting _ hquiet => exact absurd hquiet hloud
  | saving _ hquiet => exact absurd hquiet hloud
  | done _ hquiet => exact absurd hquiet hloud
  | @failed path hpass hpath hconnections hfiles _ =>
    have hread := hfiles.read_eq_iff
    have hopens : List.any (⟨s, .pool authorization request, o⟩ :: tr) opensTemporary =
        tr.any opensTemporary := by simp [opensTemporary]
    have hwritten : written (⟨s, .pool authorization request, o⟩ :: tr) = written tr := by
      simp [written, Action.count]
    rw [hopens, hwritten] at hread
    simp only [Unchanged, hconnections, lookup_registryAfter_iff hrequest hpass, hpath,
      Option.some.injEq, forall_eq', hread, hpass, Bool.false_eq_true, false_or]

/-- A registration is repeated, and the state file cannot be written. -/
theorem failed_request_changes_nothing_sample : ∃ s authorization request o tr t,
    Run (next JsonText.compact (some sampleFile)) s
      (⟨s, .pool authorization request, o⟩ :: tr) t ∧
    (∃ e ∈ tr, e.out = .responded .internalServerError
      (.text "failed to persist tunnel registry: disk full")) ∧
    Unchanged (some sampleFile) s t := by
  obtain ⟨s₀, hs⟩ : ∃ s, launch JsonText.compact (some sampleFile) sampleConfig 0 Fs.empty 0 =
    some s := Option.isSome_iff_exists.mp (by decide)
  obtain ⟨_, ⟨s, _, o⟩, tr, t, hrun, rfl, hp⟩ :=
    exists_run_at (next JsonText.compact (some sampleFile)) s₀
    ([samplePost none, .run 0 .done] ++ samplePersist 0 ++ [.run 0 .done]) (samplePost none)
    [.run 1 .done, .run 1 .done, .run 1 .done, .run 1 .done, .run 1 (.wrote 7),
      .run 1 (.failed "disk full"), .run 1 .done]
    (fun _ e tr t ↦ (e.pre.tasks e.pre.nextTask).isNone && tr.all (alone e.pre.nextTask) &&
      (match e.act with | .pool _ request => repeats e.pre request | _ => false) &&
      tr.any fun e ↦ e.out = .responded .internalServerError
        (.text "failed to persist tunnel registry: disk full"))
    (by cases hs; decide +kernel)
  simp only [Bool.and_eq_true, List.all_eq_true, List.any_eq_true, Option.isNone_iff_eq_none,
    decide_eq_true_eq] at hp
  obtain ⟨⟨⟨hfree, halone⟩, hrepeats⟩, e, he, hout⟩ := hp
  obtain ⟨u, -, hnext, hafter⟩ := hrun.cut
  have hrequest : Run (next JsonText.compact (some sampleFile)) s (⟨s, samplePost none, o⟩ :: tr)
      t := (Run.single hnext).append hafter
  refine ⟨s, _, _, o, tr, t, hrequest, ⟨e, he, hout⟩, ?_⟩
  refine (failed_request_changes_nothing (by simp) hfree hrequest halone
    (.inr ⟨e, he, ?_⟩)).mpr (.inr ⟨hrepeats, fun path hpath ↦ .inl ?_⟩)
  · rw [hout]
    rfl
  · cases hpath
    decide

/-- The directory of the state file cannot be made: the request is answered with an error, and the
tunnel it asked for is there. -/
theorem failed_registration_stays : ¬ ∀ config now files s tr₁ authorization request e tr₂ t,
    launch JsonText.compact (some sampleFile) config now files 0 = some s →
    Run (next JsonText.compact (some sampleFile)) s (tr₁ ++ e :: tr₂) t →
    e.act = .pool authorization request → (∀ e' ∈ tr₂, alone e.pre.nextTask e' = true) →
    (∃ e' ∈ tr₂, e'.out.isError = true) → Unchanged (some sampleFile) e.pre t := by
  intro hclaim
  obtain ⟨s, hs⟩ : ∃ s, launch JsonText.compact (some sampleFile) sampleConfig 0 Fs.empty 0 =
    some s := Option.isSome_iff_exists.mp (by decide)
  obtain ⟨tr₁, e, tr₂, t, hrun, hact, hp⟩ :=
    exists_run_at (next JsonText.compact (some sampleFile)) s [] (samplePost none)
    [.run 0 .done, .run 0 (.failed "permission denied"), .run 0 .done]
    (fun _ e tr₂ t ↦ tr₂.all (alone e.pre.nextTask) && tr₂.any (fun e ↦ e.out.isError) &&
      e.pre.connections.lookup sampleKey = none &&
      t.connections.lookup sampleKey = some (sampleRecord none))
    (by cases hs; decide +kernel)
  simp only [Bool.and_eq_true, List.all_eq_true, List.any_eq_true, decide_eq_true_eq] at hp
  obtain ⟨⟨⟨halone, herror⟩, hbefore⟩, hafter⟩ := hp
  have hsame := (hclaim _ _ _ s tr₁ _ _ e tr₂ t hs hrun hact halone herror).1 sampleKey
  rw [hbefore, hafter] at hsame
  cases hsame

end LabStreamGate.Gateway
