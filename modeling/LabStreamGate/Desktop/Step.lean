import LabStreamGate.Desktop.Scopes
import LabStreamGate.Desktop.ScopesFile

/-!
# The desktop controller as a transition system

Requests, buttons and the latency worker are tasks that take one step at a time; they are cut where
they hold no lock, and inside `persist_scopes` and `pingfall`, which keep the scopes locked for
reading while they go on.  A step that changes the scopes waits until no task does.  The main
thread loads `scopes.toml` while the server is already running.
-/

namespace LabStreamGate.Desktop

open Function

/-! ## Tasks -/

/-- A request is answered; what the client starts itself is not. -/
inductive Caller
  | http
  | ui
  deriving DecidableEq, Repr

/-- Why an instance could not be pinged. -/
inductive LatencyError
  | request
  | nonSuccessStatus (code : UInt16)
  deriving DecidableEq, Repr

/-- An instance as `/pool` shows it. -/
structure InstanceResponse where
  label : String
  remote : String
  localAddr : String
  fromAddr : String
  toAddr : String
  latency : Int
  deriving DecidableEq, Repr

def InstanceResponse.ofData (data : InstanceData) : InstanceResponse where
  label := data.label
  remote := data.remote
  localAddr := data.localAddr
  fromAddr := data.localAddr
  toAddr := data.remote
  latency := data.latency

inductive Reply
  | empty
  | text (text : String)
  | instance (data : InstanceData)
  | instances (list : List InstanceResponse)
  deriving DecidableEq, Repr

/-- A ping is followed by those of `rest`, or is the one of a new instance. -/
inductive Task
  | getInstances (scope : String)
  | createListener (data : InstanceData) (caller : Caller)
  | launchInstance (data : InstanceData) (localAddr : String) (caller : Caller)
  | closeInstance (localAddr scope : String)
  | removeInstance (localAddr : String) (caller : Caller)
  | getControlStatus (scope : String)
  | requestControl (scope : String) (body : Option ScopeData)
  | updateWebsiteInfo (scope : String) (data : ScopeData)
  | allowScope (host : String)
  | removeScope (host : String)
  | removeInstances (host : String)
  | persistScopes (caller : Caller)
  | persistTo (stage : WriteStage) (caller : Caller)
  | respond (status : StatusCode) (reply : Reply)
  | latencySnapshot
  | ping (data : InstanceData) (rest : Option (List InstanceData))
  | updateInstanceState (data : InstanceData) (result : Except LatencyError Int)
      (rest : Option (List InstanceData))
  | pingfall (data : InstanceData) (error : LatencyError) (rest : List InstanceData)
  | pingfallRemove (localAddr : String) (rest : List InstanceData)

/-- The tasks that hold the scopes for reading between two steps. -/
def Task.readsScopes : Task → Bool
  | .persistTo _ _ => true
  | .pingfallRemove _ _ => true
  | _ => false

def Caller.resume : Caller → StatusCode → Reply → Option Task
  | .http, status, reply => some (.respond status reply)
  | .ui, _, _ => none

/-- The next turn of `latency_loop`. -/
def pingNext : List InstanceData → Option Task
  | [] => none
  | data :: rest => some (.ping data (some rest))

/-! ## The state of the process -/

/-- A running tunnel; no two of them have one number. -/
structure ProxyInstance where
  data : InstanceData
  tunnel : Nat
  deriving DecidableEq, Repr

/-- Where `load_persisted_state` is. -/
inductive Loader
  | read
  | overwrite (scopes : List ScopeData)

structure State where
  files : Fs String
  scopes : List ScopeData
  instances : List ProxyInstance
  nextTunnel : Nat
  loader : Option Loader
  tasks : Nat → Option Task
  nextTask : Nat

/-- The answer of the outside world to a step. -/
inductive Io
  | done
  | bound (localAddr : String)
  | refused (status : StatusCode) (text : String)
  | file (io : FileIo)
  | pinged (result : Except LatencyError Int)

inductive Out
  | silent
  | rejected
  | loaded
  | pushed (scope : ScopeData)
  | updated (host : String)
  | allowed (host : String)
  | removed (host : String)
  | added (added : ProxyInstance)
  | responded (status : StatusCode) (reply : Reply)

/-- What one step of a task leaves behind; `spawned` is a task that it starts. -/
structure Effect where
  out : Out
  task : Option Task
  spawned : Option Task
  files : Fs String
  scopes : List ScopeData
  instances : List ProxyInstance
  nextTunnel : Nat

namespace State

/-- `spawn_background` has started the server and nothing is loaded. -/
def spawnBackground (files : Fs String) : State where
  files := files
  scopes := []
  instances := []
  nextTunnel := 0
  loader := some .read
  tasks := fun _ ↦ none
  nextTask := 0

/-- No task is under way and there is no scope. -/
def idle (files : Fs String) : State := { spawnBackground files with loader := none }

/-- The scopes are locked for reading. -/
def scopesRead (s : State) : Bool :=
  (List.range s.nextTask).any fun id ↦ (s.tasks id).any Task.readsScopes

/-- The step after which only the task has moved on. -/
def keep (s : State) (out : Out) (task : Option Task) : Effect where
  out := out
  task := task
  spawned := none
  files := s.files
  scopes := s.scopes
  instances := s.instances
  nextTunnel := s.nextTunnel

def spawn (s : State) (task : Task) : State :=
  { s with
    tasks := update s.tasks s.nextTask (some task)
    nextTask := s.nextTask + 1 }

def apply (s : State) (id : Nat) (e : Effect) : State :=
  let moved :=
    { s with
      files := e.files
      scopes := e.scopes
      instances := e.instances
      nextTunnel := e.nextTunnel
      tasks := update s.tasks id e.task }
  match e.spawned with
  | some task => moved.spawn task
  | none => moved

end State

/-! ## Steps of a task -/

/-- `launch_instance` with its listener bound to `localAddr`. -/
def launchInstance (s : State) (data : InstanceData) (localAddr : String) (caller : Caller) :
    Effect :=
  if s.instances.any fun i ↦ i.data.localAddr == localAddr then
    -- the listener that was just bound is dropped again
    s.keep .silent (caller.resume .badRequest
      (.text ("The local address " ++ localAddr ++ " is already taken by another instance")))
  else
    let same := fun i : ProxyInstance ↦
      i.data.remote == data.remote && i.data.scopeHost == data.scopeHost
    match s.instances.find? same with
    | some found =>
      -- the instance keeps its own listener; nothing but its label changes
      { s.keep .silent (caller.resume .ok (.instance { found.data with label := data.label })) with
        instances := updateFirst same
          (fun i ↦ { i with data := { i.data with label := data.label } }) s.instances }
    | none =>
      let made : ProxyInstance :=
        { data :=
            { label := data.label
              remote := data.remote
              localAddr := localAddr
              latency := -1
              scopeHost := data.scopeHost }
          tunnel := s.nextTunnel }
      -- the latency is measured beside the answer
      { s.keep (.added made) (caller.resume .ok (.instance made.data)) with
        spawned := some (.ping made.data none)
        instances := s.instances ++ [made]
        nextTunnel := s.nextTunnel + 1 }

/-- The check of `close_instance`. -/
def closeInstance (s : State) (localAddr scope : String) : Effect :=
  match s.instances.find? fun i ↦ i.data.localAddr == localAddr with
  | none =>
    s.keep .silent (some (.respond .badRequest (.text ("Tunnel " ++ localAddr ++ " not found"))))
  | some tunnel =>
    if tunnel.data.scopeHost = scope then
      -- the lock is given up here and `remove_instance` takes it anew
      s.keep .silent (some (.removeInstance localAddr .http))
    else
      s.keep .silent (some (.respond .badRequest
        (.text ("Tunnel " ++ localAddr ++ " not found in scope " ++ scope))))

/-- `get_control_status`. -/
def controlStatus (scopes : List ScopeData) (host : String) : StatusCode × Reply :=
  match scopes.find? fun scope ↦ scope.host == host with
  | some scope => if scope.state = "pending" then (.created, .empty) else (.accepted, .empty)
  | none => (.forbidden, .text ("Scope " ++ host ++ " not found"))

/-- Whether `pingfall` removes an instance that did not answer. -/
def pingfallRemoves (scopes : List ScopeData) (data : InstanceData) (error : LatencyError) : Bool :=
  match scopes.find? fun scope ↦ scope.host == data.scopeHost with
  | none => false
  | some scope =>
    scope.features.contains .pingFall &&
      match scope.settings.get "pingfall" with
      | none => false
      | some settings =>
        let settings := (PingFallSettings.ofJson settings).getD .default
        match error with
        | .nonSuccessStatus code => settings.status.contains code || settings.status.isEmpty
        | .request => settings.dropUnknown

/-- The latency that a ping stands for. -/
def elapsed : Except LatencyError Int → Int
  | .ok elapsed => elapsed
  | .error _ => -1

section

variable (toml : TomlText)

def Task.run (s : State) : Task → Io → Option Effect
  | .getInstances scope, .done =>
    let instances := s.instances.filter fun i ↦ i.data.scopeHost == scope
    some (s.keep
      (.responded .ok (.instances (instances.map fun i ↦ InstanceResponse.ofData i.data))) none)
  | .createListener data caller, .bound localAddr =>
    some (s.keep .silent (some (.launchInstance data localAddr caller)))
  | .createListener _ caller, .refused status text =>
    some (s.keep .silent (caller.resume status (.text text)))
  | .launchInstance data localAddr caller, .done =>
    some (Desktop.launchInstance s data localAddr caller)
  | .closeInstance localAddr scope, .done => some (Desktop.closeInstance s localAddr scope)
  | .removeInstance localAddr caller, .done =>
    some
      { s.keep .silent (caller.resume .ok .empty) with
        instances := s.instances.filter fun i ↦ i.data.localAddr != localAddr }
  | .getControlStatus scope, .done =>
    let answer := controlStatus s.scopes scope
    some (s.keep (.responded answer.1 answer.2) none)
  | .requestControl scope body, .done =>
    -- the write lock is not to be had
    if s.scopesRead then none
    else if hasHost s.scopes scope then
      some (s.keep .silent (some (.respond .accepted .empty)))
    else
      some
        { s.keep (.pushed (requestedScope scope body)) (some (.persistScopes .http)) with
          scopes := s.scopes ++ [requestedScope scope body] }
  | .updateWebsiteInfo scope data, .done =>
    if s.scopesRead then none
    else if hasHost s.scopes scope then
      some
        { s.keep (.updated scope) (some (.persistScopes .http)) with
          scopes := Desktop.updateWebsiteInfo s.scopes scope data }
    else
      some (s.keep .silent
        (some (.respond .forbidden (.text ("Scope " ++ scope ++ " not found")))))
  | .allowScope host, .done =>
    if s.scopesRead then none
    else
      -- saved also where there was nothing to allow
      some
        { s.keep (if hasHost s.scopes host then .allowed host else .silent)
            (some (.persistScopes .ui)) with
          scopes := Desktop.allowScope s.scopes host }
  | .removeScope host, .done =>
    if s.scopesRead then none
    else if hasHost s.scopes host then
      -- its instances go under their own lock, in the next step
      some
        { s.keep (.removed host) (some (.removeInstances host)) with
          scopes := Desktop.removeScope s.scopes host }
    else some (s.keep .silent none)
  | .removeInstances host, .done =>
    some
      { s.keep .silent (some (.persistScopes .ui)) with
        instances := s.instances.filter fun i ↦ i.data.scopeHost != host }
  | .persistScopes caller, .done =>
    -- from here to the end of the write the scopes are locked for reading
    some (s.keep .silent (some (.persistTo (.createDirAll (scopesText toml s.scopes)) caller)))
  | .persistTo stage caller, .file io =>
    (stage.run s.files io).map fun r ↦
      let task := match r.2 with
        | some stage => some (.persistTo stage caller)
        | none => caller.resume .ok .empty
      { s.keep .silent task with files := r.1 }
  | .respond status reply, .done => some (s.keep (.responded status reply) none)
  | .latencySnapshot, .done =>
    some (s.keep .silent (pingNext (s.instances.map ProxyInstance.data)))
  | .ping data rest, .pinged result =>
    some (s.keep .silent (some (.updateInstanceState data result rest)))
  | .updateInstanceState data result rest, .done =>
    let task := match result, rest with
      | _, none => none
      | .ok _, some rest => pingNext rest
      | .error error, some rest => some (.pingfall data error rest)
    -- the first instance with this remote, in whatever scope it is
    some
      { s.keep .silent task with
        instances := updateFirst (fun i ↦ i.data.remote == data.remote)
          (fun i ↦ { i with data := { i.data with latency := elapsed result } }) s.instances }
  | .pingfall data error rest, .done =>
    if pingfallRemoves s.scopes data error then
      -- the scopes stay locked while `remove_instance` waits for the instances
      some (s.keep .silent (some (.pingfallRemove data.localAddr rest)))
    else some (s.keep .silent (pingNext rest))
  | .pingfallRemove localAddr rest, .done =>
    some
      { s.keep .silent (pingNext rest) with
        instances := s.instances.filter fun i ↦ i.data.localAddr != localAddr }
  | _, _ => none

/-! ## Requests and buttons -/

/-- A request to `/pool`; a body is there where the request held JSON. -/
inductive PoolRequest
  | get
  | post (random : UInt32) (body : Option Json)
  | delete (body : Option Json)

/-- A request to `/connect`. -/
inductive ConnectRequest
  | get
  | post (body : Option Json)
  | patch (body : Option Json)

inductive Action
  | pool (header : Option HeaderValue) (request : PoolRequest)
  | connect (header : Option HeaderValue) (request : ConnectRequest)
  | launch (random : UInt32) (remote localAddr : String)
  | removeInstance (localAddr : String)
  | allowScope (host : String)
  | removeScope (host : String)
  | shutdown
  | latencyLoop
  | load
  | run (id : Nat) (io : Io)

/-- The task that an action lets step. -/
def State.stepping (s : State) : Action → Option Task
  | .run id _ => s.tasks id
  | _ => none

/-- The task that a request starts; none where its body cannot be read. -/
def PoolRequest.task (scope : String) : PoolRequest → Option Task
  | .get => some (.getInstances scope)
  | .post random body =>
    (body.bind (InstanceData.ofJson random)).map fun data ↦
      .createListener { data with scopeHost := scope } .http
  | .delete body =>
    (body.bind closeInstanceLocal).map fun localAddr ↦ .closeInstance localAddr scope

def ConnectRequest.task (scope : String) : ConnectRequest → Option Task
  | .get => some (.getControlStatus scope)
  | .post body => some (.requestControl scope (body.bind ScopeData.ofJson))
  | .patch body => (body.bind ScopeData.ofJson).map fun data ↦ .updateWebsiteInfo scope data

/-- The scope of the instances that the user launches. -/
def defaultScope : String := "default-scope"

/-- The task that an action starts. -/
def Action.task : Action → Option Task
  | .pool header request => request.task (origin header)
  | .connect header request => request.task (origin header)
  | .launch random remote localAddr =>
    some (.createListener
      { label := defaultLabel random
        remote := remote
        localAddr := localAddr
        latency := -1
        scopeHost := defaultScope } .ui)
  | .removeInstance localAddr => some (.removeInstance localAddr .ui)
  | .allowScope host => some (.allowScope host)
  | .removeScope host => some (.removeScope host)
  | .shutdown => some (.persistScopes .ui)
  | .latencyLoop => some .latencySnapshot
  | .load => none
  | .run _ _ => none

/-- `load_persisted_state`, which waits like the others to change the scopes. -/
def load (s : State) : Option (Out × State) :=
  match s.loader with
  | none => none
  | some .read =>
    some (.silent,
      { s with loader := some (.overwrite (loadScopes toml (s.files.read scopesFile))) })
  | some (.overwrite scopes) =>
    if s.scopesRead then none else some (.loaded, { s with scopes := scopes, loader := none })

def next (s : State) : Action → Option (Out × State)
  | .run id io =>
    (s.tasks id).bind fun task ↦ (task.run toml s io).map fun e ↦ (e.out, s.apply id e)
  | .load => load toml s
  | a =>
    match a.task with
    | some task => some (.silent, s.spawn task)
    | none => some (.rejected, s)

end

/-! ## Requests for concrete runs -/

def sampleOrigin : HeaderValue := ⟨utf8 "https://lab.example"⟩

/-- The website asks for control. -/
def sampleConnect : Action := .connect (some sampleOrigin) (.post none)

/-- A call of `persist_scopes` from its start to its end, written at once. -/
def samplePersist (id : Nat) : List Action :=
  [.run id .done, .run id (.file .done), .run id (.file .done), .run id (.file (.wrote 4096)),
    .run id (.file .done)]

/-- A request for control to its answer. -/
def sampleRequest : List Action :=
  [sampleConnect, .run 0 .done] ++ samplePersist 0 ++ [.run 0 .done]

/-- The website launches an instance. -/
def sampleLaunch : Action :=
  .pool (some sampleOrigin)
    (.post 0 (some (.obj [("remote", .str "ws://lab:80"), ("local", .str "127.0.0.1:0")])))

end LabStreamGate.Desktop
