import LabStreamGate.Library.Run
import LabStreamGate.Gateway.Requests
import LabStreamGate.Relay.Message

/-!
# The gateway as a transition system

Every handler of `serve.rs` is a task that takes one step at a time; it is cut where it holds no
lock, so any other task may step in between.  A step is answered by the outside world, which
decides how much a write takes, whether a call fails and what a peer sends.  A new process starts
from the state file of the one before it.
-/

namespace LabStreamGate.Gateway

open Function
open Relay (TrafficDirection)

/-- A path with a file name, so that its parent is there too. -/
structure FilePath where
  parent : String
  fileName : String
  deriving DecidableEq, Repr

/-- The name without its extension; a leading dot does not start one. -/
def FilePath.fileStem (path : FilePath) : String :=
  match rsplitOnce '.' path.fileName with
  | some (stem, _) => if stem = "" then path.fileName else stem
  | none => path.fileName

def FilePath.withExtension (path : FilePath) (extension : String) : FilePath :=
  { path with fileName := path.fileStem ++ "." ++ extension }

example : (FilePath.mk "/var/lib/wsrx" "registry.json").withExtension "tmp" =
    ⟨"/var/lib/wsrx", "registry.tmp"⟩ := by decide

/-! ## Tasks -/

/-- Who asked `active_record` for a record. -/
inductive Use
  | ping
  | processTraffic
  deriving DecidableEq, Repr

/-- Who called `persist_registry`. -/
inductive Caller
  | launchTunnel (record : TunnelRecord)
  | closeTunnel
  | activeRecord (use : Use)
  | removeExpired (listing : Bool)
  deriving DecidableEq, Repr

/-- Where a `persist_registry` call is: the snapshot it took is written through a handle of its
own, and renamed once all of it is written. -/
inductive PersistStage
  | createDirAll
  | snapshot
  | create (data : Bytes)
  | write (data : Bytes) (handle : Handle)
  deriving DecidableEq, Repr

inductive Reply
  | empty
  | text (text : String)
  | record (record : TunnelRecord)
  | registry (registry : Registry)
  deriving DecidableEq

/-- What a connection holds and gives back by dropping it. -/
inductive Guard
  | tunnelPermit (key : String)
  | permit
  deriving DecidableEq, Repr

inductive Task
  | launchInsert (key : String) (record : TunnelRecord)
  | closeRemove (key : String)
  | lookup (key : String) (use : Use)
  | checkExpiry (key : String) (record : TunnelRecord) (use : Use)
  | evict (key : String) (use : Use)
  | retain (now : UInt64) (listing : Bool)
  | list
  | persist (stage : PersistStage) (caller : Caller)
  | respond (status : StatusCode) (reply : Reply)
  | acquireTunnel (key : String) (record : TunnelRecord)
  | acquireSlot (key : String) (record : TunnelRecord)
  | upgrade (key : String) (record : TunnelRecord)
  | connect (key : String) (record : TunnelRecord)
  | startCapture (key : String) (record : TunnelRecord)
  | relay (key : String) (record : TunnelRecord) (deadline : Nat)
  | release (guards : List Guard) (answer : Option (StatusCode × Reply))
  deriving DecidableEq

/-- How `active_record` turns a request down; `ping` passes on the status only. -/
def Use.refuse : Use → StatusCode → String → Task
  | .ping, status, _ => .respond status .empty
  | .processTraffic, status, text => .respond status (.text text)

/-- What the caller does with the result of `persist_registry`: the management requests report
it, the removal of what has expired only logs it. -/
def Caller.resume : Caller → Except String Unit → Option Task
  | .launchTunnel record, .ok _ => some (.respond .created (.record record))
  | .launchTunnel _, .error text => some (.respond .internalServerError (.text text))
  | .closeTunnel, .ok _ => some (.respond .noContent .empty)
  | .closeTunnel, .error text => some (.respond .internalServerError (.text text))
  | .activeRecord use, _ => some (use.refuse .gone "tunnel expired")
  | .removeExpired listing, _ => if listing then some .list else none

/-- The start of `persist_registry`, which does nothing without a state file. -/
def persistRegistry (stateFile : Option FilePath) (caller : Caller) : Option Task :=
  match stateFile with
  | none => caller.resume (.ok ())
  | some _ => some (.persist .createDirAll caller)

def internalIoError (error : String) : String := "failed to persist tunnel registry: " ++ error

def serializeError (error : String) : String := "failed to serialize tunnel registry: " ++ error

/-! ## The state of the process and of the world around it -/

/-- One clock, in seconds, stands for that of the records and that of the timers. -/
structure State where
  now : UInt64
  files : Fs FilePath
  secret : String
  connections : Registry
  allowedTargetHosts : List String
  connectionSlots : Nat
  perTunnelConnections : AList fun _ : String ↦ Nat
  maxConnectionsPerTunnel : Nat
  connectionTimeout : Nat
  tasks : Nat → Option Task
  nextTask : Nat

/-- What `serve` is started with. -/
structure Config where
  secret : String
  allowedTargetHosts : List String
  maxConnections : Nat
  maxConnectionsPerTunnel : Nat
  connectionTimeoutSeconds : Nat
  deriving Repr

/-- The answer of the outside world to a step: `done` where all went well or nothing was asked,
`pending` where the streams of a relay have nothing more for now. -/
inductive Io
  | done
  | wrote (count : Nat)
  | forwarded (direction : TrafficDirection) (data : Bytes)
  | pending
  | elapsed
  | failed (error : String)
  deriving DecidableEq, Repr

inductive Out
  | silent
  | rejected
  | inserted (key : String) (record : TunnelRecord)
  | removed (key : String)
  | persisted
  | persistFailed (text : String)
  | responded (status : StatusCode) (reply : Reply)
  | dialed (target : String)
  | relayed (key : String) (record : TunnelRecord) (direction : TrafficDirection) (data : Bytes)
  deriving DecidableEq

def Out.inserts (key : String) : Out → Bool
  | .inserted key' _ => key' == key
  | _ => false

def Out.removes (key : String) : Out → Bool
  | .removed key' => key' == key
  | _ => false

/-- What one step of a task leaves behind. -/
structure Effect where
  out : Out
  task : Option Task
  connections : Registry
  files : Fs FilePath
  connectionSlots : Nat
  perTunnelConnections : AList fun _ : String ↦ Nat

namespace State

/-- The step after which only the task has moved on. -/
def keep (s : State) (out : Out) (task : Option Task) : Effect where
  out := out
  task := task
  connections := s.connections
  files := s.files
  connectionSlots := s.connectionSlots
  perTunnelConnections := s.perTunnelConnections

def apply (s : State) (id : Nat) (e : Effect) : State :=
  { s with
    connections := e.connections
    files := e.files
    connectionSlots := e.connectionSlots
    perTunnelConnections := e.perTunnelConnections
    tasks := update s.tasks id e.task }

def spawn (s : State) (task : Task) : State :=
  { s with
    tasks := update s.tasks s.nextTask (some task)
    nextTask := s.nextTask + 1 }

end State

/-! ## Connection permits -/

/-- `TunnelConnectionPermit::acquire`: whether there was a permit, and the counts after it. -/
def acquirePermit (counts : AList fun _ : String ↦ Nat) (key : String) (limit : Nat) :
    Bool × AList fun _ : String ↦ Nat :=
  let count := (counts.lookup key).getD 0
  if limit ≤ count then (false, counts.insert key count)
  else (true, counts.insert key (count + 1))

/-- The drop of a `TunnelConnectionPermit`. -/
def dropPermit (counts : AList fun _ : String ↦ Nat) (key : String) :
    AList fun _ : String ↦ Nat :=
  match counts.lookup key with
  | none => counts
  | some count => if count - 1 = 0 then counts.erase key else counts.insert key (count - 1)

/-- The relay of a connection, whose lifetime runs from here; no token of the registry is passed
on. -/
def State.startRelay (s : State) (key : String) (record : TunnelRecord) : Task :=
  .relay key record (s.now.toNat + s.connectionTimeout)

/-- The end of a connection that holds both permits; the variables of the block that served it are
dropped last first. -/
def State.hangUp (s : State) (out : Out) (key : String) : Effect :=
  s.keep out (some (.release [.tunnelPermit key, .permit] none))

/-- The guards are dropped one after the other; then the answer goes out. -/
def State.release (s : State) (answer : Option (StatusCode × Reply)) : List Guard → Effect
  | [] => s.keep .silent (answer.map fun reply ↦ .respond reply.1 reply.2)
  | .tunnelPermit key :: guards =>
    { s.keep .silent (some (.release guards answer)) with
      perTunnelConnections := dropPermit s.perTunnelConnections key }
  | .permit :: guards =>
    { s.keep .silent (some (.release guards answer)) with
      connectionSlots := s.connectionSlots + 1 }

/-! ## Steps of a task -/

section

variable (json : JsonText) (stateFile : Option FilePath)

/-- `persist_registry` comes back with an error. -/
def persistError (s : State) (caller : Caller) (text : String) : Effect :=
  s.keep (.persistFailed text) (caller.resume (.error text))

def PersistStage.run (path : FilePath) (s : State) (caller : Caller) :
    PersistStage → Io → Option Effect
  | .createDirAll, .done => some (s.keep .silent (some (.persist .snapshot caller)))
  | .snapshot, .done =>
    some (s.keep .silent (some (.persist (.create (serialize json s.connections)) caller)))
  | .create data, .done =>
    let opened := s.files.create (path.withExtension "tmp")
    some
      { s.keep .silent (some (.persist (.write data opened.2) caller)) with
        files := opened.1 }
  | .write data handle, .wrote count =>
    if handle.offset < data.length then
      let written := s.files.write handle ((data.drop handle.offset).take count)
      some
        { s.keep .silent (some (.persist (.write data written.2) caller)) with
          files := written.1 }
    else none
  | .write data handle, .done =>
    if data.length ≤ handle.offset then
      -- the name is renamed, whatever file it stands for by now
      match s.files.rename (path.withExtension "tmp") path with
      | some files => some { s.keep .persisted (caller.resume (.ok ())) with files := files }
      | none =>
        some (persistError s caller (internalIoError "No such file or directory (os error 2)"))
    else none
  | .createDirAll, .failed error => some (persistError s caller (internalIoError error))
  | .snapshot, .failed error => some (persistError s caller (serializeError error))
  | .create _, .failed error => some (persistError s caller (internalIoError error))
  | .write _ _, .failed error => some (persistError s caller (internalIoError error))
  | _, _ => none

def Task.run (s : State) : Task → Io → Option Effect
  | .launchInsert key record, .done =>
    some
      { s.keep (.inserted key record) (persistRegistry stateFile (.launchTunnel record)) with
        connections := s.connections.insert key record }
  | .closeRemove key, .done =>
    match s.connections.lookup key with
    | none => some (s.keep .silent (some (.respond .notFound (.text "tunnel not found"))))
    | some _ =>
      some
        { s.keep (.removed key) (persistRegistry stateFile .closeTunnel) with
          connections := s.connections.erase key }
  | .lookup key use, .done =>
    match s.connections.lookup key with
    | none => some (s.keep .silent (some (use.refuse .notFound "tunnel not found")))
    | some record => some (s.keep .silent (some (.checkExpiry key record use)))
  | .checkExpiry key record use, .done =>
    -- decided on the copy that the look-up made
    if record.isExpired s.now then some (s.keep .silent (some (.evict key use)))
    else
      match use with
      | .ping => some (s.keep .silent (some (.respond .ok .empty)))
      | .processTraffic => some (s.keep .silent (some (.acquireTunnel key record)))
  | .evict key use, .done =>
    -- removed by key, with no second look at the record
    some
      { s.keep .silent (persistRegistry stateFile (.activeRecord use)) with
        connections := s.connections.erase key }
  | .retain now listing, .done =>
    let kept := s.connections.retain fun record ↦ !record.isExpired now
    if kept.entries.length = s.connections.entries.length then
      -- nothing had expired, so nothing is saved
      some (s.keep .silent ((Caller.removeExpired listing).resume (.ok ())))
    else
      some
        { s.keep .silent (persistRegistry stateFile (.removeExpired listing)) with
          connections := kept }
  | .list, .done => some (s.keep (.responded .ok (.registry s.connections)) none)
  | .persist stage caller, io => stateFile.bind fun path ↦ stage.run json path s caller io
  | .respond status reply, .done => some (s.keep (.responded status reply) none)
  | .acquireTunnel key record, .done =>
    let acquired := acquirePermit s.perTunnelConnections key s.maxConnectionsPerTunnel
    let task := if acquired.1 then .acquireSlot key record
      else .respond .tooManyRequests (.text "tunnel connection limit reached")
    some { s.keep .silent (some task) with perTunnelConnections := acquired.2 }
  | .acquireSlot key record, .done =>
    if s.connectionSlots = 0 then
      some (s.keep .silent (some (.release [.tunnelPermit key]
        (some (.serviceUnavailable, .text "gateway connection limit reached")))))
    else
      some
        { s.keep .silent (some (.upgrade key record)) with
          connectionSlots := s.connectionSlots - 1 }
  | .upgrade key record, .done => some (s.keep .silent (some (.connect key record)))
  | .upgrade key _, .failed _ =>
    -- the callback is dropped with what it captured, in that order
    some (s.keep .silent (some (.release [.permit, .tunnelPermit key] none)))
  | .connect key record, .done =>
    some (s.keep (.dialed record.target)
      (some (if record.capture then .startCapture key record else s.startRelay key record)))
  | .connect key record, .failed _ => some (s.hangUp (.dialed record.target) key)
  | .connect key record, .elapsed => some (s.hangUp (.dialed record.target) key)
  | .startCapture key record, .done => some (s.keep .silent (some (s.startRelay key record)))
  | .startCapture key record, .failed _ =>
    -- the connection is served without a capture
    some (s.keep .silent (some (s.startRelay key record)))
  | .relay key record deadline, .forwarded direction data =>
    some (s.keep (.relayed key record direction data) (some (.relay key record deadline)))
  | .relay key record deadline, .pending =>
    -- `timeout` polls the relay first, and looks at the time when that has to wait
    if deadline ≤ s.now.toNat then some (s.hangUp .silent key)
    else some (s.keep .silent (some (.relay key record deadline)))
  | .relay key _ _, .done => some (s.hangUp .silent key)
  | .relay key _ _, .failed _ => some (s.hangUp .silent key)
  | .release guards answer, .done => some (s.release answer guards)
  | _, _ => none

/-! ## Requests and processes -/

/-- A request to `/pool`; a body is there where the request held JSON. -/
inductive PoolRequest
  | get
  | post (body : Option Json)
  | delete (body : Option Json)

inductive Action
  | tick (now : UInt64)
  | pool (authorization : Option HeaderValue) (request : PoolRequest)
  | ping (key : String)
  | processTraffic (key : String)
  | cleanup
  | run (id : Nat) (io : Io)
  | start (config : Config)

def Action.isStart : Action → Bool
  | .start _ => true
  | _ => false

/-- The task that an action lets step. -/
def State.stepping (s : State) : Action → Option Task
  | .run id _ => s.tasks id
  | _ => none

/-- The checks `launch_tunnel` makes before it waits for the registry. -/
def launchTunnel (s : State) (req : TunnelRequest) : Except Refusal Task := do
  validateKey req.key
  validateTarget req.target s.allowedTargetHosts
  if req.record.isExpired s.now then throw (.badRequest, "expiresAt must be in the future")
  return .launchInsert req.key req.record

def pool (s : State) : PoolRequest → Out × State
  | .get => (.silent, s.spawn (.retain s.now true))
  | .post body =>
    match body.bind TunnelRequest.ofJson with
    | none => (.rejected, s)
    | some req =>
      match launchTunnel s req with
      | .error (status, text) => (.responded status (.text text), s)
      | .ok task => (.silent, s.spawn task)
  | .delete body =>
    match body.bind CloseTunnelRequest.ofJson with
    | none => (.rejected, s)
    | some req => (.silent, s.spawn (.closeRemove req.key))

def loadRegistry (now : UInt64) (files : Fs FilePath) : Registry :=
  match stateFile with
  | none => ∅
  | some path => restore json now (files.read path)

/-- A new process: it starts where the secret is long enough and some host is allowed, with the
registry of the state file and all permits free. -/
def launch (config : Config) (now : UInt64) (files : Fs FilePath) (nextTask : Nat) :
    Option State :=
  if 32 ≤ (utf8 config.secret).length ∧ parseAllowedHosts config.allowedTargetHosts ≠ [] then
    some
      { now := now
        files := files
        secret := config.secret
        connections := loadRegistry json stateFile now files
        allowedTargetHosts := parseAllowedHosts config.allowedTargetHosts
        connectionSlots := max config.maxConnections 1
        perTunnelConnections := ∅
        maxConnectionsPerTunnel := max config.maxConnectionsPerTunnel 1
        connectionTimeout := max config.connectionTimeoutSeconds 1
        tasks := fun _ ↦ none
        nextTask := nextTask }
  else none

def next (s : State) : Action → Option (Out × State)
  | .tick now => if s.now ≤ now then some (.silent, { s with now := now }) else none
  | .pool authorization request =>
    if authorizeManagement s.secret authorization then some (pool s request)
    else some (.responded .unauthorized .empty, s)
  | .ping key => some (.silent, s.spawn (.lookup key .ping))
  | .processTraffic key => some (.silent, s.spawn (.lookup key .processTraffic))
  | .cleanup => some (.silent, s.spawn (.retain s.now false))
  | .run id io =>
    (s.tasks id).bind fun task ↦
      (task.run json stateFile s io).map fun e ↦ (e.out, s.apply id e)
  | .start config =>
    (launch json stateFile config s.now s.files s.nextTask).map fun t ↦ (.silent, t)

end

/-! ## A gateway for concrete runs -/

def sampleSecret : String := "0123456789abcdef0123456789abcdef"

def sampleConfig : Config where
  secret := sampleSecret
  allowedTargetHosts := ["lab"]
  maxConnections := 8
  maxConnectionsPerTunnel := 2
  connectionTimeoutSeconds := 60

def sampleFile : FilePath := ⟨"/var/lib/wsrx", "registry.json"⟩

def sampleKey : String := "instance-key-0001"

def sampleRecord (expiresAt : Option UInt64) : TunnelRecord where
  target := "lab:80"
  expiresAt := expiresAt
  instanceId := ""
  challengeId := ""
  userId := ""
  competitionId := none
  capture := false

/-- The request that registers `sampleRecord`. -/
def samplePost (expiresAt : Option UInt64) : Action :=
  .pool (some ⟨utf8 sampleSecret⟩) (.post (some (.obj [("key", .str sampleKey),
    ("target", .str "lab:80"),
    ("expiresAt", .ofOption (fun n : UInt64 ↦ .num (.int n.toNat)) expiresAt)])))

/-- The steps of a call that saves the registry, written at once. -/
def samplePersist (id : Nat) : List Action :=
  [.run id .done, .run id .done, .run id .done, .run id (.wrote 1024), .run id .done]

def sampleDelete : Action :=
  .pool (some ⟨utf8 sampleSecret⟩) (.delete (some (.obj [("key", .str sampleKey)])))

end LabStreamGate.Gateway
