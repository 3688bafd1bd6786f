import LabStreamGate.Capture.Session
import LabStreamGate.Gateway.Registry
import LabStreamGate.Relay.Streams

/-!
# A connection of the gateway

What `process_traffic` does once the upgrade is complete: it connects to the target, relays under
the observer of the connection, and passes an audit record on.
-/

namespace LabStreamGate.Gateway

open Capture (CaptureSession SystemTime)
open Relay (Half ProxyStats TrafficDirection endpoints proxyObserved)

/-! ## The observer of a connection -/

/-- The session stands for the observer that the connection shares with it. -/
structure ConnectionObserver where
  clientToTarget : UInt64
  targetToClient : UInt64
  capture : Option CaptureSession
  deriving DecidableEq, Repr

namespace ConnectionObserver

def new (capture : Option CaptureSession) : ConnectionObserver := ⟨0, 0, capture⟩

def stats (self : ConnectionObserver) : ProxyStats := ⟨self.clientToTarget, self.targetToClient⟩

def observe (self : ConnectionObserver) (direction : TrafficDirection) (data : Bytes)
    (sent : Option SystemTime) : ConnectionObserver :=
  let counted := match direction with
    | .clientToTarget =>
      { self with clientToTarget := self.clientToTarget + UInt64.ofNat data.length }
    | .targetToClient =>
      { self with targetToClient := self.targetToClient + UInt64.ofNat data.length }
  { counted with
    capture := self.capture.map fun session ↦
      { session with observer := session.observer.observe direction data sent } }

end ConnectionObserver

def classifyProxyError (error : String) (stats : ProxyStats) : String :=
  if (stats.clientToTarget > 0 || stats.targetToClient > 0) &&
      contains error "Connection reset without closing handshake" then
    "completed_ungraceful_close"
  else "proxy_error:" ++ error

/-! ## The audit record -/

structure ConnectionAudit where
  connectionId : String
  instanceId : String
  challengeId : String
  userId : String
  competitionId : Option String
  clientIp : String
  target : String
  startedAt : Nat
  endedAt : Nat
  clientToTargetBytes : UInt64
  targetToClientBytes : UInt64
  result : String
  capturePath : Option String
  capturedBytes : UInt64
  captureTruncated : Bool
  deriving DecidableEq, Repr

namespace ConnectionAudit

/-- The bytes that are reported for the direction. -/
def bytes (audit : ConnectionAudit) : TrafficDirection → UInt64
  | .clientToTarget => audit.clientToTargetBytes
  | .targetToClient => audit.targetToClientBytes

/-- The record as `serde` writes it. -/
def toJson (audit : ConnectionAudit) : Json :=
  .obj [("connectionId", .str audit.connectionId),
    ("instanceId", .str audit.instanceId),
    ("challengeId", .str audit.challengeId),
    ("userId", .str audit.userId),
    ("competitionId", .ofOption .str audit.competitionId),
    ("clientIp", .str audit.clientIp),
    ("target", .str audit.target),
    ("startedAt", .num (.int audit.startedAt)),
    ("endedAt", .num (.int audit.endedAt)),
    ("clientToTargetBytes", .num (.int audit.clientToTargetBytes.toNat)),
    ("targetToClientBytes", .num (.int audit.targetToClientBytes.toNat)),
    ("result", .str audit.result),
    ("capturePath", .ofOption .str audit.capturePath),
    ("capturedBytes", .num (.int audit.capturedBytes.toNat)),
    ("captureTruncated", .bool audit.captureTruncated)]

end ConnectionAudit

/-! ## The connection -/

/-- What the upgraded connection is given. -/
structure Upgrade where
  key : String
  record : TunnelRecord
  client : SocketAddr
  connectionId : String
  startedAt : Nat
  maxCaptureBytes : UInt64

def Upgrade.instanceId (upgrade : Upgrade) : String :=
  if upgrade.record.instanceId = "" then String.ofList (upgrade.key.toList.take 32)
  else upgrade.record.instanceId

inductive Stage
  | connect
  | startCapture
  | relay
  | finish
  | audit
  | done
  deriving DecidableEq, Repr

structure Connection where
  stage : Stage
  stats : ProxyStats
  result : String
  observer : ConnectionObserver
  proxy : Relay.State Half
  capturePath : Option String
  capturedBytes : UInt64
  captureTruncated : Bool

namespace Connection

def start : Connection where
  stage := .connect
  stats := ⟨0, 0⟩
  result := "completed"
  observer := .new none
  proxy := proxyObserved
  capturePath := none
  capturedBytes := 0
  captureTruncated := false

/-- `write_audit`: the record it makes. -/
def writeAudit (c : Connection) (upgrade : Upgrade) (endedAt : Nat) : ConnectionAudit where
  connectionId := upgrade.connectionId
  instanceId := upgrade.instanceId
  challengeId := upgrade.record.challengeId
  userId := upgrade.record.userId
  competitionId := upgrade.record.competitionId
  clientIp := upgrade.client.ip.toString
  target := upgrade.record.target
  startedAt := upgrade.startedAt
  endedAt := endedAt
  clientToTargetBytes := c.stats.clientToTarget
  targetToClientBytes := c.stats.targetToClient
  result := c.result
  capturePath := c.capturePath
  capturedBytes := c.capturedBytes
  captureTruncated := c.captureTruncated

/-- What follows when the proxy has come to an end or has been dropped. -/
def leave (c : Connection) (result : String) : Connection :=
  { c with
    stage := if c.observer.capture.isSome then .finish else .audit
    stats := c.observer.stats
    result := result }

/-- The observer sees the binary messages that the proxy pulls. -/
def observed (c : Connection) (o : Relay.Out) (sent : Option SystemTime) : ConnectionObserver :=
  match o with
  | .pulled direction (.binary data) => c.observer.observe direction data sent
  | _ => c.observer

/-- One step of the proxy, and where it was the last, how the connection goes on. -/
def relayed (c : Connection) (o : Relay.Out) (proxy : Relay.State Half)
    (sent : Option SystemTime) : Connection :=
  let after := { c with proxy := proxy, observer := c.observed o sent }
  match o with
  | .returned _ (.ok _) => after.leave c.result
  | .returned _ (.error err) => after.leave (classifyProxyError err.display after.observer.stats)
  | _ => after

/-- `CaptureSession::finish`, after the writer has answered. -/
def finished (c : Connection) : Connection :=
  match c.observer.capture with
  | some session =>
    { c with
      stage := .audit
      capturePath := some session.relativePath
      capturedBytes := session.observer.finish.1
      captureTruncated := session.observer.finish.2 }
  | none => { c with stage := .audit }

/-- What the outside world does: it answers the calls, and time runs out. -/
inductive Action
  | connected
  | connectFailed (err : String)
  | connectTimeout
  | captureStarted
  | captureFailed
  | poll (direction : TrafficDirection) (io : Relay.Io) (sent : Option SystemTime)
  | connectionTimeout
  | captureFinished
  | append (endedAt : Nat)
  deriving Repr

inductive Out
  | silent
  | relay (o : Relay.Out)
  | appendAudit (instanceId : String) (line : Json)

variable (upgrade : Upgrade)

def next (c : Connection) : Action → Option (Out × Connection)
  | .connected =>
    if c.stage = .connect then
      some (.silent,
        { c with stage := if upgrade.record.capture then .startCapture else .relay })
    else none
  | .connectFailed err =>
    if c.stage = .connect then
      some (.silent, { c with stage := .audit, result := "target_connect_failed:" ++ err })
    else none
  | .connectTimeout =>
    if c.stage = .connect then
      some (.silent, { c with stage := .audit, result := "target_connect_timeout" })
    else none
  | .captureStarted =>
    if c.stage = .startCapture then
      some (.silent, { c with
        stage := .relay
        observer := .new (some
          (.start upgrade.instanceId upgrade.connectionId upgrade.maxCaptureBytes)) })
    else none
  | .captureFailed =>
    if c.stage = .startCapture then some (.silent, { c with stage := .relay }) else none
  | .poll direction io sent =>
    if c.stage = .relay then
      (Relay.next endpoints c.proxy (.poll direction io)).map fun r ↦
        (.relay r.1, c.relayed r.1 r.2 sent)
    else none
  | .connectionTimeout =>
    if c.stage = .relay then some (.silent, c.leave "connection_timeout") else none
  | .captureFinished => if c.stage = .finish then some (.silent, c.finished) else none
  | .append endedAt =>
    if c.stage = .audit then
      some (.appendAudit upgrade.instanceId (c.writeAudit upgrade endedAt).toJson,
        { c with stage := .done })
    else none

/-- What an action can come to. -/
inductive Moved (c : Connection) : Action → Out → Connection → Prop
  | connected : c.stage = .connect → Moved c .connected .silent
      { c with stage := if upgrade.record.capture then .startCapture else .relay }
  | connectFailed {err : String} : c.stage = .connect → Moved c (.connectFailed err) .silent
      { c with stage := .audit, result := "target_connect_failed:" ++ err }
  | connectTimeout : c.stage = .connect → Moved c .connectTimeout .silent
      { c with stage := .audit, result := "target_connect_timeout" }
  | captureStarted : c.stage = .startCapture → Moved c .captureStarted .silent
      { c with
        stage := .relay
        observer := .new (some
          (.start upgrade.instanceId upgrade.connectionId upgrade.maxCaptureBytes)) }
  | captureFailed : c.stage = .startCapture →
      Moved c .captureFailed .silent { c with stage := .relay }
  | poll {direction : TrafficDirection} {io : Relay.Io} {sent : Option SystemTime} {o : Relay.Out}
      {proxy : Relay.State Half} : c.stage = .relay →
      Relay.next endpoints c.proxy (.poll direction io) = some (o, proxy) →
      Moved c (.poll direction io sent) (.relay o) (c.relayed o proxy sent)
  | connectionTimeout : c.stage = .relay →
      Moved c .connectionTimeout .silent (c.leave "connection_timeout")
  | captureFinished : c.stage = .finish → Moved c .captureFinished .silent c.finished
  | append {endedAt : Nat} : c.stage = .audit → Moved c (.append endedAt)
      (.appendAudit upgrade.instanceId (c.writeAudit upgrade endedAt).toJson)
      { c with stage := .done }

variable {upgrade} {c d : Connection} {a : Action} {o : Out}

theorem next_moved (h : next upgrade c a = some (o, d)) : Moved upgrade c a o d := by
  cases a with
  | poll direction io sent =>
    simp only [next, Option.ite_none_right_eq_some, Option.map_eq_some_iff, Prod.mk.injEq] at h
    obtain ⟨hstage, ⟨o', proxy⟩, hnext, rfl, rfl⟩ := h
    exact .poll hstage hnext
  | _ =>
    simp only [next, Option.ite_none_right_eq_some, Option.some.injEq, Prod.mk.injEq] at h
    obtain ⟨hstage, rfl, rfl⟩ := h
    constructor
    exact hstage

end Connection

end LabStreamGate.Gateway
