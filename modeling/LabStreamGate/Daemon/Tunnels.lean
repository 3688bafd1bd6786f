import LabStreamGate.Gateway.Address
import LabStreamGate.Library.Run
import LabStreamGate.Library.TaskTable
import LabStreamGate.Relay.Fidelity

/-!
# The tunnels of the command-line daemon

A tunnel is an accept loop on a listener of its own, with a token that it shares with the
connections it has linked.  The daemon keeps its tunnels in a pool under their local addresses;
what is dropped from the pool is cancelled and its loop aborted.  The loops, the connections and
the requests step in any order.
-/

namespace LabStreamGate.Daemon.Pool

open Function
open Gateway (connect Dialed)
open Relay (Half endpoints proxyObserved accounts)

structure TunnelConfig where
  localAddr : String
  remote : String
  deriving DecidableEq, Repr

namespace TunnelConfig

def names : List (List String) := [["local", "from"], ["remote", "to"]]

def ofFields : List (Option Json) → Option TunnelConfig
  | [localAddr, remote] => do
    return {
      localAddr := ← Json.required Json.asStr localAddr
      remote := ← Json.required Json.asStr remote }
  | _ => none

def ofJson (j : Json) : Option TunnelConfig := (j.fields names).bind ofFields

def toJson (config : TunnelConfig) : Json :=
  .obj [("local", .str config.localAddr), ("remote", .str config.remote)]

end TunnelConfig

def CloseTunnelRequest.ofJson (j : Json) : Option String :=
  (j.fields [["key"]]).bind fun
    | [key] => Json.required Json.asStr key
    | _ => none

/-! ## A tunnel and its connections -/

/-- Where the accept loop is: it waits, it has a connection to look at, or it is about to start the
task of the connection.  With the task its listener is gone. -/
inductive Loop
  | accepting
  | accepted
  | linking
  | ended
  deriving DecidableEq, Repr

/-- A tunnel with the address of its listener; `cancelled` is its token. -/
structure Tunnel where
  config : TunnelConfig
  addr : SocketAddr
  cancelled : Bool
  aborted : Bool
  loop : Loop
  deriving DecidableEq

/-- `Tunnel::new`. -/
def Tunnel.new (remote : String) (addr : SocketAddr) : Tunnel where
  config := ⟨addr.toString, remote⟩
  addr := addr
  cancelled := false
  aborted := false
  loop := .accepting

/-- `Drop for Tunnel`. -/
def Tunnel.drop (tunnel : Tunnel) : Tunnel := { tunnel with cancelled := true, aborted := true }

/-- The task of a connection: it connects to the remote and then relays until it returns. -/
inductive Phase
  | connecting
  | relaying (relay : Relay.State Half)
  | failed

structure Link where
  tunnel : Nat
  remote : String
  phase : Phase

inductive Reply
  | empty
  | text (text : String)
  | config (config : TunnelConfig)
  | pool (entries : List (String × TunnelConfig))
  deriving DecidableEq

/-! ## The daemon -/

/-- Every tunnel and every connection there has been keeps its number; `launching` is the request
that holds the write lock of the pool while its listener is being bound. -/
structure State where
  connections : AList fun _ : String ↦ Nat
  tunnels : Nat → Option Tunnel
  nextTunnel : Nat
  links : Nat → Option Link
  nextLink : Nat
  launching : Option TunnelConfig

def State.empty : State := ⟨∅, fun _ ↦ none, 0, fun _ ↦ none, 0, none⟩

/-- What keeps `create_tcp_listener` from a listener. -/
inductive ListenerError
  | parse
  | noAddr
  | bind (addr : String) (error : String)
  deriving DecidableEq, Repr

def ListenerError.refusal : ListenerError → Refusal
  | .parse => (.badRequest, "failed to parse from address")
  | .noAddr => (.badRequest, "failed to get socket addr")
  | .bind addr error =>
    (.internalServerError, "failed to bind tcp address " ++ addr ++ ": " ++ error)

inductive Action
  | launch (body : Option Json)
  | bound (addr : SocketAddr)
  | notBound (error : ListenerError)
  | getTunnels
  | closeTunnel (body : Option Json)
  | accept (n : Nat) (accepted : Bool)
  | peerAddr (n : Nat) (found : Bool)
  | spawn (n : Nat)
  | abort (n : Nat)
  | connectAsync (i : Nat) (connected : Bool)
  | relay (i : Nat) (a : Relay.Action Relay.Io)

inductive Out
  | silent
  | rejected
  | responded (status : StatusCode) (reply : Reply)
  | linked (n : Nat)
  | dialed (i : Nat) (remote : String)
  | relayed (i : Nat) (out : Relay.Out)

/-- A socket is bound to an address that the text stands for; port zero is any port. -/
def binds (localAddr : String) (addr : SocketAddr) : Bool :=
  match connect localAddr with
  | some dialed =>
    dialed.ip.all (· = addr.ip) && (dialed.port = 0 || dialed.port = addr.port)
  | none => false

namespace State

/-- No listener of the daemon is on the address. -/
def free (s : State) (addr : SocketAddr) : Bool :=
  (List.range s.nextTunnel).all fun n ↦
    (s.tunnels n).all fun tunnel ↦ tunnel.loop = .ended || tunnel.addr ≠ addr

def setTunnel (s : State) (n : Nat) (tunnel : Tunnel) : State :=
  { s with tunnels := update s.tunnels n (some tunnel) }

def setLoop (s : State) (n : Nat) (tunnel : Tunnel) (loop : Loop) : State :=
  s.setTunnel n { tunnel with loop := loop }

def setPhase (s : State) (i : Nat) (link : Link) (phase : Phase) : State :=
  { s with links := update s.links i (some { link with phase := phase }) }

/-- What the pool has under the key is dropped. -/
def dropKey (s : State) (key : String) : State :=
  match s.connections.lookup key with
  | none => s
  | some n =>
    match s.tunnels n with
    | none => s
    | some tunnel => s.setTunnel n tunnel.drop

/-- The end of `launch_tunnel`, once the listener is bound. -/
def insertTunnel (s : State) (remote : String) (addr : SocketAddr) : State :=
  let tunnel := Tunnel.new remote addr
  let dropped := s.dropKey tunnel.config.localAddr
  { dropped with
    connections := s.connections.insert tunnel.config.localAddr s.nextTunnel
    tunnels := update dropped.tunnels s.nextTunnel (some tunnel)
    nextTunnel := s.nextTunnel + 1
    launching := none }

/-- What `get_tunnels` writes. -/
def entries (s : State) : List (String × TunnelConfig) :=
  s.connections.entries.filterMap fun e ↦ (s.tunnels e.2).map fun tunnel ↦ (e.1, tunnel.config)

/-- A new connection of the tunnel. -/
def spawnLink (s : State) (n : Nat) (tunnel : Tunnel) : State :=
  { s.setLoop n tunnel .accepting with
    links := update s.links s.nextLink (some ⟨n, tunnel.config.remote, .connecting⟩)
    nextLink := s.nextLink + 1 }

/-- The token that the connection has from its tunnel. -/
def isCancelled (s : State) (link : Link) : Bool := (s.tunnels link.tunnel).any (·.cancelled)

end State

/-- A connection takes part in a relay as long as its token does not stop it. -/
def relayNext (s : State) (i : Nat) (link : Link) (relay : Relay.State Half)
    (a : Relay.Action Relay.Io) : Option (Out × State) :=
  let possible := match a with
    | .cancelled => s.isCancelled link
    | _ => true
  if possible then
    (Relay.next endpoints relay a).map fun r ↦
      (.relayed i r.1, s.setPhase i link (.relaying r.2))
  else none

def next (s : State) : Action → Option (Out × State)
  | .launch body =>
    if s.launching.isSome then none
    else
      match body.bind TunnelConfig.ofJson with
      | none => some (.rejected, s)
      | some req => some (.silent, { s with launching := some req })
  | .bound addr =>
    s.launching.bind fun req ↦
      if binds req.localAddr addr && s.free addr then
        some (.responded .ok (.config ⟨addr.toString, req.remote⟩), s.insertTunnel req.remote addr)
      else none
  | .notBound error =>
    s.launching.map fun _ ↦
      (.responded error.refusal.1 (.text error.refusal.2), { s with launching := none })
  | .getTunnels =>
    if s.launching.isSome then none else some (.responded .ok (.pool s.entries), s)
  | .closeTunnel body =>
    if s.launching.isSome then none
    else
      match body.bind CloseTunnelRequest.ofJson with
      | none => some (.rejected, s)
      | some key =>
        match s.connections.lookup key with
        | none => some (.responded .notFound (.text "not found"), s)
        | some _ =>
          some (.responded .ok .empty,
            { s.dropKey key with connections := s.connections.erase key })
  | .accept n accepted =>
    (s.tunnels n).bind fun tunnel ↦
      if tunnel.loop = .accepting then
        if accepted then some (.silent, s.setLoop n tunnel .accepted)
        else some (.silent, s.setTunnel n { tunnel with cancelled := true, loop := .ended })
      else none
  | .peerAddr n found =>
    (s.tunnels n).bind fun tunnel ↦
      if tunnel.loop = .accepted then
        -- a connection that is gone by now has no peer, and the task panics
        if !found || tunnel.cancelled then some (.silent, s.setLoop n tunnel .ended)
        else some (.silent, s.setLoop n tunnel .linking)
      else none
  | .spawn n =>
    (s.tunnels n).bind fun tunnel ↦
      if tunnel.loop = .linking then some (.linked n, s.spawnLink n tunnel) else none
  | .abort n =>
    -- an aborted task is dropped where it waits
    (s.tunnels n).bind fun tunnel ↦
      if tunnel.aborted && tunnel.loop = .accepting then
        some (.silent, s.setLoop n tunnel .ended)
      else none
  | .connectAsync i connected =>
    (s.links i).bind fun link ↦
      match link.phase with
      | .connecting =>
        some (.dialed i link.remote,
          s.setPhase i link (if connected then .relaying proxyObserved else .failed))
      | _ => none
  | .relay i a =>
    (s.links i).bind fun link ↦
      match link.phase with
      | .relaying relay => relayNext s i link relay a
      | _ => none

/-! ## One step -/

variable {s t : State} {a : Action} {o : Out} {tr : List (Event State Action Out)} {n i : Nat}
  {tunnel : Tunnel} {link : Link} {key : String}

/-- The steps of an accept loop that only move it. -/
inductive Loop.Steps (tunnel : Tunnel) : Action → Nat → Loop → Prop
  | accepted {n : Nat} : tunnel.loop = .accepting → Steps tunnel (.accept n true) n .accepted
  | panic {n : Nat} : tunnel.loop = .accepted → Steps tunnel (.peerAddr n false) n .ended
  | stopped {n : Nat} : tunnel.loop = .accepted → tunnel.cancelled = true →
      Steps tunnel (.peerAddr n true) n .ended
  | linking {n : Nat} : tunnel.loop = .accepted → tunnel.cancelled = false →
      Steps tunnel (.peerAddr n true) n .linking
  | aborted {n : Nat} : tunnel.loop = .accepting → tunnel.aborted = true →
      Steps tunnel (.abort n) n .ended

/-- What an action can come to. -/
inductive Moved (s : State) : Action → Out → State → Prop
  | rejected {body : Option Json} : s.launching = none →
      body.bind TunnelConfig.ofJson = none → Moved s (.launch body) .rejected s
  | hold {body : Option Json} {req : TunnelConfig} : s.launching = none →
      body.bind TunnelConfig.ofJson = some req →
      Moved s (.launch body) .silent { s with launching := some req }
  | give {error : ListenerError} :
      Moved s (.notBound error) (.responded error.refusal.1 (.text error.refusal.2))
        { s with launching := none }
  | insert {req : TunnelConfig} {addr : SocketAddr} : s.launching = some req →
      binds req.localAddr addr = true → s.free addr = true →
      Moved s (.bound addr) (.responded .ok (.config ⟨addr.toString, req.remote⟩))
        (s.insertTunnel req.remote addr)
  | listed : s.launching = none → Moved s .getTunnels (.responded .ok (.pool s.entries)) s
  | unread {body : Option Json} : s.launching = none →
      body.bind CloseTunnelRequest.ofJson = none → Moved s (.closeTunnel body) .rejected s
  | notFound {body : Option Json} {key : String} : s.launching = none →
      body.bind CloseTunnelRequest.ofJson = some key → s.connections.lookup key = none →
      Moved s (.closeTunnel body) (.responded .notFound (.text "not found")) s
  | close {body : Option Json} {key : String} {n : Nat} : s.launching = none →
      body.bind CloseTunnelRequest.ofJson = some key → s.connections.lookup key = some n →
      Moved s (.closeTunnel body) (.responded .ok .empty)
        { s.dropKey key with connections := s.connections.erase key }
  | loop {a : Action} {n : Nat} {tunnel : Tunnel} {loop : Loop} : s.tunnels n = some tunnel →
      loop.Steps tunnel a n → Moved s a .silent (s.setLoop n tunnel loop)
  | refused {n : Nat} {tunnel : Tunnel} : s.tunnels n = some tunnel → tunnel.loop = .accepting →
      Moved s (.accept n false) .silent
        (s.setTunnel n { tunnel with cancelled := true, loop := .ended })
  | spawn {n : Nat} {tunnel : Tunnel} : s.tunnels n = some tunnel → tunnel.loop = .linking →
      Moved s (.spawn n) (.linked n) (s.spawnLink n tunnel)
  | dial {i : Nat} {connected : Bool} {link : Link} : s.links i = some link →
      link.phase = .connecting →
      Moved s (.connectAsync i connected) (.dialed i link.remote)
        (s.setPhase i link (if connected then .relaying proxyObserved else .failed))
  | relay {i : Nat} {a : Relay.Action Relay.Io} {link : Link} {relay relay' : Relay.State Half}
      {out : Relay.Out} : s.links i = some link → link.phase = .relaying relay →
      Relay.next endpoints relay a = some (out, relay') →
      (a = .cancelled → s.isCancelled link = true) →
      Moved s (.relay i a) (.relayed i out) (s.setPhase i link (.relaying relay'))

-- The step function is unfolded here and nowhere else.
theorem next_moved (h : next s a = some (o, t)) : Moved s a o t := by
  cases a with
  | launch body =>
    simp only [next, Option.ite_none_left_eq_some, Option.not_isSome_iff_eq_none] at h
    obtain ⟨hfree, h⟩ := h
    split at h <;> cases h
    · exact .rejected hfree ‹_›
    · exact .hold hfree ‹_›
  | bound addr =>
    simp only [next, Option.bind_eq_some_iff, Option.ite_none_right_eq_some, Bool.and_eq_true,
      Option.some.injEq, Prod.mk.injEq] at h
    obtain ⟨req, hreq, ⟨hbinds, hfree⟩, rfl, rfl⟩ := h
    exact .insert hreq hbinds hfree
  | notBound error =>
    simp only [next, Option.map_eq_some_iff, Prod.mk.injEq] at h
    obtain ⟨req, -, rfl, rfl⟩ := h
    exact .give
  | getTunnels =>
    simp only [next, Option.ite_none_left_eq_some, Option.not_isSome_iff_eq_none,
      Option.some.injEq, Prod.mk.injEq] at h
    obtain ⟨hfree, rfl, rfl⟩ := h
    exact .listed hfree
  | closeTunnel body =>
    simp only [next, Option.ite_none_left_eq_some, Option.not_isSome_iff_eq_none] at h
    obtain ⟨hfree, h⟩ := h
    split at h
    · cases h
      exact .unread hfree ‹_›
    · split at h <;> cases h
      · exact .notFound hfree ‹_› ‹_›
      · exact .close hfree ‹_› ‹_›
  | accept n accepted =>
    simp only [next, Option.bind_eq_some_iff, Option.ite_none_right_eq_some] at h
    obtain ⟨tunnel, htunnel, hloop, h⟩ := h
    cases accepted <;> cases h
    · exact .refused htunnel hloop
    · exact .loop htunnel (.accepted hloop)
  | peerAddr n found =>
    simp only [next, Option.bind_eq_some_iff, Option.ite_none_right_eq_some] at h
    obtain ⟨tunnel, htunnel, hloop, h⟩ := h
    cases found with
    | false =>
      cases h
      exact .loop htunnel (.panic hloop)
    | true =>
      rw [Bool.not_true, Bool.false_or] at h
      split at h <;> cases h
      · exact .loop htunnel (.stopped hloop ‹_›)
      · exact .loop htunnel (.linking hloop (Bool.eq_false_iff.mpr ‹_›))
  | spawn n =>
    simp only [next, Option.bind_eq_some_iff, Option.ite_none_right_eq_some, Option.some.injEq,
      Prod.mk.injEq] at h
    obtain ⟨tunnel, htunnel, hloop, rfl, rfl⟩ := h
    exact .spawn htunnel hloop
  | abort n =>
    simp only [next, Option.bind_eq_some_iff, Option.ite_none_right_eq_some, Bool.and_eq_true,
      decide_eq_true_eq, Option.some.injEq, Prod.mk.injEq] at h
    obtain ⟨tunnel, htunnel, ⟨haborted, hloop⟩, rfl, rfl⟩ := h
    exact .loop htunnel (.aborted hloop haborted)
  | connectAsync i connected =>
    simp only [next, Option.bind_eq_some_iff] at h
    obtain ⟨link, hlink, h⟩ := h
    split at h <;> cases h
    exact .dial hlink ‹_›
  | relay i a =>
    simp only [next, Option.bind_eq_some_iff] at h
    obtain ⟨link, hlink, h⟩ := h
    split at h
    · rename_i relay hphase
      unfold relayNext at h
      simp only [Option.ite_none_right_eq_some, Option.map_eq_some_iff, Prod.mk.injEq] at h
      obtain ⟨hpossible, ⟨out, relay'⟩, hnext, rfl, rfl⟩ := h
      refine .relay hlink hphase hnext fun ha ↦ ?_
      subst ha
      exact hpossible
    · cases h

end LabStreamGate.Daemon.Pool
