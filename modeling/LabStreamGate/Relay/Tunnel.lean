import LabStreamGate.Relay.Fidelity

/-!
# A client tunnel and the gateway

The client relays between a local TCP connection and a WebSocket, the gateway between the other end
of the WebSocket and the target.  The WebSocket delivers what it is handed in order, as far as it
delivers it, and both libraries may put control messages in between.
-/

namespace LabStreamGate.Relay

open Function

/-! ## What a relay does to its WebSocket -/

/-- The message that the action takes from the WebSocket. -/
def Action.item : Action Io → Option WsItem
  | .poll .clientToTarget io => io.item
  | _ => none

-- A message is taken by the poll of the WebSocket and by nothing else.
theorem Turned.receives {x : Ws} {y : Framed} {loop : Loop} {io : Io} {turn : Turn Ws Framed}
    (h : Turned Ws.endpoint Framed.endpoint x y loop io turn) :
    turn.stream.received = x.received ++ io.item.toList := by
  have hpoll : ∀ {x' polled}, Ws.endpoint.pollNext x io = some (x', polled) →
      x'.received = x.received ++ io.item.toList := by
    intro x' polled hnext
    rw [(Ws.pollNext_eq hnext).1]
  have hnone : io.item = none → x.received = x.received ++ io.item.toList := by
    intro hitem
    rw [hitem, Option.toList_none, List.append_nil]
  cases h with
  | wait hnext => exact hpoll hnext
  | ended hnext => exact hpoll hnext
  | pull hnext => exact hpoll hnext
  | broken hnext => exact hpoll hnext
  | unready hstart => exact hnone (Framed.startSend_eq hstart).1
  | start hstart => exact hnone (Framed.startSend_eq hstart).1
  | refused hstart => exact hnone (Framed.startSend_eq hstart).1
  | flushing hflush => exact hnone (Framed.pollFlush_eq hflush).1
  | sent hflush => exact hnone (Framed.pollFlush_eq hflush).1
  | lost hflush => exact hnone (Framed.pollFlush_eq hflush).1

section

variable {s t : State Half} {a : Action Io} {o : Out}

theorem received_of_moved (hm : Moved endpoints s a o t) :
    t.ws.received.flatMap WsItem.payload =
      s.ws.received.flatMap WsItem.payload ++ a.item.toList.flatMap WsItem.payload := by
  cases hm with
  | @poll direction io turn _ hturn =>
    cases direction with
    | clientToTarget =>
      have hws : (s.apply .clientToTarget turn).ws = turn.stream := State.apply_stream
      rw [hws, Turned.receives hturn, List.flatMap_append]
      rfl
    | targetToClient =>
      have hws : (s.apply .targetToClient turn).ws = turn.sink := State.apply_sink
      rw [hws]
      exact (hturn.keeps_received Ws.carries).1.trans (List.append_nil _).symm
  | cancelled _ => exact (List.append_nil _).symm

-- What has been handed over stays so.
theorem Ws.keeps_handed (handed : List Bytes) :
    Ws.endpoint.Keeps fun ws ↦ handed <+: ws.handed where
  pollNext := by
    intro ws ws' io polled hpoll h
    rw [(Ws.pollNext_eq hpoll).1]
    exact h
  startSend := by
    intro ws ws' item io polled hstart h
    obtain ⟨sent, rfl, -⟩ := Ws.startSend_eq hstart
    exact h.trans (List.prefix_append _ _)
  pollFlush := by
    intro ws ws' io polled hflush h
    rw [Ws.pollFlush_eq hflush]
    exact h

theorem handed_of_moved (hm : Moved endpoints s a o t) : s.ws.handed <+: t.ws.handed := by
  have hkeeps : (endpoints .s1).Keeps fun ws : Ws ↦ s.ws.handed <+: ws.handed :=
    Ws.keeps_handed s.ws.handed
  exact hm.keeps hkeeps (List.prefix_refl _)

end

/-! ## The two relays -/

/-- What crosses the network. -/
inductive Frame
  | binary (data : Bytes)
  | ping (data : Bytes)
  | pong (data : Bytes)
  | close (frame : Option CloseFrame)
  deriving DecidableEq, Repr

namespace Frame

def payload : Frame → Bytes
  | binary data => data
  | _ => []

def isControl : Frame → Bool
  | binary _ => false
  | _ => true

def toTg : Frame → TgMessage
  | binary data => .binary data
  | ping data => .ping data
  | pong data => .pong data
  | close frame => .close frame

def toAx : Frame → AxMessage
  | binary data => .binary data
  | ping data => .ping data
  | pong data => .pong data
  | close frame => .close frame

end Frame

/-- The client connects with tungstenite, the gateway is served by axum. -/
inductive Party
  | client
  | gateway
  deriving DecidableEq, Repr

def Party.other : Party → Party
  | client => gateway
  | gateway => client

def Party.item : Party → Frame → WsItem
  | client, frame => .tungstenite frame.toTg
  | gateway, frame => .axumWebsocket frame.toAx

@[simp] theorem Party.payload_item (party : Party) (frame : Frame) :
    (party.item frame).payload = frame.payload := by
  cases party <;> cases frame <;> rfl

/-- Both relays, and the frames on their way to each. -/
structure Tunnel where
  relay : Party → State Half
  inbox : Party → List Frame

namespace Tunnel

inductive Action
  | step (party : Party) (a : Relay.Action Io)
  | control (party : Party) (frame : Frame)

/-- A relay takes the first frame that is there for it. -/
def take (party : Party) (a : Relay.Action Io) (frames : List Frame) : Option (List Frame) :=
  match a.item, frames with
  | none, frames => some frames
  | some item, frame :: frames => if item = party.item frame then some frames else none
  | some _, [] => none

/-- The frames for what has been handed over between two states of the WebSocket. -/
def sentFrames (before after : Ws) : List Frame :=
  (after.handed.drop before.handed.length).map .binary

/-- The relay of the party goes on to `relay`, and leaves `frames` in its inbox. -/
def apply (s : Tunnel) (party : Party) (relay : State Half) (frames : List Frame) : Tunnel where
  relay := update s.relay party relay
  inbox := update (update s.inbox party frames) party.other
    (s.inbox party.other ++ sentFrames (s.relay party).ws relay.ws)

def next (s : Tunnel) : Action → Option (Out × Tunnel)
  | .step party a =>
    (take party a (s.inbox party)).bind fun frames ↦
      (Relay.next endpoints (s.relay party) a).map fun r ↦ (r.1, s.apply party r.2 frames)
  | .control party frame =>
    if frame.isControl then
      some (.silent, { s with inbox := update s.inbox party (s.inbox party ++ [frame]) })
    else none

/-- A connection that has just been made through the gateway. -/
def start : Tunnel := ⟨fun _ ↦ proxyObserved, fun _ ↦ []⟩

/-! ## Bytes across the tunnel -/

variable {s t : Tunnel} {a : Action} {o : Out} {tr : List (Event Tunnel Action Out)}

/-- What the other party has handed over has been received, or is on its way. -/
def Delivers (s : Tunnel) (party : Party) : Prop :=
  (s.relay party.other).ws.handed.flatten =
    (s.relay party).ws.received.flatMap WsItem.payload ++ (s.inbox party).flatMap Frame.payload

theorem take_payload {party : Party} {a : Relay.Action Io} {frames frames' : List Frame}
    (h : take party a frames = some frames') :
    frames.flatMap Frame.payload =
      a.item.toList.flatMap WsItem.payload ++ frames'.flatMap Frame.payload := by
  unfold take at h
  split at h
  · rename_i hitem
    cases h
    rw [hitem]
    rfl
  · rename_i item frame frames hitem
    split at h <;> cases h
    rename_i hframe
    subst hframe
    simp [hitem]
  · cases h

theorem flatMap_sentFrames {before after : Ws} (h : before.handed <+: after.handed) :
    before.handed.flatten ++ (sentFrames before after).flatMap Frame.payload =
      after.handed.flatten := by
  obtain ⟨new, hnew⟩ := h
  rw [sentFrames, ← hnew, List.drop_left, List.flatten_append, List.flatMap_map]
  rw [show (fun data ↦ (Frame.binary data).payload) = id from rfl, List.flatMap_id]

/-- The relays keep their bytes in order, and so does the network between them. -/
structure Faithful (s : Tunnel) : Prop where
  conserves : ∀ party direction, (s.relay party).Conserves accounts direction
  delivers : ∀ party, s.Delivers party

theorem start_faithful : start.Faithful where
  conserves := fun _ ↦ proxyObserved_conserves
  delivers := fun _ ↦ rfl

theorem other_ne (party : Party) : party.other ≠ party := by
  cases party <;> decide

theorem other_other (party : Party) : party.other.other = party := by
  cases party <;> rfl

theorem eq_or_other (party party' : Party) : party' = party ∨ party' = party.other := by
  cases party <;> cases party' <;> decide

section

variable {party : Party} {relay : State Half} {frames : List Frame}

@[simp] theorem apply_relay_self : (s.apply party relay frames).relay party = relay :=
  update_self ..

@[simp] theorem apply_relay_other :
    (s.apply party relay frames).relay party.other = s.relay party.other :=
  update_of_ne (other_ne party) ..

@[simp] theorem apply_inbox_self : (s.apply party relay frames).inbox party = frames :=
  (update_of_ne (other_ne party).symm ..).trans (update_self ..)

@[simp] theorem apply_inbox_other : (s.apply party relay frames).inbox party.other =
    s.inbox party.other ++ sentFrames (s.relay party).ws relay.ws := update_self ..

end

theorem Faithful.step (hs : s.Faithful) (h : next s a = some (o, t)) : t.Faithful := by
  cases a with
  | step party a =>
    simp only [next, Option.bind_eq_some_iff, Option.map_eq_some_iff, Prod.mk.injEq] at h
    obtain ⟨frames, htake, ⟨o', t'⟩, hnext, rfl, rfl⟩ := h
    have hm := next_moved hnext
    constructor
    · intro party' direction
      rcases eq_or_other party party' with rfl | rfl
      · rw [apply_relay_self]
        exact State.Conserves.step carries (hs.conserves party') hm direction
      · rw [apply_relay_other]
        exact hs.conserves party.other direction
    · intro party'
      unfold Delivers
      rcases eq_or_other party party' with rfl | rfl
      · -- it has taken a frame, or its inbox is as it was
        have hbefore := hs.delivers party'
        rw [Delivers, take_payload htake, ← List.append_assoc, ← received_of_moved hm] at hbefore
        rw [apply_relay_self, apply_relay_other, apply_inbox_self]
        exact hbefore
      · -- the other one may have sent it something
        have hbefore := hs.delivers party.other
        rw [Delivers, other_other] at hbefore
        rw [other_other, apply_relay_self, apply_relay_other, apply_inbox_other,
          List.flatMap_append, ← List.append_assoc, ← hbefore,
          flatMap_sentFrames (handed_of_moved hm)]
  | control party frame =>
    simp only [next, Option.ite_none_right_eq_some, Option.some.injEq, Prod.mk.injEq] at h
    obtain ⟨hcontrol, rfl, rfl⟩ := h
    have hempty : frame.payload = [] := by
      cases frame with
      | binary data => cases hcontrol
      | _ => rfl
    have hinbox : ∀ party', (update s.inbox party (s.inbox party ++ [frame]) party').flatMap
        Frame.payload = (s.inbox party').flatMap Frame.payload := by
      intro party'
      by_cases hparty : party' = party
      · rw [hparty, update_self, List.flatMap_append, List.flatMap_singleton, hempty,
          List.append_nil]
      · rw [update_of_ne hparty]
    refine ⟨hs.conserves, fun party' ↦ ?_⟩
    exact (hs.delivers party').trans (congrArg (_ ++ ·) (hinbox party').symm)

/-- What one party has written to its TCP stream the other one has received on its own. -/
theorem Faithful.written (hs : s.Faithful) (party : Party) :
    (s.relay party).tcp.written <+: (s.relay party.other).tcp.received := by
  have hreceived : (s.relay party).ws.received.flatMap WsItem.payload <+:
      (s.relay party.other).ws.handed.flatten := ⟨_, (hs.delivers party).symm⟩
  have hwritten := (hs.conserves party .clientToTarget).tcp_written
  have hhanded := (hs.conserves party.other .targetToClient).ws_handed
  exact hwritten.trans (hreceived.trans hhanded)

theorem faithful (h : Run next start tr t) : t.Faithful := by
  refine h.invariant (I := Faithful) (C := fun _ ↦ True) start_faithful ?_ fun _ _ ↦ trivial
  intro v a o w hv _ hnext
  exact hv.step hnext

end Tunnel

/-- A relay writes to each side a prefix of what has come from the other, and when the TCP stream
has ended all of it has been made into messages; so a client and the gateway with two relays give
to each side a prefix of what has come from the other one. -/
theorem relay_fidelity :
    (∀ tr t, Run (next endpoints) proxyObserved tr t →
      t.tcp.written <+: t.ws.received.flatMap WsItem.payload ∧
      t.ws.handed.flatten <+: t.tcp.received ∧
      (t.tcp.eof = true → t.tcp.received = (pulledBinary tr .targetToClient).flatten ∧
        ∀ io, t.tcp.pollNext io = some (t.tcp, .ready none))) ∧
    ∀ tr t, Run Tunnel.next Tunnel.start tr t →
      (t.relay .gateway).tcp.written <+: (t.relay .client).tcp.received ∧
      (t.relay .client).tcp.written <+: (t.relay .gateway).tcp.received := by
  constructor
  · intro tr t h
    have hconserves := conserves carries proxyObserved_conserves h
    have hended : t.tcp.Ended := ends_keep h Framed.keeps_ended fun _ ↦ rfl
    refine ⟨(hconserves _).tcp_written, (hconserves _).ws_handed, fun heof ↦ ⟨?_, ?_⟩⟩
    · have hpulled : t.tcp.received =
          (pulledBinary tr .targetToClient).flatten ++ t.tcp.readBuffer :=
        pulled_is_received carries (fun side ↦ by cases side <;> rfl) h .targetToClient
      rw [hpulled, hended heof, List.append_nil]
    · exact hended.pollNext heof
  · intro tr t h
    exact ⟨(Tunnel.faithful h).written .gateway, (Tunnel.faithful h).written .client⟩

/-- The client sends three bytes and its connection ends; a ping comes with them. -/
def sampleUpload : List (Action Io) :=
  [.poll .targetToClient (.read [1, 2, 3]), .poll .targetToClient .pending,
    .poll .targetToClient .done, .poll .targetToClient .done, .poll .targetToClient (.read [])]

-- The gateway has written two of the bytes.
theorem relay_fidelity_sample :
    (∃ tr t, Run (next endpoints) proxyObserved tr t ∧ t.tcp.received = [1, 2, 3] ∧
      t.tcp.received = (pulledBinary tr .targetToClient).flatten ∧
      t.ws.handed.flatten <+: t.tcp.received) ∧
    ∃ tr t, Run Tunnel.next Tunnel.start tr t ∧ (t.relay .gateway).tcp.written = [1, 2] ∧
      (t.relay .gateway).tcp.written <+: (t.relay .client).tcp.received := by
  constructor
  · obtain ⟨tr, t, hrun, hp⟩ := exists_run (next endpoints) proxyObserved sampleUpload
      (fun _ t ↦ t.tcp.received = [1, 2, 3] && t.tcp.eof) (by decide +kernel)
    rw [Bool.and_eq_true, decide_eq_true_eq] at hp
    obtain ⟨-, hhanded, hended⟩ := relay_fidelity.1 tr t hrun
    exact ⟨tr, t, hrun, hp.1, (hended hp.2).1, hhanded⟩
  · obtain ⟨tr, t, hrun, hp⟩ := exists_run Tunnel.next Tunnel.start
      (.control .gateway (.ping []) :: sampleUpload.map (.step .client) ++
        [.step .gateway (.poll .clientToTarget (.message (.axumWebsocket (.ping [])))),
          .step .gateway (.poll .clientToTarget .done),
          .step .gateway (.poll .clientToTarget .done),
          .step .gateway (.poll .clientToTarget
            (.message (.axumWebsocket (.binary [1, 2, 3])))),
          .step .gateway (.poll .clientToTarget .done),
          .step .gateway (.poll .clientToTarget (.wrote 2))])
      (fun _ t ↦ (t.relay .gateway).tcp.written = [1, 2]) (by decide +kernel)
    rw [decide_eq_true_eq] at hp
    exact ⟨tr, t, hrun, hp, (relay_fidelity.2 tr t hrun).1⟩

end LabStreamGate.Relay
