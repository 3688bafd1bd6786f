import LabStreamGate.Relay.Graceful
import LabStreamGate.Relay.Tunnel
import Mathlib.Algebra.Ring.Nat

/-!
# What has come in arrives

While neither relay has come to its end, each of the four loops can go on by itself as long as it
has something to do.  Whatever order they take turns in, all that has been read on one side is
written on the other after a number of turns that is known.
-/

namespace LabStreamGate.Relay

open Function

/-! ## Turns that get on -/

/-- The answer neither puts a loop off nor ends it, and nothing new comes in with it from a
socket. -/
def Io.brisk : Io → Bool
  | .done => true
  | .message _ => true
  | .wrote count => count != 0
  | _ => false

/-- The turns that a message takes from where it is: to be pulled, to be sent, and as many to be
flushed as it has bytes, and one more. -/
def Frame.cost (frame : Frame) : Nat := frame.payload.length + 3

def itemCost (item : Option WsItem) : Nat := (item.map fun item ↦ item.payload.length + 3).getD 0

/-- The turns of the loop that writes to the TCP stream, without those for its buffer. -/
def Loop.toWrite : Loop → Nat
  | .next => 0
  | .send message => message.payload.length + 2
  | .flush _ => 1

/-- The turns of the loop that hands messages to the WebSocket, and those for the message when it
gets to the other relay. -/
def Loop.toHand : Loop → Nat
  | .next => 0
  | .send (.binary data) => data.length + 5
  | .send .others => 2
  | .flush _ => 1

def Framed.toRead (tcp : Framed) : Nat :=
  if tcp.readBuffer = [] then 0 else tcp.readBuffer.length + 6

/-- The turns that the relay still takes, and those that what it hands over takes later on. -/
def State.work (s : State Half) : Nat :=
  s.tcp.writeBuffer.length + (s.loops .clientToTarget).toWrite + s.tcp.toRead +
    (s.loops .targetToClient).toHand

/-- Nothing is left to be written but what is being flushed. -/
def Framed.Clear (tcp : Framed) (loop : Loop) : Prop :=
  (∀ message, loop ≠ .flush message) → tcp.writeBuffer = []

section

variable {io : Io} {tcp tcp' : Framed} {ws ws' : Ws} {loop : Loop} {message : Message}

theorem Ws.pollNext_brisk {polled : Poll (Option (Except Error Message))} (hio : io.brisk = true)
    (h : ws.pollNext io = some (ws', polled)) : ∃ item, io = .message item ∧
      ws' = { ws with received := ws.received ++ [item] } ∧
      polled = .ready (some (.ok item.toMessage)) := by
  cases io with
  | message item =>
    cases h
    exact ⟨item, rfl, rfl, rfl⟩
  | done => cases h
  | wrote count => cases h
  | _ => cases hio

-- What is in the buffer is pulled, or the stream is at its end.
theorem Framed.pollNext_brisk {polled : Poll (Option (Except Error Message))}
    (hio : io.brisk = true) (h : tcp.pollNext io = some (tcp', polled)) :
    polled = .ready none ∨ tcp.readBuffer ≠ [] ∧ tcp' = { tcp with readBuffer := [] } ∧
      polled = .ready (some (.ok (.binary tcp.readBuffer))) := by
  by_cases hempty : tcp.readBuffer = []
  · refine .inl ?_
    unfold Framed.pollNext at h
    rw [hempty, MessageCodec.decodeEof_nil, MessageCodec.decode_nil] at h
    dsimp only at h
    split at h
    · cases h
      rfl
    · cases io with
      | done => cases h
      | message item => cases h
      | wrote count => cases h
      | _ => cases hio
  · refine .inr ⟨hempty, ?_⟩
    cases pollNext_polled h with
    | decoded _ => exact ⟨rfl, rfl⟩
    | ended hnil _ => exact absurd hnil hempty
    | wait hnil _ => exact absurd hnil hempty
    | read hnil _ => exact absurd hnil hempty
    | failed hnil _ => exact absurd hnil hempty

theorem Framed.startSend_brisk {polled : Poll (Except Error Unit)} (hio : io.brisk = true)
    (h : tcp.startSend message io = some (tcp', polled)) : polled = .ready (.ok ()) ∧
      tcp' = { tcp with writeBuffer := tcp.writeBuffer ++ message.payload } := by
  cases io with
  | done =>
    rw [Framed.startSend, MessageCodec.encode_eq] at h
    cases h
    exact ⟨rfl, rfl⟩
  | message item => cases h
  | wrote count => cases h
  | _ => cases hio

theorem Ws.startSend_brisk {polled : Poll (Except Error Unit)} (hio : io.brisk = true)
    (h : ws.startSend message io = some (ws', polled)) : polled = .ready (.ok ()) ∧
      ws' = { ws with handed := ws.handed ++ message.data?.toList } := by
  cases io with
  | done =>
    cases message with
    | binary data =>
      cases h
      exact ⟨rfl, rfl⟩
    | others =>
      cases h
      refine ⟨rfl, ?_⟩
      show ws = { ws with handed := ws.handed ++ [] }
      rw [List.append_nil]
  | message item => cases h
  | wrote count => cases h
  | _ => cases hio

/-- The buffer gets shorter, or it was empty and the flush is done. -/
theorem Framed.pollFlush_brisk {polled : Poll (Except Error Unit)} (hio : io.brisk = true)
    (h : tcp.pollFlush io = some (tcp', polled)) :
    tcp'.readBuffer = tcp.readBuffer ∧ tcp'.received = tcp.received ∧
      (polled = .pending ∧ tcp'.writeBuffer.length < tcp.writeBuffer.length ∨
        polled = .ready (.ok ()) ∧ tcp'.writeBuffer = []) := by
  cases io with
  | done =>
    simp only [Framed.pollFlush, Option.ite_none_right_eq_some, Option.some.injEq,
      Prod.mk.injEq] at h
    obtain ⟨hempty, rfl, rfl⟩ := h
    exact ⟨rfl, rfl, .inr ⟨rfl, List.isEmpty_iff.mp hempty⟩⟩
  | message item => cases h
  | wrote count =>
    have hcount : count ≠ 0 := bne_iff_ne.mp hio
    simp only [Framed.pollFlush, Option.ite_none_left_eq_some, if_neg hcount, Option.some.injEq,
      Prod.mk.injEq, List.isEmpty_iff] at h
    obtain ⟨hne, rfl, rfl⟩ := h
    refine ⟨rfl, rfl, ?_⟩
    split
    case isTrue hrest => exact .inr ⟨rfl, hrest⟩
    case isFalse =>
      refine .inl ⟨rfl, ?_⟩
      show (tcp.writeBuffer.drop count).length < _
      have hlength := List.length_pos_iff.mpr hne
      rw [List.length_drop]
      omega
  | _ => cases hio

theorem Ws.pollFlush_brisk {polled : Poll (Except Error Unit)} (hio : io.brisk = true)
    (h : ws.pollFlush io = some (ws', polled)) : polled = .ready (.ok ()) := by
  cases io with
  | done =>
    cases h
    rfl
  | message item => cases h
  | wrote count => cases h
  | _ => cases hio

end

/-! ## One turn -/

section

variable {io : Io} {loop : Loop} {direction : TrafficDirection}

/-- Towards the TCP stream. -/
theorem Turned.write_brisk {x : Ws} {y : Framed} {turn : Turn Ws Framed}
    (h : Turned Ws.endpoint Framed.endpoint x y loop io turn) (hio : io.brisk = true)
    (hgoes : ∀ result, turn.progress ≠ .returned result) (hclear : y.Clear loop) :
    turn.stream.handed = x.handed ∧ turn.sink.readBuffer = y.readBuffer ∧
      turn.sink.received = y.received ∧ turn.sink.Clear turn.loop ∧
      turn.sink.writeBuffer.length + turn.loop.toWrite <
        y.writeBuffer.length + loop.toWrite + itemCost io.item := by
  cases h with
  | wait hnext =>
    obtain ⟨item, -, -, hpolled⟩ := Ws.pollNext_brisk hio hnext
    cases hpolled
  | @pull _ _ message hnext =>
    obtain ⟨item, rfl, rfl, hpolled⟩ := Ws.pollNext_brisk hio hnext
    cases hpolled
    refine ⟨rfl, rfl, rfl, fun _ ↦ hclear nofun, ?_⟩
    show y.writeBuffer.length + (item.toMessage.payload.length + 2) <
      y.writeBuffer.length + 0 + (item.payload.length + 3)
    rw [WsItem.payload_toMessage]
    omega
  | unready hstart =>
    obtain ⟨hpolled, -⟩ := Framed.startSend_brisk hio hstart
    cases hpolled
  | @start _ _ message hstart =>
    obtain ⟨-, rfl⟩ := Framed.startSend_brisk hio hstart
    refine ⟨rfl, rfl, rfl, fun hflush ↦ absurd rfl (hflush message), ?_⟩
    show (y.writeBuffer ++ message.payload).length + 1 <
      y.writeBuffer.length + (message.payload.length + 2) + _
    rw [List.length_append]
    omega
  | @flushing _ y' message hflush =>
    obtain ⟨hread, hreceived, ⟨-, hless⟩ | ⟨hready, -⟩⟩ := Framed.pollFlush_brisk hio hflush
    · refine ⟨rfl, hread, hreceived, fun hnot ↦ absurd rfl (hnot message), ?_⟩
      show y'.writeBuffer.length + 1 < y.writeBuffer.length + 1 + _
      omega
    · cases hready
  | @sent _ _ message hflush =>
    obtain ⟨hread, hreceived, ⟨hpending, -⟩ | ⟨-, hempty⟩⟩ := Framed.pollFlush_brisk hio hflush
    · cases hpending
    · refine ⟨rfl, hread, hreceived, fun _ ↦ hempty, ?_⟩
      show _ + 0 < _ + 1 + _
      rw [hempty]
      exact Nat.lt_of_lt_of_le (Nat.succ_pos _) (Nat.le_add_right _ _)
  | _ => exact absurd rfl (hgoes _)

def framesCost (frames : List Frame) : Nat := (frames.map Frame.cost).sum

theorem sentFrames_of_eq {ws ws' : Ws} (h : ws'.handed = ws.handed) :
    framesCost (Tunnel.sentFrames ws ws') = 0 := by
  rw [Tunnel.sentFrames, h, List.drop_length]
  rfl

/-- Towards the WebSocket. -/
theorem Turned.hand_brisk {x : Framed} {y : Ws} {turn : Turn Framed Ws}
    (h : Turned Framed.endpoint Ws.endpoint x y loop io turn) (hio : io.brisk = true)
    (hgoes : ∀ result, turn.progress ≠ .returned result) :
    turn.stream.writeBuffer = x.writeBuffer ∧ turn.stream.received = x.received ∧
      turn.stream.toRead + turn.loop.toHand + framesCost (Tunnel.sentFrames y turn.sink) <
        x.toRead + loop.toHand := by
  cases h with
  | wait hnext =>
    rcases Framed.pollNext_brisk hio hnext with hpolled | ⟨-, -, hpolled⟩ <;> cases hpolled
  | pull hnext =>
    rcases Framed.pollNext_brisk hio hnext with hpolled | ⟨hne, rfl, hpolled⟩
    · cases hpolled
    · cases hpolled
      refine ⟨rfl, rfl, ?_⟩
      rw [sentFrames_of_eq rfl]
      show 0 + (x.readBuffer.length + 5) + 0 < x.toRead + 0
      rw [Framed.toRead, if_neg hne]
      omega
  | unready hstart =>
    obtain ⟨hpolled, -⟩ := Ws.startSend_brisk hio hstart
    cases hpolled
  | @start _ _ message hstart =>
    obtain ⟨-, rfl⟩ := Ws.startSend_brisk hio hstart
    refine ⟨rfl, rfl, ?_⟩
    rw [Tunnel.sentFrames, List.drop_left]
    cases message with
    | binary data =>
      show x.toRead + 1 + (data.length + 3 + 0) < x.toRead + (data.length + 5)
      omega
    | others =>
      show x.toRead + 1 + 0 < x.toRead + 2
      omega
  | flushing hflush => cases Ws.pollFlush_brisk hio hflush
  | sent hflush =>
    obtain rfl := Ws.pollFlush_eq hflush
    refine ⟨rfl, rfl, ?_⟩
    rw [sentFrames_of_eq rfl]
    show x.toRead + 0 + 0 < x.toRead + 1
    omega
  | _ => exact absurd rfl (hgoes _)

theorem Progress.returned_of_ne {progress : Progress}
    (h : ∀ branch result, progress.out direction ≠ .returned branch result)
    (result : Except Error Unit) : progress ≠ .returned result := by
  rintro rfl
  exact h _ _ rfl

end

/-- A relay that has not come to its end. -/
structure State.Open (s : State Half) : Prop where
  result : s.result = none
  clear : s.tcp.Clear (s.loops .clientToTarget)

theorem Framed.toRead_congr {tcp tcp' : Framed} (h : tcp'.readBuffer = tcp.readBuffer) :
    tcp'.toRead = tcp.toRead := by
  rw [toRead, toRead, h]

theorem Framed.Clear.congr {tcp tcp' : Framed} {loop : Loop} (h : tcp.Clear loop)
    (hwrite : tcp'.writeBuffer = tcp.writeBuffer) : tcp'.Clear loop :=
  fun hnot ↦ hwrite.trans (h hnot)

theorem Moved.brisk {s t : State Half} {direction : TrafficDirection} {io : Io} {o : Out}
    (hm : Moved endpoints s (.poll direction io) o t) (hio : io.brisk = true)
    (hgoes : ∀ branch result, o ≠ .returned branch result) (hopen : s.Open) :
    t.Open ∧ t.tcp.received = s.tcp.received ∧
      t.work + framesCost (Tunnel.sentFrames s.ws t.ws) <
        s.work + itemCost (Action.poll direction io).item := by
  cases hm with
  | @poll _ _ turn hresult hturn =>
    have hprogress := Progress.returned_of_ne hgoes
    have hresult' : (s.apply direction turn).result = none := by
      rw [State.apply]
      cases hturned : turn.progress with
      | returned result => exact absurd hturned (hprogress result)
      | _ => exact hresult
    cases direction with
    | clientToTarget =>
      obtain ⟨hhanded, hread, hreceived, hclear, hless⟩ :=
        Turned.write_brisk hturn hio hprogress hopen.clear
      refine ⟨⟨hresult', hclear⟩, hreceived, ?_⟩
      generalize hs' : s.apply .clientToTarget turn = s' at *
      have hsent : framesCost (Tunnel.sentFrames s.ws s'.ws) = 0 :=
        sentFrames_of_eq (hs' ▸ hhanded)
      have hread : s'.tcp.toRead = s.tcp.toRead := Framed.toRead_congr (hs' ▸ hread)
      have hother : s'.loops .targetToClient = s.loops .targetToClient := by rw [← hs']; rfl
      have hless : s'.tcp.writeBuffer.length + (s'.loops .clientToTarget).toWrite <
          s.tcp.writeBuffer.length + (s.loops .clientToTarget).toWrite + itemCost io.item := by
        rw [← hs']
        exact hless
      rw [hsent, State.work, State.work, hread, hother, Action.item]
      omega
    | targetToClient =>
      obtain ⟨hwrite, hreceived, hless⟩ := Turned.hand_brisk hturn hio hprogress
      refine ⟨⟨hresult', hopen.clear.congr hwrite⟩, hreceived, ?_⟩
      generalize hs' : s.apply .targetToClient turn = s' at *
      have hwrite : s'.tcp.writeBuffer = s.tcp.writeBuffer := hs' ▸ hwrite
      have hother : s'.loops .clientToTarget = s.loops .clientToTarget := by rw [← hs']; rfl
      have hless : s'.tcp.toRead + (s'.loops .targetToClient).toHand +
          framesCost (Tunnel.sentFrames s.ws s'.ws) <
            s.tcp.toRead + (s.loops .targetToClient).toHand := by
        rw [← hs']
        exact hless
      rw [State.work, State.work, hwrite, hother]
      omega

/-! ## A loop can get on -/

section

variable {loop : Loop}

/-- A loop that has a message to write. -/
theorem exists_write_turn (x : Ws) (y : Framed) (hloop : loop ≠ .next) :
    ∃ io turn, io.brisk = true ∧ io.item = none ∧
      forwardObserved Ws.endpoint Framed.endpoint x y loop io = some turn ∧
      ∀ result, turn.progress ≠ .returned result := by
  cases loop with
  | next => exact absurd rfl hloop
  | send message =>
    refine ⟨.done, ⟨x, { y with writeBuffer := y.writeBuffer ++ message.payload },
      .flush message, .silent⟩, rfl, rfl, ?_, fun _ heq ↦ by cases heq⟩
    show (y.startSend message .done).map _ = _
    rw [Framed.startSend, MessageCodec.encode_eq]
    rfl
  | flush message =>
    by_cases hempty : y.writeBuffer = []
    · refine ⟨.done, ⟨x, y, .next, .sent message⟩, rfl, rfl, ?_, fun _ heq ↦ by cases heq⟩
      show (y.pollFlush .done).map _ = _
      rw [Framed.pollFlush, if_pos (List.isEmpty_iff.mpr hempty)]
      rfl
    · have hlength : y.writeBuffer.length ≠ 0 := mt List.length_eq_zero_iff.mp hempty
      refine ⟨.wrote y.writeBuffer.length,
        ⟨x, { y with writeBuffer := [], written := y.written ++ y.writeBuffer }, .next,
          .sent message⟩, bne_iff_ne.mpr hlength, rfl, ?_, fun _ heq ↦ by cases heq⟩
      show (y.pollFlush (.wrote y.writeBuffer.length)).map _ = _
      rw [Framed.pollFlush, if_neg (mt List.isEmpty_iff.mp hempty), if_neg hlength,
        List.drop_length, List.take_length]
      rfl

/-- A loop that has a message to hand over, or something to make one of. -/
theorem exists_hand_turn (x : Framed) (y : Ws) (hloop : loop = .next → x.readBuffer ≠ []) :
    ∃ io turn, io.brisk = true ∧ io.item = none ∧
      forwardObserved Framed.endpoint Ws.endpoint x y loop io = some turn ∧
      ∀ result, turn.progress ≠ .returned result := by
  cases loop with
  | next =>
    have hne := hloop rfl
    have hpoll : x.pollNext .done = some ({ x with readBuffer := [] },
        .ready (some (.ok (.binary x.readBuffer)))) := by
      unfold Framed.pollNext
      rw [MessageCodec.decodeEof_of_ne_nil hne, MessageCodec.decode_of_ne_nil hne]
      exact ite_self _
    refine ⟨.done, ⟨{ x with readBuffer := [] }, y, .send (.binary x.readBuffer),
      .pulled (.binary x.readBuffer)⟩, rfl, rfl, ?_, fun _ heq ↦ by cases heq⟩
    exact congrArg (Option.map _) hpoll
  | send message =>
    cases message with
    | binary data =>
      exact ⟨.done, ⟨x, { y with handed := y.handed ++ [data] }, .flush (.binary data), .silent⟩,
        rfl, rfl, rfl, fun _ heq ↦ by cases heq⟩
    | others =>
      exact ⟨.done, ⟨x, y, .flush .others, .silent⟩, rfl, rfl, rfl, fun _ heq ↦ by cases heq⟩
  | flush message =>
    exact ⟨.done, ⟨x, y, .next, .sent message⟩, rfl, rfl, rfl, fun _ heq ↦ by cases heq⟩

end

/-! ## Both relays -/

namespace Tunnel

variable {s t : Tunnel} {a : Action} {o : Out} {tr : List (Event Tunnel Action Out)}
  {received : Party → Bytes}

/-- A relay takes a turn that gets on, and does not come to its end by it. -/
def Brisk (e : Event Tunnel Action Out) : Prop :=
  ∃ party direction io, e.act = .step party (.poll direction io) ∧ io.brisk = true ∧
    ∀ branch result, e.out ≠ .returned branch result

def workOf (s : Tunnel) (party : Party) : Nat :=
  (s.relay party).work + framesCost (s.inbox party)

/-- The turns that are left for what has come in. -/
def work (s : Tunnel) : Nat := s.workOf .client + s.workOf .gateway

theorem work_eq (s : Tunnel) (party : Party) :
    s.work = s.workOf party + s.workOf party.other := by
  cases party with
  | client => rfl
  | gateway => exact Nat.add_comm ..

/-- Both relays are under way, and have read so much. -/
structure Open (received : Party → Bytes) (s : Tunnel) : Prop where
  isOpen : ∀ party, (s.relay party).Open
  received : ∀ party, (s.relay party).tcp.received = received party
  faithful : s.Faithful

theorem take_cost {party : Party} {a : Relay.Action Io} {frames frames' : List Frame}
    (h : take party a frames = some frames') :
    framesCost frames = itemCost a.item + framesCost frames' := by
  unfold take at h
  split at h
  · rename_i hitem
    cases h
    rw [hitem]
    exact (Nat.zero_add _).symm
  · rename_i item frame frames hitem
    split at h <;> cases h
    rename_i hframe
    subst hframe
    rw [hitem, framesCost, List.map_cons, List.sum_cons, itemCost, Option.map_some,
      Party.payload_item]
    rfl
  · cases h

theorem framesCost_append (frames frames' : List Frame) :
    framesCost (frames ++ frames') = framesCost frames + framesCost frames' := by
  rw [framesCost, List.map_append, List.sum_append]
  rfl

theorem descends : Descends next (Open received) Brisk work := by
  rintro s a o t hopen ⟨party, direction, io, hact, hio, hgoes⟩ hnext
  have hfaithful := hopen.faithful.step hnext
  obtain rfl : a = .step party (.poll direction io) := hact
  simp only [next, Option.bind_eq_some_iff, Option.map_eq_some_iff, Prod.mk.injEq] at hnext
  obtain ⟨frames, htake, ⟨o', relay⟩, hrelay, rfl, rfl⟩ := hnext
  obtain ⟨hopen', hreceived, hless⟩ :=
    Moved.brisk (next_moved hrelay) hio hgoes (hopen.isOpen party)
  refine ⟨⟨fun party' ↦ ?_, fun party' ↦ ?_, hfaithful⟩, ?_⟩
  · rcases eq_or_other party party' with rfl | rfl
    · rw [apply_relay_self]
      exact hopen'
    · rw [apply_relay_other]
      exact hopen.isOpen party.other
  · rcases eq_or_other party party' with rfl | rfl
    · rw [apply_relay_self]
      exact hreceived.trans (hopen.received party')
    · rw [apply_relay_other]
      exact hopen.received party.other
  · have hcost := take_cost htake
    rw [work_eq _ party, work_eq s party, workOf, workOf, workOf, workOf, apply_relay_self,
      apply_relay_other, apply_inbox_self, apply_inbox_other, framesCost_append]
    dsimp only
    omega

/-! ## A tunnel that cannot get on -/

theorem exists_next {party : Party} {direction : TrafficDirection} {io : Io}
    {frames : List Frame} {turn : Turn (Half direction.stream) (Half direction.sink)}
    (hopen : (s.relay party).Open)
    (htake : take party (.poll direction io) (s.inbox party) = some frames)
    (hturn : forwardObserved (endpoints direction.stream) (endpoints direction.sink)
      ((s.relay party).ends direction.stream) ((s.relay party).ends direction.sink)
      ((s.relay party).loops direction) io = some turn) :
    ∃ t, next s (.step party (.poll direction io)) = some (turn.progress.out direction, t) := by
  have hresult : (s.relay party).result.isSome = false := by
    rw [hopen.result]
    rfl
  refine ⟨s.apply party ((s.relay party).apply direction turn) frames, ?_⟩
  rw [next, htake, Option.bind_some, Relay.next, hresult, if_neg Bool.false_ne_true, hturn]
  rfl

/-- A tunnel that cannot get on has nothing on its way. -/
structure Idle (s : Tunnel) (party : Party) : Prop where
  inbox : s.inbox party = []
  toWrite : (s.relay party).loops .clientToTarget = .next
  toHand : (s.relay party).loops .targetToClient = .next
  read : (s.relay party).tcp.readBuffer = []

theorem take_of_none {party : Party} {a : Relay.Action Io} {frames : List Frame}
    (h : a.item = none) : take party a frames = some frames := by
  unfold take
  rw [h]

theorem idle_of_stuck (hopen : ∀ party, (s.relay party).Open)
    (hstuck : ∀ a o u, next s a = some (o, u) → ¬ Brisk ⟨s, a, o⟩) (party : Party) :
    s.Idle party := by
  have hnever : ∀ (direction : TrafficDirection) (io : Io) (frames : List Frame)
      (turn : Turn (Half direction.stream) (Half direction.sink)), io.brisk = true →
      take party (.poll direction io) (s.inbox party) = some frames →
      forwardObserved (endpoints direction.stream) (endpoints direction.sink)
        ((s.relay party).ends direction.stream) ((s.relay party).ends direction.sink)
        ((s.relay party).loops direction) io = some turn →
      ¬ ∀ result, turn.progress ≠ .returned result := by
    intro direction io frames turn hio htake hturn hprogress
    obtain ⟨u, hnext⟩ := exists_next (hopen party) htake hturn
    refine hstuck _ _ u hnext ⟨party, direction, io, rfl, hio, fun branch result hout ↦ ?_⟩
    cases hturned : turn.progress with
    | returned result => exact hprogress result hturned
    | _ =>
      rw [hturned] at hout
      cases hout
  have hwrite : (s.relay party).loops .clientToTarget = .next := by
    by_contra hloop
    obtain ⟨io, turn, hio, hitem, hturn, hprogress⟩ :=
      exists_write_turn (s.relay party).ws (s.relay party).tcp hloop
    exact hnever .clientToTarget io _ turn hio (take_of_none hitem) hturn hprogress
  have hhand : ¬ ((s.relay party).loops .targetToClient = .next →
      (s.relay party).tcp.readBuffer ≠ []) := by
    intro hloop
    obtain ⟨io, turn, hio, hitem, hturn, hprogress⟩ :=
      exists_hand_turn (s.relay party).tcp (s.relay party).ws hloop
    exact hnever .targetToClient io _ turn hio (take_of_none rfl) hturn hprogress
  rw [Classical.not_imp, not_not] at hhand
  refine ⟨?_, hwrite, hhand.1, hhand.2⟩
  cases hinbox : s.inbox party with
  | nil => rfl
  | cons frame frames =>
    have htake : take party (.poll .clientToTarget (.message (party.item frame)))
        (s.inbox party) = some frames := by
      rw [hinbox]
      exact if_pos rfl
    have hturn : forwardObserved Ws.endpoint Framed.endpoint (s.relay party).ws
        (s.relay party).tcp ((s.relay party).loops .clientToTarget)
        (.message (party.item frame)) = some
          ⟨{ (s.relay party).ws with
              received := (s.relay party).ws.received ++ [party.item frame] },
            (s.relay party).tcp, .send (party.item frame).toMessage,
            .pulled (party.item frame).toMessage⟩ := by
      rw [hwrite]
      rfl
    exact absurd nofun (hnever .clientToTarget _ frames _ rfl htake hturn)

/-- Nothing on its way means that all has arrived. -/
theorem Open.written (hopen : s.Open received) (hidle : ∀ party, s.Idle party) (party : Party) :
    (s.relay party).tcp.written = received party.other := by
  have hwrite : (s.relay party).ws.received.flatMap WsItem.payload =
      (s.relay party).tcp.written ++ (s.relay party).tcp.writeBuffer ++
        ((s.relay party).loops .clientToTarget).waiting ++ [] :=
    hopen.faithful.conserves party .clientToTarget
  have hhand : (s.relay party.other).tcp.received =
      (s.relay party.other).ws.handed.flatten ++ [] ++
        ((s.relay party.other).loops .targetToClient).waiting ++
          (s.relay party.other).tcp.readBuffer :=
    hopen.faithful.conserves party.other .targetToClient
  have hdelivers := hopen.faithful.delivers party
  have hclear : (s.relay party).tcp.writeBuffer = [] := by
    refine (hopen.isOpen party).clear fun message hflush ↦ ?_
    rw [(hidle party).toWrite] at hflush
    cases hflush
  rw [Delivers, (hidle party).inbox] at hdelivers
  rw [(hidle party).toWrite, hclear] at hwrite
  rw [(hidle party.other).toHand, (hidle party.other).read, hopen.received, hdelivers, hwrite]
    at hhand
  simpa [Loop.waiting] using hhand.symm

/-- The steps of one of the relays. -/
def stepsOf (party : Party) (e : Event Tunnel Action Out) :
    List (Event (State Half) (Relay.Action Io) Out) :=
  match e.act with
  | .step party' a => if party' = party then [⟨e.pre.relay party, a, e.out⟩] else []
  | .control _ _ => []

theorem relay_run (h : Run next start tr s) (party : Party) :
    Run (Relay.next endpoints) proxyObserved (tr.flatMap (stepsOf party)) (s.relay party) := by
  refine h.project (fun s ↦ s.relay party) (stepsOf party) ?_
  intro v a o w hnext
  cases a with
  | step party' a =>
    simp only [next, Option.bind_eq_some_iff, Option.map_eq_some_iff, Prod.mk.injEq] at hnext
    obtain ⟨frames, -, ⟨o', relay⟩, hrelay, rfl, rfl⟩ := hnext
    show Run _ _ (if party' = party then _ else _) _
    by_cases hparty : party' = party
    · rw [if_pos hparty, ← hparty, apply_relay_self]
      exact .single hrelay
    · obtain rfl : party = party'.other := (eq_or_other party' party).resolve_left (Ne.symm hparty)
      rw [if_neg hparty, apply_relay_other]
      exact .nil
  | control party' frame =>
    simp only [next, Option.ite_none_right_eq_some, Option.some.injEq, Prod.mk.injEq] at hnext
    obtain ⟨-, -, rfl⟩ := hnext
    exact .nil

-- What a loop has sent is out when it is not flushing.
theorem clear (h : Run next start tr s) (party : Party) :
    (s.relay party).tcp.Clear ((s.relay party).loops .clientToTarget) := by
  intro hnot
  have hflushed := flushed carries flushes (fun side ↦ by cases side <;> exact ⟨rfl, rfl⟩)
    (relay_run h party) .clientToTarget
  cases hloop : (s.relay party).loops .clientToTarget with
  | flush message => exact absurd hloop (hnot message)
  | _ =>
    rw [hloop] at hflushed
    exact hflushed.2

/-- While neither relay has come to its end: turns that get on, in any order, are at most as many
as the work there is, and when none is possible all that was read on each side has been written on
the other.  So it is always possible to get everything through. -/
theorem bytes_arrive (h : Run next start tr s)
    (hopen : ∀ party, (s.relay party).result = none) :
    (∀ tr' t, Run next s tr' t → (∀ e ∈ tr', Brisk e) → tr'.length ≤ s.work ∧
      ((∀ a o u, next t a = some (o, u) → ¬ Brisk ⟨t, a, o⟩) → ∀ party,
        (t.relay party).tcp.written = (s.relay party.other).tcp.received)) ∧
    ∃ tr' t, Run next s tr' t ∧ (∀ e ∈ tr', Brisk e) ∧ ∀ party,
      (t.relay party).tcp.written = (s.relay party.other).tcp.received := by
  have hopen : Open (fun party ↦ (s.relay party).tcp.received) s :=
    ⟨fun party ↦ ⟨hopen party, clear h party⟩, fun _ ↦ rfl, faithful h⟩
  constructor
  · intro tr' t hrun hbrisk
    obtain ⟨hopen', hle⟩ := descends.run hrun hopen hbrisk
    refine ⟨by omega, fun hstuck ↦ hopen'.written ?_⟩
    exact idle_of_stuck hopen'.isOpen hstuck
  · obtain ⟨tr', t, hrun, hbrisk, hopen', hstuck⟩ := descends.exists_last hopen
    exact ⟨tr', t, hrun, hbrisk, hopen'.written (idle_of_stuck hopen'.isOpen hstuck)⟩

-- The client has read three bytes, and nothing has crossed the network yet.
theorem bytes_arrive_sample : ∃ tr s tr' t, Run next start tr s ∧
    (s.relay .client).ws.handed = [] ∧ Run next s tr' t ∧ tr'.length ≤ s.work ∧
    (t.relay .gateway).tcp.written = [1, 2, 3] := by
  obtain ⟨tr, s, hrun, hp⟩ := exists_run next start
    [.control .gateway (.ping []), .step .client (.poll .targetToClient (.read [1, 2, 3]))]
    (fun _ s ↦ (s.relay .client).tcp.received = [1, 2, 3] ∧ (s.relay .client).ws.handed = [] ∧
      (s.relay .client).result.isNone ∧ (s.relay .gateway).result.isNone) (by decide +kernel)
  simp only [decide_eq_true_eq, Option.isNone_iff_eq_none] at hp
  obtain ⟨hreceived, hhanded, hclient, hgateway⟩ := hp
  have hopen : ∀ party, (s.relay party).result = none := fun party ↦ by
    cases party with
    | client => exact hclient
    | gateway => exact hgateway
  obtain ⟨hall, tr', t, hrun', hbrisk, hwritten⟩ := bytes_arrive hrun hopen
  exact ⟨tr, s, tr', t, hrun, hhanded, hrun', (hall tr' t hrun' hbrisk).1,
    (hwritten .gateway).trans hreceived⟩

end Tunnel

end LabStreamGate.Relay
