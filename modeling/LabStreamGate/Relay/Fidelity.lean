import LabStreamGate.Relay.Accounts

/-!
# Relay fidelity

Whatever the messages, the reads and the order of turns are, each direction gives out a prefix of
what it has taken in.
-/

namespace LabStreamGate.Relay

open Function

/-! ## One turn -/

section

variable {σ τ ι : Type} {stream : Endpoint σ ι} {sink : Endpoint τ ι} {x : σ} {y : τ} {loop : Loop}
  {io : ι} {turn : Turn σ τ} {ax : Account σ} {ay : Account τ}

/-- The bytes of a message that has not been handed to the sink. -/
def Loop.waiting : Loop → Bytes
  | .send message => message.payload
  | _ => []

theorem Turned.conserves (h : Turned stream sink x y loop io turn) (hx : Carries stream ax)
    (hy : Carries sink ay)
    (hbefore : ax.received x = ay.sent y ++ ay.unsent y ++ loop.waiting ++ ax.unread x) :
    ax.received turn.stream = ay.sent turn.sink ++ ay.unsent turn.sink ++ turn.loop.waiting ++
      ax.unread turn.stream := by
  have hpoll : ∀ {x' : σ} {polled}, loop.waiting = [] → stream.pollNext x io = some (x', polled) →
      ax.received x' = ay.sent y ++ ay.unsent y ++ polled.payload ++ ax.unread x' := by
    intro x' polled hwaiting hnext
    obtain ⟨⟨new, hreceived, hunread⟩, -, -⟩ := hx.pollNext hnext
    calc ax.received x'
        = ay.sent y ++ ay.unsent y ++ (ax.unread x ++ new) := by
          rw [hreceived, hbefore, hwaiting, List.append_nil, List.append_assoc]
      _ = ay.sent y ++ ay.unsent y ++ polled.payload ++ ax.unread x' := by
          rw [hunread, ← List.append_assoc]
  cases h with
  | wait hnext => exact hpoll rfl hnext
  | ended hnext => exact hpoll rfl hnext
  | pull hnext => exact hpoll rfl hnext
  | broken hnext => exact hpoll rfl hnext
  | unready hstart =>
    have hsent := (hy.startSend hstart).1
    rw [if_neg (by simp), List.append_nil] at hsent
    rw [hbefore, ← hsent]
  | start hstart =>
    have hsent := (hy.startSend hstart).1
    rw [if_pos rfl] at hsent
    rw [hbefore, hsent]
    simp [Loop.waiting]
  | refused hstart =>
    have hsent := (hy.startSend hstart).1
    rw [if_neg (by simp), List.append_nil] at hsent
    rw [hbefore, ← hsent]
  | flushing hflush => rw [hbefore, ← (hy.pollFlush hflush).1]
  | sent hflush =>
    rw [hbefore, ← (hy.pollFlush hflush).1]
    rfl
  | lost hflush => rw [hbefore, ← (hy.pollFlush hflush).1]

/-- The bytes of the message that a turn has pulled. -/
def Progress.payload : Progress → Bytes
  | .pulled message => message.payload
  | _ => []

-- What a turn pulls comes from the front of what its stream has received.
theorem Turned.yields (h : Turned stream sink x y loop io turn) (hx : Carries stream ax) :
    ∃ new, ax.received turn.stream = ax.received x ++ new ∧
      ax.unread x ++ new = turn.progress.payload ++ ax.unread turn.stream := by
  cases h with
  | wait hnext => exact (hx.pollNext hnext).1
  | ended hnext => exact (hx.pollNext hnext).1
  | pull hnext => exact (hx.pollNext hnext).1
  | broken hnext => exact (hx.pollNext hnext).1
  | _ => exact ⟨[], by simp [Progress.payload]⟩

-- A loop reads from its stream and does nothing else to it.
theorem Turned.keeps_sent (h : Turned stream sink x y loop io turn) (hx : Carries stream ax) :
    ax.sent turn.stream = ax.sent x ∧ ax.unsent turn.stream = ax.unsent x := by
  cases h with
  | wait hnext => exact (hx.pollNext hnext).2
  | ended hnext => exact (hx.pollNext hnext).2
  | pull hnext => exact (hx.pollNext hnext).2
  | broken hnext => exact (hx.pollNext hnext).2
  | _ => exact ⟨rfl, rfl⟩

-- It sends to its sink and does nothing else to that.
theorem Turned.keeps_received (h : Turned stream sink x y loop io turn) (hy : Carries sink ay) :
    ay.received turn.sink = ay.received y ∧ ay.unread turn.sink = ay.unread y := by
  cases h with
  | unready hstart => exact (hy.startSend hstart).2
  | start hstart => exact (hy.startSend hstart).2
  | refused hstart => exact (hy.startSend hstart).2
  | flushing hflush => exact (hy.pollFlush hflush).2
  | sent hflush => exact (hy.pollFlush hflush).2
  | lost hflush => exact (hy.pollFlush hflush).2
  | _ => exact ⟨rfl, rfl⟩

end

/-! ## Every run -/

section

variable {σ : Side → Type} {ι : Type} {endpoints : (side : Side) → Endpoint (σ side) ι}
  {accounts : (side : Side) → Account (σ side)} {s t : State σ} {a : Action ι} {o : Out}
  {direction : TrafficDirection}

def State.received (accounts : (side : Side) → Account (σ side)) (s : State σ) (side : Side) :
    Bytes := (accounts side).received (s.ends side)

def State.unread (accounts : (side : Side) → Account (σ side)) (s : State σ) (side : Side) :
    Bytes := (accounts side).unread (s.ends side)

def State.sent (accounts : (side : Side) → Account (σ side)) (s : State σ) (side : Side) : Bytes :=
  (accounts side).sent (s.ends side)

def State.unsent (accounts : (side : Side) → Account (σ side)) (s : State σ) (side : Side) :
    Bytes := (accounts side).unsent (s.ends side)

/-- In the direction, what came in is what went out and then what is on the way. -/
def State.Conserves (accounts : (side : Side) → Account (σ side)) (s : State σ)
    (direction : TrafficDirection) : Prop :=
  s.received accounts direction.stream =
    s.sent accounts direction.sink ++ s.unsent accounts direction.sink ++
      (s.loops direction).waiting ++ s.unread accounts direction.stream

theorem State.Conserves.isPrefix (h : s.Conserves accounts direction) :
    s.sent accounts direction.sink <+: s.received accounts direction.stream := by
  rw [Conserves, List.append_assoc, List.append_assoc] at h
  exact ⟨_, h.symm⟩

section

variable {io : ι} {turn : Turn (σ direction.stream) (σ direction.sink)}

-- A turn of one direction leaves to the other one what it sends and what it reads.
theorem State.apply_sent_other (hcarries : ∀ side, Carries (endpoints side) (accounts side))
    (h : Turned (endpoints direction.stream) (endpoints direction.sink) (s.ends direction.stream)
      (s.ends direction.sink) (s.loops direction) io turn) :
    (s.apply direction turn).sent accounts direction.other.sink =
        s.sent accounts direction.other.sink ∧
      (s.apply direction turn).unsent accounts direction.other.sink =
        s.unsent accounts direction.other.sink := by
  unfold sent unsent
  rw [direction.sink_other, apply_stream]
  exact h.keeps_sent (hcarries _)

theorem State.apply_received_other (hcarries : ∀ side, Carries (endpoints side) (accounts side))
    (h : Turned (endpoints direction.stream) (endpoints direction.sink) (s.ends direction.stream)
      (s.ends direction.sink) (s.loops direction) io turn) :
    (s.apply direction turn).received accounts direction.other.stream =
        s.received accounts direction.other.stream ∧
      (s.apply direction turn).unread accounts direction.other.stream =
        s.unread accounts direction.other.stream := by
  unfold received unread
  rw [direction.stream_other, apply_sink]
  exact h.keeps_received (hcarries _)

end

-- Either the direction takes the turn, or it sees its own ends as they were.
theorem State.Conserves.step (hcarries : ∀ side, Carries (endpoints side) (accounts side))
    (h : ∀ direction, s.Conserves accounts direction) (hm : Moved endpoints s a o t)
    (direction : TrafficDirection) : t.Conserves accounts direction := by
  cases hm with
  | @poll direction' io turn _ hturn =>
    by_cases hsame : direction = direction'
    · subst hsame
      unfold Conserves received sent unsent unread
      rw [apply_stream, apply_sink, apply_loops_self]
      exact hturn.conserves (hcarries _) (hcarries _) (h direction)
    · obtain ⟨hsent, hunsent⟩ := State.apply_sent_other hcarries hturn
      obtain ⟨hreceived, hunread⟩ := State.apply_received_other hcarries hturn
      have hbefore := h direction
      rw [TrafficDirection.eq_other hsame] at hbefore ⊢
      rw [Conserves, hsent, hunsent, hreceived, hunread, apply_loops_other]
      exact hbefore
  | cancelled _ => exact h direction

theorem conserves {ends : (side : Side) → σ side} {tr : List (Event (State σ) (Action ι) Out)}
    (hcarries : ∀ side, Carries (endpoints side) (accounts side))
    (hstart : ∀ direction, (proxyStreamObserved ends).Conserves accounts direction)
    (h : Run (next endpoints) (proxyStreamObserved ends) tr t) (direction : TrafficDirection) :
    t.Conserves accounts direction := by
  have hall : ∀ direction, t.Conserves accounts direction := by
    refine h.invariant (I := fun t ↦ ∀ direction, t.Conserves accounts direction)
      (C := fun _ ↦ True) hstart ?_ fun _ _ ↦ trivial
    intro v a o w hv _ hnext
    exact State.Conserves.step hcarries hv (next_moved hnext)
  exact hall direction

theorem flatten_pulledBinary {progress : Progress} :
    ((progress.out direction).pulledBinary direction).toList.flatten = progress.payload := by
  cases progress with
  | pulled message => simp [Progress.out, Out.pulledBinary, Progress.payload]
  | _ => rfl

/-- The loop has pulled what its stream has received, but for what the stream still has to
yield. -/
theorem pulled_is_received {ends : (side : Side) → σ side}
    {tr : List (Event (State σ) (Action ι) Out)}
    (hcarries : ∀ side, Carries (endpoints side) (accounts side))
    (hstart : ∀ side, (proxyStreamObserved ends).received accounts side =
      (proxyStreamObserved ends).unread accounts side)
    (h : Run (next endpoints) (proxyStreamObserved ends) tr t) (direction : TrafficDirection) :
    t.received accounts direction.stream =
      (pulledBinary tr direction).flatten ++ t.unread accounts direction.stream := by
  refine h.history (C := fun _ ↦ True)
    (P := fun tr t ↦ t.received accounts direction.stream =
      (pulledBinary tr direction).flatten ++ t.unread accounts direction.stream) (hstart _) ?_
    fun _ _ ↦ trivial
  intro l v a o w hv _ hnext
  rw [pulledBinary_snoc, List.flatten_append]
  cases next_moved hnext with
  | @poll direction' io turn _ hturn =>
    by_cases hsame : direction = direction'
    · subst hsame
      obtain ⟨new, hreceived, hunread⟩ := hturn.yields (hcarries _)
      rw [State.received, State.unread, State.apply_stream, hreceived, flatten_pulledBinary,
        List.append_assoc, ← hunread, ← List.append_assoc]
      exact congrArg (· ++ new) hv
    · obtain ⟨hreceived, hunread⟩ := State.apply_received_other hcarries hturn
      have hpulled := (@Progress.out_other direction turn.progress direction' hsame).1
      rw [hpulled, Option.toList_none, List.flatten_nil, List.append_nil]
      rw [TrafficDirection.eq_other hsame] at hv ⊢
      rw [hreceived, hunread]
      exact hv
  | cancelled _ =>
    have hnone : Out.pulledBinary direction (.returned none (.ok ())) = none := rfl
    rw [hnone, Option.toList_none, List.flatten_nil, List.append_nil]
    exact hv

end

/-! ## The end of the TCP stream -/

/-- At its end the stream has nothing left to decode. -/
def Framed.Ended (tcp : Framed) : Prop := tcp.eof = true → tcp.readBuffer = []

theorem Framed.keeps_ended : Framed.endpoint.Keeps Framed.Ended where
  pollNext := by
    intro tcp tcp' io polled hpoll h
    cases pollNext_polled hpoll with
    | decoded _ => exact fun _ ↦ rfl
    | ended _ _ => exact h
    | wait _ _ => exact h
    | read _ _ => exact fun heof ↦ List.isEmpty_iff.mp heof
    | failed _ _ => exact h
  startSend := by
    intro tcp tcp' item io polled hstart h
    obtain ⟨-, rfl⟩ := startSend_eq hstart
    exact h
  pollFlush := by
    intro tcp tcp' io polled hflush h
    obtain ⟨-, ⟨count, rfl⟩, -⟩ := pollFlush_eq hflush
    exact h

-- Polled at its end, the stream ends, and with no error.
theorem Framed.Ended.pollNext {tcp : Framed} (h : tcp.Ended) (heof : tcp.eof = true) (io : Io) :
    tcp.pollNext io = some (tcp, .ready none) := by
  have hempty := h heof
  have hsame : { tcp with readBuffer := [] } = tcp := by rw [← hempty]
  rw [Framed.pollNext, if_pos heof, hempty, MessageCodec.decodeEof_nil]
  dsimp only
  rw [hsame]

/-! ## A WebSocket and a TCP stream -/

theorem proxyObserved_conserves (direction : TrafficDirection) :
    proxyObserved.Conserves accounts direction := by
  cases direction <;> rfl

theorem State.Conserves.tcp_written {t : State Half}
    (h : t.Conserves accounts .clientToTarget) :
    t.tcp.written <+: t.ws.received.flatMap WsItem.payload := h.isPrefix

theorem State.Conserves.ws_handed {t : State Half} (h : t.Conserves accounts .targetToClient) :
    t.ws.handed.flatten <+: t.tcp.received := h.isPrefix

end LabStreamGate.Relay
