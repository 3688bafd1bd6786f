import LabStreamGate.Relay.Proxy

/-!
# The streams of a tunnel

A WebSocket on one side and a framed TCP stream on the other.  What each of them has taken in and
given out so far is part of its state.  The WebSocket sends what it is handed in order, and the
framed stream decodes what it has read until nothing is left to decode.
-/

namespace LabStreamGate.Relay

/-- What the outside world answers to a call. -/
inductive Io
  | pending
  | done
  | message (item : WsItem)
  | ended
  | read (data : Bytes)
  | wrote (count : Nat)
  | failed (error : Error)
  deriving DecidableEq, Repr

/-- The message that the answer brings. -/
def Io.item : Io → Option WsItem
  | .message item => some item
  | _ => none

/-! ## `WrappedWsStream` -/

structure Ws where
  received : List WsItem
  /-- The binary messages handed to the library to be sent. -/
  handed : List Bytes
  deriving DecidableEq, Repr

namespace Ws

def pollNext (ws : Ws) : Io → Option (Ws × Poll (Option (Except Error Message)))
  | .pending => some (ws, .pending)
  | .message item =>
    some ({ ws with received := ws.received ++ [item] }, .ready (some (.ok item.toMessage)))
  | .ended => some (ws, .ready none)
  | .failed error => some (ws, .ready (some (.error error)))
  | _ => none

/-- Other messages are dropped. -/
def startSend (ws : Ws) (item : Message) : Io → Option (Ws × Poll (Except Error Unit))
  | .pending => some (ws, .pending)
  | .done =>
    match item with
    | .binary data => some ({ ws with handed := ws.handed ++ [data] }, .ready (.ok ()))
    | .others => some (ws, .ready (.ok ()))
  | .failed error => some (ws, .ready (.error error))
  | _ => none

def pollFlush (ws : Ws) : Io → Option (Ws × Poll (Except Error Unit))
  | .pending => some (ws, .pending)
  | .done => some (ws, .ready (.ok ()))
  | .failed error => some (ws, .ready (.error error))
  | _ => none

def endpoint : Endpoint Ws Io where
  pollNext := pollNext
  startSend := startSend
  pollFlush := pollFlush

/-- The WebSocket after its upgrade. -/
def upgraded : Ws := ⟨[], []⟩

/-! What each call does, whatever the answer is. -/

section

variable {ws ws' : Ws} {item : Message} {io : Io}

theorem pollNext_eq {polled : Poll (Option (Except Error Message))}
    (h : ws.pollNext io = some (ws', polled)) :
    ws' = { ws with received := ws.received ++ io.item.toList } ∧
      polled.payload = io.item.toList.flatMap WsItem.payload := by
  cases io <;> cases h
  case message item =>
    refine ⟨rfl, ?_⟩
    show item.toMessage.payload = [item].flatMap WsItem.payload
    rw [WsItem.payload_toMessage, List.flatMap_singleton]
  all_goals exact ⟨by simp [Io.item], rfl⟩

theorem startSend_eq {polled : Poll (Except Error Unit)}
    (h : ws.startSend item io = some (ws', polled)) :
    ∃ sent, ws' = { ws with handed := ws.handed ++ sent } ∧
      sent.flatten = if polled = .ready (.ok ()) then item.payload else [] := by
  cases io <;> simp only [startSend, reduceCtorEq] at h
  case done =>
    cases item with
    | binary data =>
      cases h
      exact ⟨[data], rfl, List.flatten_singleton⟩
    | others =>
      cases h
      exact ⟨[], by rw [List.append_nil], rfl⟩
  all_goals
    cases h
    exact ⟨[], by rw [List.append_nil], rfl⟩

theorem pollFlush_eq {polled : Poll (Except Error Unit)}
    (h : ws.pollFlush io = some (ws', polled)) : ws' = ws := by
  cases io <;> cases h <;> rfl

end

end Ws

/-! ## `Framed` with a `MessageCodec` -/

structure Framed where
  /-- All the bytes read from the socket. -/
  received : Bytes
  readBuffer : Bytes
  eof : Bool
  writeBuffer : Bytes
  /-- All the bytes written to the socket. -/
  written : Bytes
  deriving DecidableEq, Repr

namespace Framed

/-- Reading no bytes is the end of the stream. -/
def pollNext (tcp : Framed) (io : Io) :
    Option (Framed × Poll (Option (Except Error Message))) :=
  if tcp.eof then
    match MessageCodec.decodeEof tcp.readBuffer with
    | .error error => some (tcp, .ready (some (.error error)))
    | .ok (some message, rest) =>
      some ({ tcp with readBuffer := rest }, .ready (some (.ok message)))
    | .ok (none, rest) => some ({ tcp with readBuffer := rest }, .ready none)
  else
    match MessageCodec.decode tcp.readBuffer with
    | .error error => some (tcp, .ready (some (.error error)))
    | .ok (some message, rest) =>
      some ({ tcp with readBuffer := rest }, .ready (some (.ok message)))
    | .ok (none, rest) =>
      -- nothing is left to decode, so the socket is read
      match io with
      | .pending => some ({ tcp with readBuffer := rest }, .pending)
      | .read data =>
        some
          ({ tcp with
              received := tcp.received ++ data
              readBuffer := rest ++ data
              eof := data.isEmpty }, .pending)
      | .failed error => some (tcp, .ready (some (.error error)))
      | _ => none

def startSend (tcp : Framed) (item : Message) : Io → Option (Framed × Poll (Except Error Unit))
  | .pending => some (tcp, .pending)
  | .done =>
    match MessageCodec.encode item tcp.writeBuffer with
    | .error error => some (tcp, .ready (.error error))
    | .ok buf => some ({ tcp with writeBuffer := buf }, .ready (.ok ()))
  | .failed error => some (tcp, .ready (.error error))
  | _ => none

/-- Writes from the front of the buffer, and is done when that is empty; a socket that takes no
bytes is an error. -/
def pollFlush (tcp : Framed) : Io → Option (Framed × Poll (Except Error Unit))
  | .pending => some (tcp, .pending)
  | .done => if tcp.writeBuffer.isEmpty then some (tcp, .ready (.ok ())) else none
  | .wrote count =>
    if tcp.writeBuffer.isEmpty then none
    else if count = 0 then
      some (tcp, .ready (.error (.io "failed to write frame to transport")))
    else
      let rest := tcp.writeBuffer.drop count
      some
        ({ tcp with writeBuffer := rest, written := tcp.written ++ tcp.writeBuffer.take count },
          if rest.isEmpty then .ready (.ok ()) else .pending)
  | .failed error => some (tcp, .ready (.error error))
  | _ => none

def endpoint : Endpoint Framed Io where
  pollNext := pollNext
  startSend := startSend
  pollFlush := pollFlush

/-! What each call does, whatever the answer is. -/

section

variable {tcp tcp' : Framed} {item : Message} {io : Io}

/-- A poll of the framed stream: all of its buffer is a message, or it is read, or at its end. -/
inductive Polled (tcp : Framed) : Framed → Poll (Option (Except Error Message)) → Prop
  | decoded : tcp.readBuffer ≠ [] →
      tcp.Polled { tcp with readBuffer := [] } (.ready (some (.ok (.binary tcp.readBuffer))))
  | ended : tcp.readBuffer = [] → tcp.eof = true → tcp.Polled tcp (.ready none)
  | wait : tcp.readBuffer = [] → tcp.eof = false → tcp.Polled tcp .pending
  | read {data : Bytes} : tcp.readBuffer = [] → tcp.eof = false →
      tcp.Polled
        { tcp with received := tcp.received ++ data, readBuffer := data, eof := data.isEmpty }
        .pending
  | failed {error : Error} : tcp.readBuffer = [] → tcp.eof = false →
      tcp.Polled tcp (.ready (some (.error error)))

theorem pollNext_polled {polled : Poll (Option (Except Error Message))}
    (h : tcp.pollNext io = some (tcp', polled)) : tcp.Polled tcp' polled := by
  unfold pollNext at h
  by_cases hempty : tcp.readBuffer = []
  · have hsame : { tcp with readBuffer := [] } = tcp := by rw [← hempty]
    rw [hempty, MessageCodec.decodeEof_nil, MessageCodec.decode_nil] at h
    dsimp only at h
    rw [hsame] at h
    split at h
    · cases h
      exact .ended hempty ‹_›
    · rename_i heof
      rw [Bool.not_eq_true] at heof
      cases io <;> cases h
      · exact .wait hempty heof
      · exact .read hempty heof
      · exact .failed hempty heof
  · rw [MessageCodec.decodeEof_of_ne_nil hempty, MessageCodec.decode_of_ne_nil hempty] at h
    dsimp only at h
    split at h <;> cases h <;> exact .decoded hempty

theorem startSend_eq {polled : Poll (Except Error Unit)}
    (h : tcp.startSend item io = some (tcp', polled)) :
    io.item = none ∧ tcp' = { tcp with
      writeBuffer :=
        tcp.writeBuffer ++ if polled = .ready (.ok ()) then item.payload else [] } := by
  cases io <;> simp only [startSend, MessageCodec.encode_eq, reduceCtorEq] at h <;> cases h <;>
    simp [Io.item]

-- The bytes go out from the front of the buffer, and a flush that is done has left none.
theorem pollFlush_eq {polled : Poll (Except Error Unit)}
    (h : tcp.pollFlush io = some (tcp', polled)) :
    io.item = none ∧ (∃ count, tcp' = { tcp with
      writeBuffer := tcp.writeBuffer.drop count
      written := tcp.written ++ tcp.writeBuffer.take count }) ∧
      (polled = .ready (.ok ()) → tcp'.writeBuffer = []) := by
  cases io <;> simp only [pollFlush, reduceCtorEq] at h
  case done =>
    split at h <;> cases h
    exact ⟨rfl, ⟨0, by simp⟩, fun _ ↦ List.isEmpty_iff.mp ‹_›⟩
  case wrote count =>
    split at h
    · cases h
    · split at h <;> cases h
      · exact ⟨rfl, ⟨0, by simp⟩, by simp⟩
      · refine ⟨rfl, ⟨count, rfl⟩, fun hready ↦ ?_⟩
        split at hready
        · exact List.isEmpty_iff.mp ‹_›
        · cases hready
  all_goals
    cases h
    exact ⟨rfl, ⟨0, by simp⟩, by simp⟩

end

/-- `Framed::new`. -/
def new : Framed where
  received := []
  readBuffer := []
  eof := false
  writeBuffer := []
  written := []

end Framed

/-! ## `proxy_observed` -/

abbrev Half : Side → Type
  | .s1 => Ws
  | .s2 => Framed

def endpoints : (side : Side) → Endpoint (Half side) Io
  | .s1 => Ws.endpoint
  | .s2 => Framed.endpoint

/-- The WebSocket and the TCP connection of a tunnel. -/
def halves (ws : Ws) (tcp : Framed) : (side : Side) → Half side
  | .s1 => ws
  | .s2 => tcp

/-- The start of `proxy_observed`. -/
def proxyObserved : State Half := proxyStreamObserved (halves .upgraded .new)

def State.ws (s : State Half) : Ws := s.ends .s1

def State.tcp (s : State Half) : Framed := s.ends .s2

end LabStreamGate.Relay
