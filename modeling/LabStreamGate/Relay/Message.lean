import LabStreamGate.Library.Json

/-!
# Messages

What the two WebSocket libraries hand over, what becomes of it, and the codec that turns the bytes
of a TCP stream into messages and back.
-/

namespace LabStreamGate.Relay

inductive Error
  | io (text : String)
  | webSocket (text : String)
  | axum (text : String)
  deriving DecidableEq, Repr

/-- What an error says when it is printed. -/
def Error.display : Error → String
  | .io text => "IO error: " ++ text
  | .webSocket text => "WebSocket error: " ++ text
  | .axum text => "Axum error: " ++ text

/-- Only a binary message is tunneled. -/
inductive Message
  | binary (data : Bytes)
  | others
  deriving DecidableEq, Repr

inductive TrafficDirection
  | clientToTarget
  | targetToClient
  deriving DecidableEq, Repr

abbrev CloseFrame := UInt16 × String

inductive TgMessage
  | text (data : String)
  | binary (data : Bytes)
  | ping (data : Bytes)
  | pong (data : Bytes)
  | close (frame : Option CloseFrame)
  | frame (data : Bytes)
  deriving DecidableEq, Repr

inductive AxMessage
  | text (data : String)
  | binary (data : Bytes)
  | ping (data : Bytes)
  | pong (data : Bytes)
  | close (frame : Option CloseFrame)
  deriving DecidableEq, Repr

def TgMessage.toMessage : TgMessage → Message
  | .binary data => .binary data
  | .text data => .binary (utf8 data)
  | _ => .others

def AxMessage.toMessage : AxMessage → Message
  | .binary data => .binary data
  | .text data => .binary (utf8 data)
  | _ => .others

/-- An item of a `WsStream`, which is of the one library or of the other. -/
inductive WsItem
  | tungstenite (message : TgMessage)
  | axumWebsocket (message : AxMessage)
  deriving DecidableEq, Repr

def WsItem.toMessage : WsItem → Message
  | .tungstenite message => message.toMessage
  | .axumWebsocket message => message.toMessage

def Message.data? : Message → Option Bytes
  | .binary data => some data
  | .others => none

def Message.payload : Message → Bytes
  | .binary data => data
  | .others => []

@[simp] theorem Message.flatten_data? (message : Message) :
    message.data?.toList.flatten = message.payload := by
  cases message with
  | binary data => exact List.flatten_singleton
  | others => rfl

/-- The bytes that a client sends with an item: control messages have none. -/
def WsItem.payload : WsItem → Bytes
  | .tungstenite (.text data) => utf8 data
  | .tungstenite (.binary data) => data
  | .axumWebsocket (.text data) => utf8 data
  | .axumWebsocket (.binary data) => data
  | _ => []

@[simp] theorem WsItem.payload_toMessage (item : WsItem) : item.toMessage.payload = item.payload := by
  cases item with
  | tungstenite message => cases message <;> rfl
  | axumWebsocket message => cases message <;> rfl

/-! ## The codec -/

namespace MessageCodec

/-- The message and what is left of the buffer. -/
def decode (buf : Bytes) : Except Error (Option Message × Bytes) :=
  if buf.isEmpty then .ok (none, buf)
  else
    let len := buf.length
    .ok (some (.binary (buf.take len)), buf.drop len)

def encode (data : Message) (buf : Bytes) : Except Error Bytes :=
  match data with
  | .binary data => .ok (buf ++ data)
  | .others => .ok buf

/-- `Decoder::decode_eof`, which the codec does not override: bytes that cannot be decoded at the
end of the stream are an error. -/
def decodeEof (buf : Bytes) : Except Error (Option Message × Bytes) := do
  let (message, rest) ← decode buf
  if message.isNone && !rest.isEmpty then throw (.io "bytes remaining on stream")
  return (message, rest)

theorem decode_nil : decode [] = .ok (none, []) := rfl

/-- All of the buffer is one message. -/
theorem decode_of_ne_nil {buf : Bytes} (h : buf ≠ []) :
    decode buf = .ok (some (.binary buf), []) := by
  simp [decode, h]

theorem decodeEof_nil : decodeEof [] = .ok (none, []) := rfl

theorem decodeEof_of_ne_nil {buf : Bytes} (h : buf ≠ []) :
    decodeEof buf = .ok (some (.binary buf), []) := by
  rw [decodeEof, decode_of_ne_nil h]
  rfl

theorem encode_eq (data : Message) (buf : Bytes) : encode data buf = .ok (buf ++ data.payload) := by
  cases data with
  | binary data => rfl
  | others => rw [encode, Message.payload, List.append_nil]

end MessageCodec

end LabStreamGate.Relay
