import LabStreamGate.Relay.Streams

/-!
# Accounts of bytes

An endpoint that keeps its bytes in order gives out what it has taken in, from the front, and holds
the rest.  Two such endpoints with a relay between them lose, repeat and invent nothing: what came
in on one side is what went out on the other, then what is on the way.
-/

namespace LabStreamGate.Relay

open Function

/-! ## One endpoint -/

/-- What an endpoint has received and sent, and what it still has of both. -/
structure Account (σ : Type) where
  received : σ → Bytes
  unread : σ → Bytes
  sent : σ → Bytes
  unsent : σ → Bytes

/-- The endpoint yields the bytes it receives and sends those it is given, each in order. -/
structure Carries {σ ι : Type} (endpoint : Endpoint σ ι) (account : Account σ) : Prop where
  pollNext : ∀ {x x' io polled}, endpoint.pollNext x io = some (x', polled) →
    (∃ new, account.received x' = account.received x ++ new ∧
      account.unread x ++ new = polled.payload ++ account.unread x') ∧
    account.sent x' = account.sent x ∧ account.unsent x' = account.unsent x
  startSend : ∀ {x x' message io polled}, endpoint.startSend x message io = some (x', polled) →
    account.sent x' ++ account.unsent x' = account.sent x ++ account.unsent x ++
      (if polled = .ready (.ok ()) then message.payload else []) ∧
    account.received x' = account.received x ∧ account.unread x' = account.unread x
  pollFlush : ∀ {x x' io polled}, endpoint.pollFlush x io = some (x', polled) →
    account.sent x' ++ account.unsent x' = account.sent x ++ account.unsent x ∧
    account.received x' = account.received x ∧ account.unread x' = account.unread x

/-- Where nothing was left to send, nothing is but what has been given since, and a flush that is
done has left nothing. -/
structure Flushes {σ ι : Type} (endpoint : Endpoint σ ι) (account : Account σ) : Prop where
  startSend : ∀ {x x' message io polled}, endpoint.startSend x message io = some (x', polled) →
    account.unsent x = [] →
    account.unsent x' <:+ if polled = .ready (.ok ()) then message.payload else []
  pollFlush : ∀ {x x' io polled}, endpoint.pollFlush x io = some (x', polled) →
    account.unsent x' <:+ account.unsent x ∧
    (polled = .ready (.ok ()) → account.unsent x' = [])

def Ws.account : Account Ws where
  received := fun ws ↦ ws.received.flatMap WsItem.payload
  unread := fun _ ↦ []
  sent := fun ws ↦ ws.handed.flatten
  unsent := fun _ ↦ []

def Framed.account : Account Framed where
  received := Framed.received
  unread := Framed.readBuffer
  sent := Framed.written
  unsent := Framed.writeBuffer

theorem Ws.carries : Carries Ws.endpoint Ws.account where
  pollNext := by
    intro ws ws' io polled h
    obtain ⟨rfl, hpayload⟩ := Ws.pollNext_eq h
    refine ⟨⟨io.item.toList.flatMap WsItem.payload, List.flatMap_append, ?_⟩, rfl, rfl⟩
    rw [hpayload]
    exact (List.append_nil _).symm
  startSend := by
    intro ws ws' item io polled h
    obtain ⟨sent, rfl, hsent⟩ := Ws.startSend_eq h
    rw [← hsent]
    simp [account]
  pollFlush := by
    intro ws ws' io polled h
    rw [Ws.pollFlush_eq h]
    exact ⟨rfl, rfl, rfl⟩

theorem Framed.carries : Carries Framed.endpoint Framed.account where
  pollNext := by
    intro tcp tcp' io polled h
    cases pollNext_polled h with
    | decoded _ => exact ⟨⟨[], by simp [account, Poll.payload, Message.payload]⟩, rfl, rfl⟩
    | ended _ _ => exact ⟨⟨[], by simp [account, Poll.payload]⟩, rfl, rfl⟩
    | wait _ _ => exact ⟨⟨[], by simp [account, Poll.payload]⟩, rfl, rfl⟩
    | @read data hempty _ =>
      exact ⟨⟨data, rfl, by simp [account, Poll.payload, hempty]⟩, rfl, rfl⟩
    | failed _ _ => exact ⟨⟨[], by simp [account, Poll.payload]⟩, rfl, rfl⟩
  startSend := by
    intro tcp tcp' item io polled h
    obtain ⟨-, rfl⟩ := startSend_eq h
    exact ⟨(List.append_assoc ..).symm, rfl, rfl⟩
  pollFlush := by
    intro tcp tcp' io polled h
    obtain ⟨-, ⟨count, rfl⟩, -⟩ := pollFlush_eq h
    refine ⟨?_, rfl, rfl⟩
    show tcp.written ++ tcp.writeBuffer.take count ++ tcp.writeBuffer.drop count = _
    rw [List.append_assoc, List.take_append_drop]
    rfl

theorem Ws.flushes : Flushes Ws.endpoint Ws.account where
  startSend := fun _ _ ↦ List.nil_suffix
  pollFlush := fun _ ↦ ⟨List.suffix_refl _, fun _ ↦ rfl⟩

theorem Framed.flushes : Flushes Framed.endpoint Framed.account where
  startSend := by
    intro tcp tcp' item io polled h hempty
    obtain ⟨-, rfl⟩ := startSend_eq h
    have hempty : tcp.writeBuffer = [] := hempty
    refine ⟨[], ?_⟩
    show tcp.writeBuffer ++ _ = _
    rw [hempty, List.nil_append]
  pollFlush := by
    intro tcp tcp' io polled h
    obtain ⟨-, ⟨count, rfl⟩, hready⟩ := pollFlush_eq h
    exact ⟨List.drop_suffix count tcp.writeBuffer, hready⟩

def accounts : (side : Side) → Account (Half side)
  | .s1 => Ws.account
  | .s2 => Framed.account

theorem carries : ∀ side, Carries (endpoints side) (accounts side)
  | .s1 => Ws.carries
  | .s2 => Framed.carries

theorem flushes : ∀ side, Flushes (endpoints side) (accounts side)
  | .s1 => Ws.flushes
  | .s2 => Framed.flushes

end LabStreamGate.Relay
