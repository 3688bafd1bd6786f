import LabStreamGate.Capture.Report

/-!
# The capture of one connection

A connection has one task, so its calls of `observe` come one after the other.  What such a call
does in one go is what the steps of the call come to when nothing else runs between them.
-/

namespace LabStreamGate.Capture

open Relay (TrafficDirection)

def isSafe (c : Char) : Bool := c.isAlphanum || c == '-' || c == '_'

def safeSegment (value : String) : String :=
  let value := String.ofList ((value.toList.filter isSafe).take 128)
  if value = "" then "unknown" else value

structure CaptureSession where
  observer : CaptureObserver
  relativePath : String
  deriving DecidableEq, Repr

/-- `CaptureSession::start`, after the file has been made and its header written. -/
def CaptureSession.start (instanceId connectionId : String) (maxBytes : UInt64) :
    CaptureSession where
  observer := ⟨[], 0, false, maxBytes⟩
  relativePath := "captures/" ++ safeSegment instanceId ++ "/" ++ connectionId ++ ".pcap"

/-- A call of `observe` that nothing interrupts.  The channel takes the packet at the time `sent`,
or does not take it. -/
def CaptureObserver.observe (self : CaptureObserver) (direction : TrafficDirection) (data : Bytes)
    (sent : Option SystemTime) : CaptureObserver :=
  if self.maxBytes ≤ self.captured then { self with truncated := true }
  else
    let length := reservation self.maxBytes self.captured data
    match sent with
    | some now =>
      { self with
        sender := self.sender ++ [⟨direction, data.take length, now⟩]
        captured := self.captured + UInt64.ofNat length
        truncated := self.truncated || decide (length < data.length) }
    | none =>
      { self with
        captured := self.captured + UInt64.ofNat length - UInt64.ofNat length
        truncated := true }

variable {self self' self'' : CaptureObserver} {call : Call} {after : Option Call}
  {outcome : Outcome} {direction : TrafficDirection} {data : Bytes} {s t : State}
  {tr : List (Event State Action Unit)} {id : Nat}

/-- Where a call stands that started from `self`, and what it has made of the fields by then. -/
def Alone (self : CaptureObserver) (direction : TrafficDirection) (data : Bytes)
    (self' : CaptureObserver) : Option Call → Prop
  | some (.load direction' data') => self' = self ∧ direction' = direction ∧ data' = data
  | some (.compareExchange direction' data' already) =>
    self' = self ∧ direction' = direction ∧ data' = data ∧ already = self.captured
  | some (.compareLength direction' data' length) =>
    self.captured < self.maxBytes ∧ direction' = direction ∧ data' = data ∧
      length = reservation self.maxBytes self.captured data ∧
      self' = { self with captured := self.captured + UInt64.ofNat length }
  | some (.trySend direction' data' length) =>
    self.captured < self.maxBytes ∧ direction' = direction ∧ data' = data ∧
      length = reservation self.maxBytes self.captured data ∧
      self' = { self with
        captured := self.captured + UInt64.ofNat length
        truncated := self.truncated || decide (length < data.length) }
  | some (.fetchSub length) =>
    self.captured < self.maxBytes ∧ length = reservation self.maxBytes self.captured data ∧
      ∃ truncated, self' = { self with
        captured := self.captured + UInt64.ofNat length
        truncated := truncated }
  | some .storeTruncated =>
    ∃ truncated, self' = { self.observe direction data none with truncated := truncated }
  | none => ∃ sent, self' = self.observe direction data sent

theorem observe_of_room (h : self.captured < self.maxBytes) (sent : Option SystemTime) :
    self.observe direction data sent =
      match sent with
      | some now =>
        { self with
          sender := self.sender ++
            [⟨direction, data.take (reservation self.maxBytes self.captured data), now⟩]
          captured := self.captured +
            UInt64.ofNat (reservation self.maxBytes self.captured data)
          truncated := self.truncated ||
            decide (reservation self.maxBytes self.captured data < data.length) }
      | none =>
        { self with
          captured := self.captured +
            UInt64.ofNat (reservation self.maxBytes self.captured data) -
            UInt64.ofNat (reservation self.maxBytes self.captured data)
          truncated := true } :=
  if_neg (UInt64.not_le.mpr h)

theorem Ran.alone (h : Ran self' call outcome self'' after)
    (hself : Alone self direction data self' (some call)) :
    Alone self direction data self'' after := by
  cases h with
  | load =>
    obtain ⟨rfl, rfl, rfl⟩ := hself
    exact ⟨rfl, rfl, rfl, rfl⟩
  | exhausted hfull =>
    obtain ⟨rfl, rfl, rfl, rfl⟩ := hself
    exact ⟨none, (if_pos hfull).symm⟩
  | reserve hroom =>
    obtain ⟨rfl, rfl, rfl, -⟩ := hself
    exact ⟨hroom, rfl, rfl, rfl, rfl⟩
  | retry _ =>
    obtain ⟨rfl, rfl, rfl, -⟩ := hself
    exact ⟨rfl, rfl, rfl, rfl⟩
  | compareLength =>
    obtain ⟨hroom, rfl, rfl, rfl, rfl⟩ := hself
    exact ⟨hroom, rfl, rfl, rfl, rfl⟩
  | @accepted _ _ _ now =>
    obtain ⟨hroom, rfl, rfl, rfl, rfl⟩ := hself
    exact ⟨some now, (observe_of_room hroom (some now)).symm⟩
  | refused =>
    obtain ⟨hroom, rfl, rfl, rfl, rfl⟩ := hself
    exact ⟨hroom, rfl, _, rfl⟩
  | fetchSub =>
    obtain ⟨hroom, rfl, truncated, rfl⟩ := hself
    refine ⟨truncated, ?_⟩
    rw [observe_of_room hroom none]
  | storeTruncated =>
    obtain ⟨truncated, rfl⟩ := hself
    refine ⟨none, ?_⟩
    simp only [CaptureObserver.observe]
    split <;> rfl

/-- However the steps of one call go, they come to one call that nothing interrupts. -/
theorem observe_alone (h : Run next s tr t)
    (hone : ∀ e ∈ tr, ∃ outcome, e.act = .run id outcome)
    (hcall : s.calls id = some (.load direction data)) (hdone : t.calls id = none) :
    ∃ sent, t.observer = s.observer.observe direction data sent := by
  have halone : Alone s.observer direction data t.observer (t.calls id) := by
    refine h.invariant (I := fun t ↦ Alone s.observer direction data t.observer (t.calls id))
      (C := fun e ↦ ∃ outcome, e.act = .run id outcome) ?_ ?_ hone
    · rw [hcall]
      exact ⟨rfl, rfl, rfl⟩
    · rintro v a o w hv ⟨outcome, rfl⟩ hnext
      cases next_moved hnext with
      | @run _ call _ self' after hrunning hran =>
        rw [hrunning] at hv
        show Alone s.observer direction data self' (Function.update v.calls id after id)
        rw [Function.update_self]
        exact hran.alone hv
  rw [hdone] at halone
  exact halone

end LabStreamGate.Capture
