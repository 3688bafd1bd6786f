import LabStreamGate.Capture.Decoding
import LabStreamGate.Library.Counting
import LabStreamGate.Library.Run
import LabStreamGate.Library.TaskTable

/-!
# The observer of a capture

Calls of `observe` reserve their bytes in a shared counter, hand the packet to the channel and give
the bytes back where the channel does not take it.  Any number of calls are under way at a time,
each at one of its atomic steps.
-/

namespace LabStreamGate.Capture

open Function
open Relay (TrafficDirection)

/-- The fields that the calls share; `sender` has what the channel has taken, oldest first. -/
structure CaptureObserver where
  sender : List Observed
  captured : UInt64
  truncated : Bool
  maxBytes : UInt64
  deriving DecidableEq, Repr

/-- What a call of `observe` does next. -/
inductive Call
  | load (direction : TrafficDirection) (data : Bytes)
  | compareExchange (direction : TrafficDirection) (data : Bytes) (already : UInt64)
  | compareLength (direction : TrafficDirection) (data : Bytes) (length : Nat)
  | trySend (direction : TrafficDirection) (data : Bytes) (length : Nat)
  | fetchSub (length : Nat)
  | storeTruncated
  deriving DecidableEq, Repr

/-- How a step goes, where that is not the observer's own choice. -/
inductive Outcome
  | done
  | spurious
  | accepted (now : SystemTime)
  | refused
  deriving DecidableEq, Repr

/-- The bytes that are still free, or all that there are. -/
def reservation (maxBytes already : UInt64) (data : Bytes) : Nat :=
  min (maxBytes - already).toNat data.length

/-- One step of a call: the fields after it and what the call does then. -/
def Call.run (self : CaptureObserver) : Call → Outcome → Option (CaptureObserver × Option Call)
  | .load direction data, .done => some (self, some (.compareExchange direction data self.captured))
  | .compareExchange direction data already, outcome =>
    if self.maxBytes ≤ already then
      if outcome = .done then some ({ self with truncated := true }, none) else none
    else
      let length := reservation self.maxBytes already data
      match outcome with
      | .done =>
        if self.captured = already then
          some ({ self with captured := already + UInt64.ofNat length },
            some (.compareLength direction data length))
        else some (self, some (.compareExchange direction data self.captured))
      | .spurious => some (self, some (.compareExchange direction data self.captured))
      | _ => none
  | .compareLength direction data length, .done =>
    some ({ self with truncated := self.truncated || decide (length < data.length) },
      some (.trySend direction data length))
  | .trySend direction data length, .accepted now =>
    some ({ self with sender := self.sender ++ [⟨direction, data.take length, now⟩] }, none)
  | .trySend _ _ length, .refused => some (self, some (.fetchSub length))
  | .fetchSub length, .done =>
    some ({ self with captured := self.captured - UInt64.ofNat length }, some .storeTruncated)
  | .storeTruncated, .done => some ({ self with truncated := true }, none)
  | _, _ => none

structure State where
  observer : CaptureObserver
  calls : Nat → Option Call
  nextCall : Nat

def State.start (maxBytes : UInt64) : State :=
  { observer := ⟨[], 0, false, maxBytes⟩, calls := fun _ ↦ none, nextCall := 0 }

inductive Action
  | observe (direction : TrafficDirection) (data : Bytes)
  | run (id : Nat) (outcome : Outcome)
  deriving DecidableEq, Repr

def next (s : State) : Action → Option (Unit × State)
  | .observe direction data =>
    some ((), { s with
      calls := update s.calls s.nextCall (some (.load direction data))
      nextCall := s.nextCall + 1 })
  | .run id outcome =>
    (s.calls id).bind fun call ↦ (call.run s.observer outcome).map fun r ↦
      ((), { s with observer := r.1, calls := update s.calls id r.2 })

variable {self self' : CaptureObserver} {call : Call} {after : Option Call} {outcome : Outcome}
  {s t : State} {a : Action} {o : Unit} {tr : List (Event State Action Unit)} {maxBytes : UInt64}

/-! ## The steps of a call -/

/-- What one step of a call does. -/
inductive Ran (self : CaptureObserver) : Call → Outcome → CaptureObserver → Option Call → Prop
  | load {direction : TrafficDirection} {data : Bytes} :
      Ran self (.load direction data) .done self
        (some (.compareExchange direction data self.captured))
  | exhausted {direction : TrafficDirection} {data : Bytes} {already : UInt64} :
      self.maxBytes ≤ already →
      Ran self (.compareExchange direction data already) .done { self with truncated := true } none
  | reserve {direction : TrafficDirection} {data : Bytes} : self.captured < self.maxBytes →
      Ran self (.compareExchange direction data self.captured) .done
        { self with captured :=
            self.captured + UInt64.ofNat (reservation self.maxBytes self.captured data) }
        (some (.compareLength direction data (reservation self.maxBytes self.captured data)))
  | retry {direction : TrafficDirection} {data : Bytes} {already : UInt64} {outcome : Outcome} :
      already < self.maxBytes →
      Ran self (.compareExchange direction data already) outcome self
        (some (.compareExchange direction data self.captured))
  | compareLength {direction : TrafficDirection} {data : Bytes} {length : Nat} :
      Ran self (.compareLength direction data length) .done
        { self with truncated := self.truncated || decide (length < data.length) }
        (some (.trySend direction data length))
  | accepted {direction : TrafficDirection} {data : Bytes} {length : Nat} {now : SystemTime} :
      Ran self (.trySend direction data length) (.accepted now)
        { self with sender := self.sender ++ [⟨direction, data.take length, now⟩] } none
  | refused {direction : TrafficDirection} {data : Bytes} {length : Nat} :
      Ran self (.trySend direction data length) .refused self (some (.fetchSub length))
  | fetchSub {length : Nat} :
      Ran self (.fetchSub length) .done
        { self with captured := self.captured - UInt64.ofNat length } (some .storeTruncated)
  | storeTruncated : Ran self .storeTruncated .done { self with truncated := true } none

theorem run_ran (h : call.run self outcome = some (self', after)) :
    Ran self call outcome self' after := by
  cases call with
  | load direction data =>
    cases outcome <;> simp only [Call.run, reduceCtorEq] at h
    cases h
    exact .load
  | compareExchange direction data already =>
    simp only [Call.run] at h
    split at h
    case isTrue hexhausted =>
      split at h
      case isTrue hdone =>
        cases h
        subst hdone
        exact .exhausted hexhausted
      case isFalse => cases h
    case isFalse hroom =>
      have hlt := UInt64.not_le.mp hroom
      cases outcome with
      | done =>
        simp only at h
        split at h
        case isTrue hsame =>
          cases h
          subst hsame
          exact .reserve hlt
        case isFalse =>
          cases h
          exact .retry hlt
      | spurious =>
        cases h
        exact .retry hlt
      | accepted | refused => cases h
  | compareLength direction data length =>
    cases outcome <;> simp only [Call.run, reduceCtorEq] at h
    cases h
    exact .compareLength
  | trySend direction data length =>
    cases outcome <;> simp only [Call.run, reduceCtorEq] at h
    · cases h
      exact .accepted
    · cases h
      exact .refused
  | fetchSub length =>
    cases outcome <;> simp only [Call.run, reduceCtorEq] at h
    cases h
    exact .fetchSub
  | storeTruncated =>
    cases outcome <;> simp only [Call.run, reduceCtorEq] at h
    cases h
    exact .storeTruncated

/-- What one step of the system does. -/
inductive Moved (s : State) : Action → State → Prop
  | observe {direction : TrafficDirection} {data : Bytes} : Moved s (.observe direction data)
      { s with
        calls := update s.calls s.nextCall (some (.load direction data))
        nextCall := s.nextCall + 1 }
  | run {id : Nat} {call : Call} {outcome : Outcome} {self' : CaptureObserver}
      {after : Option Call} : s.calls id = some call → Ran s.observer call outcome self' after →
      Moved s (.run id outcome) { s with observer := self', calls := update s.calls id after }

theorem next_moved (h : next s a = some (o, t)) : Moved s a t := by
  cases a with
  | observe direction data =>
    cases h
    exact .observe
  | run id outcome =>
    simp only [next, Option.bind_eq_some_iff, Option.map_eq_some_iff, Prod.mk.injEq] at h
    obtain ⟨call, hcall, ⟨self', after⟩, hrun, -, rfl⟩ := h
    exact .run hcall (run_ran hrun)

end LabStreamGate.Capture
