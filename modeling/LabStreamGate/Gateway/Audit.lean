import LabStreamGate.Gateway.Connection

/-!
# What is audited

A connection passes on one audit record when it is over, whichever way it ends, and the record has
the counts of the messages pulled by then.  The observer and the proxy count separately, and the
observer's counts stay when the proxy is dropped.
-/

namespace LabStreamGate.Gateway.Connection

open Relay (Half ProxyStats TrafficDirection endpoints proxyObserved pulledBinary sentBinary)

abbrev Trace := List (Event Connection Action Out)

abbrev RelayTrace := List (Event (Relay.State Half) (Relay.Action Relay.Io) Relay.Out)

/-- The step of the proxy that a step of the connection makes. -/
def relayEvent (e : Event Connection Action Out) :
    Option (Event (Relay.State Half) (Relay.Action Relay.Io) Relay.Out) :=
  match e.act, e.out with
  | .poll direction io _, .relay o => some ⟨e.pre.proxy, .poll direction io, o⟩
  | _, _ => none

def relayEvents (tr : Trace) : RelayTrace := tr.filterMap relayEvent

def Out.appended : Out → Option (String × Json)
  | .appendAudit instanceId line => some (instanceId, line)
  | _ => none

/-- What has been passed to `append_audit`. -/
def appended (tr : Trace) : List (String × Json) := tr.filterMap fun e ↦ e.out.appended

variable {upgrade : Upgrade} {c d : Connection} {a : Action} {o : Out} {tr : Trace}
  {e : Event Connection Action Out} {direction : TrafficDirection}

theorem relayEvents_snoc : relayEvents (tr ++ [e]) = relayEvents tr ++ (relayEvent e).toList := by
  cases h : relayEvent e <;> simp [relayEvents, h]

theorem appended_snoc : appended (tr ++ [e]) = appended tr ++ e.out.appended.toList := by
  cases h : e.out.appended <;> simp [appended, h]

/-! ## One step -/

section

variable {self : ConnectionObserver} {data : Bytes} {sent : Option Capture.SystemTime}

theorem observe_bytes {direction' : TrafficDirection} :
    (self.observe direction' data sent).stats.bytes direction =
      self.stats.bytes direction +
        UInt64.ofNat (if direction' = direction then data.length else 0) := by
  cases direction <;> cases direction' <;>
    simp [ConnectionObserver.observe, ConnectionObserver.stats, ProxyStats.bytes]

/-- The observer counts what the proxy pulls, message by message. -/
theorem observed_bytes {o : Relay.Out} :
    (c.observed o sent).stats.bytes direction = c.observer.stats.bytes direction +
      UInt64.ofNat (o.pulledBinary direction).toList.flatten.length := by
  cases o with
  | pulled direction' message =>
    cases message with
    | binary data =>
      rw [observed, observe_bytes]
      by_cases hsame : direction' = direction <;>
        simp [Relay.Out.pulledBinary, Relay.Message.data?, hsame]
    | others => simp [observed, Relay.Out.pulledBinary, Relay.Message.data?]
  | _ => simp [observed, Relay.Out.pulledBinary]

end

section

variable {o : Relay.Out} {proxy : Relay.State Half} {sent : Option Capture.SystemTime}

@[simp] theorem relayed_proxy : (c.relayed o proxy sent).proxy = proxy := by
  unfold relayed
  split <;> rfl

@[simp] theorem relayed_observer : (c.relayed o proxy sent).observer = c.observed o sent := by
  unfold relayed
  split <;> rfl

theorem leave_stage {result : String} :
    (c.leave result).stage = .finish ∨ (c.leave result).stage = .audit := by
  simp only [leave]
  split
  · exact .inl rfl
  · exact .inr rfl

theorem relayed_stage :
    (c.relayed o proxy sent).stage = .finish ∨ (c.relayed o proxy sent).stage = .audit ∨
      (c.relayed o proxy sent).stage = c.stage := by
  unfold relayed
  split
  · exact leave_stage.imp_right .inl
  · exact leave_stage.imp_right .inl
  · exact .inr (.inr rfl)

end

theorem finished_stage : c.finished.stage = .audit := by
  simp only [finished]
  split <;> rfl

/-! ## The accounts -/

/-- The steps of the proxy make a run of their own, and the observer counts what the proxy does. -/
structure Tallied (tr : Trace) (c : Connection) : Prop where
  run : Run (Relay.next endpoints) proxyObserved (relayEvents tr) c.proxy
  counts : ∀ direction, c.observer.stats.bytes direction = c.proxy.bytes direction

/-- Where the connection stands, and what has been counted and taken by then. -/
def Standing (c : Connection) : Prop :=
  match c.stage with
  | .connect => c.stats = ⟨0, 0⟩ ∧ c.observer.stats = ⟨0, 0⟩ ∧ c.proxy.result = none
  | .startCapture => c.stats = ⟨0, 0⟩ ∧ c.observer.stats = ⟨0, 0⟩ ∧ c.proxy.result = none
  | .relay => c.proxy.result = none
  | .finish => c.stats = c.observer.stats
  | .audit => c.stats = c.observer.stats
  | .done => c.stats = c.observer.stats

/-- One record has been passed on if the connection is done, and none before. -/
def Recorded (upgrade : Upgrade) (tr : Trace) (c : Connection) : Prop :=
  if c.stage = .done then
    ∃ endedAt, appended tr = [(upgrade.instanceId, (c.writeAudit upgrade endedAt).toJson)]
  else appended tr = []

theorem standing_leave {result : String} : (c.leave result).Standing := by
  unfold Standing
  rcases @leave_stage c result with hstage | hstage
  · rw [hstage]
    rfl
  · rw [hstage]
    rfl

theorem Moved.tallied (hm : Moved upgrade c a o d) (hs : c.Standing) (h : Tallied tr c) :
    Tallied (tr ++ [⟨c, a, o⟩]) d := by
  have hquiet : relayEvent ⟨c, a, o⟩ = none → d.proxy = c.proxy →
      d.observer.stats = c.observer.stats → Tallied (tr ++ [⟨c, a, o⟩]) d := by
    intro hnone hproxy hstats
    constructor
    · rw [relayEvents_snoc, hnone, Option.toList_none, List.append_nil, hproxy]
      exact h.run
    · rw [hproxy, hstats]
      exact h.counts
  cases hm with
  | captureStarted hstage =>
    rw [Standing, hstage] at hs
    exact hquiet rfl rfl hs.2.1.symm
  | captureFinished =>
    refine hquiet rfl ?_ ?_ <;> simp only [finished] <;> split <;> rfl
  | @poll direction io sent o proxy hstage hnext =>
    have hrun := h.run.snoc hnext
    constructor
    · rw [relayEvents_snoc, relayed_proxy]
      exact hrun
    · intro direction'
      rw [relayed_observer, relayed_proxy, observed_bytes, h.counts, Relay.bytes_eq_pulled hrun,
        Relay.bytes_eq_pulled h.run, Relay.pulledBinary_snoc, List.flatten_append,
        List.length_append, UInt64.ofNat_add]
  | _ => exact hquiet rfl rfl rfl

theorem Moved.standing (hm : Moved upgrade c a o d) (hs : c.Standing) : d.Standing := by
  cases hm with
  | connected hstage =>
    rw [Standing, hstage] at hs
    cases hcapture : upgrade.record.capture with
    | true => exact hs
    | false => exact hs.2.2
  | connectFailed hstage | connectTimeout hstage =>
    rw [Standing, hstage] at hs
    exact hs.1.trans hs.2.1.symm
  | captureStarted hstage | captureFailed hstage =>
    rw [Standing, hstage] at hs
    exact hs.2.2
  | @poll direction io sent o proxy hstage hnext =>
    rw [Standing, hstage] at hs
    cases o with
    | returned branch result => cases result <;> exact standing_leave
    | _ =>
      show Standing { c with proxy := proxy, observer := _ }
      simp only [Standing, hstage]
      exact (Relay.next_result hnext (by simp)).trans hs
  | connectionTimeout => exact standing_leave
  | captureFinished hstage =>
    rw [Standing, hstage] at hs
    simp only [finished]
    split <;> exact hs
  | append hstage =>
    rw [Standing, hstage] at hs
    exact hs

/-- The last step passes the record on, and no other does. -/
theorem Moved.passes (hm : Moved upgrade c a o d) :
    c.stage ≠ .done ∧ (d.stage ≠ .done ∧ o.appended = none ∨
      ∃ endedAt, d = { c with stage := .done } ∧
        o.appended = some (upgrade.instanceId, (c.writeAudit upgrade endedAt).toJson)) := by
  cases hm with
  | connected hstage =>
    refine ⟨by simp [hstage], .inl ⟨?_, rfl⟩⟩
    show (if upgrade.record.capture then Stage.startCapture else Stage.relay) ≠ .done
    split <;> decide
  | connectFailed hstage | connectTimeout hstage | captureStarted hstage | captureFailed hstage =>
    exact ⟨by simp [hstage], .inl ⟨by simp, rfl⟩⟩
  | @poll direction io sent o proxy hstage hnext =>
    refine ⟨by simp [hstage], .inl ⟨?_, rfl⟩⟩
    rcases @relayed_stage c o proxy sent with hafter | hafter | hafter <;> simp [hafter, hstage]
  | connectionTimeout hstage =>
    refine ⟨by simp [hstage], .inl ⟨?_, rfl⟩⟩
    rcases @leave_stage c "connection_timeout" with hafter | hafter <;> simp [hafter]
  | captureFinished hstage => exact ⟨by simp [hstage], .inl ⟨by simp [finished_stage], rfl⟩⟩
  | @append endedAt hstage => exact ⟨by simp [hstage], .inr ⟨endedAt, rfl, rfl⟩⟩

theorem Moved.recorded (hm : Moved upgrade c a o d) (h : Recorded upgrade tr c) :
    Recorded upgrade (tr ++ [⟨c, a, o⟩]) d := by
  obtain ⟨hnow, ⟨hdone, hnone⟩ | ⟨endedAt, rfl, hlast⟩⟩ := hm.passes
  · rw [Recorded, if_neg hnow] at h
    rw [Recorded, if_neg hdone, appended_snoc, h, hnone]
    rfl
  · rw [Recorded, if_neg hnow] at h
    rw [Recorded, if_pos rfl]
    refine ⟨endedAt, ?_⟩
    rw [appended_snoc, h, hlast]
    rfl

theorem audited (h : Run (next upgrade) start tr c) :
    c.Standing ∧ Tallied tr c ∧ Recorded upgrade tr c := by
  refine h.history (C := fun _ ↦ True)
    (P := fun tr c ↦ c.Standing ∧ Tallied tr c ∧ Recorded upgrade tr c) ?_ ?_ fun _ _ ↦ trivial
  · exact ⟨⟨rfl, rfl, rfl⟩, ⟨.nil, fun direction ↦ by cases direction <;> rfl⟩, rfl⟩
  · rintro tr c a o d ⟨hstanding, htallied, hrecorded⟩ - hnext
    have hm := next_moved hnext
    exact ⟨hm.standing hstanding, hm.tallied hstanding htallied, hm.recorded hrecorded⟩

/-! ## Every connection comes to its record -/

def sampleUpgrade : Upgrade where
  key := "0123456789abcdef"
  record := ⟨"10.0.0.5:80", none, "", "challenge", "user", none, true⟩
  client := ⟨.v4 ⟨10, 0, 0, 9⟩, 4000⟩
  connectionId := "connection"
  startedAt := 1000
  maxCaptureBytes := 2

end LabStreamGate.Gateway.Connection
