import LabStreamGate.Gateway.Audit

/-!
# What a capture shows of its connection

The observer of a connection has the messages that the relay pulls, and its capture is written from
what it finds room for.  Read back, the file shows these messages in their order, and all of them
in full where the audit record does not call it truncated.
-/

namespace LabStreamGate.Gateway.Connection

open Capture (CaptureObserver CaptureSession Observed SystemTime Written)
open Relay (TrafficDirection endpoints pulledBinary)

/-! ## The messages of both directions -/

def pulledMessage : Relay.Out → Option (TrafficDirection × Bytes)
  | .pulled direction (.binary data) => some (direction, data)
  | _ => none

/-- The binary messages that the relay has pulled, whichever way they go. -/
def pulledMessages (tr : RelayTrace) : List (TrafficDirection × Bytes) :=
  tr.filterMap fun e ↦ pulledMessage e.out

variable {upgrade : Upgrade} {c d : Connection} {a : Action} {o : Out} {tr : Trace}
  {direction : TrafficDirection} {data : Bytes} {sent : Option SystemTime}
  {messages : List (TrafficDirection × Bytes)} {limit : UInt64} {observer : CaptureObserver}

theorem pulledMessages_snoc {tr : RelayTrace}
    {e : Event (Relay.State Relay.Half) (Relay.Action Relay.Io) Relay.Out} :
    pulledMessages (tr ++ [e]) = pulledMessages tr ++ (pulledMessage e.out).toList := by
  cases h : pulledMessage e.out <;> simp [pulledMessages, h]

/-! ## What the observer keeps -/

/-- The packet has the direction of the message and its bytes, or the first of them. -/
def Shows (packet : Observed) (message : TrafficDirection × Bytes) : Prop :=
  packet.direction = message.1 ∧ packet.data <+: message.2

/-- The packets are of some of the messages, and of all of them in full where nothing was turned
down; `captured` is what they have together. -/
structure Shown (limit : UInt64) (messages : List (TrafficDirection × Bytes))
    (observer : CaptureObserver) : Prop where
  maxBytes : observer.maxBytes = limit
  kept : ∃ kept, kept.Sublist messages ∧ List.Forall₂ Shows observer.sender kept
  whole : observer.truncated = false →
    observer.sender.map (fun packet ↦ (packet.direction, packet.data)) = messages
  count : observer.captured.toNat = observer.enqueued
  bound : observer.captured.toNat ≤ limit.toNat

theorem Shown.start : Shown limit [] ⟨[], 0, false, limit⟩ where
  maxBytes := rfl
  kept := ⟨[], .slnil, .nil⟩
  whole := fun _ ↦ rfl
  count := rfl
  bound := Nat.zero_le _

-- A message that is turned down is marked by the flag.
theorem Shown.miss {observer' : CaptureObserver} (h : Shown limit messages observer)
    (message : TrafficDirection × Bytes) (hlimit : observer'.maxBytes = observer.maxBytes)
    (hsender : observer'.sender = observer.sender)
    (hcaptured : observer'.captured = observer.captured)
    (htruncated : observer'.truncated = true) : Shown limit (messages ++ [message]) observer' := by
  obtain ⟨kept, hsub, hshows⟩ := h.kept
  refine ⟨hlimit.trans h.maxBytes, ⟨kept, ?_, ?_⟩, fun hfalse ↦ ?_, ?_, ?_⟩
  · exact hsub.trans (List.sublist_append_left ..)
  · rw [hsender]
    exact hshows
  · rw [htruncated] at hfalse
    cases hfalse
  · rw [hcaptured, h.count, CaptureObserver.enqueued, CaptureObserver.enqueued, hsender]
  · rw [hcaptured]
    exact h.bound

theorem Shown.observe (h : Shown limit messages observer) (direction : TrafficDirection)
    (data : Bytes) (sent : Option SystemTime) :
    Shown limit (messages ++ [(direction, data)]) (observer.observe direction data sent) := by
  unfold CaptureObserver.observe
  by_cases hfull : observer.maxBytes ≤ observer.captured
  · rw [if_pos hfull]
    exact h.miss _ rfl rfl rfl rfl
  · rw [if_neg hfull]
    cases sent with
    | none => exact h.miss _ rfl rfl (UInt64.add_sub_cancel ..) rfl
    | some now =>
      obtain ⟨hcaptured, hle⟩ :=
        @Capture.toNat_reserve _ _ data (UInt64.not_le.mp hfull)
      obtain ⟨kept, hsub, hshows⟩ := h.kept
      refine ⟨h.maxBytes, ⟨kept ++ [(direction, data)], hsub.append (List.Sublist.refl _), ?_⟩, ?_,
        ?_, ?_⟩
      · exact List.rel_append hshows (.cons ⟨rfl, List.take_prefix ..⟩ .nil)
      · intro htruncated
        rw [Bool.or_eq_false_iff, decide_eq_false_iff_not, Nat.not_lt] at htruncated
        obtain ⟨hbefore, hlength⟩ := htruncated
        rw [List.map_append, h.whole hbefore, List.map_singleton, List.take_of_length_le hlength]
      · show (observer.captured + _).toNat = _
        rw [hcaptured, h.count, CaptureObserver.enqueued, CaptureObserver.enqueued,
          List.map_append, List.sum_append, List.map_singleton, List.sum_singleton,
          List.length_take_of_le Capture.reservation_le]
      · rw [← h.maxBytes]
        show (observer.captured + _).toNat ≤ _
        rw [hcaptured]
        exact hle

/-! ## The capture of a connection -/

/-- What the capture shows while the connection lasts, and what is reported of it afterwards. -/
structure Recording (upgrade : Upgrade) (tr : Trace) (c : Connection) : Prop where
  early : c.stage = .connect ∨ c.stage = .startCapture →
    relayEvents tr = [] ∧ c.observer.capture = none
  shown : ∀ session, c.observer.capture = some session →
    Shown upgrade.maxCaptureBytes (pulledMessages (relayEvents tr)) session.observer
  late : c.capturePath ≠ none → c.stage = .audit ∨ c.stage = .done
  reported : ∀ path, c.capturePath = some path → ∃ session,
    c.observer.capture = some session ∧ c.capturedBytes = session.observer.captured ∧
      c.captureTruncated = session.observer.truncated

theorem Recording.capturePath_eq_none (h : Recording upgrade tr c)
    (hstage : ¬ (c.stage = .audit ∨ c.stage = .done)) : c.capturePath = none := by
  by_contra hpath
  exact hstage (h.late hpath)

-- A binary message that the proxy pulls is the observer's next one.
theorem Recording.observed {o : Relay.Out} (h : Recording upgrade tr c) {session : CaptureSession}
    (hsession : (c.observed o sent).capture = some session) :
    Shown upgrade.maxCaptureBytes
      (pulledMessages (relayEvents tr) ++ (pulledMessage o).toList) session.observer := by
  have hquiet : (pulledMessage o).toList = [] → c.observed o sent = c.observer →
      Shown upgrade.maxCaptureBytes
        (pulledMessages (relayEvents tr) ++ (pulledMessage o).toList) session.observer := by
    intro hnone hsame
    rw [hsame] at hsession
    rw [hnone, List.append_nil]
    exact h.shown session hsession
  cases o with
  | pulled direction message =>
    cases message with
    | binary data =>
      obtain ⟨before, hbefore, rfl⟩ : ∃ before, c.observer.capture = some before ∧
          { before with observer := before.observer.observe direction data sent } = session := by
        cases direction <;> exact Option.map_eq_some_iff.mp hsession
      exact (h.shown before hbefore).observe direction data sent
    | others => exact hquiet rfl rfl
  | _ => exact hquiet rfl rfl

-- A step that the relay takes no part in.
theorem Recording.quiet (h : Recording upgrade tr c) (hevent : relayEvent ⟨c, a, o⟩ = none)
    (hobserver : d.observer.capture = c.observer.capture)
    (hpath : d.capturePath = c.capturePath) (hbytes : d.capturedBytes = c.capturedBytes)
    (htruncated : d.captureTruncated = c.captureTruncated)
    (hearly : d.stage = .connect ∨ d.stage = .startCapture →
      c.stage = .connect ∨ c.stage = .startCapture)
    (hlate : c.stage = .audit ∨ c.stage = .done → d.stage = .audit ∨ d.stage = .done) :
    Recording upgrade (tr ++ [⟨c, a, o⟩]) d := by
  have hevents : relayEvents (tr ++ [⟨c, a, o⟩]) = relayEvents tr := by
    rw [relayEvents_snoc, hevent, Option.toList_none, List.append_nil]
  refine ⟨fun hstage ↦ ?_, fun session hsession ↦ ?_, fun hsome ↦ ?_, fun path hsome ↦ ?_⟩
  · rw [hevents, hobserver]
    exact h.early (hearly hstage)
  · rw [hevents]
    rw [hobserver] at hsession
    exact h.shown session hsession
  · rw [hpath] at hsome
    exact hlate (h.late hsome)
  · rw [hpath] at hsome
    rw [hobserver, hbytes, htruncated]
    exact h.reported path hsome

theorem relayed_capturePath {o : Relay.Out} {proxy : Relay.State Relay.Half} :
    (c.relayed o proxy sent).capturePath = c.capturePath := by
  unfold relayed
  split <;> rfl

/-- A turn of the relay shows the capture the message that it pulled. -/
theorem Recording.poll {io : Relay.Io} {o : Relay.Out} {proxy : Relay.State Relay.Half}
    (h : Recording upgrade tr c) (hstage : c.stage = .relay) :
    Recording upgrade (tr ++ [⟨c, .poll direction io sent, .relay o⟩])
      (c.relayed o proxy sent) := by
  have hpath := h.capturePath_eq_none (by rw [hstage]; simp)
  have hpath' : (c.relayed o proxy sent).capturePath = none := relayed_capturePath.trans hpath
  refine ⟨fun hnow ↦ ?_, fun session hsession ↦ ?_, fun hsome ↦ absurd hpath' hsome,
    fun path hsome ↦ ?_⟩
  · rcases @relayed_stage c o proxy sent with hafter | hafter | hafter
    · rw [hafter] at hnow
      rcases hnow with hnow | hnow <;> cases hnow
    · rw [hafter] at hnow
      rcases hnow with hnow | hnow <;> cases hnow
    · rw [hafter, hstage] at hnow
      rcases hnow with hnow | hnow <;> cases hnow
  · rw [relayed_observer] at hsession
    rw [relayEvents_snoc]
    show Shown _ (pulledMessages (relayEvents tr ++ [⟨c.proxy, .poll direction io, o⟩])) _
    rw [pulledMessages_snoc]
    exact h.observed hsession
  · rw [hpath'] at hsome
    cases hsome

/-- The result of the capture is that of its observer. -/
theorem Recording.finished (h : Recording upgrade tr c) :
    Recording upgrade (tr ++ [⟨c, .captureFinished, .silent⟩]) c.finished := by
  cases hcapture : c.observer.capture with
  | none =>
    have hfinished : c.finished = { c with stage := .audit } := by
      rw [Connection.finished, hcapture]
    rw [hfinished]
    exact h.quiet rfl rfl rfl rfl rfl (by rintro (hnow | hnow) <;> cases hnow) fun _ ↦ .inl rfl
  | some session =>
    have hfinished : c.finished = { c with
        stage := .audit
        capturePath := some session.relativePath
        capturedBytes := session.observer.captured
        captureTruncated := session.observer.truncated } := by
      rw [Connection.finished, hcapture]
      rfl
    rw [hfinished]
    refine ⟨?_, fun session' hsession ↦ ?_, fun _ ↦ .inl rfl, fun path hsome ↦ ?_⟩
    · rintro (hnow | hnow) <;> cases hnow
    · rw [relayEvents_snoc]
      show Shown _ (pulledMessages (relayEvents tr ++ [])) _
      rw [List.append_nil]
      exact h.shown session' hsession
    · exact ⟨session, hcapture, rfl, rfl⟩

theorem Recording.step (h : Recording upgrade tr c) (hm : Moved upgrade c a o d) :
    Recording upgrade (tr ++ [⟨c, a, o⟩]) d := by
  cases hm with
  | connected hstage =>
    refine h.quiet rfl rfl rfl rfl rfl (fun _ ↦ .inl hstage) fun hnow ↦ ?_
    rw [hstage] at hnow
    rcases hnow with hnow | hnow <;> cases hnow
  | connectFailed hstage =>
    exact h.quiet rfl rfl rfl rfl rfl (fun _ ↦ .inl hstage) fun _ ↦ .inl rfl
  | connectTimeout hstage =>
    exact h.quiet rfl rfl rfl rfl rfl (fun _ ↦ .inl hstage) fun _ ↦ .inl rfl
  | captureFailed hstage =>
    refine h.quiet rfl rfl rfl rfl rfl (fun _ ↦ .inr hstage) fun hnow ↦ ?_
    rw [hstage] at hnow
    rcases hnow with hnow | hnow <;> cases hnow
  | captureStarted hstage =>
    obtain ⟨hevents, -⟩ := h.early (.inr hstage)
    have hpath := h.capturePath_eq_none (by rw [hstage]; simp)
    refine ⟨?_, fun session hsession ↦ ?_, fun hsome ↦ absurd hpath hsome, fun path hsome ↦ ?_⟩
    · rintro (hnow | hnow) <;> cases hnow
    · cases hsession
      rw [relayEvents_snoc, hevents]
      exact .start
    · exact absurd (hpath.symm.trans hsome) nofun
  | poll hstage _ => exact h.poll hstage
  | connectionTimeout hstage =>
    refine h.quiet rfl rfl rfl rfl rfl (fun hnow ↦ ?_) fun hnow ↦ ?_
    · rcases @leave_stage c "connection_timeout" with hafter | hafter <;>
        rw [hafter] at hnow <;> rcases hnow with hnow | hnow <;> cases hnow
    · rw [hstage] at hnow
      rcases hnow with hnow | hnow <;> cases hnow
  | captureFinished _ => exact h.finished
  | append hstage =>
    exact h.quiet rfl rfl rfl rfl rfl (by rintro (hnow | hnow) <;> cases hnow) fun _ ↦ .inr rfl

theorem recording (h : Run (next upgrade) start tr c) : Recording upgrade tr c := by
  refine h.history (C := fun _ ↦ True) (P := Recording upgrade) ?_ ?_ fun _ _ ↦ trivial
  · exact ⟨fun _ ↦ ⟨rfl, rfl⟩, nofun, fun hpath ↦ absurd rfl hpath, nofun⟩
  · exact fun tr c a o d hc _ hnext ↦ hc.step (next_moved hnext)

/-- The capture file of the connection, where `io` says how its writes go. -/
def captureBytes (io : Nat → Written) (upgrade : Upgrade) (c : Connection) : Option Bytes :=
  c.observer.capture.bind fun session ↦
    Capture.captureFile io upgrade.client upgrade.record.target
      (session.observer.sender.map Observed.message ++ [.finish])

/-- Every write of the file succeeds. -/
def CaptureWhole (io : Nat → Written) (c : Connection) : Prop :=
  ∀ session, c.observer.capture = some session →
    Capture.AllWritten io (1 + Capture.recordWrites session.observer.sender)

/-- When a connection is over and its audit record names a capture file: the file, read back, shows
some of the messages that the relay pulled, in their order and each from its start, as many bytes
of them as the record says and no more than may be captured.  Where the record does not call it
truncated, it shows all messages in full. -/
theorem evidence_exact {io : Nat → Written} {path : String} (h : Run (next upgrade) start tr c)
    (hdone : c.stage = .done) (hpath : c.capturePath = some path)
    (hwhole : CaptureWhole io c) :
    ∃ endedAt audit bytes observed, audit = c.writeAudit upgrade endedAt ∧
      appended tr = [(upgrade.instanceId, audit.toJson)] ∧
      audit.capturePath = some path ∧ captureBytes io upgrade c = some bytes ∧
      Capture.Holds upgrade.client upgrade.record.target observed bytes ∧
      (∃ kept, kept.Sublist (pulledMessages (relayEvents tr)) ∧
        List.Forall₂ Shows observed kept) ∧
      Capture.Totals audit.capturedBytes.toNat bytes ∧
      audit.capturedBytes ≤ upgrade.maxCaptureBytes ∧
      (audit.captureTruncated = false →
        observed.map (fun packet ↦ (packet.direction, packet.data)) =
          pulledMessages (relayEvents tr)) := by
  obtain ⟨-, -, hrecorded⟩ := audited h
  rw [Recorded, if_pos hdone] at hrecorded
  obtain ⟨endedAt, happended⟩ := hrecorded
  have hrecording := recording h
  obtain ⟨session, hsession, hbytes, htruncated⟩ := hrecording.reported path hpath
  have hshown := hrecording.shown session hsession
  obtain ⟨bytes, hfile, hholds⟩ := @Capture.captureFile_holds_iff io upgrade.client
    upgrade.record.target session.observer.sender
  have hholds := hholds.mpr (hwhole session hsession)
  refine ⟨endedAt, _, bytes, session.observer.sender, rfl, happended, hpath, ?_, hholds,
    hshown.kept, ?_, ?_, ?_⟩
  · rw [captureBytes, hsession]
    exact hfile
  · show Capture.Totals c.capturedBytes.toNat bytes
    rw [hbytes, hshown.count]
    exact hholds.totals
  · show c.capturedBytes ≤ _
    rw [hbytes]
    exact UInt64.le_iff_toNat_le.mpr hshown.bound
  · intro hfalse
    exact hshown.whole (htruncated.symm.trans hfalse)

-- A message in each direction, and no write that fails.
theorem evidence_exact_sample : ∃ tr c bytes observed,
    Run (next { sampleUpgrade with maxCaptureBytes := 5 }) start tr c ∧
    captureBytes (fun _ ↦ .all) sampleUpgrade c = some bytes ∧ Capture.Totals 5 bytes ∧
    Capture.Holds sampleUpgrade.client sampleUpgrade.record.target observed bytes ∧
    observed.map (fun packet ↦ (packet.direction, packet.data)) =
      [(.clientToTarget, [1, 2, 3]), (.targetToClient, [4, 5])] := by
  obtain ⟨tr, c, hrun, hp⟩ := exists_run (next { sampleUpgrade with maxCaptureBytes := 5 }) start
    [.connected, .captureStarted,
      .poll .clientToTarget (.message (.axumWebsocket (.binary [1, 2, 3]))) (some ⟨0⟩),
      .poll .targetToClient (.read [4, 5]) none, .poll .targetToClient .pending (some ⟨1000⟩),
      .connectionTimeout, .captureFinished, .append 2000]
    (fun tr c ↦ c.stage = .done ∧ c.capturePath = some "captures/0123456789abcdef/connection.pcap" ∧
      c.captureTruncated = false ∧ c.capturedBytes = 5 ∧
      pulledMessages (relayEvents tr) =
        [(.clientToTarget, [1, 2, 3]), (.targetToClient, [4, 5])]) (by decide +kernel)
  simp only [decide_eq_true_eq] at hp
  obtain ⟨hdone, hpath, htruncated, hbytes, hpulled⟩ := hp
  obtain ⟨endedAt, audit, bytes, observed, rfl, -, -, hfile, hholds, -, htotals, -, hall⟩ :=
    evidence_exact hrun hdone hpath fun _ _ _ _ ↦ rfl
  refine ⟨tr, c, bytes, observed, hrun, hfile, ?_, hholds, (hall htruncated).trans hpulled⟩
  rw [← show c.capturedBytes.toNat = 5 by rw [hbytes]; rfl]
  exact htotals

end LabStreamGate.Gateway.Connection
