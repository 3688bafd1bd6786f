import LabStreamGate.Capture.Budget

/-!
# What a capture reports

The report counts what the channel took.  The file has it only as long as every write succeeds: an
error ends the packets of the message that is told of it, which may not be the one whose bytes are
missing, and the next message is written after whatever there is.
-/

namespace LabStreamGate.Capture

open Function

/-- `CaptureSession::finish`, after the writer has answered. -/
def CaptureObserver.finish (self : CaptureObserver) : UInt64 × Bool :=
  (self.captured, self.truncated)

variable {io : Nat → Written} {client : SocketAddr} {target : String} {packet : Observed}
  {observed : List Observed} {maxBytes : UInt64} {s : State}
  {tr : List (Event State Action Unit)}

/-! ## How long a file has to be -/

theorem length_recordBytes {timestamp : SystemTime} {bytes : Bytes} :
    (recordBytes timestamp bytes).length = 16 + bytes.length := by
  simp only [recordBytes, packetHeader, List.length_append, length_u32LeBytes]


/-- Frames with given payloads take at least 58 bytes more each, and hold at most a chunk each. -/
theorem length_of_datagrams {records : List PcapRecord} {datagrams : List Datagram}
    (h : records.map (fun record ↦ Datagram.ofFrame record.data) = datagrams.map some) :
    58 * datagrams.length + (datagrams.flatMap Datagram.payload).length ≤
        (records.map fun record ↦ 16 + record.data.length).sum ∧
      (datagrams.flatMap Datagram.payload).length ≤ chunkSize * datagrams.length := by
  induction records generalizing datagrams with
  | nil =>
    cases datagrams with
    | nil => exact ⟨Nat.le_refl _, Nat.le_refl _⟩
    | cons datagram datagrams => cases h
  | cons record records ih =>
    cases datagrams with
    | nil => cases h
    | cons datagram datagrams =>
      rw [List.map_cons, List.map_cons, List.cons.injEq] at h
      obtain ⟨hlong, hshort⟩ := ih h.2
      obtain ⟨hframe, hpayload⟩ := Datagram.length_of_ofFrame h.1
      rw [List.flatMap_cons, List.length_append, List.map_cons, List.sum_cons, List.length_cons,
        Nat.mul_succ, Nat.mul_succ]
      unfold chunkSize at hshort ⊢
      omega

theorem length_messageBytes : (messageBytes client target packet).length =
    58 * (chunks chunkSize packet.data).length + packet.data.length := by
  have hparts : ∀ parts : List Bytes,
      ((parts.map (chunkPacket client target packet.direction)).flatMap
        (recordBytes packet.timestamp)).length = 58 * parts.length + parts.flatten.length := by
    intro parts
    induction parts with
    | nil => rfl
    | cons part parts ih =>
      rw [List.map_cons, List.flatMap_cons, List.length_append, length_recordBytes,
        length_chunkPacket, ih, List.flatten_cons, List.length_append, List.length_cons]
      omega
  rw [messageBytes, hparts, flatten_chunks (by decide)]

/-- Records that carry a packet take at least as many bytes as those that are written of it. -/
theorem Carries.length_le {records : List PcapRecord} (h : Carries client target packet records) :
    (messageBytes client target packet).length ≤
      (records.map fun record ↦ 16 + record.data.length).sum := by
  obtain ⟨-, datagrams, hdatagrams, -, hdata⟩ := h
  obtain ⟨hlong, hshort⟩ := length_of_datagrams hdatagrams
  have hcount : (chunks chunkSize packet.data).length ≤ datagrams.length := by
    rw [hdata] at hshort
    rw [length_chunks]
    unfold chunkSize at hshort ⊢
    omega
  rw [hdata] at hlong
  rw [length_messageBytes]
  omega

theorem length_le_of_carries {groups : List (List PcapRecord)}
    (h : List.Forall₂ (Carries client target) observed groups) :
    (observed.flatMap (messageBytes client target)).length ≤
      (groups.flatten.map fun record ↦ 16 + record.data.length).sum := by
  induction h with
  | nil => exact Nat.le_refl _
  | cons hcarries _ ih =>
    have hle := hcarries.length_le
    rw [List.flatMap_cons, List.length_append, List.flatten_cons, List.map_append, List.sum_append]
    omega

/-! ## The report -/

/-- The bytes are a capture file whose records carry the packets. -/
def Holds (client : SocketAddr) (target : String) (observed : List Observed) (bytes : Bytes) :
    Prop :=
  ∃ file groups, PcapFile.parse bytes = some file ∧ file.records = groups.flatten ∧
    List.Forall₂ (Carries client target) observed groups

/-- The bytes are a capture file of whole records, whose payloads are `count` bytes. -/
def Totals (count : Nat) (bytes : Bytes) : Prop :=
  ∃ file, ∃ datagrams : List Datagram, PcapFile.parse bytes = some file ∧
    file.records.map (fun record ↦ Datagram.ofFrame record.data) = datagrams.map some ∧
    (datagrams.flatMap Datagram.payload).length = count

theorem holds_messageBytes :
    Holds client target observed
      (globalHeader ++ observed.flatMap (messageBytes client target)) := by
  refine ⟨_, observed.map (storedRecords client target), parse_messageBytes, rfl, ?_⟩
  rw [List.forall₂_map_right_iff, List.forall₂_same]
  exact fun packet _ ↦ carries_storedRecords

/-- The records of the packets have all their data. -/
theorem Holds.totals {bytes : Bytes} (h : Holds client target observed bytes) :
    Totals (observed.map fun packet ↦ packet.data.length).sum bytes := by
  obtain ⟨file, groups, hparse, hrecords, hgroups⟩ := h
  have hdatagrams : ∃ datagrams : List Datagram,
      groups.flatten.map (fun record ↦ Datagram.ofFrame record.data) = datagrams.map some ∧
      (datagrams.flatMap Datagram.payload).length =
        (observed.map fun packet ↦ packet.data.length).sum := by
    clear hparse hrecords
    induction hgroups with
    | nil => exact ⟨[], rfl, rfl⟩
    | cons hcarries _ ih =>
      obtain ⟨rest, hrest, hlength⟩ := ih
      obtain ⟨-, datagrams, hfirst, -, hdata⟩ := hcarries
      refine ⟨datagrams ++ rest, ?_, ?_⟩
      · rw [List.flatten_cons, List.map_append, List.map_append, hfirst, hrest]
      · rw [List.flatMap_append, List.length_append, hdata, hlength, List.map_cons, List.sum_cons]
  obtain ⟨datagrams, hframes, hlength⟩ := hdatagrams
  exact ⟨file, datagrams, hparse, hrecords ▸ hframes, hlength⟩

/-- The file of a capture holds the packets exactly where all its writes have succeeded. -/
theorem captureFile_holds_iff :
    ∃ bytes, captureFile io client target
        (observed.map Observed.message ++ [.finish]) = some bytes ∧
      (Holds client target observed bytes ↔ AllWritten io (1 + recordWrites observed)) := by
  obtain ⟨out, hfile, hstands⟩ := @captureFile_stands io client target observed
  refine ⟨_, hfile, ?_⟩
  cases hstands with
  | whole hall => exact iff_of_true holds_messageBytes hall
  | broken hnot hshort =>
    refine iff_of_false ?_ hnot
    -- a file that holds them all would be longer
    rintro ⟨file, groups, hparse, hrecords, hgroups⟩
    have hlen := PcapFile.length_of_parse hparse
    rw [hrecords] at hlen
    have hle := length_le_of_carries hgroups
    rw [List.length_append] at hshort
    have hheader : globalHeader.length = 24 := by simp [globalHeader]
    omega

/-- After all calls, the file of a capture is of whole records with as many bytes as are reported
where every write of its header and of the records has succeeded, and it has the packets that were
enqueued only there. -/
theorem report_truthful (h : Run next (State.start maxBytes) tr s)
    (hidle : ∀ id, s.calls id = none) :
    ∃ bytes, captureFile io client target
        (s.observer.sender.map Observed.message ++ [.finish]) = some bytes ∧
      (AllWritten io (1 + recordWrites s.observer.sender) →
        Totals s.observer.finish.1.toNat bytes) ∧
      (Holds client target s.observer.sender bytes ↔
        AllWritten io (1 + recordWrites s.observer.sender)) := by
  obtain ⟨bytes, hbytes, hiff⟩ := @captureFile_holds_iff io client target s.observer.sender
  refine ⟨bytes, hbytes, fun hall ↦ ?_, hiff⟩
  have hcount : s.observer.finish.1.toNat = s.observer.enqueued := by
    show s.observer.captured.toNat = _
    rw [(accounts h).balance, reserved_of_idle hidle, Nat.add_zero]
  rw [hcount]
  exact (hiff.mpr hall).totals

/-- Three bytes from the client and two from the target, all enqueued. -/
def sampleCalls : List Action :=
  [.observe .clientToTarget [1, 2, 3], .run 0 .done, .run 0 .done, .run 0 .done,
    .run 0 (.accepted ⟨0⟩), .observe .targetToClient [4, 5], .run 1 .done, .run 1 .done,
    .run 1 .done, .run 1 (.accepted ⟨0⟩)]

def sampleSent : List Observed :=
  [⟨.clientToTarget, [1, 2, 3], ⟨0⟩⟩, ⟨.targetToClient, [4, 5], ⟨0⟩⟩]

theorem sampleCalls_run : ∃ tr s, Run next (State.start 100) tr s ∧
    s.observer.sender = sampleSent ∧ s.observer.finish = (5, false) ∧ ∀ id, s.calls id = none := by
  obtain ⟨tr, s, hrun, hp⟩ := exists_run next (State.start 100) sampleCalls
    (fun _ s ↦ (s.observer.sender == sampleSent && s.observer.finish == (5, false)) &&
      (List.range s.nextCall).all fun id ↦ (s.calls id).isNone) (by decide +kernel)
  simp only [Bool.and_eq_true, beq_iff_eq] at hp
  exact ⟨tr, s, hrun, hp.1.1, hp.1.2, (accounts hrun).below.all_none hp.2⟩

-- A write that would come after those of the two records fails.
theorem report_truthful_sample : ∃ tr s io bytes, Run next (State.start 100) tr s ∧
    io 5 ≠ Written.all ∧
    captureFile io sampleClient "10.0.0.5:8080"
      (s.observer.sender.map Observed.message ++ [.finish]) = some bytes ∧
    Totals s.observer.finish.1.toNat bytes := by
  obtain ⟨tr, s, hrun, hsender, -, hidle⟩ := sampleCalls_run
  let io : Nat → Written := fun n ↦ if n = 5 then .failed 0 else .all
  obtain ⟨bytes, hbytes, htotals, -⟩ := @report_truthful io sampleClient "10.0.0.5:8080" 100 s tr
    hrun hidle
  refine ⟨tr, s, io, bytes, hrun, by decide, hbytes, htotals ?_⟩
  rw [hsender]
  decide +kernel

/-- The first record is broken off in its body; the second packet is told of it and not written, so
a file that cannot be read is reported as five bytes, complete. -/
theorem broken_file_reported : ¬ ∀ io client target maxBytes tr s,
    Run next (State.start maxBytes) tr s → (∀ id, s.calls id = none) → io 0 = Written.all →
    s.observer.finish.2 = false →
    ∃ bytes, captureFile io client target (s.observer.sender.map Observed.message ++ [.finish]) =
      some bytes ∧ Totals s.observer.finish.1.toNat bytes := by
  intro hall
  obtain ⟨tr, s, hrun, hsender, hfinish, hidle⟩ := sampleCalls_run
  obtain ⟨bytes, hbytes, file, datagrams, hparse, -⟩ :=
    hall (fun n ↦ if n = 2 then .failed 10 else .all) sampleClient "10.0.0.5:8080" 100 tr s hrun
      hidle rfl (by rw [hfinish])
  have hunreadable : ((captureFile (fun n ↦ if n = 2 then .failed 10 else .all) sampleClient
      "10.0.0.5:8080" (sampleSent.map Observed.message ++ [.finish])).bind PcapFile.parse) =
        none := by
    decide +kernel
  rw [hsender] at hbytes
  rw [hbytes, Option.bind_some, hparse] at hunreadable
  cases hunreadable

end LabStreamGate.Capture
