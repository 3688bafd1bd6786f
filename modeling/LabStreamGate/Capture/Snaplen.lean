import LabStreamGate.Capture.Decoding

/-!
# The snapshot length of a capture file

The header of the file promises how long a stored packet can be.  The longest chunk and the headers
before it make a longer one.
-/

namespace LabStreamGate.Capture

variable {io : Nat → Written} {out : Output} {client : SocketAddr} {target : String}
  {timestamp : SystemTime} {packet : Bytes} {packets : List Bytes} {messages : List CaptureMessage}

/-- The packets of one message that are given to `write_packet`. -/
def handedPackets (io : Nat → Written) (out : Output) (timestamp : SystemTime) :
    List Bytes → List Bytes
  | [] => []
  | packet :: packets =>
    let written := writePacket io out timestamp packet
    packet :: if written.1 then handedPackets io written.2 timestamp packets else []

/-- The packets of all messages that `write_capture` gives to `write_packet`. -/
def handed (io : Nat → Written) (client : SocketAddr) (target : String) (out : Output) :
    List CaptureMessage → List Bytes
  | [] => []
  | .packet direction data timestamp :: messages =>
    let packets := (chunks chunkSize data).map (chunkPacket client target direction)
    handedPackets io out timestamp packets ++
      handed io client target (writePackets io out timestamp packets) messages
  | .finish :: _ => []

/-- The length field of a packet's record. -/
def storedLength (packet : Bytes) : Nat := (UInt32.ofNat packet.length).toNat

theorem mem_of_mem_handedPackets (h : packet ∈ handedPackets io out timestamp packets) :
    packet ∈ packets := by
  induction packets generalizing out with
  | nil => exact h
  | cons first packets ih =>
    rcases List.mem_cons.mp h with rfl | h
    · exact List.mem_cons_self
    · split at h
      case isTrue => exact List.mem_cons_of_mem _ (ih h)
      case isFalse => cases h

/-! ## Long packets -/

/-- The most data whose packets all keep to the snapshot length. -/
def snapPayload : Nat := 65493

theorem storedLength_chunkPacket {direction : Relay.TrafficDirection} {chunk : Bytes}
    (h : chunk.length ≤ chunkSize) :
    storedLength (chunkPacket client target direction chunk) = 42 + chunk.length := by
  have hlt : 42 + chunk.length < 2 ^ 32 := by
    unfold chunkSize at h
    omega
  rw [storedLength, length_chunkPacket, UInt32.toNat_ofNat_of_lt' hlt]

theorem pos_chunkSize : 0 < chunkSize := by decide

/-- Of data that is too long, the first chunk is. -/
theorem exists_chunk {data : Bytes} (h : snapPayload < data.length) :
    ∃ chunk rest, chunks chunkSize data = chunk :: rest ∧ snapPayload < chunk.length := by
  have hne : data ≠ [] := by
    rintro rfl
    exact absurd h (Nat.not_lt_zero _)
  refine ⟨_, _, chunks_of_ne_nil pos_chunkSize hne, ?_⟩
  rw [List.length_take]
  unfold snapPayload at h ⊢
  unfold chunkSize
  omega

/-- The chunks of a message keep to it where its data does. -/
theorem chunks_fit_iff {data : Bytes} :
    (∀ chunk ∈ chunks chunkSize data, 42 + chunk.length ≤ 65535) ↔ data.length ≤ snapPayload := by
  constructor
  · intro hall
    by_contra hlong
    obtain ⟨chunk, rest, hchunks, hchunk⟩ := exists_chunk (Nat.lt_of_not_le hlong)
    have hle := hall chunk (hchunks ▸ List.mem_cons_self)
    unfold snapPayload at hchunk
    omega
  · intro hshort chunk hchunk
    have hle := length_part_le pos_chunkSize hchunk
    unfold snapPayload at hshort
    omega

/-- What a message hands over keeps to the snapshot length where its data does. -/
theorem handedPackets_fit_iff {direction : Relay.TrafficDirection} {data : Bytes} :
    (∀ packet ∈ handedPackets io out timestamp
        ((chunks chunkSize data).map (chunkPacket client target direction)),
      storedLength packet ≤ 65535) ↔ data.length ≤ snapPayload := by
  constructor
  · intro hall
    by_contra hlong
    obtain ⟨chunk, rest, hchunks, hchunk⟩ := exists_chunk (Nat.lt_of_not_le hlong)
    have hmem : chunk ∈ chunks chunkSize data := hchunks ▸ List.mem_cons_self
    rw [hchunks, List.map_cons] at hall
    have hstored := hall _ List.mem_cons_self
    rw [storedLength_chunkPacket (length_le_of_mem_chunks hmem)] at hstored
    unfold snapPayload at hchunk
    omega
  · intro hshort packet hpacket
    obtain ⟨chunk, hchunk, rfl⟩ := List.mem_map.mp (mem_of_mem_handedPackets hpacket)
    rw [storedLength_chunkPacket (length_le_of_mem_chunks hchunk)]
    exact chunks_fit_iff.mpr hshort chunk hchunk

/-- The messages up to the first `Finish`. -/
def received (messages : List CaptureMessage) : List CaptureMessage :=
  messages.takeWhile (· != .finish)

theorem handed_fit_iff :
    (∀ packet ∈ handed io client target out messages, storedLength packet ≤ 65535) ↔
      ∀ direction data timestamp, .packet direction data timestamp ∈ received messages →
        data.length ≤ snapPayload := by
  induction messages generalizing out with
  | nil => simp [handed, received]
  | cons message messages ih =>
    cases message with
    | packet direction data timestamp =>
      have hreceived : received (.packet direction data timestamp :: messages) =
          .packet direction data timestamp :: received messages := rfl
      rw [handed, List.forall_mem_append, handedPackets_fit_iff, ih, hreceived]
      simp only [List.mem_cons, CaptureMessage.packet.injEq]
      constructor
      · rintro ⟨hfirst, hrest⟩ direction' data' timestamp' (⟨-, rfl, -⟩ | hmem)
        · exact hfirst
        · exact hrest direction' data' timestamp' hmem
      · exact fun hall ↦ ⟨hall _ _ _ (.inl ⟨rfl, rfl, rfl⟩),
          fun direction' data' timestamp' hmem ↦ hall _ _ _ (.inr hmem)⟩
    | finish => simp [handed, received]

/-- The same for the records that a file is read back as. -/
theorem storedRecords_fit_iff {packets : List Observed} :
    (∀ record ∈ (packets.map (storedRecords client target)).flatten,
      record.data.length ≤ 65535) ↔ ∀ packet ∈ packets, packet.data.length ≤ snapPayload := by
  simp only [List.mem_flatten, List.mem_map, forall_exists_index, and_imp,
    forall_apply_eq_imp_iff₂, ← chunks_fit_iff]
  constructor
  · intro hall packet hpacket chunk hchunk
    have hlen := hall (storedRecord client target packet chunk) packet hpacket
      (List.mem_map_of_mem hchunk)
    rwa [storedRecord, chunkRecord, length_chunkPacket] at hlen
  · intro hall record packet hpacket hrecord
    obtain ⟨chunk, hchunk, rfl⟩ := List.mem_map.mp hrecord
    rw [storedRecord, chunkRecord, length_chunkPacket]
    exact hall packet hpacket chunk hchunk

/-- Whichever writes fail, all records have a stored length within the snapshot length of the
file's header if and only if no message has more data than fits it together with its headers.  With
no error in writing, they are the records that the file is read back as. -/
theorem snaplen_respected (io : Nat → Written) (client : SocketAddr) (target : String)
    (out : Output) (messages : List CaptureMessage) (packets : List Observed) :
    PcapHeader.read globalHeader = some (⟨2, 4, 0, 0, 65535, 1⟩, []) ∧
    ((∀ packet ∈ handed io client target out messages, storedLength packet ≤ 65535) ↔
      ∀ direction data timestamp, .packet direction data timestamp ∈ received messages →
        data.length ≤ snapPayload) ∧
    ∃ bytes file,
      captureFile (fun _ ↦ .all) client target (packets.map Observed.message ++ [.finish]) =
        some bytes ∧
      PcapFile.parse bytes = some file ∧
      ((∀ record ∈ file.records, record.data.length ≤ file.header.snaplen) ↔
        ∀ packet ∈ packets, packet.data.length ≤ snapPayload) := by
  refine ⟨?_, handed_fit_iff, ?_⟩
  · have hread := read_globalHeader []
    rwa [List.append_nil] at hread
  · exact ⟨_, _, captureFile_all fun _ ↦ rfl, parse_messageBytes, storedRecords_fit_iff⟩

/-- One byte more than fits makes a record that is too long. -/
theorem record_too_long : ¬ ∀ io client target out messages,
    ∀ packet ∈ handed io client target out messages, storedLength packet ≤ 65535 := by
  intro hall
  have hfits := handed_fit_iff.mp (hall (fun _ ↦ .all) sampleClient "10.0.0.5:8080" ⟨[], 0, false⟩
    [.packet .targetToClient (List.replicate (snapPayload + 1) 0) ⟨0⟩])
  have hle := hfits _ _ _ (List.mem_singleton_self _)
  rw [List.length_replicate] at hle
  omega

end LabStreamGate.Capture
