import LabStreamGate.Capture.Writer
import LabStreamGate.Library.Pcap

/-!
# Reading a capture file back

With no error in writing, the file holds what was observed: each message as datagrams in its
direction, which together have its data.
-/

namespace LabStreamGate.Capture

open Relay (TrafficDirection)

/-! ## One datagram -/

section

variable {sourceIp destIp : Ipv4Addr} {sourcePort destPort : UInt16} {payload : Bytes}

@[simp] theorem readIpv4Addr_octets (ip : Ipv4Addr) (rest : Bytes) :
    Datagram.readIpv4Addr (ip.octets ++ rest) = some (ip, rest) := rfl

theorem length_ipv4Header {totalLength checksum : UInt16} :
    (ipv4Header totalLength checksum sourceIp destIp).length = 20 := by
  simp [ipv4Header, Ipv4Addr.octets]

theorem ofUdp_append (h : payload.length ≤ chunkSize) :
    Datagram.ofUdp (u16BeBytes sourcePort ++ (u16BeBytes destPort ++
      (u16BeBytes (UInt16.ofNat (8 + payload.length)) ++ ([0, 0] ++ payload)))) =
      some (sourcePort.toNat, destPort.toNat, payload) := by
  unfold chunkSize at h
  have hfits : (8 + payload.length) % 65536 = 8 + payload.length := Nat.mod_eq_of_lt (by omega)
  simp [Datagram.ofUdp, hfits]
  omega

theorem ofIpv4_append {checksum : UInt16} {datagram : Bytes} (h : 20 + datagram.length < 65536) :
    Datagram.ofIpv4
      (ipv4Header (UInt16.ofNat (20 + datagram.length)) checksum sourceIp destIp ++ datagram) =
      some (sourceIp, destIp, datagram) := by
  have hfits : (20 + datagram.length) % 65536 = 20 + datagram.length := Nat.mod_eq_of_lt h
  have hsource : sourceIp.octets.length = 4 := rfl
  have hdest : destIp.octets.length = 4 := rfl
  simp [Datagram.ofIpv4, ipv4Header, hfits, hsource, hdest]
  omega

theorem ofEthernet_append {packet : Bytes} :
    Datagram.ofEthernet (List.replicate 12 0 ++ (u16BeBytes 0x0800 ++ packet)) = some packet := by
  rw [Datagram.ofEthernet, Reader.bytes_append List.length_replicate]
  simp

/-- A datagram that is not too long is read back from its packet. -/
theorem ofFrame_buildUdpPacket (h : payload.length ≤ chunkSize) :
    Datagram.ofFrame (buildUdpPacket sourceIp sourcePort destIp destPort payload) =
      some ⟨(sourceIp, sourcePort.toNat), (destIp, destPort.toNat), payload⟩ := by
  let datagram := u16BeBytes sourcePort ++ (u16BeBytes destPort ++
    (u16BeBytes (UInt16.ofNat (8 + payload.length)) ++ ([0, 0] ++ payload)))
  have hlength : 20 + 8 + payload.length = 20 + datagram.length := by
    simp [datagram]
    omega
  have hbuild : buildUdpPacket sourceIp sourcePort destIp destPort payload =
      List.replicate 12 0 ++ (u16BeBytes 0x0800 ++
        (ipv4Header (UInt16.ofNat (20 + datagram.length))
          (ipv4Checksum (ipv4Header (UInt16.ofNat (20 + datagram.length)) 0 sourceIp destIp))
          sourceIp destIp ++ datagram)) := by
    rw [← hlength]
    simp [buildUdpPacket, datagram]
  have hfits : 20 + datagram.length < 65536 := by
    unfold chunkSize at h
    omega
  rw [Datagram.ofFrame, hbuild, ofEthernet_append]
  simp only [Option.bind_eq_bind, Option.bind_some]
  rw [ofIpv4_append hfits]
  simp only [Option.bind_some]
  rw [ofUdp_append h]
  rfl

theorem length_buildUdpPacket :
    (buildUdpPacket sourceIp sourcePort destIp destPort payload).length = 42 + payload.length := by
  simp [buildUdpPacket, length_ipv4Header]
  omega

end

/-! ## What is written -/

/-- A packet that the observer has passed on. -/
structure Observed where
  direction : TrafficDirection
  data : Bytes
  timestamp : SystemTime
  deriving DecidableEq, Repr

def Observed.message (packet : Observed) : CaptureMessage :=
  .packet packet.direction packet.data packet.timestamp

def recordBytes (timestamp : SystemTime) (packet : Bytes) : Bytes :=
  packetHeader timestamp packet ++ packet

/-- The records of a message, as bytes. -/
def messageBytes (client : SocketAddr) (target : String) (packet : Observed) : Bytes :=
  ((chunks chunkSize packet.data).map (chunkPacket client target packet.direction)).flatMap
    (recordBytes packet.timestamp)

/-- The first `count` writes all succeed. -/
def AllWritten (io : Nat → Written) (count : Nat) : Prop := ∀ n < count, io n = .all

instance {io : Nat → Written} {count : Nat} : Decidable (AllWritten io count) :=
  inferInstanceAs (Decidable (∀ n < count, io n = .all))

/-- How many writes the records of the packets take. -/
def recordWrites (packets : List Observed) : Nat :=
  2 * (packets.map fun packet ↦ (chunks chunkSize packet.data).length).sum

/-- `bytes` were to be written by `count` writes: all are there, or some write has failed and the
file is shorter. -/
inductive Output.Stands (io : Nat → Written) (bytes : Bytes) (count : Nat) : Output → Prop
  | whole : AllWritten io count → Stands io bytes count ⟨bytes, count, false⟩
  | broken {out : Output} : ¬ AllWritten io count → out.file.length < bytes.length →
      Stands io bytes count out

section

variable {io : Nat → Written} {out : Output} {client : SocketAddr} {target : String}
  {bytes data : Bytes} {count more : Nat}

theorem AllWritten.mono (h : AllWritten io more) (hle : count ≤ more) : AllWritten io count :=
  fun n hn ↦ h n (Nat.lt_of_lt_of_le hn hle)

theorem allWritten_succ : AllWritten io (count + 1) ↔ AllWritten io count ∧ io count = .all := by
  constructor
  · intro h
    exact ⟨h.mono (Nat.le_succ _), h count (Nat.lt_succ_self _)⟩
  · rintro ⟨h, hlast⟩ n hn
    rcases Nat.lt_succ_iff_lt_or_eq.mp hn with hn | rfl
    · exact h n hn
    · exact hlast

theorem Written.length_reached_le {written : Written} :
    (written.reached data).length ≤ data.length := by
  cases written with
  | all => exact Nat.le_refl _
  | failed count =>
    rw [reached, List.length_take, List.length_dropLast]
    omega

/-- What is not to be written any more leaves a broken file broken. -/
theorem Output.Stands.skip (h : out.Stands io bytes count) (hnot : ¬ AllWritten io count)
    (hle : count ≤ more) : out.Stands io (bytes ++ data) more := by
  refine .broken (fun hall ↦ hnot (hall.mono hle)) ?_
  cases h with
  | whole hall => exact absurd hall hnot
  | broken _ hshort =>
    rw [List.length_append]
    omega

theorem Output.Stands.writeAll (h : out.Stands io bytes count) (hne : data ≠ []) :
    (writeAll io out data).2.Stands io (bytes ++ data) (count + 1) ∧
      ((Capture.writeAll io out data).1 = false → ¬ AllWritten io count) := by
  have hpos := List.length_pos_iff.mpr hne
  cases h with
  | whole hall =>
    refine ⟨?_, fun hfalse ↦ by cases hfalse⟩
    rw [Capture.writeAll, if_neg Bool.false_ne_true]
    cases hio : io count with
    | all => exact .whole (allWritten_succ.mpr ⟨hall, hio⟩)
    | failed cut =>
      refine .broken (fun hnext ↦ ?_) ?_
      · have hlast := (allWritten_succ.mp hnext).2
        rw [hio] at hlast
        cases hlast
      · simp only [Written.reached, List.length_append, List.length_take, List.length_dropLast]
        omega
  | broken hnot hshort =>
    refine ⟨.broken (fun hall ↦ hnot (hall.mono (Nat.le_succ _))) ?_, fun _ ↦ hnot⟩
    rw [Capture.writeAll, List.length_append]
    split
    · exact Nat.lt_add_right _ hshort
    · have hle := @Written.length_reached_le data (io out.writes)
      rw [List.length_append]
      omega

theorem packetHeader_ne_nil {timestamp : SystemTime} {packet : Bytes} :
    packetHeader timestamp packet ≠ [] :=
  List.ne_nil_of_length_pos (by simp [packetHeader])

theorem Output.Stands.writePacket {packet : Bytes} (h : out.Stands io bytes count)
    (timestamp : SystemTime) (hne : packet ≠ []) :
    (writePacket io out timestamp packet).2.Stands io (bytes ++ recordBytes timestamp packet)
      (count + 2) ∧
      ((Capture.writePacket io out timestamp packet).1 = false → ¬ AllWritten io (count + 2)) := by
  obtain ⟨hheader, hfailed⟩ := h.writeAll (@packetHeader_ne_nil timestamp packet)
  rw [Capture.writePacket, recordBytes, ← List.append_assoc]
  split
  · obtain ⟨hbody, hfailed'⟩ := hheader.writeAll hne
    exact ⟨hbody, fun hfalse hall ↦ hfailed' hfalse (hall.mono (Nat.le_succ _))⟩
  · rename_i hfalse
    have hnot := hfailed (Bool.eq_false_of_not_eq_true hfalse)
    exact ⟨hheader.skip (fun hall ↦ hnot (hall.mono (Nat.le_succ _))) (Nat.le_succ _),
      fun _ hall ↦ hnot (hall.mono (Nat.le_add_right _ _))⟩

-- By induction on the packets: an error that is reported leaves the rest of them out.
theorem Output.Stands.writePackets {packets : List Bytes} (h : out.Stands io bytes count)
    (timestamp : SystemTime) (hne : ∀ packet ∈ packets, packet ≠ []) :
    (writePackets io out timestamp packets).Stands io
      (bytes ++ packets.flatMap (recordBytes timestamp)) (count + 2 * packets.length) := by
  induction packets generalizing out bytes count with
  | nil =>
    rw [List.flatMap_nil, List.append_nil]
    exact h
  | cons packet packets ih =>
    obtain ⟨hpacket, hfailed⟩ :=
      h.writePacket timestamp (hne packet List.mem_cons_self)
    have hcount : count + 2 * (packet :: packets).length = count + 2 + 2 * packets.length := by
      rw [List.length_cons]
      omega
    rw [Capture.writePackets, List.flatMap_cons, ← List.append_assoc, hcount]
    split
    · exact ih hpacket fun packet' hmem ↦ hne packet' (List.mem_cons_of_mem _ hmem)
    · rename_i hfalse
      exact hpacket.skip (hfailed (Bool.eq_false_of_not_eq_true hfalse)) (Nat.le_add_right _ _)

theorem chunkPacket_ne_nil {direction : TrafficDirection} {chunk : Bytes} :
    chunkPacket client target direction chunk ≠ [] := by
  cases direction <;> exact List.ne_nil_of_length_pos (by
    rw [chunkPacket, length_buildUdpPacket]
    omega)

theorem Output.Stands.writeCapture {packets : List Observed} (h : out.Stands io bytes count) :
    (writeCapture io client target out (packets.map Observed.message ++ [.finish])).Stands io
      (bytes ++ packets.flatMap (messageBytes client target)) (count + recordWrites packets) := by
  induction packets generalizing out bytes count with
  | nil =>
    rw [List.flatMap_nil, List.append_nil]
    exact h
  | cons packet packets ih =>
    have hne : ∀ bytes ∈ (chunks chunkSize packet.data).map
        (chunkPacket client target packet.direction), bytes ≠ [] := by
      intro bytes hbytes
      obtain ⟨chunk, -, rfl⟩ := List.mem_map.mp hbytes
      exact chunkPacket_ne_nil
    have hcount : count + recordWrites (packet :: packets) =
        count + 2 * ((chunks chunkSize packet.data).map
          (chunkPacket client target packet.direction)).length + recordWrites packets := by
      rw [recordWrites, recordWrites, List.map_cons, List.sum_cons, List.length_map]
      omega
    rw [List.flatMap_cons, ← List.append_assoc, hcount]
    exact ih (h.writePackets packet.timestamp hne)

/-- The file of a capture has its header and all records, or some write has failed and it is
shorter. -/
theorem captureFile_stands {packets : List Observed} : ∃ out : Output,
    captureFile io client target (packets.map Observed.message ++ [.finish]) = some out.file ∧
      out.Stands io (globalHeader ++ packets.flatMap (messageBytes client target))
        (1 + recordWrites packets) := by
  have hstart : Output.Stands io [] 0 ⟨[], 0, false⟩ :=
    .whole fun n hn ↦ absurd hn (Nat.not_lt_zero n)
  have hne : globalHeader ≠ [] := List.ne_nil_of_length_pos (by simp [globalHeader])
  obtain ⟨hheader, -⟩ := hstart.writeAll hne
  exact ⟨_, rfl, Nat.zero_add 1 ▸ hheader.writeCapture⟩

theorem captureFile_all {packets : List Observed} (hio : ∀ n, io n = .all) :
    captureFile io client target (packets.map Observed.message ++ [.finish]) =
      some (globalHeader ++ packets.flatMap (messageBytes client target)) := by
  obtain ⟨out, hfile, hstands⟩ := @captureFile_stands io client target packets
  cases hstands with
  | whole _ => exact hfile
  | broken hnot _ => exact absurd (fun n _ ↦ hio n) hnot

end

/-! ## What is read -/

def clientEnd (client : SocketAddr) : Ipv4Addr × Nat := (clientIp client, client.port.toNat)

def targetEnd (target : String) : Ipv4Addr × Nat := (targetIp target, (targetPort target).toNat)

/-- Where a datagram comes from and where it goes. -/
def route (client : SocketAddr) (target : String) :
    TrafficDirection → (Ipv4Addr × Nat) × (Ipv4Addr × Nat)
  | .clientToTarget => (clientEnd client, targetEnd target)
  | .targetToClient => (targetEnd target, clientEnd client)

/-- The records are those of the packet: at its time and stored in full, each is a datagram in its
direction, and the datagrams, none of them empty, have its data. -/
structure Decodes (client : SocketAddr) (target : String) (packet : Observed)
    (records : List PcapRecord) : Prop where
  time : ∀ record ∈ records, record.seconds = packet.timestamp.asSecs ∧
    record.micros = packet.timestamp.subsecMicros
  stored : ∀ record ∈ records, record.originalLength = record.data.length
  datagrams : ∃ datagrams : List Datagram,
    records.map (fun record ↦ Datagram.ofFrame record.data) = datagrams.map some ∧
    (∀ datagram ∈ datagrams,
      (datagram.source, datagram.destination) = route client target packet.direction ∧
        datagram.payload ≠ []) ∧
    datagrams.flatMap Datagram.payload = packet.data

/-- The same without the time. -/
structure Carries (client : SocketAddr) (target : String) (packet : Observed)
    (records : List PcapRecord) : Prop where
  stored : ∀ record ∈ records, record.originalLength = record.data.length
  datagrams : ∃ datagrams : List Datagram,
    records.map (fun record ↦ Datagram.ofFrame record.data) = datagrams.map some ∧
    (∀ datagram ∈ datagrams,
      (datagram.source, datagram.destination) = route client target packet.direction ∧
        datagram.payload ≠ []) ∧
    datagrams.flatMap Datagram.payload = packet.data

section

variable {io : Nat → Written} {client : SocketAddr} {target : String} {direction : TrafficDirection}
  {packet : Observed} {chunk : Bytes} {packets : List Observed}

theorem ofFrame_chunkPacket (h : chunk.length ≤ chunkSize) :
    Datagram.ofFrame (chunkPacket client target direction chunk) =
      some ⟨(route client target direction).1, (route client target direction).2, chunk⟩ := by
  cases direction <;> exact ofFrame_buildUdpPacket h

theorem length_chunkPacket :
    (chunkPacket client target direction chunk).length = 42 + chunk.length := by
  cases direction <;> exact length_buildUdpPacket

/-- The record of a chunk. -/
def chunkRecord (client : SocketAddr) (target : String) (packet : Observed) (chunk : Bytes) :
    PcapRecord where
  seconds := packet.timestamp.asSecs
  micros := packet.timestamp.subsecMicros
  originalLength := (chunkPacket client target packet.direction chunk).length
  data := chunkPacket client target packet.direction chunk

/-- As it is stored, where the seconds have four bytes. -/
def storedRecord (client : SocketAddr) (target : String) (packet : Observed) (chunk : Bytes) :
    PcapRecord :=
  { chunkRecord client target packet chunk with seconds := packet.timestamp.asSecs % 2 ^ 32 }

theorem read_recordBytes (hchunk : chunk.length ≤ chunkSize) (rest : Bytes) :
    PcapRecord.read (recordBytes packet.timestamp
      (chunkPacket client target packet.direction chunk) ++ rest) =
      some (storedRecord client target packet chunk, rest) := by
  have hlength : (chunkPacket client target packet.direction chunk).length < 2 ^ 32 := by
    rw [length_chunkPacket]
    unfold chunkSize at hchunk
    omega
  have hseconds : (UInt32.ofNat packet.timestamp.asSecs).toNat =
      packet.timestamp.asSecs % 2 ^ 32 := UInt32.toNat_ofNat'
  have hsubsec : packet.timestamp.subsecMicros < 2 ^ 32 := by
    unfold SystemTime.subsecMicros
    omega
  have hmicros : (UInt32.ofNat packet.timestamp.subsecMicros).toNat =
      packet.timestamp.subsecMicros := UInt32.toNat_ofNat_of_lt' hsubsec
  rw [recordBytes, packetHeader, PcapRecord.read_append hlength, hseconds, hmicros]
  rfl

def messageRecords (client : SocketAddr) (target : String) (packet : Observed) :
    List PcapRecord := (chunks chunkSize packet.data).map (chunkRecord client target packet)

def storedRecords (client : SocketAddr) (target : String) (packet : Observed) :
    List PcapRecord := (chunks chunkSize packet.data).map (storedRecord client target packet)

theorem storedRecords_eq (htime : packet.timestamp.asSecs < 2 ^ 32) :
    storedRecords client target packet = messageRecords client target packet := by
  apply List.map_congr_left
  intro chunk _
  rw [storedRecord, Nat.mod_eq_of_lt htime]
  rfl

-- The chunks of a packet are the payloads of its datagrams.
theorem carries_storedRecords :
    Carries client target packet (storedRecords client target packet) where
  stored := by
    intro record hrecord
    obtain ⟨chunk, -, rfl⟩ := List.mem_map.mp hrecord
    rfl
  datagrams := by
    have hpos : 0 < chunkSize := by decide
    refine ⟨(chunks chunkSize packet.data).map fun chunk ↦ ⟨(route client target
      packet.direction).1, (route client target packet.direction).2, chunk⟩, ?_, ?_, ?_⟩
    · rw [storedRecords, List.map_map, List.map_map]
      apply List.map_congr_left
      intro chunk hchunk
      exact ofFrame_chunkPacket (length_le_of_mem_chunks hchunk)
    · intro datagram hdatagram
      obtain ⟨chunk, hchunk, rfl⟩ := List.mem_map.mp hdatagram
      exact ⟨rfl, ne_nil_of_mem_chunks hpos hchunk⟩
    · rw [List.flatMap_map]
      show (chunks chunkSize packet.data).flatMap id = packet.data
      rw [List.flatMap_id, flatten_chunks hpos]

theorem decodes_messageRecords (htime : packet.timestamp.asSecs < 2 ^ 32) :
    Decodes client target packet (messageRecords client target packet) where
  time := by
    intro record hrecord
    obtain ⟨chunk, -, rfl⟩ := List.mem_map.mp hrecord
    exact ⟨rfl, rfl⟩
  stored := storedRecords_eq htime ▸ carries_storedRecords.stored
  datagrams := storedRecords_eq htime ▸ carries_storedRecords.datagrams

/-- The records of all packets are read one after the other. -/
theorem many_messageBytes :
    Reader.many PcapRecord.read (packets.flatMap (messageBytes client target)).length
      (packets.flatMap (messageBytes client target)) =
      some (packets.map (storedRecords client target)).flatten := by
  let items : List (Observed × Bytes) := packets.flatMap fun packet ↦
    (chunks chunkSize packet.data).map fun chunk ↦ (packet, chunk)
  let encode : Observed × Bytes → Bytes := fun item ↦
    recordBytes item.1.timestamp (chunkPacket client target item.1.direction item.2)
  let decode : Observed × Bytes → PcapRecord := fun item ↦
    storedRecord client target item.1 item.2
  have hitems : ∀ item ∈ items, item.2.length ≤ chunkSize := by
    intro item hitem
    obtain ⟨packet, -, hitem⟩ := List.mem_flatMap.mp hitem
    obtain ⟨chunk, hchunk, rfl⟩ := List.mem_map.mp hitem
    exact length_le_of_mem_chunks hchunk
  have hne : ∀ item ∈ items, encode item ≠ [] := by
    intro item _
    simp [encode, recordBytes, packetHeader, u32LeBytes, leBytes]
  have hbytes : packets.flatMap (messageBytes client target) = items.flatMap encode := by
    simp only [items, List.flatMap_assoc, List.flatMap_map]
    congr 1
    funext packet
    rw [messageBytes, List.flatMap_map]
  have hrecords : (packets.map (storedRecords client target)).flatten = items.map decode := by
    rw [← List.flatMap_def]
    simp only [items, List.map_flatMap, List.map_map]
    rfl
  rw [hbytes, hrecords]
  refine Reader.many_flatMap ?_ hne (Reader.length_le_flatMap hne)
  exact fun item hitem rest ↦ read_recordBytes (hitems item hitem) rest

theorem read_globalHeader (rest : Bytes) :
    PcapHeader.read (globalHeader ++ rest) = some (⟨2, 4, 0, 0, 65535, 1⟩, rest) := by
  simp [PcapHeader.read, globalHeader, PcapHeader.magic]

theorem parse_messageBytes :
    PcapFile.parse (globalHeader ++ packets.flatMap (messageBytes client target)) =
      some ⟨⟨2, 4, 0, 0, 65535, 1⟩, (packets.map (storedRecords client target)).flatten⟩ := by
  simp only [PcapFile.parse, read_globalHeader, many_messageBytes, Option.bind_eq_bind,
    Option.bind_some]
  rfl

/-- With no error in writing, the file of any packets is a capture file that is read back as
them. -/
theorem capture_decodes (hio : ∀ n, io n = .all)
    (htime : ∀ packet ∈ packets, packet.timestamp.asSecs < 2 ^ 32) :
    ∃ bytes file groups,
      captureFile io client target (packets.map Observed.message ++ [.finish]) = some bytes ∧
      PcapFile.parse bytes = some file ∧ file.header = ⟨2, 4, 0, 0, 65535, 1⟩ ∧
      file.records = groups.flatten ∧ List.Forall₂ (Decodes client target) packets groups := by
  refine ⟨_, _, packets.map (storedRecords client target), captureFile_all hio,
    parse_messageBytes, rfl, rfl, ?_⟩
  rw [List.forall₂_map_right_iff, List.forall₂_same]
  intro packet hpacket
  rw [storedRecords_eq (htime packet hpacket)]
  exact decodes_messageRecords (htime packet hpacket)

end

def sampleClient : SocketAddr := ⟨.v4 ⟨10, 0, 0, 7⟩, 50000⟩

def samplePackets : List Observed :=
  [⟨.clientToTarget, [1, 2, 3], ⟨1700000000123456789⟩⟩, ⟨.targetToClient, [], ⟨-1⟩⟩,
    ⟨.targetToClient, [4, 5], ⟨1700000001000000000⟩⟩]

-- Three messages, one of them empty.
theorem capture_decodes_sample : ∃ bytes file groups,
    captureFile (fun _ ↦ .all) sampleClient "10.0.0.5:8080"
      (samplePackets.map Observed.message ++ [.finish]) = some bytes ∧
    PcapFile.parse bytes = some file ∧ file.header = ⟨2, 4, 0, 0, 65535, 1⟩ ∧
    file.records = groups.flatten ∧
    List.Forall₂ (Decodes sampleClient "10.0.0.5:8080") samplePackets groups :=
  capture_decodes (fun _ ↦ rfl) (by decide)

end LabStreamGate.Capture
