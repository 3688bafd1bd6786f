import LabStreamGate.Library.SocketAddr
import LabStreamGate.Library.Wire

/-!
# Packet captures

Readers for a classic little-endian capture file with microsecond timestamps, and for the UDP
datagram in an Ethernet frame.  A reader takes nothing where a length does not fit what is there.
-/

namespace LabStreamGate

/-! ## Capture files -/

structure PcapHeader where
  versionMajor : Nat
  versionMinor : Nat
  thiszone : Nat
  sigfigs : Nat
  snaplen : Nat
  network : Nat
  deriving DecidableEq, Repr

/-- A packet as it is stored, and how long it was. -/
structure PcapRecord where
  seconds : Nat
  micros : Nat
  originalLength : Nat
  data : Bytes
  deriving DecidableEq, Repr

structure PcapFile where
  header : PcapHeader
  records : List PcapRecord
  deriving DecidableEq, Repr

namespace PcapHeader

def magic : Nat := 0xa1b2c3d4

def read : Reader PcapHeader := fun bs ↦ do
  let (number, bs) ← Reader.le 4 bs
  if number ≠ magic then none
  let (versionMajor, bs) ← Reader.le 2 bs
  let (versionMinor, bs) ← Reader.le 2 bs
  let (thiszone, bs) ← Reader.le 4 bs
  let (sigfigs, bs) ← Reader.le 4 bs
  let (snaplen, bs) ← Reader.le 4 bs
  let (network, bs) ← Reader.le 4 bs
  return (⟨versionMajor, versionMinor, thiszone, sigfigs, snaplen, network⟩, bs)

end PcapHeader

namespace PcapRecord

def read : Reader PcapRecord := fun bs ↦ do
  let (seconds, bs) ← Reader.le 4 bs
  let (micros, bs) ← Reader.le 4 bs
  let (length, bs) ← Reader.le 4 bs
  let (originalLength, bs) ← Reader.le 4 bs
  let (data, bs) ← Reader.bytes length bs
  return (⟨seconds, micros, originalLength, data⟩, bs)

/-- A record that is stored in full. -/
theorem read_append {seconds micros : UInt32} {data rest : Bytes} (hlength : data.length < 2 ^ 32) :
    read (u32LeBytes seconds ++ u32LeBytes micros ++ u32LeBytes (UInt32.ofNat data.length) ++
      u32LeBytes (UInt32.ofNat data.length) ++ data ++ rest) =
      some (⟨seconds.toNat, micros.toNat, data.length, data⟩, rest) := by
  have hdata : (UInt32.ofNat data.length).toNat = data.length := UInt32.toNat_ofNat_of_lt' hlength
  simp [read, hdata, Reader.bytes_append]

end PcapRecord

/-- The whole of a file: a header and then records to the end. -/
def PcapFile.parse (bs : Bytes) : Option PcapFile := do
  let (header, bs) ← PcapHeader.read bs
  let records ← Reader.many PcapRecord.read bs.length bs
  return ⟨header, records⟩

theorem PcapHeader.length_of_read {bs rest : Bytes} {header : PcapHeader}
    (h : read bs = some (header, rest)) : bs.length = 24 + rest.length := by
  simp only [read, Option.bind_eq_bind, Option.bind_eq_some_iff, Prod.exists, Option.pure_def,
    Option.some.injEq, Prod.mk.injEq, Option.bind_none, Option.ite_none_left_eq_some] at h
  obtain ⟨_, _, hmagic, -, _, _, hmajor, _, _, hminor, _, _, hzone, _, _, hsigfigs, _, _, hsnaplen,
    _, _, hnetwork, -, rfl⟩ := h
  rw [Reader.length_of_le hmagic, Reader.length_of_le hmajor, Reader.length_of_le hminor,
    Reader.length_of_le hzone, Reader.length_of_le hsigfigs, Reader.length_of_le hsnaplen,
    Reader.length_of_le hnetwork]
  omega

/-- A record takes sixteen bytes more than its packet. -/
theorem PcapRecord.length_of_read {bs rest : Bytes} {record : PcapRecord}
    (h : read bs = some (record, rest)) :
    bs.length = 16 + record.data.length + rest.length := by
  simp only [read, Option.bind_eq_bind, Option.bind_eq_some_iff, Prod.exists, Option.pure_def,
    Option.some.injEq, Prod.mk.injEq] at h
  obtain ⟨_, _, hseconds, _, _, hmicros, _, _, hlength, _, _, horiginal, data, _, hdata, rfl, rfl⟩ :=
    h
  have hpart : data.length = _ := (Reader.bytes_eq_some hdata).2
  show bs.length = 16 + data.length + _
  rw [Reader.length_of_le hseconds, Reader.length_of_le hmicros, Reader.length_of_le hlength,
    Reader.length_of_le horiginal, Reader.length_of_bytes hdata, ← hpart]
  omega

/-- The header and the records of a file are all that there is in it. -/
theorem PcapFile.length_of_parse {bs : Bytes} {file : PcapFile} (h : parse bs = some file) :
    bs.length = 24 + (file.records.map fun record ↦ 16 + record.data.length).sum := by
  simp only [parse, Option.bind_eq_bind, Option.bind_eq_some_iff, Prod.exists, Option.pure_def,
    Option.some.injEq] at h
  obtain ⟨header, rest, hheader, records, hrecords, rfl⟩ := h
  rw [PcapHeader.length_of_read hheader,
    Reader.length_of_many (fun _ _ _ ↦ PcapRecord.length_of_read) hrecords]

/-! ## Datagrams -/

/-- A UDP datagram and where it goes. -/
structure Datagram where
  source : Ipv4Addr × Nat
  destination : Ipv4Addr × Nat
  payload : Bytes
  deriving DecidableEq, Repr

namespace Datagram

def readIpv4Addr : Reader Ipv4Addr
  | a :: b :: c :: d :: bs => some (⟨a, b, c, d⟩, bs)
  | _ => none

/-- The payload of an Ethernet frame with an IPv4 packet. -/
def ofEthernet (bs : Bytes) : Option Bytes := do
  let (_, bs) ← Reader.bytes 12 bs
  let (etherType, bs) ← Reader.be 2 bs
  if etherType ≠ 0x0800 then none
  return bs

/-- The addresses and the payload of an unfragmented IPv4 packet with UDP, whose total length is
the length that it has. -/
def ofIpv4 (packet : Bytes) : Option (Ipv4Addr × Ipv4Addr × Bytes) := do
  let (version, bs) ← Reader.be 1 packet
  let headerLength := version % 16 * 4
  if version / 16 ≠ 4 ∨ headerLength < 20 then none
  let (_, bs) ← Reader.be 1 bs
  let (totalLength, bs) ← Reader.be 2 bs
  if totalLength ≠ packet.length then none
  let (_, bs) ← Reader.be 2 bs
  let (fragment, bs) ← Reader.be 2 bs
  if fragment % 0x4000 ≠ 0 then none
  let (_, bs) ← Reader.be 1 bs
  let (protocol, bs) ← Reader.be 1 bs
  if protocol ≠ 17 then none
  let (_, bs) ← Reader.be 2 bs
  let (source, bs) ← readIpv4Addr bs
  let (destination, bs) ← readIpv4Addr bs
  let (_, bs) ← Reader.bytes (headerLength - 20) bs
  return (source, destination, bs)

/-- The ports and the payload of a UDP datagram, whose length is the one that it has. -/
def ofUdp (datagram : Bytes) : Option (Nat × Nat × Bytes) := do
  let (source, bs) ← Reader.be 2 datagram
  let (destination, bs) ← Reader.be 2 bs
  let (length, bs) ← Reader.be 2 bs
  if length ≠ datagram.length then none
  let (_, bs) ← Reader.be 2 bs
  return (source, destination, bs)

def ofFrame (frame : Bytes) : Option Datagram := do
  let packet ← ofEthernet frame
  let (source, destination, datagram) ← ofIpv4 packet
  let (sourcePort, destinationPort, payload) ← ofUdp datagram
  return ⟨(source, sourcePort), (destination, destinationPort), payload⟩

/-! How long a frame has to be, and how much can be in it. -/

theorem length_of_readIpv4Addr {bs rest : Bytes} {address : Ipv4Addr}
    (h : readIpv4Addr bs = some (address, rest)) : bs.length = 4 + rest.length := by
  unfold readIpv4Addr at h
  split at h
  · cases h
    simp only [List.length_cons]
    omega
  · cases h

theorem length_of_ofEthernet {frame packet : Bytes} (h : ofEthernet frame = some packet) :
    frame.length = 14 + packet.length := by
  simp only [ofEthernet, Option.bind_eq_bind, Option.bind_eq_some_iff, Prod.exists,
    Option.pure_def, Option.some.injEq, Option.bind_none, Option.ite_none_left_eq_some] at h
  obtain ⟨_, _, haddresses, _, _, htype, -, rfl⟩ := h
  rw [Reader.length_of_bytes haddresses, Reader.length_of_be htype]
  omega

theorem length_of_ofIpv4 {packet datagram : Bytes} {source destination : Ipv4Addr}
    (h : ofIpv4 packet = some (source, destination, datagram)) :
    20 + datagram.length ≤ packet.length ∧ packet.length < 65536 := by
  simp only [ofIpv4, Option.bind_eq_bind, Option.bind_eq_some_iff, Prod.exists, Option.pure_def,
    Option.some.injEq, Prod.mk.injEq, Option.bind_none, Option.ite_none_left_eq_some,
    Decidable.not_not] at h
  obtain ⟨_, _, hversion, -, _, _, hservice, _, _, htotal, hlength, _, _, hid, _, _, hfragment, -,
    _, _, httl, _, _, hprotocol, -, _, _, hchecksum, _, _, hsource, _, _, hdestination, _, _,
    hoptions, -, -, rfl⟩ := h
  have hbound := Reader.be_lt htotal
  rw [hlength] at hbound
  refine ⟨?_, hbound⟩
  rw [Reader.length_of_be hversion, Reader.length_of_be hservice, Reader.length_of_be htotal,
    Reader.length_of_be hid, Reader.length_of_be hfragment, Reader.length_of_be httl,
    Reader.length_of_be hprotocol, Reader.length_of_be hchecksum,
    length_of_readIpv4Addr hsource, length_of_readIpv4Addr hdestination,
    Reader.length_of_bytes hoptions]
  omega

theorem length_of_ofUdp {datagram payload : Bytes} {source destination : Nat}
    (h : ofUdp datagram = some (source, destination, payload)) :
    datagram.length = 8 + payload.length := by
  simp only [ofUdp, Option.bind_eq_bind, Option.bind_eq_some_iff, Prod.exists, Option.pure_def,
    Option.some.injEq, Prod.mk.injEq, Option.bind_none, Option.ite_none_left_eq_some] at h
  obtain ⟨_, _, hsource, _, _, hdestination, _, _, hlength, -, _, _, hchecksum, -, -, rfl⟩ := h
  rw [Reader.length_of_be hsource, Reader.length_of_be hdestination, Reader.length_of_be hlength,
    Reader.length_of_be hchecksum]
  omega

/-- A frame has at least forty-two bytes before its payload, which the length of an IPv4 packet
bounds. -/
theorem length_of_ofFrame {frame : Bytes} {datagram : Datagram}
    (h : ofFrame frame = some datagram) :
    42 + datagram.payload.length ≤ frame.length ∧ datagram.payload.length ≤ 65507 := by
  simp only [ofFrame, Option.bind_eq_bind, Option.bind_eq_some_iff, Prod.exists, Option.pure_def,
    Option.some.injEq] at h
  obtain ⟨packet, hpacket, _, _, udp, hudp, _, _, payload, hpayload, rfl⟩ := h
  have hframe := length_of_ofEthernet hpacket
  obtain ⟨hle, hlt⟩ := length_of_ofIpv4 hudp
  have hdatagram := length_of_ofUdp hpayload
  show 42 + payload.length ≤ frame.length ∧ payload.length ≤ 65507
  omega

end Datagram

end LabStreamGate
