import LabStreamGate.Library.Http
import LabStreamGate.Library.SocketAddr
import LabStreamGate.Library.Wire
import LabStreamGate.Relay.Message

/-!
# Writing a capture file

The task that gets the observed packets writes them to the file of the connection, as datagrams
between the client and the target.  A `write_all` hands its bytes over; they are written afterwards,
and the outside world decides how that goes.
-/

namespace LabStreamGate.Capture

open Relay (TrafficDirection)

/-! ## Datagrams -/

/-- The sum of the big-endian words of a header; a last single byte is left out. -/
def sumWords (sum : Nat) : Bytes → Nat
  | high :: low :: header => sumWords (sum + (high.toNat * 256 + low.toNat)) header
  | _ => sum

/-- Adds the upper half to the lower one until there is none. -/
def foldCarries (sum : Nat) : Nat :=
  if sum / 65536 = 0 then sum else foldCarries (sum % 65536 + sum / 65536)
  termination_by sum
  decreasing_by omega

def ipv4Checksum (header : Bytes) : UInt16 := ~~~UInt16.ofNat (foldCarries (sumWords 0 header))

/-- The twenty bytes of the IPv4 header. -/
def ipv4Header (totalLength checksum : UInt16) (source dest : Ipv4Addr) : Bytes :=
  [0x45, 0] ++ u16BeBytes totalLength ++ [0, 0] ++ u16BeBytes 0x4000 ++ [64, 17] ++
    u16BeBytes checksum ++ source.octets ++ dest.octets

def buildUdpPacket (sourceIp : Ipv4Addr) (sourcePort : UInt16) (destIp : Ipv4Addr)
    (destPort : UInt16) (payload : Bytes) : Bytes :=
  let ipLength := 20 + 8 + payload.length
  -- the checksum is that of the header without it
  let checksum := ipv4Checksum (ipv4Header (UInt16.ofNat ipLength) 0 sourceIp destIp)
  List.replicate 12 0 ++ u16BeBytes 0x0800 ++
    ipv4Header (UInt16.ofNat ipLength) checksum sourceIp destIp ++
    u16BeBytes sourcePort ++ u16BeBytes destPort ++
    u16BeBytes (UInt16.ofNat (8 + payload.length)) ++ [0, 0] ++ payload

/-! ## The file -/

/-- A point in time, as nanoseconds since the epoch. -/
structure SystemTime where
  nanos : Int
  deriving DecidableEq, Repr

/-- `duration_since(UNIX_EPOCH).unwrap_or_default()`, in nanoseconds. -/
def SystemTime.sinceEpoch (time : SystemTime) : Nat := time.nanos.toNat

def SystemTime.asSecs (time : SystemTime) : Nat := time.sinceEpoch / 1000000000

def SystemTime.subsecMicros (time : SystemTime) : Nat := time.sinceEpoch % 1000000000 / 1000

/-- How a write to the disk goes: all of it is written, or it fails after some bytes. -/
inductive Written
  | all
  | failed (count : Nat)
  deriving DecidableEq, Repr

def Written.isAll : Written → Bool
  | .all => true
  | .failed _ => false

/-- The bytes that reach the disk; a write that fails leaves out the last one at least. -/
def Written.reached : Written → Bytes → Bytes
  | .all, data => data
  | .failed count, data => data.dropLast.take count

/-- What is on the disk, how many writes there have been, and whether the last one has failed and
nobody has been told yet. -/
structure Output where
  file : Bytes
  writes : Nat
  failed : Bool
  deriving DecidableEq, Repr

inductive CaptureMessage
  | packet (direction : TrafficDirection) (data : Bytes) (timestamp : SystemTime)
  | finish
  deriving DecidableEq, Repr

def ipv4OrDocumentation (address : IpAddr) (fallback : Ipv4Addr) : Ipv4Addr :=
  match address with
  | .v4 address => address
  | .v6 address => address.toIpv4Mapped.getD fallback

def globalHeader : Bytes :=
  u32LeBytes 0xa1b2c3d4 ++ u16LeBytes 2 ++ u16LeBytes 4 ++ u32LeBytes 0 ++ u32LeBytes 0 ++
    u32LeBytes 65535 ++ u32LeBytes 1

section

variable (io : Nat → Written)

/-- Whether the bytes were taken over, and what there is once they have been written.  A write that
has failed is reported by the next call, which takes nothing over. -/
def writeAll (out : Output) (data : Bytes) : Bool × Output :=
  if out.failed then (false, { out with failed := false })
  else
    (true, ⟨out.file ++ (io out.writes).reached data, out.writes + 1, !(io out.writes).isAll⟩)

def writeGlobalHeader (out : Output) : Bool × Output := writeAll io out globalHeader

def packetHeader (timestamp : SystemTime) (packet : Bytes) : Bytes :=
  u32LeBytes (UInt32.ofNat timestamp.asSecs) ++ u32LeBytes (UInt32.ofNat timestamp.subsecMicros) ++
    u32LeBytes (UInt32.ofNat packet.length) ++ u32LeBytes (UInt32.ofNat packet.length)

def writePacket (out : Output) (timestamp : SystemTime) (packet : Bytes) : Bool × Output :=
  let header := writeAll io out (packetHeader timestamp packet)
  if header.1 then writeAll io header.2 packet else header

/-- The packets of one message: an error that is reported ends them. -/
def writePackets (out : Output) (timestamp : SystemTime) : List Bytes → Output
  | [] => out
  | packet :: packets =>
    let written := writePacket io out timestamp packet
    if written.1 then writePackets written.2 timestamp packets else written.2

end

/-- The most that fits a datagram. -/
def chunkSize : Nat := 65507

def targetPort (target : String) : UInt16 :=
  ((rsplitOnce ':' target).bind fun parts ↦ parseU16 parts.2).getD 0

def clientIp (client : SocketAddr) : Ipv4Addr := ipv4OrDocumentation client.ip ⟨192, 0, 2, 1⟩

def targetIp (target : String) : Ipv4Addr :=
  ((SocketAddr.fromStr target).map fun address ↦
    ipv4OrDocumentation address.ip ⟨192, 0, 2, 2⟩).getD ⟨192, 0, 2, 2⟩

/-- The packet of a chunk, between the two ends in the direction. -/
def chunkPacket (client : SocketAddr) (target : String) (direction : TrafficDirection)
    (chunk : Bytes) : Bytes :=
  match direction with
  | .clientToTarget =>
    buildUdpPacket (clientIp client) client.port (targetIp target) (targetPort target) chunk
  | .targetToClient =>
    buildUdpPacket (targetIp target) (targetPort target) (clientIp client) client.port chunk

/-- `write_capture`, from the messages that it receives. -/
def writeCapture (io : Nat → Written) (client : SocketAddr) (target : String) (out : Output) :
    List CaptureMessage → Output
  | [] => out
  | .packet direction data timestamp :: messages =>
    let out := writePackets io out timestamp
      ((chunks chunkSize data).map (chunkPacket client target direction))
    writeCapture io client target out messages
  -- the flush waits for the last write; what it says of it is dropped
  | .finish :: _ => out

/-- The file of a `CaptureSession::start` that could make one, and of the messages after it; none
where it reports an error. -/
def captureFile (io : Nat → Written) (client : SocketAddr) (target : String)
    (messages : List CaptureMessage) : Option Bytes :=
  let started := writeGlobalHeader io ⟨[], 0, false⟩
  if started.1 then some (writeCapture io client target started.2 messages).file else none

end LabStreamGate.Capture
