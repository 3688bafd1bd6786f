import LabStreamGate.Capture.Writer
import LabStreamGate.Gateway.Requests
import LabStreamGate.Library.SocketText

/-!
# One target, read three times

`validate_target` checks a target, `TcpStream::connect` dials it and `write_capture` names it in the
packets of a capture.  Each of them takes the text apart for itself.
-/

namespace LabStreamGate.Gateway

open Capture (targetPort targetIp ipv4OrDocumentation)

variable {target : String} {hosts : List String}

/-! ## The dialer -/

/-- What a connection is made to: an address, or a name that is resolved first. -/
inductive Dialed
  | address (addr : SocketAddr)
  | name (host : String) (port : UInt16)

def Dialed.port : Dialed → UInt16
  | .address addr => addr.port
  | .name _ port => port

/-- The host as an allow-list would have it: the printed address, or the name in lower case. -/
def Dialed.host : Dialed → String
  | .address addr => addr.ip.toString
  | .name host _ => toAsciiLowercase host

/-- The address that is dialed, where it can stand in a packet of IPv4. -/
def Dialed.ipv4 : Dialed → Option Ipv4Addr
  | .address ⟨.v4 ip, _⟩ => some ip
  | .address ⟨.v6 ip, _⟩ => ip.toIpv4Mapped
  | .name _ _ => none

/-- What `TcpStream::connect` makes of a text: an address if it is one, and otherwise a name and a
port. -/
def connect (target : String) : Option Dialed :=
  match SocketAddr.fromStr target with
  | some addr => some (.address addr)
  | none =>
    (rsplitOnce ':' target).bind fun parts ↦ (parseU16 parts.2).map fun port ↦ .name parts.1 port

/-! ## The capture -/

/-- The port that is dialed stands after the last colon. -/
theorem connect_port {dialed : Dialed} (h : connect target = some dialed) :
    ((rsplitOnce ':' target).bind fun parts ↦ parseU16 parts.2) = some dialed.port := by
  unfold connect at h
  split at h
  · rename_i haddr
    cases h
    exact SocketAddr.fromStr_port haddr
  · obtain ⟨parts, hparts, hname⟩ := Option.bind_eq_some_iff.mp h
    obtain ⟨port, hport, rfl⟩ := Option.map_eq_some_iff.mp hname
    rw [hparts, Option.bind_some, hport]
    rfl

theorem targetPort_of_connect {dialed : Dialed} (h : connect target = some dialed) :
    targetPort target = dialed.port := by
  rw [targetPort, connect_port h, Option.getD_some]

theorem targetIp_of_connect {dialed : Dialed} {ip : Ipv4Addr} (h : connect target = some dialed)
    (hip : dialed.ipv4 = some ip) : targetIp target = ip := by
  unfold connect at h
  split at h
  · rename_i addr haddr
    cases h
    rw [targetIp, haddr, Option.map_some, Option.getD_some]
    obtain ⟨ip' | ip', port⟩ := addr
    · cases hip
      rfl
    · change ip'.toIpv4Mapped = some ip at hip
      rw [ipv4OrDocumentation, hip, Option.getD_some]
  · obtain ⟨parts, -, hname⟩ := Option.bind_eq_some_iff.mp h
    obtain ⟨port, -, rfl⟩ := Option.map_eq_some_iff.mp hname
    cases hip

/-! ## The check -/

theorem targetHost_name {host : String} {parts : String × String}
    (haddr : SocketAddr.fromStr target = none) (hparts : rsplitOnce ':' target = some parts)
    (h : targetHost target = .ok host) :
    toAsciiLowercase parts.1 = host ∧ ∃ port, parseU16 parts.2 = some port := by
  rw [targetHost, haddr, hparts] at h
  dsimp only at h
  split at h
  · cases h
  · rename_i hvalid
    obtain ⟨-, hport⟩ := not_or.mp (not_or.mp hvalid).2
    rw [Bool.not_eq_true, Option.isNone_eq_false_iff] at hport
    cases h
    exact ⟨rfl, Option.isSome_iff_exists.mp hport⟩

/-- A target that has a host to be checked is dialed at this host. -/
theorem connect_of_targetHost {host : String} (h : targetHost target = .ok host) :
    ∃ dialed, connect target = some dialed ∧ dialed.host = host := by
  cases haddr : SocketAddr.fromStr target with
  | some addr =>
    rw [targetHost, haddr] at h
    cases h
    exact ⟨.address addr, by rw [connect, haddr], rfl⟩
  | none =>
    cases hparts : rsplitOnce ':' target with
    | none =>
      rw [targetHost, haddr, hparts] at h
      cases h
    | some parts =>
      obtain ⟨rfl, port, hport⟩ := targetHost_name haddr hparts h
      refine ⟨.name parts.1 port, ?_, rfl⟩
      rw [connect, haddr, hparts]
      exact congrArg (Option.map _) hport

theorem mem_parseAllowedHosts {host : String} (h : host ∈ parseAllowedHosts hosts) :
    ∃ entry ∈ hosts, toAsciiLowercase (trim entry) = host :=
  List.mem_map.mp (List.mem_filter.mp h).1

/-- A target that passes the check is dialed at a host of the allow-list, and a capture has the port
that is dialed, and the address where it can have it. -/
theorem checked_target_dialed (h : validateTarget target (parseAllowedHosts hosts) = .ok ()) :
    ∃ dialed, connect target = some dialed ∧
      (∃ entry ∈ hosts, toAsciiLowercase (trim entry) = dialed.host) ∧
      ((rsplitOnce ':' target).bind fun parts ↦ parseU16 parts.2) = some dialed.port ∧
      targetPort target = dialed.port ∧
      ∀ ip, dialed.ipv4 = some ip → targetIp target = ip := by
  obtain ⟨host, hmem, hhost⟩ := validateTarget_eq_ok.mp h
  obtain ⟨dialed, hconnect, rfl⟩ := connect_of_targetHost hhost
  exact ⟨dialed, hconnect, mem_parseAllowedHosts hmem, connect_port hconnect,
    targetPort_of_connect hconnect, fun _ ↦ targetIp_of_connect hconnect⟩

/-- A mapped address with a scope and a port with a leading zero, on an allow-list that has the
address as it is printed. -/
theorem checked_target_dialed_sample : ∃ dialed,
    connect "[::FFFF:10.0.0.5%3]:0443" = some dialed ∧
      targetPort "[::FFFF:10.0.0.5%3]:0443" = dialed.port ∧
      ∀ ip, dialed.ipv4 = some ip → targetIp "[::FFFF:10.0.0.5%3]:0443" = ip := by
  obtain ⟨dialed, hconnect, -, -, hport, hip⟩ := @checked_target_dialed
    "[::FFFF:10.0.0.5%3]:0443" [" ::ffff:10.0.0.5\t"] (by decide +kernel)
  exact ⟨dialed, hconnect, hport, hip⟩

end LabStreamGate.Gateway
