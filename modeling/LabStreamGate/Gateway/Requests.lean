import LabStreamGate.Library.SocketAddr
import LabStreamGate.Gateway.Registry

/-!
# Requests to the gateway and the checks they pass

The bodies of the management requests, who may send them, and which keys and targets they may
name.
-/

namespace LabStreamGate.Gateway

/-- `authorize_management`: the header holds the secret, after `Bearer ` or alone. -/
def authorizeManagement (secret : String) (authorization : Option HeaderValue) : Bool :=
  match authorization.bind HeaderValue.toStr with
  | some value => (stripPrefix "Bearer " value).getD value == secret
  | none => false

structure TunnelRequest where
  key : String
  target : String
  expiresAt : Option UInt64
  instanceId : String
  challengeId : String
  userId : String
  competitionId : Option String
  capture : Bool
  deriving DecidableEq, Repr

def TunnelRequest.names : List (List String) :=
  [["key", "from"], ["target", "to"], ["expiresAt"], ["instanceId"], ["challengeId"], ["userId"],
    ["competitionId"], ["capture"]]

def TunnelRequest.ofFields : List (Option Json) → Option TunnelRequest
  | [key, target, expiresAt, instanceId, challengeId, userId, competitionId, capture] => do
    return {
      key := ← Json.required Json.asStr key
      target := ← Json.required Json.asStr target
      expiresAt := ← Json.optional (Json.asOption Json.asU64) none expiresAt
      instanceId := ← Json.optional Json.asStr "" instanceId
      challengeId := ← Json.optional Json.asStr "" challengeId
      userId := ← Json.optional Json.asStr "" userId
      competitionId := ← Json.optional (Json.asOption Json.asStr) none competitionId
      capture := ← Json.optional Json.asBool false capture }
  | _ => none

def TunnelRequest.ofJson (j : Json) : Option TunnelRequest :=
  (j.fields names).bind ofFields

/-- The record a request asks for. -/
def TunnelRequest.record (req : TunnelRequest) : TunnelRecord where
  target := req.target
  expiresAt := req.expiresAt
  instanceId := req.instanceId
  challengeId := req.challengeId
  userId := req.userId
  competitionId := req.competitionId
  capture := req.capture

structure CloseTunnelRequest where
  key : String
  deriving DecidableEq, Repr

def CloseTunnelRequest.ofFields : List (Option Json) → Option CloseTunnelRequest
  | [key] => (Json.required Json.asStr key).map CloseTunnelRequest.mk
  | _ => none

def CloseTunnelRequest.ofJson (j : Json) : Option CloseTunnelRequest :=
  (j.fields [["key", "from"]]).bind ofFields

/-! ## Keys and targets -/

def isAsciiAlphanumeric (b : UInt8) : Bool :=
  (48 ≤ b && b ≤ 57) || (65 ≤ b && b ≤ 90) || (97 ≤ b && b ≤ 122)

/-- Letters, digits, `-` and `_`. -/
def isKeyByte (b : UInt8) : Bool := isAsciiAlphanumeric b || b == 45 || b == 95

/-- Letters, digits, `.` and `-`. -/
def isHostByte (b : UInt8) : Bool := isAsciiAlphanumeric b || b == 46 || b == 45

def validateKey (key : String) : Except Refusal Unit :=
  let bytes := utf8 key
  if 16 ≤ bytes.length ∧ bytes.length ≤ 128 ∧ bytes.all isKeyByte then .ok ()
  else .error (.badRequest, "key must contain 16-128 URL-safe ASCII characters")

/-- The host that is looked up in the allow-list: the printed address where the target is a
socket address, else the name before the last colon in lower case. -/
def targetHost (target : String) : Except Refusal String :=
  match SocketAddr.fromStr target with
  | some address => .ok address.ip.toString
  | none =>
    match rsplitOnce ':' target with
    | none => .error (.badRequest, "target must include a host and port")
    | some (host, port) =>
      if host = "" ∨ ¬ (utf8 host).all isHostByte ∨ (parseU16 port).isNone then
        .error (.badRequest, "invalid tunnel target")
      else .ok (toAsciiLowercase host)

def validateTarget (target : String) (allowedHosts : List String) : Except Refusal Unit :=
  match targetHost target with
  | .error refusal => .error refusal
  | .ok host =>
    if host ∈ allowedHosts then .ok ()
    else .error (.forbidden, "target host is not allowed")

/-- The hosts of a command line, in lower case and without blank ones. -/
def parseAllowedHosts (hosts : List String) : List String :=
  (hosts.map fun host ↦ toAsciiLowercase (trim host)).filter (· ≠ "")

/-- `targetHost` accepts the target and the list holds the host it stands for. -/
theorem validateTarget_eq_ok {target : String} {allowedHosts : List String} :
    validateTarget target allowedHosts = .ok () ↔
      ∃ host ∈ allowedHosts, targetHost target = .ok host := by
  unfold validateTarget
  cases targetHost target with
  | error refusal => simp
  | ok host => simp

example : validateKey "instance-key-0001" = .ok () := by decide
example : validateTarget "Node.Lab:8080" (parseAllowedHosts [" node.lab "]) = .ok () := by decide
example : validateTarget "10.0.0.7:22" (parseAllowedHosts ["10.0.0.5"]) =
    .error (.forbidden, "target host is not allowed") := by decide

end LabStreamGate.Gateway
