import LabStreamGate.Desktop.Step
import LabStreamGate.Library.Substring

/-!
# The health ping

`update_instance_latency` asks the remote of an instance over HTTP.  It gets the URL from that of
the tunnel by putting `http` for `ws`, not only in the scheme but wherever the two letters stand.
-/

namespace LabStreamGate.Desktop

inductive Method
  | options
  deriving DecidableEq, Repr

/-- A request as `reqwest` is given it. -/
structure HttpRequest where
  method : Method
  url : String
  userAgent : String
  deriving DecidableEq, Repr

/-- What came of a request: it could not be built or sent, or it was answered. -/
inductive HttpOutcome
  | error
  | answered (status : UInt16) (millis : Nat)

/-- A request and what is made of its outcome. -/
structure HttpCall (α : Type) where
  request : HttpRequest
  resume : HttpOutcome → α

def isSuccess (status : UInt16) : Bool := 200 ≤ status && status < 300

/-- `CARGO_PKG_VERSION`. -/
def packageVersion : String := "0.6.6"

def updateInstanceLatency (data : InstanceData) : HttpCall (Except LatencyError Int) where
  request :=
    { method := .options
      url := replace data.remote "ws" "http"
      userAgent := "wsrx/" ++ packageVersion }
  resume
    | .error => .error .request
    | .answered status millis =>
      if isSuccess status then
        -- `as i32` keeps the low 32 bits
        .ok ((BitVec.ofNat 32 millis).toInt.tdiv 2)
      else .error (.nonSuccessStatus status)

/-- The ping asks `url`. -/
def Asks (data : InstanceData) (url : String) : Prop :=
  (updateInstanceLatency data).request.method = .options ∧
    (updateInstanceLatency data).request.url = url

theorem asks_iff {data : InstanceData} {url : String} :
    Asks data url ↔
      replaceFrom ['w', 's'] ['h', 't', 't', 'p'] 0 data.remote.toList = url.toList := by
  rw [Asks, and_iff_right (rfl : (updateInstanceLatency data).request.method = .options),
    ← String.toList_inj, updateInstanceLatency, replace, String.toList_ofList]
  rfl

/-- The health ping goes to the host and the path of the tunnel exactly where `ws` stands nowhere in
them. -/
theorem updateInstanceLatency_asks_iff (data : InstanceData) (rest : String) :
    (Asks { data with remote := "ws://" ++ rest } ("http://" ++ rest) ↔
        ¬ "ws".toList <:+: rest.toList) ∧
      (Asks { data with remote := "wss://" ++ rest } ("https://" ++ rest) ↔
        ¬ "ws".toList <:+: rest.toList) := by
  have hrest : replaceFrom ['w', 's'] ['h', 't', 't', 'p'] 0 rest.toList = rest.toList ↔
      ¬ "ws".toList <:+: rest.toList := replaceFrom_eq_self_iff (by decide) (by decide)
  rw [asks_iff, asks_iff, ← hrest]
  simp [replaceFrom]

/-- The tunnel goes to `aws.example`, the ping to `ahttp.example`. -/
theorem updateInstanceLatency_asks_other :
    ¬ ∀ (data : InstanceData) (rest : String),
      Asks { data with remote := "ws://" ++ rest } ("http://" ++ rest) ∧
        Asks { data with remote := "wss://" ++ rest } ("https://" ++ rest) := by
  intro h
  have hasks := (h ⟨"lab", "ws://aws.example", "127.0.0.1:4000", -1, "default-scope"⟩ "aws.example").1
  exact absurd hasks.2 (by decide)

end LabStreamGate.Desktop
