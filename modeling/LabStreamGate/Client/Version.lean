import LabStreamGate.Library.Json
import LabStreamGate.Library.Lines

/-!
# The version gate of the browser client

`connect` asks the daemon for its version before anything else.  The daemon answers with a string,
and the client compares the `version` of what it has got.
-/

namespace LabStreamGate.Client

/-! ## Versions -/

/-- A number in decimal digits. -/
def component (digits : List Char) : Option Nat :=
  if !digits.isEmpty && digits.all Char.isDigit then some (Nat.ofDigitChars 10 digits 0) else none

/-- The components of a dotted numeric version. -/
def components (version : String) : Option (List Nat) :=
  (split '.' version.toList).mapM component

/-- Component by component; those that are missing are zero. -/
def isLower : List Nat → List Nat → Bool
  | [], ns => ns.any (0 < ·)
  | _, [] => false
  | m :: ms, n :: ns => decide (m < n) || (m == n && isLower ms ns)

example : isLower [0, 10] [0, 4] = false ∧ isLower [0, 3, 9] [0, 4] = true ∧
    components "0.10.2" = some [0, 10, 2] := by decide

def wsrxMinimumRequired : String := "0.4"

/-- A dotted numeric version, and lower than the required one. -/
def IsTooLow (version : String) : Prop :=
  ∃ ns ms, components version = some ns ∧ components wsrxMinimumRequired = some ms ∧
    isLower ns ms = true

/-! ## Values of JavaScript -/

/-- What a property of a parsed text can be. -/
inductive Value
  | undefined
  | string (s : String)
  | other (json : Json)

/-- How a value that is no string is compared with one, and printed. -/
structure Coercion where
  lessThan : Json → String → Bool
  toString : Json → String

/-- `data[name]`; `null` has no properties, and asking it for one throws. -/
def property (name : String) : Json → Option Value
  | .null => none
  | .obj fields =>
    match fields.find? (·.1 = name) with
    | some (_, .str s) => some (.string s)
    | some (_, json) => some (.other json)
    | none => some .undefined
  | _ => some .undefined

/-- The code units of a character. -/
def codeUnits (c : Char) : List Nat :=
  let n := c.val.toNat
  if n < 0x10000 then [n] else [0xD800 + (n - 0x10000) / 0x400, 0xDC00 + (n - 0x10000) % 0x400]

section

variable (js : Coercion)

/-- `left < right`.  What is undefined is not a number, and nothing is less or more than that. -/
def lessThan (left : Value) (right : String) : Bool :=
  match left with
  | .undefined => false
  | .string left => decide (left.toList.flatMap codeUnits < right.toList.flatMap codeUnits)
  | .other json => js.lessThan json right

def Value.toString : Value → String
  | .undefined => "undefined"
  | .string s => s
  | .other json => js.toString json

end

/-! ## `checkVersion` and `connect` -/

inductive WsrxState
  | invalid
  | pending
  | usable
  deriving DecidableEq, Repr

inductive WsrxErrorKind
  | daemonUnavailable
  | versionMismatch
  | daemonError
  deriving DecidableEq, Repr

structure WsrxError where
  kind : WsrxErrorKind
  message : String
  deriving DecidableEq, Repr

/-- What is thrown: an `HTTPError` of `ky`, an error of the client, or any other. -/
inductive Thrown
  | http (status : Nat) (text : String)
  | wsrx (error : WsrxError)
  | other

section

variable (js : Coercion)

/-- What `checkVersion` tries, with what has been fetched from `/version`. -/
def tryVersion (state : WsrxState) : Except Thrown Json → WsrxState × Except Thrown Unit
  | .error thrown => (state, .error thrown)
  | .ok data =>
    match property "version" data with
    | none => (state, .error .other)
    | some version =>
      if lessThan js version wsrxMinimumRequired then
        (.invalid, .error (.wsrx ⟨.versionMismatch, "wsrx version " ++ version.toString js ++
          " is lower than required " ++ wsrxMinimumRequired⟩))
      else (state, .ok ())

/-- What it throws for what it catches. -/
def catchVersion : Thrown → WsrxError
  | .http status text =>
    if status = 404 then
      ⟨.versionMismatch, "wsrx version is lower than required " ++ wsrxMinimumRequired⟩
    else ⟨.daemonError, text⟩
  | _ => ⟨.daemonUnavailable, "Failed to check wsrx version, is wsrx daemon running?"⟩

def checkVersion (state : WsrxState) (version : Except Thrown Json) :
    WsrxState × Except WsrxError Unit :=
  let tried := tryVersion js state version
  (tried.1, tried.2.mapError catchVersion)

/-- The state after a `check`, from the status that came back. -/
def check : Except Thrown Nat → WsrxState
  | .ok 202 => .usable
  | .ok 201 => .pending
  | _ => .invalid

def catchConnect : Thrown → WsrxError
  | .http _ text => ⟨.daemonUnavailable, "Failed to connect to wsrx daemon: " ++ text⟩
  | _ => ⟨.daemonUnavailable, "Failed to connect to wsrx daemon"⟩

/-- `connect`, with what comes back from `/version`, from the first `check`, from the request for
control and from the second `check`. -/
def connect (state : WsrxState) (version : Except Thrown Json) (checked : Except Thrown Nat)
    (requested : Except Thrown Unit) (checkedAgain : Except Thrown Nat) :
    WsrxState × Except WsrxError Unit :=
  match checkVersion js state version with
  | (state, .error error) => (state, .error error)
  | (_, .ok ()) =>
    match check checked with
    | .invalid =>
      match requested with
      | .ok () => (check checkedAgain, .ok ())
      | .error thrown => (.invalid, .error (catchConnect thrown))
    | state => (state, .ok ())

end

/-- The answer of the daemon, `Json` of its version. -/
def served (version : String) : Json := .str version

variable {js : Coercion} {state : WsrxState} {version : Except Thrown Json}
  {checked checkedAgain : Except Thrown Nat} {requested : Except Thrown Unit} {v : String}

/-! ## What comes of a version -/

/-- A version that is too low is never reported as such: what is thrown for it is caught, and only a
daemon without `/version` is left. -/
theorem checkVersion_versionMismatch_iff :
    (∃ message, (checkVersion js state version).2 = .error ⟨.versionMismatch, message⟩) ↔
      ∃ text, version = .error (.http 404 text) := by
  constructor
  · rintro ⟨message, hthrown⟩
    cases htried : (tryVersion js state version).2 with
    | ok =>
      rw [checkVersion, htried] at hthrown
      cases hthrown
    | error thrown =>
      rw [checkVersion, htried] at hthrown
      have hcaught : catchVersion thrown = ⟨.versionMismatch, message⟩ := Except.error.inj hthrown
      cases thrown with
      | wsrx error => cases hcaught
      | other => cases hcaught
      | http status text =>
        have hstatus : status = 404 := by
          by_contra hne
          rw [catchVersion, if_neg hne] at hcaught
          cases hcaught
        subst hstatus
        cases version with
        | error thrown => exact ⟨text, congrArg Except.error (Except.error.inj htried)⟩
        | ok data =>
          simp only [tryVersion] at htried
          split at htried
          · cases htried
          · split at htried <;> cases htried
  · rintro ⟨text, rfl⟩
    exact ⟨_, rfl⟩

/-- `connect` reports such a version only if `checkVersion` does. -/
theorem connect_versionMismatch_iff :
    (∃ message, (connect js state version checked requested checkedAgain).2 =
      .error ⟨.versionMismatch, message⟩) ↔ ∃ text, version = .error (.http 404 text) := by
  rw [← @checkVersion_versionMismatch_iff js state version]
  unfold connect
  rcases checkVersion js state version with ⟨state, error | ⟨⟨⟩⟩⟩
  · exact Iff.rfl
  · refine iff_of_false ?_ fun ⟨_, h⟩ ↦ nomatch h
    rintro ⟨message, h⟩
    dsimp only at h
    split at h
    · split at h
      · cases h
      · rename_i thrown
        cases thrown <;> cases h
    · cases h

/-- The version that is served is a string and has none of its own. -/
theorem checkVersion_served : checkVersion js state (.ok (served v)) = (state, .ok ()) := rfl

/-- The gate does what it is for exactly with the versions that are not too low. -/
theorem versionGate_iff (js : Coercion) (state : WsrxState) (v : String)
    (checked : Except Thrown Nat) (requested : Except Thrown Unit)
    (checkedAgain : Except Thrown Nat) :
    ((IsTooLow v → ∃ message,
        (connect js state (.ok (served v)) checked requested checkedAgain).2 =
          .error ⟨.versionMismatch, message⟩) ∧
      (¬IsTooLow v → (checkVersion js state (.ok (served v))).2 = .ok ())) ↔ ¬IsTooLow v := by
  constructor
  · rintro ⟨hmismatch, -⟩ hlow
    obtain ⟨text, htext⟩ := connect_versionMismatch_iff.mp (hmismatch hlow)
    cases htext
  · intro hlow
    refine ⟨fun h ↦ absurd h hlow, fun _ ↦ ?_⟩
    rw [checkVersion_served]

/-- The daemon of version 0.3.9 is connected to. -/
theorem versionGate_lets_in : ¬∀ (js : Coercion) (state : WsrxState) (v : String)
    (checked : Except Thrown Nat) (requested : Except Thrown Unit)
    (checkedAgain : Except Thrown Nat),
    (IsTooLow v → ∃ message,
      (connect js state (.ok (served v)) checked requested checkedAgain).2 =
        .error ⟨.versionMismatch, message⟩) ∧
    (¬IsTooLow v → (checkVersion js state (.ok (served v))).2 = .ok ()) := by
  intro h
  obtain ⟨hmismatch, -⟩ := h ⟨fun _ _ ↦ false, fun _ ↦ ""⟩ .invalid "0.3.9" (.ok 202) (.ok ())
    (.ok 202)
  obtain ⟨message, herror⟩ := hmismatch
    ⟨[0, 3, 9], [0, 4], by decide, by decide, by decide⟩
  cases herror

end LabStreamGate.Client
