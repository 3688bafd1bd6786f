import LabStreamGate.Library.Http
import LabStreamGate.Library.Lines
import LabStreamGate.Library.Utf8Text
import Mathlib.Data.List.DropRight

/-!
# The network logs

`format_logs` writes one line for each log entry, and the highlighter of the log view takes the
lines apart again by their bytes: what it knows of a line is where the first level stands.
-/

namespace LabStreamGate.Desktop

/-! ## `format_logs` -/

/-- `DateTime<Utc>`; in a leap second the nanoseconds go on from 10⁹. -/
structure DateTime where
  year : Int
  month : Nat
  day : Nat
  hour : Nat
  minute : Nat
  second : Nat
  nanosecond : Nat
  deriving DecidableEq, Repr

/-- The digits of a number, at least `width` of them. -/
def zeroPadded (width n : Nat) : Text :=
  List.replicate (width - (Nat.toDigits 10 n).length) '0' ++ Nat.toDigits 10 n

namespace DateTime

/-- `%Y`. -/
def formatYear (time : DateTime) : Text :=
  if 0 ≤ time.year ∧ time.year ≤ 9999 then zeroPadded 4 time.year.toNat
  else (if time.year < 0 then '-' else '+') :: zeroPadded 4 time.year.natAbs

/-- `%Y-%m-%d`. -/
def formatDate (time : DateTime) : Text :=
  time.formatYear ++ '-' :: zeroPadded 2 time.month ++ '-' :: zeroPadded 2 time.day

/-- `%H:%M:%S%.6fZ`. -/
def formatTime (time : DateTime) : Text :=
  zeroPadded 2 time.hour ++ ':' :: zeroPadded 2 time.minute ++
    ':' :: zeroPadded 2 (time.second + time.nanosecond / 1000000000) ++
    '.' :: zeroPadded 6 (time.nanosecond % 1000000000 / 1000) ++ ['Z']

/-- `%Y-%m-%dT%H:%M:%S%.6fZ`. -/
def format (time : DateTime) : Text := time.formatDate ++ 'T' :: time.formatTime

end DateTime

def sampleTime : DateTime where
  year := 2026
  month := 8
  day := 22
  hour := 14
  minute := 7
  second := 0
  nanosecond := 123456000

example : sampleTime.format = "2026-08-22T14:07:00.123456Z".toList := by decide

structure LogEntryFields where
  message : String
  deriving DecidableEq, Repr

structure LogEntry where
  timestamp : DateTime
  level : String
  target : String
  fields : LogEntryFields
  deriving DecidableEq, Repr

/-- `{:>width$}`. -/
def alignRight (width : Nat) (cs : Text) : Text := List.replicate (width - cs.length) ' ' ++ cs

/-- The line of one entry, without its end. -/
def formatLog (log : LogEntry) : Text :=
  let head := log.timestamp.format ++ ' ' :: ' ' :: alignRight 5 log.level.toList
  if log.target = "" then head ++ ' ' :: log.fields.message.toList
  else head ++ ' ' :: log.target.toList ++ ':' :: ' ' :: log.fields.message.toList

def formatLogs (logs : List LogEntry) : Text := unlines '\n' (logs.map formatLog)

/-! ## `find_word` and `find_level` -/

def levelColors : List (Text × Nat) :=
  [("TRACE".toList, 0x9A6FCE), ("DEBUG".toList, 0x4F9CF6), ("INFO".toList, 0x3FB950),
    ("WARN".toList, 0xD29922), ("ERROR".toList, 0xF85149)]

def levels : List Text := levelColors.map Prod.fst

def levelColor (level : Text) : Option Nat :=
  (levelColors.find? fun entry ↦ entry.1 = level).map Prod.snd

/-- `outside || !line.as_bytes()[n].is_ascii_alphanumeric()`. -/
def standsApart (outside : Bool) (n : Nat) (line : Text) : Except Fault Bool :=
  if outside then .ok true else (byteAt n line).map fun byte ↦ !isAsciiAlphanumeric byte

/-- The loop of `find_word`. -/
def findWordFrom (line word : Text) : Nat → Nat → Except Fault (Option Nat)
  | 0, _ => .error .fuel
  | fuel + 1, search => do
    let rest ← sliceFrom search line
    match find word rest with
    | none => return none
    | some rel =>
      let abs := search + rel
      let stop := abs + utf8Len word
      let beforeOk ← standsApart (abs == 0) (abs - 1) line
      let afterOk ← standsApart (utf8Len line ≤ stop) stop line
      if beforeOk && afterOk then return some abs
      findWordFrom line word fuel stop

def findWord (line word : Text) : Except Fault (Option Nat) :=
  findWordFrom line word (utf8Len line + 1) 0

/-- The loop of `find_level`, with the best level so far. -/
def findLevelFrom (line : Text) :
    Option (Nat × Text) → List Text → Except Fault (Option (Nat × Text))
  | best, [] => .ok best
  | best, level :: levels => do
    match ← findWord line level with
    | some pos =>
      -- `is_none_or`
      if best.all fun b ↦ pos < b.1 then findLevelFrom line (some (pos, level)) levels
      else findLevelFrom line best levels
    | none => findLevelFrom line best levels

def findLevel (line : Text) : Except Fault (Option (Nat × Text)) := findLevelFrom line none levels

end LabStreamGate.Desktop
