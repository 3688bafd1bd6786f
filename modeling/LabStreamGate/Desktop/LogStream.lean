import LabStreamGate.Desktop.Logs
import LabStreamGate.Library.FileSystem
import LabStreamGate.Library.Run

/-!
# The log stream

`stream_logs` reads the log file while the logger is writing it.  Once a second it reads lines up to
the end of file, and takes for a line what it finds there without a newline.
-/

namespace LabStreamGate.Desktop

/-- `LogEntry::default()`. -/
def LogEntry.empty : LogEntry := ⟨⟨1970, 1, 1, 0, 0, 0, 0⟩, "", "", ⟨""⟩⟩

def newline : UInt8 := 10

/-- A line without the carriage return before its newline. -/
def dropCr (line : Bytes) : Bytes := if line.getLast? = some 13 then line.dropLast else line

/-- What is visible of the file and has not been read, and whether the inner loop is running. -/
structure LogTail where
  unread : Bytes
  reading : Bool
  deriving DecidableEq, Repr

namespace LogTail

def start : LogTail := ⟨[], false⟩

/-- More of the file becomes visible, or the reader takes a step.  A read that fails is one that
fails before anything of a line has been read: what has been read of it would be dropped with the
error, while a timeout keeps it. -/
inductive Action
  | appear (piece : Bytes)
  | tick
  | nextLine
  | fail
  | timeout
  deriving DecidableEq, Repr

inductive Out
  | silent
  | failed
  | emitted (entry : LogEntry)
  deriving DecidableEq, Repr

section

variable (decode : Bytes → Option Text) (parse : Text → Option LogEntry)

/-- A line comes out of `next_line`; one that is no UTF-8 is an error. -/
def deliver (line rest : Bytes) : Out × LogTail :=
  match decode line with
  | some text => (.emitted ((parse text).getD .empty), ⟨rest, true⟩)
  | none => (.failed, ⟨rest, false⟩)

def next (tail : LogTail) : Action → Option (Out × LogTail)
  | .appear piece => some (.silent, { tail with unread := tail.unread ++ piece })
  | .tick => if tail.reading then none else some (.silent, { tail with reading := true })
  | .nextLine =>
    if tail.reading then
      match firstLine newline tail.unread with
      | some (line, rest) => some (deliver decode parse (dropCr line) rest)
      | none =>
        if tail.unread = [] then some (.silent, { tail with reading := false })
        -- the end of file ends a line, too
        else some (deliver decode parse tail.unread [])
    else none
  | .fail | .timeout =>
    if tail.reading then some (.silent, { tail with reading := false }) else none

/-- The entry that a line stands for. -/
def parses (line : Bytes) : Option LogEntry := (decode (dropCr line)).bind parse

end

/-! ## What has gone through the stream -/

abbrev Trace := List (Event LogTail Action Out)

def piece : Action → Bytes
  | .appear piece => piece
  | _ => []

/-- What has become visible of the file. -/
def appeared (tr : Trace) : Bytes := tr.flatMap fun e ↦ piece e.act

def entryOf : Out → Option LogEntry
  | .emitted entry => some entry
  | _ => none

def emitted (tr : Trace) : List LogEntry := tr.filterMap fun e ↦ entryOf e.out

/-- The reader does not come to the end of file inside a line. -/
def KeepsLines (e : Event LogTail Action Out) : Prop :=
  e.act = .nextLine → newline ∈ e.pre.unread ∨ e.pre.unread = []

instance (e : Event LogTail Action Out) : Decidable (KeepsLines e) :=
  inferInstanceAs (Decidable (_ → _))

/-! ## What a step does -/

section

variable {decode : Bytes → Option Text} {parse : Text → Option LogEntry} {tail tail' : LogTail}
  {tr : Trace} {a : Action} {o : Out} {line rest : Bytes} {entry : LogEntry}

/-- What is emitted for a line. -/
def outcome (decode : Bytes → Option Text) (parse : Text → Option LogEntry) (line : Bytes) :
    Option LogEntry :=
  (decode line).map fun text ↦ (parse text).getD .empty

theorem outcome_of_parses (h : parses decode parse line = some entry) :
    outcome decode parse (dropCr line) = some entry := by
  obtain ⟨text, htext, hparse⟩ := Option.bind_eq_some_iff.mp h
  rw [outcome, htext, Option.map_some, hparse, Option.getD_some]

theorem deliver_unread : (deliver decode parse line rest).2.unread = rest := by
  rw [deliver]
  split <;> rfl

theorem entryOf_deliver : entryOf (deliver decode parse line rest).1 = outcome decode parse line := by
  rw [deliver, outcome]
  split
  · rename_i htext
    rw [htext]
    rfl
  · rename_i htext
    rw [htext]
    rfl

theorem deliver_failed (h : (deliver decode parse line rest).1 ≠ .failed) :
    ∃ entry, outcome decode parse line = some entry := by
  rw [← @entryOf_deliver decode parse line rest]
  cases hout : (deliver decode parse line rest).1 with
  | emitted entry => exact ⟨entry, rfl⟩
  | failed => exact absurd hout h
  | silent =>
    rw [deliver] at hout
    split at hout <;> cases hout

/-- The steps by what they do to the bytes that have not been read. -/
inductive Moved (decode : Bytes → Option Text) (parse : Text → Option LogEntry) (tail : LogTail) :
    Action → Out → LogTail → Prop
  | appear {piece : Bytes} : Moved decode parse tail (.appear piece) .silent
      { tail with unread := tail.unread ++ piece }
  | turn {a : Action} {reading : Bool} (ha : piece a = [])
      (hend : a = .nextLine → tail.unread = []) :
    Moved decode parse tail a .silent { tail with reading := reading }
  | line {line rest : Bytes} (hline : tail.unread = line ++ newline :: rest)
      (hnewline : newline ∉ line) :
    Moved decode parse tail .nextLine (deliver decode parse (dropCr line) rest).1
      (deliver decode parse (dropCr line) rest).2
  | cut (hnewline : newline ∉ tail.unread) (hne : tail.unread ≠ []) :
    Moved decode parse tail .nextLine (deliver decode parse tail.unread []).1
      (deliver decode parse tail.unread []).2

theorem next_moved (h : next decode parse tail a = some (o, tail')) :
    Moved decode parse tail a o tail' := by
  cases a with
  | appear piece =>
    cases h
    exact .appear
  | tick =>
    rw [next] at h
    split at h
    · cases h
    · cases h
      exact .turn rfl nofun
  | nextLine =>
    rw [next] at h
    split at h
    · split at h
      · rename_i hfirst
        obtain ⟨hline, hnewline⟩ := firstLine_eq_some hfirst
        obtain ⟨rfl, rfl⟩ := Prod.ext_iff.mp (Option.some.inj h)
        exact .line hline hnewline
      · rename_i hfirst
        have hnewline := firstLine_eq_none.mp hfirst
        split at h
        · rename_i hempty
          cases h
          exact .turn rfl fun _ ↦ hempty
        · rename_i hne
          obtain ⟨rfl, rfl⟩ := Prod.ext_iff.mp (Option.some.inj h)
          exact .cut hnewline hne
    · cases h
  | fail | timeout =>
    rw [next] at h
    split at h
    · cases h
      exact .turn rfl nofun
    · cases h

/-! ## Whole lines -/

/-- What has been read are whole lines, and these have been emitted. -/
def Followed (decode : Bytes → Option Text) (parse : Text → Option LogEntry) (tr : Trace)
    (tail : LogTail) : Prop :=
  ∃ consumed, appeared tr = consumed ++ tail.unread ∧ IsWhole newline consumed ∧
    emitted tr = ((linesOf newline consumed).map dropCr).filterMap (outcome decode parse)

theorem appeared_snoc : appeared (tr ++ [⟨tail, a, o⟩]) = appeared tr ++ piece a := by
  simp [appeared]

theorem emitted_snoc : emitted (tr ++ [⟨tail, a, o⟩]) = emitted tr ++ (entryOf o).toList := by
  rw [emitted, List.filterMap_append, emitted]
  cases h : entryOf o <;> simp [h]

theorem Followed.step (h : Followed decode parse tr tail) (hkeeps : KeepsLines ⟨tail, a, o⟩)
    (hm : Moved decode parse tail a o tail') :
    Followed decode parse (tr ++ [⟨tail, a, o⟩]) tail' := by
  obtain ⟨consumed, happeared, hwhole, hemitted⟩ := h
  cases hm with
  | appear =>
    refine ⟨consumed, ?_, hwhole, ?_⟩
    · rw [appeared_snoc, happeared, List.append_assoc]
      rfl
    · rw [emitted_snoc, hemitted]
      exact List.append_nil _
  | turn ha =>
    refine ⟨consumed, ?_, hwhole, ?_⟩
    · rw [appeared_snoc, happeared, ha, List.append_nil]
    · rw [emitted_snoc, hemitted]
      exact List.append_nil _
  | @line line rest hline hnewline =>
    have hsplit := @splitLines_line _ newline [] _ line hnewline
    have hlines : linesOf newline (line ++ [newline]) = [line] := by
      rw [linesOf, hsplit]
      rfl
    refine ⟨consumed ++ (line ++ [newline]), ?_, ?_, ?_⟩
    · rw [appeared_snoc, happeared, hline, deliver_unread]
      simp [piece]
    · rw [hwhole.append_iff, IsWhole, hsplit]
      rfl
    · rw [emitted_snoc, hemitted, entryOf_deliver, hwhole.linesOf_append, hlines, List.map_append,
        List.filterMap_append]
      cases hout : outcome decode parse (dropCr line) <;> simp [hout]
  | cut hnewline hne =>
    rcases hkeeps rfl with hmem | hempty
    · exact absurd hmem hnewline
    · exact absurd hempty hne

theorem followed (h : Run (next decode parse) start tr tail) (hkeeps : ∀ e ∈ tr, KeepsLines e) :
    Followed decode parse tr tail :=
  h.history ⟨[], rfl, rfl, rfl⟩
    (fun _ _ _ _ _ hfollowed hkeeps hnext ↦ hfollowed.step hkeeps (next_moved hnext)) hkeeps

/-- Each line that is not the whole of one makes one entry more. -/
theorem count_emitted (h : Run (next decode parse) start tr tail)
    (hread : ∀ e ∈ tr, e.out ≠ .failed) :
    (appeared tr).count newline ≤ (emitted tr).length + tail.unread.count newline ∧
      ((∃ e ∈ tr, ¬KeepsLines e) →
        (appeared tr).count newline < (emitted tr).length + tail.unread.count newline) := by
  refine h.history (P := fun tr tail ↦
    (appeared tr).count newline ≤ (emitted tr).length + tail.unread.count newline ∧
      ((∃ e ∈ tr, ¬KeepsLines e) →
        (appeared tr).count newline < (emitted tr).length + tail.unread.count newline))
    ⟨Nat.zero_le _, fun ⟨e, he, _⟩ ↦ absurd he List.not_mem_nil⟩ ?_ hread
  rintro tr tail a o tail' ⟨hle, hlt⟩ hout hnext
  have hsplit : (∃ e ∈ tr ++ [(⟨tail, a, o⟩ : Event LogTail Action Out)], ¬KeepsLines e) ↔
      (∃ e ∈ tr, ¬KeepsLines e) ∨ ¬KeepsLines ⟨tail, a, o⟩ := by
    simp [or_and_right, exists_or]
  rw [hsplit, appeared_snoc, emitted_snoc, List.count_append, List.length_append]
  cases next_moved hnext with
  | @appear piece' =>
    have hkeeps : KeepsLines ⟨tail, .appear piece', .silent⟩ := nofun
    simp only [hkeeps, not_true, or_false, piece, entryOf, Option.toList_none, List.length_nil,
      List.count_append]
    exact ⟨by omega, fun h ↦ by have := hlt h; omega⟩
  | turn ha hend =>
    have hkeeps : KeepsLines ⟨tail, a, .silent⟩ := fun h ↦ .inr (hend h)
    simp only [hkeeps, not_true, or_false, ha, entryOf, Option.toList_none, List.length_nil,
      List.count_nil]
    exact ⟨by omega, fun h ↦ by have := hlt h; omega⟩
  | @line line rest hline hnewline =>
    obtain ⟨entry, hentry⟩ := deliver_failed hout
    have hkeeps (o : Out) : KeepsLines ⟨tail, .nextLine, o⟩ :=
      fun _ ↦ .inl (by rw [hline]; simp)
    have hcount : tail.unread.count newline = rest.count newline + 1 := by
      rw [hline, List.count_append, List.count_cons_self, List.count_eq_zero_of_not_mem hnewline]
      omega
    simp only [hkeeps, not_true, or_false, piece, entryOf_deliver, hentry, Option.toList_some,
      List.length_singleton, List.count_nil, deliver_unread]
    exact ⟨by omega, fun h ↦ by have := hlt h; omega⟩
  | cut hnewline hne =>
    obtain ⟨entry, hentry⟩ := deliver_failed hout
    have hcount := List.count_eq_zero_of_not_mem hnewline
    simp only [piece, entryOf_deliver, hentry, Option.toList_some, List.length_singleton,
      List.count_nil, deliver_unread]
    exact ⟨by omega, fun _ ↦ by omega⟩

theorem isWhole_line (h : newline ∉ line) : IsWhole newline (line ++ [newline]) := by
  rw [IsWhole, splitLines_line h]
  rfl

/-- The reader can always read the lines that are left. -/
theorem exists_rest (h : IsWhole newline tail.unread) : ∃ tr tail',
    Run (next decode parse) tail tr tail' ∧ appeared tr = [] ∧ (∀ e ∈ tr, KeepsLines e) ∧
      tail'.unread = [] := by
  induction hlen : tail.unread.length using Nat.strong_induction_on generalizing tail with
  | h n ih =>
    by_cases hempty : tail.unread = []
    · exact ⟨[], tail, .nil, rfl, List.forall_mem_nil _, hempty⟩
    · have hlast := (isWhole_iff.mp h).resolve_left hempty
      have hmem : newline ∈ tail.unread := List.mem_of_getLast? hlast
      obtain ⟨⟨line, rest⟩, hfirst⟩ : ∃ r, firstLine newline tail.unread = some r :=
        Option.ne_none_iff_exists'.mp fun hnone ↦ firstLine_eq_none.mp hnone hmem
      obtain ⟨hunread, hline⟩ := firstLine_eq_some hfirst
      have hrest : IsWhole newline rest := by
        rw [hunread, List.append_cons, (isWhole_line hline).append_iff] at h
        exact h
      -- the loop is entered with the next tick
      obtain ⟨tr₁, hrun₁, happeared₁, hkeeps₁⟩ : ∃ tr,
          Run (next decode parse) tail tr ⟨tail.unread, true⟩ ∧ appeared tr = [] ∧
            ∀ e ∈ tr, KeepsLines e := by
        rcases tail with ⟨unread, _ | _⟩
        · exact ⟨_, .single (a := .tick) rfl, rfl, List.forall_mem_singleton.mpr nofun⟩
        · exact ⟨[], .nil, rfl, List.forall_mem_nil _⟩
      let delivered := deliver decode parse (dropCr line) rest
      have hnext : next decode parse ⟨tail.unread, true⟩ .nextLine = some delivered := by
        simp only [next, hfirst, if_true, delivered]
      have hdelivered : delivered.2.unread = rest := deliver_unread
      have hless : rest.length < n := by
        rw [← hlen, hunread, List.length_append, List.length_cons]
        omega
      obtain ⟨tr₂, tail', hrun₂, happeared₂, hkeeps₂, hend⟩ :=
        ih rest.length hless (hdelivered.symm ▸ hrest) (congrArg List.length hdelivered)
      refine ⟨tr₁ ++ (⟨⟨tail.unread, true⟩, .nextLine, delivered.1⟩ :: tr₂), tail',
        hrun₁.append ((Run.single hnext).append hrun₂), ?_, ?_, hend⟩
      · rw [appeared, List.flatMap_append, List.flatMap_cons]
        simp only [piece, List.nil_append]
        exact List.append_eq_nil_iff.mpr ⟨happeared₁, happeared₂⟩
      · exact List.forall_mem_append.mpr
          ⟨hkeeps₁, List.forall_mem_cons.mpr ⟨fun _ ↦ .inl hmem, hkeeps₂⟩⟩

/-- In a run whose reader never comes to the end of file inside a line, each line of the file makes
one event with its entry.  If nothing fails to be read this is so in no other run. -/
theorem stream_logs_faithful (decode : Bytes → Option Text) (parse : Text → Option LogEntry)
    (tr : Trace) (tail : LogTail) (h : Run (next decode parse) start tr tail)
    (hwhole : IsWhole newline (appeared tr))
    (hjson : ∀ line ∈ linesOf newline (appeared tr), ∃ entry,
      parses decode parse line = some entry) :
    ((∀ e ∈ tr, KeepsLines e) →
      (tail.unread = [] → (emitted tr).map some =
        (linesOf newline (appeared tr)).map (parses decode parse)) ∧
      ∃ tr' tail', Run (next decode parse) tail tr' tail' ∧ appeared tr' = [] ∧
        (∀ e ∈ tr', KeepsLines e) ∧ tail'.unread = []) ∧
    (tail.unread = [] → (∀ e ∈ tr, e.out ≠ .failed) →
      (emitted tr).map some = (linesOf newline (appeared tr)).map (parses decode parse) →
      ∀ e ∈ tr, KeepsLines e) := by
  refine ⟨fun hkeeps ↦ ⟨fun hend ↦ ?_, ?_⟩, fun hend hread heq ↦ ?_⟩
  · obtain ⟨consumed, happeared, -, hemitted⟩ := followed h hkeeps
    rw [hend, List.append_nil] at happeared
    rw [happeared] at hjson ⊢
    rw [hemitted]
    generalize linesOf newline consumed = lines at hjson
    induction lines with
    | nil => rfl
    | cons line lines ih =>
      obtain ⟨entry, hentry⟩ := hjson line List.mem_cons_self
      rw [List.map_cons, List.filterMap_cons_some (outcome_of_parses hentry), List.map_cons,
        List.map_cons, hentry, ih fun line' hline' ↦ hjson line' (List.mem_cons_of_mem _ hline')]
  · obtain ⟨consumed, happeared, hconsumed, -⟩ := followed h hkeeps
    rw [happeared, hconsumed.append_iff] at hwhole
    exact exists_rest hwhole
  · have hlength := congrArg List.length heq
    rw [List.length_map, List.length_map, length_linesOf] at hlength
    have hcount := (count_emitted h hread).2
    rw [hend, List.count_nil] at hcount
    by_contra hcut
    have hlt := hcount (by simpa using hcut)
    omega

end

/-! ## A line that becomes visible in two pieces -/

def sampleLine : Text :=
  ("\x7b\"timestamp\":\"2026-08-22T14:07:00.123456Z\",\"level\":\"INFO\"," ++
    "\"fields\":\x7b\"message\":\"up\"\x7d,\"target\":\"wsrx\"\x7d").toList

def sampleEntry : LogEntry := ⟨sampleTime, "INFO", "wsrx", ⟨"up"⟩⟩

def sampleDecode (bytes : Bytes) : Option Text := some (bytes.map fun byte ↦ Char.ofNat byte.toNat)

def sampleParse (text : Text) : Option LogEntry :=
  if text = sampleLine then some sampleEntry else none

def sampleBytes : Bytes := (sampleLine.map fun c ↦ UInt8.ofNat c.toNat) ++ [newline]

theorem sampleBytes_lines : IsWhole newline sampleBytes ∧ ∃ line,
    linesOf newline sampleBytes = [line] ∧
      parses sampleDecode sampleParse line = some sampleEntry :=
  ⟨by decide +kernel, sampleBytes.dropLast, by decide +kernel⟩

/-- Both halves are there before the reader comes to the end of file. -/
theorem stream_logs_faithful_sample : ∃ tr tail,
    Run (next sampleDecode sampleParse) start tr tail ∧ appeared tr = sampleBytes ∧
      (emitted tr).map some = [some sampleEntry] := by
  obtain ⟨tr, tail, hrun, hp⟩ := exists_run (next sampleDecode sampleParse) start
    [.appear (sampleBytes.take 40), .appear (sampleBytes.drop 40), .tick, .nextLine, .nextLine]
    (fun tr tail ↦ appeared tr == sampleBytes && tail.unread.isEmpty &&
      tr.all fun e ↦ decide (KeepsLines e)) (by decide +kernel)
  simp only [Bool.and_eq_true, List.all_eq_true, beq_iff_eq, List.isEmpty_iff,
    decide_eq_true_eq] at hp
  obtain ⟨⟨happeared, hend⟩, hkeeps⟩ := hp
  obtain ⟨hwhole, line, hlines, hentry⟩ := sampleBytes_lines
  rw [← happeared] at hwhole hlines
  have hfaithful := stream_logs_faithful sampleDecode sampleParse tr tail hrun hwhole (by
    rw [hlines]
    exact List.forall_mem_singleton.mpr ⟨_, hentry⟩)
  refine ⟨tr, tail, hrun, happeared, ?_⟩
  rw [(hfaithful.1 hkeeps).1 hend, hlines, List.map_singleton, hentry]

/-- The reader comes to the end of file between the halves. -/
theorem stream_logs_cuts_line : ¬∀ (decode : Bytes → Option Text) (parse : Text → Option LogEntry)
    (tr : Trace) (tail : LogTail), Run (next decode parse) start tr tail →
    IsWhole newline (appeared tr) →
    (∀ line ∈ linesOf newline (appeared tr), ∃ entry, parses decode parse line = some entry) →
    tail.unread = [] →
    (emitted tr).map some = (linesOf newline (appeared tr)).map (parses decode parse) := by
  intro h
  obtain ⟨tr, tail, hrun, hp⟩ := exists_run (next sampleDecode sampleParse) start
    [.appear (sampleBytes.take 40), .tick, .nextLine, .nextLine, .appear (sampleBytes.drop 40),
      .tick, .nextLine, .nextLine]
    (fun tr tail ↦ appeared tr == sampleBytes && tail.unread.isEmpty &&
      emitted tr == [.empty, .empty]) (by decide +kernel)
  simp only [Bool.and_eq_true, beq_iff_eq, List.isEmpty_iff] at hp
  obtain ⟨⟨happeared, hend⟩, hemitted⟩ := hp
  obtain ⟨hwhole, line, hlines, hentry⟩ := sampleBytes_lines
  rw [← happeared] at hwhole hlines
  have heq := h sampleDecode sampleParse tr tail hrun hwhole (by
    rw [hlines]
    exact List.forall_mem_singleton.mpr ⟨_, hentry⟩) hend
  have hlength := congrArg List.length heq
  rw [hemitted, hlines] at hlength
  cases hlength

end LogTail

end LabStreamGate.Desktop
