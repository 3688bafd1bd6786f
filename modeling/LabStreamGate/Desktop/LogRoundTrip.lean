import LabStreamGate.Desktop.LogSpans

/-!
# What is written and what is read back

The spans of a line that `format_logs` wrote are those of the parts it was made of, but for a
message that is taken for a module and what comes after it.
-/

namespace LabStreamGate.Desktop

variable {log : LogEntry} {time : DateTime} {cs back word : Text} {c : Char} {n width : Nat}

/-! ## The parts of a written line -/

/-- What is written before the level. -/
def writtenHead (log : LogEntry) : Text :=
  log.timestamp.format ++ ' ' :: ' ' :: List.replicate (5 - log.level.toList.length) ' '

/-- What is written after the level and a space. -/
def writtenRest (log : LogEntry) : Text :=
  if log.target = "" then log.fields.message.toList
  else log.target.toList ++ ([':', ' '] ++ log.fields.message.toList)

theorem formatLog_eq (log : LogEntry) :
    formatLog log = writtenHead log ++ (log.level.toList ++ ' ' :: writtenRest log) := by
  rw [formatLog, writtenHead, writtenRest, alignRight]
  split <;> simp

/-- The spans of the timestamp, of the level, and of the target with its colon, where there is
one. -/
def writtenSpans (log : LogEntry) : LineSpans where
  timestamp := spanOf [] log.timestamp.format
  level := spanOf (writtenHead log) log.level.toList
  module :=
    if log.target = "" then none
    else some (spanOf (writtenHead log ++ log.level.toList ++ [' ']) (log.target.toList ++ [':']))

/-- These spans hold the parts. -/
theorem slice_writtenSpans (log : LogEntry) :
    slice 0 (writtenSpans log).timestamp.stop (formatLog log) = .ok log.timestamp.format ∧
      slice (writtenSpans log).level.start (writtenSpans log).level.stop (formatLog log) =
        .ok log.level.toList ∧
      ∀ span, (writtenSpans log).module = some span →
        slice span.start span.stop (formatLog log) = .ok (log.target.toList ++ [':']) := by
  rw [formatLog_eq]
  refine ⟨?_, slice_spanOf, fun span hspan ↦ ?_⟩
  · rw [writtenHead, List.append_assoc]
    exact @slice_spanOf [] _ _
  · by_cases hempty : log.target = ""
    · simp [writtenSpans, hempty] at hspan
    · rw [writtenSpans, if_neg hempty] at hspan
      obtain rfl := Option.some.inj hspan
      have hrest : writtenHead log ++ (log.level.toList ++ ' ' :: writtenRest log) =
          (writtenHead log ++ log.level.toList ++ [' ']) ++
            ((log.target.toList ++ [':']) ++ ' ' :: log.fields.message.toList) := by
        simp [writtenRest, hempty]
      rw [hrest]
      exact slice_spanOf

/-! ## The timestamp -/

theorem isDigit_of_mem_zeroPadded (h : c ∈ zeroPadded width n) : c.isDigit = true := by
  rcases List.mem_append.mp h with hzero | hdigit
  · rw [List.eq_of_mem_replicate hzero]
    rfl
  · exact Nat.isDigit_of_mem_toDigits (by decide) (by decide) hdigit

theorem zeroPadded_ne_nil : zeroPadded width n ≠ [] := by
  intro h
  exact Nat.toDigits_ne_nil (List.append_eq_nil_iff.mp h).2

/-- The characters before a level, but for the `T` of the timestamp. -/
def plain (c : Char) : Bool := c.isDigit || [' ', '-', '+', ':', '.', 'Z'].contains c

theorem plain_of_mem_zeroPadded (h : c ∈ zeroPadded width n) : plain c = true := by
  rw [plain, isDigit_of_mem_zeroPadded h, Bool.true_or]

theorem plain_of_mem_formatDate (h : c ∈ time.formatDate) : plain c = true := by
  simp only [DateTime.formatDate, DateTime.formatYear, List.mem_append, List.mem_cons] at h
  rcases h with (h | rfl | h) | rfl | h
  · split at h
    · exact plain_of_mem_zeroPadded h
    · rcases List.mem_cons.mp h with rfl | h
      · split <;> rfl
      · exact plain_of_mem_zeroPadded h
  · rfl
  · exact plain_of_mem_zeroPadded h
  · rfl
  · exact plain_of_mem_zeroPadded h

theorem plain_of_mem_formatTime (h : c ∈ time.formatTime) : plain c = true := by
  simp only [DateTime.formatTime, List.mem_append, List.mem_cons, List.not_mem_nil, or_false] at h
  rcases h with (((h | rfl | h) | rfl | h) | rfl | h) | rfl
  · exact plain_of_mem_zeroPadded h
  · rfl
  · exact plain_of_mem_zeroPadded h
  · rfl
  · exact plain_of_mem_zeroPadded h
  · rfl
  · exact plain_of_mem_zeroPadded h
  · rfl

/-- The character before the `T` is a digit. -/
theorem getLast?_formatDate : apart time.formatDate.getLast? = false := by
  rcases List.eq_nil_or_concat (zeroPadded 2 time.day) with hnil | ⟨digits, d, hday⟩
  · exact absurd hnil zeroPadded_ne_nil
  · rw [List.concat_eq_append] at hday
    have hd : d.isDigit = true := isDigit_of_mem_zeroPadded (by rw [hday]; simp)
    have hlast : time.formatDate.getLast? = some d := by
      rw [DateTime.formatDate, hday, ← List.cons_append, ← List.append_assoc, List.getLast?_concat]
    simp [hlast, apart, Char.isAlphanum, hd]

/-- No level starts with such a character. -/
theorem not_plain_of_mem_levels (h : c :: cs ∈ levels) : plain c = false := by
  have hall : ∀ level ∈ levels, (level.head?.all fun c ↦ !plain c) = true := by decide
  simpa using hall (c :: cs) h

/-! ## The level -/

theorem writtenHead_eq (log : LogEntry) : ∃ rest, (∀ c ∈ rest, plain c = true) ∧
    writtenHead log = log.timestamp.formatDate ++ 'T' :: rest := by
  refine ⟨log.timestamp.formatTime ++
    ' ' :: ' ' :: List.replicate (5 - log.level.toList.length) ' ', ?_, ?_⟩
  · intro c hc
    rcases List.mem_append.mp hc with htime | hspace
    · exact plain_of_mem_formatTime htime
    · have hc : c = ' ' := by
        rcases List.mem_cons.mp hspace with rfl | hspace
        · rfl
        · rcases List.mem_cons.mp hspace with rfl | hspace
          · rfl
          · exact List.eq_of_mem_replicate hspace
      rw [hc]
      rfl
  · simp [writtenHead, DateTime.format]

/-- A character that no timestamp has stands at most in the place of the `T`. -/
theorem eq_formatDate {log : LogEntry} {front rest : Text} (hc : plain c = false)
    (h : writtenHead log = front ++ c :: rest) : front = log.timestamp.formatDate := by
  obtain ⟨after, hafter, hhead⟩ := writtenHead_eq log
  rcases List.append_eq_append_iff.mp (h.symm.trans hhead) with
    ⟨more, hdate, hrest⟩ | ⟨more, hfront, hrest⟩
  · cases more with
    | nil => rw [hdate, List.append_nil]
    | cons c' more =>
      obtain ⟨rfl, -⟩ := List.cons.inj hrest
      have hmem : c ∈ log.timestamp.formatDate := by rw [hdate]; simp
      rw [plain_of_mem_formatDate hmem] at hc
      cases hc
  · cases more with
    | nil => rw [hfront, List.append_nil]
    | cons c' more =>
      obtain ⟨-, hmore⟩ := List.cons.inj hrest
      rw [hafter c (by rw [hmore]; simp)] at hc
      cases hc

/-- No level stands before the written one. -/
theorem le_of_isWordAt (hword : word ∈ levels) (h : IsWordAt (formatLog log) word n) :
    utf8Len (writtenHead log) ≤ n := by
  obtain ⟨front, back, hline, rfl, hbefore, -⟩ := h
  by_contra hlt
  rw [formatLog_eq] at hline
  obtain ⟨middle, hhead, hmiddle⟩ := exists_append_of_le hline.symm (by omega)
  cases middle with
  | nil =>
    rw [hhead, List.append_nil] at hlt
    exact hlt le_rfl
  | cons c middle =>
    obtain ⟨cs, rfl⟩ : ∃ cs, word = c :: cs := by
      cases word with
      | nil => exact absurd rfl (isWord_of_mem_levels hword).ne_nil
      | cons c' cs => exact ⟨cs, by rw [(List.cons.inj hmiddle).1]⟩
    -- it would stand in the place of the `T`, and a digit before it
    rw [eq_formatDate (not_plain_of_mem_levels hword) hhead, getLast?_formatDate] at hbefore
    cases hbefore

theorem getLast?_writtenHead (log : LogEntry) : (writtenHead log).getLast? = some ' ' := by
  have hspaces : ' ' :: ' ' :: List.replicate (5 - log.level.toList.length) ' ' =
      List.replicate (5 - log.level.toList.length + 1) ' ' ++ [' '] := by
    rw [← List.replicate_succ, ← List.replicate_succ, List.replicate_succ']
  rw [writtenHead, hspaces, ← List.append_assoc, List.getLast?_concat]

theorem findLevel_formatLog (hlevel : log.level.toList ∈ levels) :
    findLevel (formatLog log) = .ok (some (utf8Len (writtenHead log), log.level.toList)) := by
  refine findLevel_of_first hlevel ⟨writtenHead log, _, formatLog_eq log, rfl, ?_, rfl⟩
    fun word hword n ↦ le_of_isWordAt hword
  rw [getLast?_writtenHead]
  rfl

theorem trimEnd_spaces (cs : Text) (n : Nat) :
    trimEnd (cs ++ List.replicate n ' ') = trimEnd cs := by
  induction n with
  | zero => rw [List.replicate_zero, List.append_nil]
  | succ n ih =>
    rw [List.replicate_succ', ← List.append_assoc, trimEnd, List.rdropWhile_concat_pos]
    · exact ih
    · rfl

theorem trimEnd_writtenHead (log : LogEntry) :
    trimEnd (writtenHead log) = log.timestamp.format := by
  have hlast : log.timestamp.format.getLast? = some 'Z' := by
    rw [DateTime.format, DateTime.formatTime, ← List.cons_append, ← List.append_assoc,
      List.getLast?_concat]
  have hformat := (List.dropLast_append_getLast? 'Z' hlast).symm
  rw [writtenHead, ← List.replicate_succ, ← List.replicate_succ, trimEnd_spaces, hformat]
  exact List.rdropWhile_concat_neg _ _ _ (by decide)

/-! ## The module -/

/-- A target that has no colon with a space ends at the first one. -/
theorem find_target {target : Text} (h : ¬[':', ' '] <:+: target) (message : Text) :
    find [':', ' '] (target ++ ([':', ' '] ++ message)) = some (utf8Len target) := by
  refine find_of_first rfl fun front back heq ↦ ?_
  by_contra hlt
  obtain ⟨middle, rfl, hmiddle⟩ := exists_append_of_le heq.symm (by omega)
  match middle, hmiddle with
  | [], _ => simp at hlt
  | [_], hmiddle => simp at hmiddle
  | a :: b :: middle, hmiddle =>
    simp only [List.cons_append, List.nil_append, List.cons.injEq] at hmiddle
    obtain ⟨rfl, rfl, -⟩ := hmiddle
    exact h ⟨front, middle, by simp⟩

theorem spansForLine_formatLog (hlevel : log.level.toList ∈ levels) :
    spansForLine (formatLog log) = .ok (some
      { timestamp := spanOf [] log.timestamp.format
        level := spanOf (writtenHead log) log.level.toList
        module := (find [':', ' '] (writtenRest log)).map fun rel ↦
          ⟨utf8Len (writtenHead log ++ log.level.toList ++ [' ']),
            utf8Len (writtenHead log ++ log.level.toList ++ [' ']) + rel + 1⟩ }) := by
  rw [spansForLine_of_level (findLevel_formatLog hlevel) (formatLog_eq log), moduleOf,
    if_pos (by decide), trimEnd_writtenHead]
  have hstart : utf8Len (writtenHead log ++ log.level.toList ++ [' ']) =
      utf8Len (writtenHead log) + utf8Len log.level.toList + 1 := by
    rw [utf8Len_append, utf8Len_append]
    rfl
  rw [hstart]
  simp [Except.map, spanOf]

/-! ## One line for each entry -/

theorem newline_not_mem_formatLog (hlevel : log.level.toList ∈ levels)
    (hmessage : '\n' ∉ log.fields.message.toList) (htarget : '\n' ∉ log.target.toList) :
    '\n' ∉ formatLog log := by
  have hplain : plain '\n' = false := by decide
  have hhead : '\n' ∉ writtenHead log := by
    obtain ⟨rest, hrest, hhead⟩ := writtenHead_eq log
    rw [hhead, List.mem_append, List.mem_cons, not_or, not_or]
    refine ⟨fun h ↦ ?_, by decide, fun h ↦ ?_⟩
    · exact absurd (plain_of_mem_formatDate h) (by rw [hplain]; decide)
    · exact absurd (hrest _ h) (by rw [hplain]; decide)
  have hword : '\n' ∉ log.level.toList := fun h ↦
    absurd ((isWord_of_mem_levels hlevel).alphanum _ h) (by decide)
  have hrest : '\n' ∉ writtenRest log := by
    rw [writtenRest]
    split
    · exact hmessage
    · simp [htarget, hmessage]
  rw [formatLog_eq]
  simp [hhead, hword, hrest]

/-- What `format_logs` writes for an entry without line breaks is one line.  The scan of this line
finds the parts of the entry exactly where it has a target or no colon with a space in its
message. -/
theorem spansForLine_formatLogs_iff (hlevel : log.level.toList ∈ levels)
    (hmessage : '\n' ∉ log.fields.message.toList) (htarget : '\n' ∉ log.target.toList)
    (hcolon : ¬[':', ' '] <:+: log.target.toList) :
    ∃ line, linesOf '\n' (formatLogs [log]) = [line] ∧
      (spansForLine line = .ok (some (writtenSpans log)) ↔
        log.target ≠ "" ∨ ¬[':', ' '] <:+: log.fields.message.toList) := by
  refine ⟨formatLog log, linesOf_unlines fun line hline ↦ ?_, ?_⟩
  · rw [List.mem_singleton.mp hline]
    exact newline_not_mem_formatLog hlevel hmessage htarget
  · rw [spansForLine_formatLog hlevel, writtenSpans, writtenRest]
    by_cases hempty : log.target = ""
    · rw [if_pos hempty, if_pos hempty, ← find_eq_none]
      simp [hempty]
    · rw [if_neg hempty, if_neg hempty, find_target hcolon]
      refine iff_of_true ?_ (.inl hempty)
      simp only [Option.map_some, spanOf, utf8Len_append, utf8Len_cons, utf8Len_nil, Nat.add_assoc]
      rfl

theorem spansForLine_formatLogs_sample :
    let log : LogEntry := ⟨sampleTime, "WARN", "wsrx_desktop::daemon", ⟨"retrying: ERROR"⟩⟩
    ∃ line, linesOf '\n' (formatLogs [log]) = [line] ∧
      (spansForLine line = .ok (some (writtenSpans log)) ↔
        log.target ≠ "" ∨ ¬[':', ' '] <:+: log.fields.message.toList) :=
  spansForLine_formatLogs_iff (by decide) (by decide) (by decide) (by decide)

/-- The first part of a message is taken for a module. -/
theorem spansForLine_formatLogs_other :
    ¬∀ log : LogEntry, log.level.toList ∈ levels → '\n' ∉ log.fields.message.toList →
      '\n' ∉ log.target.toList → ¬[':', ' '] <:+: log.target.toList →
        ∃ line, linesOf '\n' (formatLogs [log]) = [line] ∧
          spansForLine line = .ok (some (writtenSpans log)) := by
  intro h
  obtain ⟨line, hline, hspans⟩ := h ⟨sampleTime, "INFO", "", ⟨"timeout: retry"⟩⟩ (by decide)
    (by decide) (by decide) (by decide)
  have hall : ∀ line ∈ linesOf '\n' (formatLogs [⟨sampleTime, "INFO", "", ⟨"timeout: retry"⟩⟩]),
      spansForLine line ≠
        .ok (some (writtenSpans ⟨sampleTime, "INFO", "", ⟨"timeout: retry"⟩⟩)) := by decide +kernel
  exact hall line (hline ▸ List.mem_singleton_self line) hspans

end LabStreamGate.Desktop
