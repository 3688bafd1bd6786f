import LabStreamGate.Desktop.LogSpans
import LabStreamGate.Library.Tiling

/-!
# The highlighter

`highlight_range` collects the styled parts of all lines and fills the gaps between them, so that
what it returns covers the visible text.  It slices each line on the way, and panics where a level
is followed by a character of more than one byte.
-/

namespace LabStreamGate.Desktop

/-- The colour of a style: that of a level, or the foreground blended towards the background. -/
inductive HighlightStyle
  | default
  | dim
  | color (rgb : Nat)
  deriving DecidableEq, Repr

/-- The styled parts of one line that starts at some byte of the text. -/
def lineSegments (lineStart : Nat) (line : Text) :
    Except Fault (List (StyledRun HighlightStyle)) := do
  match ← spansForLine line with
  | none => return []
  | some spans =>
    let shifted := fun (span : Span) style ↦
      StyledRun.mk (lineStart + span.start) (lineStart + span.stop) style
    match levelColor (← slice spans.level.start spans.level.stop line) with
    | none => return []
    | some color =>
      let timestamp :=
        if spans.timestamp.start < spans.timestamp.stop then
          [shifted spans.timestamp .dim]
        else []
      let module := spans.module.toList.map fun span ↦ shifted span .dim
      return timestamp ++ shifted spans.level (.color color) :: module

def collectSegments : Nat → List Text → Except Fault (List (StyledRun HighlightStyle))
  | _, [] => .ok []
  | lineStart, line :: lines => do
    let segments ← lineSegments lineStart line
    let rest ← collectSegments (lineStart + utf8Len line + 1) lines
    return segments ++ rest

/-- The loop that fills the gaps; `cursor` is where the last run ended. -/
def fillGaps (visibleLen : Nat) :
    Nat → List (StyledRun HighlightStyle) → List (StyledRun HighlightStyle)
  | cursor, [] => if cursor < visibleLen then [⟨cursor, visibleLen, .default⟩] else []
  | cursor, segment :: segments =>
    let gap :=
      if cursor < segment.start ∧ cursor < visibleLen then [⟨cursor, segment.start, .default⟩]
      else []
    if cursor < segment.stop then
      gap ++ segment :: fillGaps visibleLen segment.stop segments
    else gap ++ fillGaps visibleLen cursor segments

/-- `text` is what `text_for_range` returns for the range from `start` to `stop`. -/
def highlightRange (text : Option Text) (start stop : Nat) :
    Except Fault (List (StyledRun HighlightStyle)) :=
  match text with
  | none => .ok []
  | some text => (collectSegments 0 (split '\n' text)).map (fillGaps (stop - start) 0)

variable {line front back level text : Text} {lines : List Text} {spans : LineSpans} {span : Span}
  {segments : List (StyledRun HighlightStyle)} {lineStart cursor stop : Nat}

/-! ## The spans of a line lie in it -/

/-- The spans of a line come one after the other, and a level stands in its span. -/
structure SpansFit (line : Text) (spans : LineSpans) : Prop where
  timestamp_start : spans.timestamp.start = 0
  timestamp_stop : spans.timestamp.stop ≤ spans.level.start
  level : spans.level.start < spans.level.stop
  level_stop : spans.level.stop ≤ utf8Len line
  module : ∀ span, spans.module = some span →
    spans.level.stop ≤ span.start ∧ span.start < span.stop ∧ span.stop ≤ utf8Len line
  color : ∃ level color, slice spans.level.start spans.level.stop line = .ok level ∧
    levelColor level = some color

theorem utf8Len_trimEnd_le (cs : Text) : utf8Len (trimEnd cs) ≤ utf8Len cs := by
  obtain ⟨rest, hrest⟩ := List.rdropWhile_prefix isWhiteSpace cs
  conv => rhs; rw [← hrest, utf8Len_append]
  exact Nat.le_add_right _ _

theorem moduleOf_fit (hline : line = front ++ (level ++ back))
    (h : moduleOf front level back = .ok (some span)) :
    utf8Len front + utf8Len level ≤ span.start ∧ span.start < span.stop ∧
      span.stop ≤ utf8Len line := by
  cases back with
  | nil => cases h
  | cons c rest =>
    rw [moduleOf] at h
    split at h
    · rename_i hc
      obtain ⟨rel, hrel, rfl⟩ := Option.map_eq_some_iff.mp (Except.ok.inj h)
      obtain ⟨⟨before, after, rfl, rfl⟩, -⟩ := find_eq_some hrel
      have hcolon : utf8Len [':', ' '] = 2 := rfl
      rw [hline, utf8Len_append, utf8Len_append, utf8Len_cons, utf8Len_append, utf8Len_append, hc,
        hcolon]
      refine ⟨?_, ?_, ?_⟩ <;> dsimp only <;> omega
    · cases h

theorem levelColor_of_mem_levels (h : level ∈ levels) : ∃ color, levelColor level = some color := by
  have hall : ∀ level ∈ levels, (levelColor level).isSome = true := by decide
  exact Option.isSome_iff_exists.mp (hall level h)

theorem spansForLine_fit (h : spansForLine line = .ok (some spans)) : SpansFit line spans := by
  rcases spansForLine_cases line with ⟨hnone, -⟩ | ⟨front, level, back, hline, hfirst, hspans⟩
  · rw [hnone] at h
    cases h
  · rw [hspans] at h
    cases hmodule : moduleOf front level back with
    | error fault =>
      rw [hmodule] at h
      cases h
    | ok module =>
      rw [hmodule] at h
      have hpos := utf8Len_pos (isWord_of_mem_levels hfirst.1).ne_nil
      have hlen : utf8Len line = utf8Len front + (utf8Len level + utf8Len back) := by
        rw [hline, utf8Len_append, utf8Len_append]
      obtain ⟨color, hcolor⟩ := levelColor_of_mem_levels hfirst.1
      obtain rfl := Option.some.inj (Except.ok.inj h)
      constructor
      case timestamp_start => rfl
      case timestamp_stop => exact utf8Len_trimEnd_le front
      case level =>
        dsimp only [spanOf]
        omega
      case level_stop =>
        dsimp only [spanOf]
        omega
      case module =>
        rintro span rfl
        exact moduleOf_fit hline hmodule
      case color =>
        rw [hline]
        exact ⟨level, color, slice_spanOf, hcolor⟩

/-! ## The segments come in order -/

/-- A line whose spans are defined has segments, and they lie in it. -/
theorem lineSegments_inOrder (lineStart : Nat) {found : Option LineSpans}
    (h : spansForLine line = .ok found) :
    ∃ segments, lineSegments lineStart line = .ok segments ∧
      InOrder lineStart (lineStart + utf8Len line) segments := by
  cases found with
  | none =>
    refine ⟨[], ?_, Nat.le_add_right _ _⟩
    simp only [lineSegments, h, bind, Except.bind, pure, Except.pure]
  | some spans =>
    have hfit := spansForLine_fit h
    obtain ⟨level, color, hslice, hcolor⟩ := hfit.color
    simp only [lineSegments, h, hslice, hcolor, bind, Except.bind, pure, Except.pure]
    refine ⟨_, rfl, ?_⟩
    have hlevel := hfit.level
    have hstop := hfit.level_stop
    have htimestamp := hfit.timestamp_stop
    have hbefore : InOrder lineStart (lineStart + spans.level.start)
        (if spans.timestamp.start < spans.timestamp.stop then
          [StyledRun.mk (lineStart + spans.timestamp.start) (lineStart + spans.timestamp.stop)
            HighlightStyle.dim]
        else []) := by
      split
      · exact ⟨Nat.le_add_right _ _, by dsimp only; omega, Nat.add_le_add_left htimestamp _⟩
      · exact Nat.le_add_right _ _
    refine hbefore.append ⟨Nat.le_refl _, by dsimp only; omega, ?_⟩
    cases hmodule : spans.module with
    | none => exact Nat.add_le_add_left hstop _
    | some span =>
      obtain ⟨hstart, hspan, hend⟩ := hfit.module span hmodule
      exact ⟨Nat.add_le_add_left hstart _, by dsimp only; omega, Nat.add_le_add_left hend _⟩

/-- The segments of some finished lines and one more lie in their text. -/
theorem collectSegments_inOrder {last : Text}
    (h : ∀ line ∈ lines ++ [last], ∃ found, spansForLine line = .ok found) :
    ∃ segments, collectSegments lineStart (lines ++ [last]) = .ok segments ∧
      InOrder lineStart (lineStart + utf8Len (unlines '\n' lines ++ last)) segments := by
  induction lines generalizing lineStart with
  | nil =>
    obtain ⟨found, hfound⟩ := h last (by simp)
    obtain ⟨segments, hsegments, horder⟩ := lineSegments_inOrder lineStart hfound
    refine ⟨segments ++ [], ?_, by rwa [List.append_nil]⟩
    simp only [List.nil_append, collectSegments, hsegments, bind, Except.bind, pure, Except.pure]
  | cons line lines ih =>
    obtain ⟨found, hfound⟩ := h line (by simp)
    obtain ⟨segments, hsegments, horder⟩ := lineSegments_inOrder lineStart hfound
    obtain ⟨rest, hrest, hrestOrder⟩ := @ih (lineStart + utf8Len line + 1) fun line' hline' ↦
      h line' (List.mem_cons_of_mem line hline')
    have hlen : utf8Len (unlines '\n' (line :: lines) ++ last) =
        utf8Len line + 1 + utf8Len (unlines '\n' lines ++ last) := by
      have hcons : unlines '\n' (line :: lines) = line ++ ['\n'] ++ unlines '\n' lines :=
        List.flatMap_cons
      rw [hcons, List.append_assoc, utf8Len_append, utf8Len_append]
      rfl
    refine ⟨segments ++ rest, ?_, ?_⟩
    · simp only [List.cons_append, collectSegments, hsegments, hrest, bind, Except.bind, pure,
        Except.pure]
    · rw [hlen, ← Nat.add_assoc, ← Nat.add_assoc]
      exact horder.append (hrestOrder.mono (Nat.le_succ _))

/-! ## The runs cover the text -/

theorem fillGaps_covers (h : InOrder cursor stop segments) :
    Covers cursor stop (fillGaps stop cursor segments) := by
  induction segments generalizing cursor with
  | nil =>
    rw [fillGaps]
    split
    · rename_i hlt
      exact ⟨rfl, hlt, rfl⟩
    · rename_i hge
      exact Nat.le_antisymm h (Nat.le_of_not_lt hge)
  | cons segment segments ih =>
    obtain ⟨hstart, hsegment, hrest⟩ := h
    have hle := hrest.le
    rw [fillGaps, if_pos (Nat.lt_of_le_of_lt hstart hsegment)]
    by_cases hgap : cursor < segment.start
    · rw [if_pos ⟨hgap, by omega⟩]
      exact ⟨rfl, hgap, rfl, hsegment, ih hrest⟩
    · rw [if_neg fun h ↦ hgap h.1]
      exact ⟨Nat.le_antisymm (Nat.le_of_not_lt hgap) hstart, hsegment, ih hrest⟩

/-- The runs that are returned for a range cover it, where the spans of all its lines are
defined. -/
theorem highlightRange_covers {start stop : Nat} (hrange : start < stop) (text : Text)
    (hlen : utf8Len text = stop - start)
    (hdefined : ∀ line ∈ split '\n' text, ∃ found, spansForLine line = .ok found) :
    ∃ runs, highlightRange (some text) start stop = .ok runs ∧ runs ≠ [] ∧
      Covers 0 (stop - start) runs := by
  obtain ⟨segments, hsegments, horder⟩ := @collectSegments_inOrder _ 0 _ hdefined
  rw [linesOf, unlines_splitLines, hlen, Nat.zero_add] at horder
  have hcovers := fillGaps_covers horder
  refine ⟨_, ?_, hcovers.ne_nil (Nat.sub_pos_of_lt hrange), hcovers⟩
  rw [highlightRange, split, hsegments]
  rfl

theorem highlightRange_covers_sample :
    ∃ runs, highlightRange (some "12:00  INFO wsrx: up\n\nERROR".toList) 0 27 = .ok runs ∧
      runs ≠ [] ∧ Covers 0 27 runs := by
  have hlines : ∀ line ∈ split '\n' "12:00  INFO wsrx: up\n\nERROR".toList,
      (spansForLine line).isOk = true := by decide +kernel
  refine highlightRange_covers (by decide) _ (by decide +kernel) fun line hline ↦ ?_
  have hok := hlines line hline
  cases hspans : spansForLine line with
  | ok found => exact ⟨found, rfl⟩
  | error fault =>
    rw [hspans] at hok
    cases hok

/-! ## Where the highlighter faults -/

theorem lineSegments_ok_iff :
    (∃ segments, lineSegments lineStart line = .ok segments) ↔ AsciiAfterLevel line := by
  rw [← spansForLine_ok_iff]
  constructor
  · rintro ⟨segments, hsegments⟩
    cases hspans : spansForLine line with
    | ok found => exact ⟨found, rfl⟩
    | error fault =>
      simp only [lineSegments, hspans, bind, Except.bind] at hsegments
      cases hsegments
  · rintro ⟨found, hfound⟩
    obtain ⟨segments, hsegments, -⟩ := lineSegments_inOrder lineStart hfound
    exact ⟨segments, hsegments⟩

theorem collectSegments_ok_iff :
    (∃ segments, collectSegments lineStart lines = .ok segments) ↔
      ∀ line ∈ lines, AsciiAfterLevel line := by
  induction lines generalizing lineStart with
  | nil => exact iff_of_true ⟨[], rfl⟩ fun line h ↦ by cases h
  | cons line lines ih =>
    rw [List.forall_mem_cons, ← @lineSegments_ok_iff line lineStart,
      ← @ih (lineStart + utf8Len line + 1)]
    cases hfirst : lineSegments lineStart line with
    | error fault => simp [collectSegments, hfirst, bind, Except.bind]
    | ok segments =>
      cases hrest : collectSegments (lineStart + utf8Len line + 1) lines with
      | error fault => simp [collectSegments, hfirst, hrest, bind, Except.bind]
      | ok rest => simp [collectSegments, hfirst, hrest, bind, Except.bind, pure, Except.pure]

/-- The highlighter goes through the whole document exactly where no line of it has a character of
more than one byte directly after its first level. -/
theorem highlightRange_formatLogs_iff (logs : List LogEntry) :
    (∃ runs, highlightRange (some (formatLogs logs)) 0 (utf8Len (formatLogs logs)) = .ok runs) ↔
      ∀ line ∈ split '\n' (formatLogs logs), AsciiAfterLevel line := by
  rw [← @collectSegments_ok_iff _ 0, highlightRange]
  cases collectSegments 0 (split '\n' (formatLogs logs)) with
  | error fault => simp [Except.map]
  | ok segments => simp [Except.map]

/-- A level at the start of a second line, and a colon of three bytes after it. -/
theorem highlightRange_formatLogs_faults :
    ¬∀ logs : List LogEntry, ∃ runs,
      highlightRange (some (formatLogs logs)) 0 (utf8Len (formatLogs logs)) = .ok runs := by
  intro h
  obtain ⟨runs, hruns⟩ := h [⟨sampleTime, "INFO", "wsrx", ⟨"retry\nERROR：timeout"⟩⟩]
  have hfault : highlightRange
      (some (formatLogs [⟨sampleTime, "INFO", "wsrx", ⟨"retry\nERROR：timeout"⟩⟩])) 0
      (utf8Len (formatLogs [⟨sampleTime, "INFO", "wsrx", ⟨"retry\nERROR：timeout"⟩⟩])) =
        .error .slice := by decide +kernel
  rw [hfault] at hruns
  cases hruns

end LabStreamGate.Desktop
