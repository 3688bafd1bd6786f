import LabStreamGate.Desktop.LogLevels

/-!
# The spans of a line

`spans_for_line` takes the byte after the level for the space that `format_logs` writes there.
-/

namespace LabStreamGate.Desktop

/-! ## `spans_for_line` -/

/-- `Range<usize>`. -/
structure Span where
  start : Nat
  stop : Nat
  deriving DecidableEq, Repr

structure LineSpans where
  timestamp : Span
  level : Span
  module : Option Span
  deriving DecidableEq, Repr

/-- `str::trim_end`. -/
def trimEnd (cs : Text) : Text := cs.rdropWhile isWhiteSpace

/-- The module of a line and the colon after it, where they start at a byte of the line. -/
def moduleFrom (moduleStart : Nat) (line : Text) : Except Fault (Option Span) :=
  if moduleStart < utf8Len line then
    (sliceFrom moduleStart line).map fun rest ↦
      (find [':', ' '] rest).map fun rel ↦ ⟨moduleStart, moduleStart + rel + 1⟩
  else .ok none

def spansForLine (line : Text) : Except Fault (Option LineSpans) := do
  match ← findLevel line with
  | none => return none
  | some (offset, level) =>
    let tsEnd := utf8Len (trimEnd (← sliceTo offset line))
    let module ← moduleFrom (offset + utf8Len level + 1) line
    return some
      { timestamp := ⟨0, tsEnd⟩
        level := ⟨offset, offset + utf8Len level⟩
        module := module }

variable {line front back rest level part : Text} {c : Char} {n : Nat}

/-- The span of a part that comes after some text. -/
def spanOf (front part : Text) : Span := ⟨utf8Len front, utf8Len front + utf8Len part⟩

theorem slice_spanOf : slice (spanOf front part).start (spanOf front part).stop
    (front ++ (part ++ back)) = .ok part := slice_append

/-- The module of a line, from what comes after the level. -/
def moduleOf (front level : Text) : Text → Except Fault (Option Span)
  | [] => .ok none
  | c :: rest =>
    if c.utf8Size = 1 then
      .ok ((find [':', ' '] rest).map fun rel ↦
        ⟨utf8Len front + utf8Len level + 1, utf8Len front + utf8Len level + 1 + rel + 1⟩)
    else .error .slice

theorem moduleFrom_eq (hline : line = front ++ (level ++ back)) :
    moduleFrom (utf8Len front + utf8Len level + 1) line = moduleOf front level back := by
  have hlen : utf8Len line = utf8Len front + utf8Len level + utf8Len back := by
    rw [hline, utf8Len_append, utf8Len_append, Nat.add_assoc]
  cases back with
  | nil =>
    rw [utf8Len_nil] at hlen
    rw [moduleFrom, if_neg (by omega), moduleOf]
  | cons c rest =>
    rw [utf8Len_cons] at hlen
    rw [← List.append_assoc] at hline
    by_cases hc : c.utf8Size = 1
    · have hfrom : sliceFrom (utf8Len front + utf8Len level + 1) line = .ok rest := by
        rw [List.append_cons] at hline
        rw [hline, ← hc, ← utf8Len_append, ← Nat.add_zero c.utf8Size, ← utf8Len_nil,
          ← utf8Len_cons, ← utf8Len_append]
        exact sliceFrom_append
      rw [moduleFrom, hfrom, moduleOf, if_pos hc]
      by_cases hrest : rest = []
      · rw [hrest, utf8Len_nil] at hlen
        rw [if_neg (by omega), hrest]
        rfl
      · have hpos := utf8Len_pos hrest
        rw [if_pos (by omega)]
        rfl
    · have hfrom : sliceFrom (utf8Len front + utf8Len level + 1) line = .error .slice := by
        rw [hline, ← utf8Len_append]
        exact sliceFrom_succ hc
      have hpos := c.utf8Size_pos
      rw [moduleFrom, hfrom, moduleOf, if_neg hc, if_pos (by omega)]
      rfl

/-- The spans of a line whose first level is known. -/
theorem spansForLine_of_level (hfind : findLevel line = .ok (some (utf8Len front, level)))
    (hline : line = front ++ (level ++ back)) :
    spansForLine line = (moduleOf front level back).map fun module ↦ some
      { timestamp := ⟨0, utf8Len (trimEnd front)⟩
        level := spanOf front level
        module := module } := by
  have hto : sliceTo (utf8Len front) line = .ok front := hline ▸ sliceTo_append
  simp only [spansForLine, hfind, hto, bind, Except.bind]
  rw [moduleFrom_eq hline]
  cases moduleOf front level back <;> rfl

/-- A line has no level, or its spans are those around the first one. -/
theorem spansForLine_cases (line : Text) :
    spansForLine line = .ok none ∧ IsFirstLevel line levels none ∨
      ∃ front level back, line = front ++ (level ++ back) ∧
        IsFirstLevel line levels (some (utf8Len front, level)) ∧
        spansForLine line = (moduleOf front level back).map fun module ↦ some
          { timestamp := ⟨0, utf8Len (trimEnd front)⟩
            level := spanOf front level
            module := module } := by
  obtain ⟨found, hfound, hfirst⟩ := @findLevel_spec line
  cases found with
  | none =>
    refine .inl ⟨?_, hfirst⟩
    simp only [spansForLine, hfound, bind, Except.bind, pure, Except.pure]
  | some found =>
    obtain ⟨n, level⟩ := found
    obtain ⟨front, back, hline, rfl, -, -⟩ := id hfirst.2.1
    exact .inr ⟨front, level, back, hline, hfirst, spansForLine_of_level hfound hline⟩

/-! ## Where a line faults -/

/-- What stands directly after the first level of a line is an ASCII character, if anything. -/
def AsciiAfterLevel (line : Text) : Prop :=
  ∀ front level c rest, line = front ++ (level ++ c :: rest) →
    IsFirstLevel line levels (some (utf8Len front, level)) → c.toNat < 128

theorem utf8Size_eq_one_iff : c.utf8Size = 1 ↔ c.toNat < 128 := by
  rw [Char.utf8Size_eq_one_iff, UInt32.le_iff_toNat_le]
  exact Nat.lt_succ_iff.symm

theorem spansForLine_ok_iff (line : Text) :
    (∃ spans, spansForLine line = .ok spans) ↔ AsciiAfterLevel line := by
  rcases spansForLine_cases line with ⟨hspans, hnone⟩ | ⟨front, level, back, hline, hfirst, hspans⟩
  · refine iff_of_true ⟨none, hspans⟩ fun front level c rest _ hfirst ↦ ?_
    exact absurd hfirst.2.1 (hnone level hfirst.1 _)
  · rw [hspans]
    constructor
    · rintro ⟨spans, hok⟩ front' level' c rest hline' hfirst'
      -- the first level is the same, and what comes after it
      have hstart : utf8Len front = utf8Len front' :=
        Nat.le_antisymm (hfirst.2.2 level' hfirst'.1 _ hfirst'.2.1)
          (hfirst'.2.2 level hfirst.1 _ hfirst.2.1)
      rw [← hstart] at hfirst'
      have hsame := hfirst.2.1.unique (isWord_of_mem_levels hfirst.1)
        (isWord_of_mem_levels hfirst'.1) hfirst'.2.1
      rw [hline', ← hsame] at hline
      obtain ⟨-, hrest⟩ := append_inj_of_utf8Len hline.symm hstart
      rw [List.append_cancel_left hrest, moduleOf] at hok
      split at hok
      · rename_i hc
        exact utf8Size_eq_one_iff.mp hc
      · cases hok
    · intro hascii
      cases back with
      | nil => exact ⟨_, rfl⟩
      | cons c rest =>
        have hc := utf8Size_eq_one_iff.mpr (hascii front level c rest hline hfirst)
        rw [moduleOf, if_pos hc]
        exact ⟨_, rfl⟩

end LabStreamGate.Desktop
