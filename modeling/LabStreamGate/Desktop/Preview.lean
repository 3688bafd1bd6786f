import LabStreamGate.Desktop.LogLevels
import LabStreamGate.Library.Rope

/-!
# The preview of the logs

`scrollbar_preview` colours the rows beside the scrollbar by their levels.  It looks for the level
of a row only where the rope has the row in one piece.
-/

namespace LabStreamGate.Desktop

/-- A colour, and its opacity in percent. -/
structure Hsla where
  rgb : Nat
  opacity : Nat
  deriving DecidableEq, Repr

def transparent : Hsla := ⟨0, 0⟩

def previewColors : List (Text × Hsla) :=
  [("TRACE".toList, ⟨0x9A6FCE, 40⟩), ("DEBUG".toList, ⟨0x4F9CF6, 50⟩),
    ("INFO".toList, ⟨0x3FB950, 60⟩), ("WARN".toList, ⟨0xD29922, 85⟩),
    ("ERROR".toList, ⟨0xF85149, 100⟩)]

def previewColor (level : Text) : Option Hsla :=
  (previewColors.find? fun entry ↦ entry.1 = level).map Prod.snd

/-- A strip of one line for each row. -/
structure ScrollbarPreview where
  left : Nat
  width : Nat
  lines : List Hsla
  deriving DecidableEq, Repr

/-- The colour of what `find_level` returns. -/
def foundColor (found : Option (Nat × Text)) : Hsla :=
  (found.bind fun entry ↦ previewColor entry.2).getD transparent

def lineColor (text : Rope Char) (row : Nat) : Except Fault Hsla :=
  match (text.sliceLine '\n' row).asStr with
  | some line => (findLevel line).map foundColor
  | none => .ok transparent

/-- The loop over the rows. -/
def previewLines (text : Rope Char) : List Nat → Except Fault (List Hsla)
  | [] => .ok []
  | row :: rows => do
    let color ← lineColor text row
    let lines ← previewLines text rows
    return color :: lines

def scrollbarPreview (text : Rope Char) (windowStart windowEnd : Nat) :
    Except Fault ScrollbarPreview :=
  let start := min windowStart (text.linesLen '\n')
  let stop := min windowEnd (text.linesLen '\n')
  if stop ≤ start then .ok ⟨0, 0, []⟩
  else (previewLines text (List.range' start (stop - start))).map fun lines ↦ ⟨2, 6, lines⟩

/-! ## What a preview is for -/

def HasLevel (line : Text) : Prop := ∃ level ∈ levels, ∃ n, IsWordAt line level n

/-- The colour is that of the first level in the line. -/
def IsLineColor (line : Text) (color : Hsla) : Prop :=
  ∃ found, IsFirstLevel line levels found ∧ color = foundColor found

/-- A row is stored in one piece, or has no level. -/
def Stored (text : Rope Char) (row : Nat) (line : Text) : Prop :=
  HasLevel line → (text.sliceLine '\n' row).inOneChunk = true

variable {text : Rope Char} {row start count : Nat} {line : Text} {found : Option (Nat × Text)}

/-- No level is transparent. -/
theorem foundColor_ne_transparent {n : Nat} {level : Text} (h : level ∈ levels) :
    foundColor (some (n, level)) ≠ transparent := by
  have hall : levels.all fun level ↦ foundColor (some (0, level)) != transparent := by decide
  exact bne_iff_ne.mp (List.all_eq_true.mp hall level h)

theorem isLineColor_transparent_iff : IsLineColor line transparent ↔ ¬HasLevel line := by
  constructor
  · rintro ⟨found, hfirst, hcolor⟩ ⟨level, hlevel, n, hat⟩
    cases found with
    | none => exact hfirst level hlevel n hat
    | some found => exact foundColor_ne_transparent hfirst.1 hcolor.symm
  · intro h
    exact ⟨none, fun level hlevel n hat ↦ h ⟨level, hlevel, n, hat⟩, rfl⟩

theorem lineColor_spec (h : (text.lines '\n')[row]? = some line) :
    ∃ color, lineColor text row = .ok color ∧ (IsLineColor line color ↔ Stored text row line) := by
  obtain ⟨hrow, rfl⟩ := List.getElem?_eq_some_iff.mp h
  have htext := Rope.text_sliceLine hrow
  by_cases hchunk : (text.sliceLine '\n' row).inOneChunk = true
  · obtain ⟨found, hfound, hfirst⟩ := @findLevel_spec (text.lines '\n')[row]
    refine ⟨foundColor found, ?_, iff_of_true ⟨found, hfirst, rfl⟩ fun _ ↦ hchunk⟩
    rw [lineColor, RopeSlice.asStr, if_pos hchunk, htext]
    exact congrArg (Except.map foundColor) hfound
  · refine ⟨transparent, ?_, isLineColor_transparent_iff.trans ?_⟩
    · rw [lineColor, RopeSlice.asStr, if_neg hchunk]
    · exact ⟨fun hnone hlevel ↦ absurd hlevel hnone, fun hstored hlevel ↦ hchunk (hstored hlevel)⟩

theorem previewLines_spec (h : start + count ≤ text.linesLen '\n') :
    ∃ colors, previewLines text (List.range' start count) = .ok colors ∧
      (List.Forall₂ IsLineColor (((text.lines '\n').drop start).take count) colors ↔
        ∀ row line, (text.lines '\n')[row]? = some line → start ≤ row → row < start + count →
          Stored text row line) := by
  induction count generalizing start with
  | zero =>
    refine ⟨[], rfl, iff_of_true ?_ fun row line _ hge hlt ↦ absurd hge (Nat.not_le.mpr hlt)⟩
    rw [List.take_zero]
    exact .nil
  | succ count ih =>
    have hrow : start < (text.lines '\n').length := by
      rw [Rope.linesLen] at h
      omega
    have hget := List.getElem?_eq_getElem hrow
    obtain ⟨color, hcolor, hiff⟩ := lineColor_spec hget
    obtain ⟨colors, hcolors, hrest⟩ := @ih (start + 1) (by omega)
    refine ⟨color :: colors, ?_, ?_⟩
    · simp only [List.range'_succ, previewLines, hcolor, hcolors, bind, Except.bind, pure,
        Except.pure]
    · rw [List.drop_eq_getElem_cons hrow, List.take_succ_cons, List.forall₂_cons, hiff, hrest]
      constructor
      · rintro ⟨hfirst, hrows⟩ row line hline hge hlt
        rcases Nat.eq_or_lt_of_le hge with rfl | hgt
        · rwa [Option.some.inj (hline.symm.trans hget)]
        · exact hrows row line hline hgt (by omega)
      · intro hrows
        exact ⟨hrows start _ hget (Nat.le_refl _) (by omega),
          fun row line hline hge hlt ↦ hrows row line hline (by omega) (by omega)⟩

theorem rows_eq {lines : List Text} {windowStart windowEnd : Nat} :
    (lines.take windowEnd).drop windowStart =
      (lines.drop (min windowStart lines.length)).take
        (min windowEnd lines.length - min windowStart lines.length) := by
  rw [List.drop_take]
  rcases Nat.le_total windowStart lines.length with hle | hge
  · rw [Nat.min_eq_left hle]
    refine List.take_eq_take_iff.mpr ?_
    rw [List.length_drop]
    omega
  · rw [Nat.min_eq_right hge, List.drop_eq_nil_of_le hge, List.drop_length, List.take_nil,
      List.take_nil]

/-- The preview shows the levels of the rows exactly where the rope has each row that has one in one
piece. -/
theorem scrollbarPreview_faithful_iff (text : Rope Char) (windowStart windowEnd : Nat) :
    (∃ preview, scrollbarPreview text windowStart windowEnd = .ok preview ∧
      List.Forall₂ IsLineColor (((text.lines '\n').take windowEnd).drop windowStart)
        preview.lines) ↔
      ∀ row line, (text.lines '\n')[row]? = some line → windowStart ≤ row → row < windowEnd →
        HasLevel line → (text.sliceLine '\n' row).inOneChunk = true := by
  let start := min windowStart (text.linesLen '\n')
  let stop := min windowEnd (text.linesLen '\n')
  obtain ⟨colors, hcolors, hiff⟩ := @previewLines_spec text start (stop - start) (by omega)
  have hpreview : ∃ preview, scrollbarPreview text windowStart windowEnd = .ok preview ∧
      preview.lines = colors := by
    by_cases hempty : stop ≤ start
    · rw [Nat.sub_eq_zero_of_le hempty] at hcolors
      exact ⟨⟨0, 0, []⟩, if_pos hempty, (Except.ok.inj hcolors :)⟩
    · refine ⟨⟨2, 6, colors⟩, ?_, rfl⟩
      rw [scrollbarPreview, if_neg hempty, hcolors]
      rfl
  have hrows : (∀ row line, (text.lines '\n')[row]? = some line → windowStart ≤ row →
      row < windowEnd → HasLevel line → (text.sliceLine '\n' row).inOneChunk = true) ↔
      ∀ row line, (text.lines '\n')[row]? = some line → start ≤ row →
        row < start + (stop - start) → Stored text row line := by
    refine forall_congr' fun row ↦ forall_congr' fun line ↦ forall_congr' fun hline ↦ ?_
    have hlt : row < text.linesLen '\n' := (List.getElem?_eq_some_iff.mp hline).1
    have hbounds : windowStart ≤ row ∧ row < windowEnd ↔
        start ≤ row ∧ row < start + (stop - start) := by omega
    exact ⟨fun h hge hlt ↦ h (hbounds.mpr ⟨hge, hlt⟩).1 (hbounds.mpr ⟨hge, hlt⟩).2,
      fun h hge hlt ↦ h (hbounds.mp ⟨hge, hlt⟩).1 (hbounds.mp ⟨hge, hlt⟩).2⟩
  rw [hrows, ← hiff, rows_eq]
  obtain ⟨preview, heq, rfl⟩ := hpreview
  constructor
  · rintro ⟨preview', heq', hcolored⟩
    rwa [Except.ok.inj (heq.symm.trans heq')]
  · intro hcolored
    exact ⟨preview, heq, hcolored⟩

/-- A text of one row whose level is stored in two pieces. -/
def sampleRope : Rope Char := ⟨["14:07:00  IN".toList, "FO wsrx: up".toList]⟩

theorem scrollbarPreview_misses_level : ¬∀ (text : Rope Char) (windowStart windowEnd : Nat),
    ∃ preview, scrollbarPreview text windowStart windowEnd = .ok preview ∧
      List.Forall₂ IsLineColor (((text.lines '\n').take windowEnd).drop windowStart)
        preview.lines := by
  intro h
  obtain ⟨preview, hpreview, hcolored⟩ := h sampleRope 0 1
  have hresult : scrollbarPreview sampleRope 0 1 = .ok ⟨2, 6, [transparent]⟩ := by decide
  have hrows : ((sampleRope.lines '\n').take 1).drop 0 = ["14:07:00  INFO wsrx: up".toList] := by
    decide
  rw [← Except.ok.inj (hresult.symm.trans hpreview), hrows] at hcolored
  refine isLineColor_transparent_iff.mp (List.forall₂_cons.mp hcolored).1 ?_
  exact ⟨"INFO".toList, by decide, 10, "14:07:00  ".toList, " wsrx: up".toList, by decide⟩

end LabStreamGate.Desktop
