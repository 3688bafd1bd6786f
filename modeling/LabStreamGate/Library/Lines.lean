import Mathlib.Data.List.Basic

/-!
# Lines

A text as lines that each end in a separator, and a last one that may not be finished.
-/

namespace LabStreamGate

variable {α : Type*} {sep : α} {l l' rest : List α} {lines : List (List α)}

/-- The text of some lines. -/
def unlines (sep : α) (lines : List (List α)) : List α := lines.flatMap (· ++ [sep])

variable [DecidableEq α]

/-- The finished lines of a text, and what comes after them. -/
def splitLines (sep : α) : List α → List (List α) × List α
  | [] => ([], [])
  | a :: l =>
    let r := splitLines sep l
    if a = sep then ([] :: r.1, r.2)
    else
      match r.1 with
      | [] => ([], a :: r.2)
      | line :: lines => ((a :: line) :: lines, r.2)

def linesOf (sep : α) (l : List α) : List (List α) := (splitLines sep l).1

/-- `str::split`: the last line is there even if it is empty. -/
def split (sep : α) (l : List α) : List (List α) := linesOf sep l ++ [(splitLines sep l).2]

/-- The last line is finished, where there is one. -/
def IsWhole (sep : α) (l : List α) : Prop := (splitLines sep l).2 = []

instance : Decidable (IsWhole sep l) := inferInstanceAs (Decidable (_ = []))

omit [DecidableEq α] in
@[simp] theorem unlines_nil : unlines sep [] = [] := rfl

omit [DecidableEq α] in
theorem unlines_append {lines' : List (List α)} :
    unlines sep (lines ++ lines') = unlines sep lines ++ unlines sep lines' := List.flatMap_append

omit [DecidableEq α] in
theorem unlines_singleton {line : List α} : unlines sep [line] = line ++ [sep] := by
  simp [unlines]

omit [DecidableEq α] in
/-- The text of some lines, taken apart at one of them. -/
theorem unlines_getElem {n : Nat} (h : n < lines.length) : unlines sep lines =
    unlines sep (lines.take n) ++ (lines[n] ++ sep :: unlines sep (lines.drop (n + 1))) := by
  conv_lhs => rw [← List.take_append_drop n lines, List.drop_eq_getElem_cons h]
  simp only [unlines, List.flatMap_append, List.flatMap_cons, List.append_assoc,
    List.singleton_append]

/-- The parts of a text make it up. -/
theorem unlines_splitLines :
    unlines sep (splitLines sep l).1 ++ (splitLines sep l).2 = l := by
  induction l with
  | nil => rfl
  | cons a l ih =>
    rw [splitLines]
    split
    · rename_i ha
      simp only [unlines, List.flatMap_cons, List.nil_append, List.cons_append] at ih ⊢
      rw [ih, ha]
    · split
      · rename_i hnil
        rw [hnil] at ih
        simpa using ih
      · rename_i line lines hcons
        rw [hcons] at ih
        simpa [unlines] using ih

/-- A line is read back up to its separator. -/
theorem splitLines_line {line : List α} (h : sep ∉ line) :
    splitLines sep (line ++ sep :: l) = (line :: (splitLines sep l).1, (splitLines sep l).2) := by
  induction line with
  | nil => simp [splitLines]
  | cons a line ih =>
    rw [List.mem_cons, not_or] at h
    rw [List.cons_append, splitLines, ih h.2, if_neg (Ne.symm h.1)]

theorem splitLines_unlines (h : ∀ line ∈ lines, sep ∉ line) :
    splitLines sep (unlines sep lines ++ l) =
      (lines ++ (splitLines sep l).1, (splitLines sep l).2) := by
  induction lines with
  | nil => rfl
  | cons line lines ih =>
    have hcons : unlines sep (line :: lines) ++ l = line ++ sep :: (unlines sep lines ++ l) := by
      simp [unlines]
    rw [hcons, splitLines_line (h line List.mem_cons_self),
      ih fun line' hline' ↦ h line' (List.mem_cons_of_mem line hline')]
    rfl

theorem not_mem_of_mem_linesOf {line : List α} (h : line ∈ linesOf sep l) : sep ∉ line := by
  induction l generalizing line with
  | nil => cases h
  | cons a l ih =>
    rw [linesOf, splitLines] at h
    split at h
    · rcases List.mem_cons.mp h with rfl | h
      · exact List.not_mem_nil
      · exact ih h
    · rename_i ha
      split at h
      · cases h
      · rename_i first lines hcons
        have hlines : ∀ line ∈ first :: lines, sep ∉ line := by
          intro line hmem
          rw [← hcons] at hmem
          exact ih hmem
        rcases List.mem_cons.mp h with rfl | h
        · rw [List.mem_cons, not_or]
          exact ⟨Ne.symm ha, hlines first List.mem_cons_self⟩
        · exact hlines line (List.mem_cons_of_mem _ h)

theorem not_mem_splitLines : sep ∉ (splitLines sep l).2 := by
  induction l with
  | nil => exact List.not_mem_nil
  | cons a l ih =>
    rw [splitLines]
    split
    · exact ih
    · rename_i ha
      split
      · rw [List.mem_cons, not_or]
        exact ⟨Ne.symm ha, ih⟩
      · exact ih

/-- The lines of a whole text are followed by those of what is appended to it. -/
theorem IsWhole.splitLines_append (h : IsWhole sep l) :
    splitLines sep (l ++ l') = (linesOf sep l ++ linesOf sep l', (splitLines sep l').2) := by
  have hl : unlines sep (linesOf sep l) = l := by
    have hparts := @unlines_splitLines _ sep l _
    rwa [h, List.append_nil] at hparts
  conv => lhs; rw [← hl]
  exact splitLines_unlines fun line hline ↦ not_mem_of_mem_linesOf hline

theorem IsWhole.append_iff (h : IsWhole sep l) : IsWhole sep (l ++ l') ↔ IsWhole sep l' := by
  rw [IsWhole, h.splitLines_append]
  rfl

theorem IsWhole.linesOf_append (h : IsWhole sep l) :
    linesOf sep (l ++ l') = linesOf sep l ++ linesOf sep l' := by
  rw [linesOf, h.splitLines_append]

theorem isWhole_unlines (h : ∀ line ∈ lines, sep ∉ line) : IsWhole sep (unlines sep lines) := by
  have hsplit := @splitLines_unlines _ sep [] lines _ h
  rw [List.append_nil] at hsplit
  rw [IsWhole, hsplit]
  rfl

theorem linesOf_unlines (h : ∀ line ∈ lines, sep ∉ line) :
    linesOf sep (unlines sep lines) = lines := by
  have hsplit := @splitLines_unlines _ sep [] lines _ h
  rw [List.append_nil] at hsplit
  rw [linesOf, hsplit]
  exact List.append_nil lines

theorem length_linesOf : (linesOf sep l).length = l.count sep := by
  induction l with
  | nil => rfl
  | cons a l ih =>
    rw [linesOf] at ih ⊢
    rw [splitLines]
    split
    · rename_i ha
      rw [List.length_cons, ih, ha, List.count_cons_self]
    · rename_i ha
      rw [List.count_cons_of_ne ha, ← ih]
      split
      · rename_i hnil
        rw [hnil]
      · rename_i hcons
        rw [hcons, List.length_cons, List.length_cons]

/-- The first line of a text, if it is finished, and what comes after its separator. -/
def firstLine (sep : α) : List α → Option (List α × List α)
  | [] => none
  | a :: l => if a = sep then some ([], l) else (firstLine sep l).map fun r ↦ (a :: r.1, r.2)

theorem firstLine_eq_none : firstLine sep l = none ↔ sep ∉ l := by
  induction l with
  | nil => exact iff_of_true rfl List.not_mem_nil
  | cons a l ih =>
    rw [firstLine, List.mem_cons, not_or]
    split
    · rename_i ha
      exact iff_of_false (fun h ↦ nomatch h) fun h ↦ h.1 ha.symm
    · rename_i ha
      rw [Option.map_eq_none_iff, ih, and_iff_right (Ne.symm ha)]

theorem firstLine_eq_some {line : List α} (h : firstLine sep l = some (line, rest)) :
    l = line ++ sep :: rest ∧ sep ∉ line := by
  induction l generalizing line with
  | nil => cases h
  | cons a l ih =>
    rw [firstLine] at h
    split at h
    · rename_i ha
      cases h
      exact ⟨by rw [ha, List.nil_append], List.not_mem_nil⟩
    · rename_i ha
      obtain ⟨⟨line', rest'⟩, hfirst, heq⟩ := Option.map_eq_some_iff.mp h
      cases heq
      obtain ⟨hl, hline⟩ := ih hfirst
      refine ⟨by rw [hl, List.cons_append], ?_⟩
      rw [List.mem_cons, not_or]
      exact ⟨Ne.symm ha, hline⟩

/-- A text is whole where it is empty or ends in a separator. -/
theorem isWhole_iff : IsWhole sep l ↔ l = [] ∨ l.getLast? = some sep := by
  have hparts := @unlines_splitLines _ sep l _
  constructor
  · intro h
    rw [h, List.append_nil] at hparts
    rcases List.eq_nil_or_concat (splitLines sep l).1 with hnil | ⟨lines, line, hlines⟩
    · rw [hnil] at hparts
      exact .inl hparts.symm
    · rw [hlines, List.concat_eq_append, unlines_append, unlines_singleton, ← List.append_assoc]
        at hparts
      rw [← hparts, List.getLast?_concat]
      exact .inr rfl
  · rintro (rfl | h)
    · rfl
    · by_contra hrest
      rw [← hparts, List.getLast?_append_of_ne_nil _ hrest] at h
      exact not_mem_splitLines (List.mem_of_getLast? h)

end LabStreamGate
