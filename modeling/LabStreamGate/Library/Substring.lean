import Mathlib.Data.List.Infix

/-!
# Replacing a part of a text

`str::replace` puts one text for every occurrence of another, from the left and without overlap.
Where a longer text is put for a shorter one, exactly those texts stay as they are in which the
shorter one does not occur.
-/

namespace LabStreamGate

variable {α : Type} [DecidableEq α] {pat new l : List α} {skip : Nat}

/-- The replacement goes on after `skip` elements that belong to an occurrence already replaced.
The pattern is not empty. -/
def replaceFrom (pat new : List α) : Nat → List α → List α
  | _, [] => []
  | 0, a :: l =>
    if pat.isPrefixOf (a :: l) then new ++ replaceFrom pat new (pat.length - 1) l
    else a :: replaceFrom pat new 0 l
  | skip + 1, _ :: l => replaceFrom pat new skip l

/-- `str::replace` for a pattern that is not empty. -/
def replace (s pat new : String) : String :=
  String.ofList (replaceFrom pat.toList new.toList 0 s.toList)

theorem replaceFrom_of_not_infix (h : ¬ pat <:+: l) : replaceFrom pat new 0 l = l := by
  induction l with
  | nil => rfl
  | cons a l ih =>
    have hhead : ¬ pat.isPrefixOf (a :: l) = true := fun hpre ↦
      h (List.isPrefixOf_iff_prefix.mp hpre).isInfix
    have htail : ¬ pat <:+: l := fun hin ↦ h (List.infix_cons hin)
    rw [replaceFrom, if_neg hhead, ih htail]

theorem length_le_replaceFrom (hlt : pat.length < new.length) :
    l.length ≤ skip + (replaceFrom pat new skip l).length := by
  induction l generalizing skip with
  | nil => exact Nat.zero_le _
  | cons a l ih =>
    cases skip with
    | succ skip =>
      have hl := @ih skip
      rw [replaceFrom, List.length_cons]
      omega
    | zero =>
      rw [replaceFrom]
      split
      · have hl := @ih (pat.length - 1)
        rw [List.length_append, List.length_cons]
        omega
      · have hl := @ih 0
        rw [List.length_cons, List.length_cons]
        omega

/-- Each occurrence makes the text longer. -/
theorem length_lt_replaceFrom (hpat : pat ≠ []) (hlt : pat.length < new.length) (h : pat <:+: l) :
    l.length < (replaceFrom pat new 0 l).length := by
  induction l with
  | nil => exact absurd (List.infix_nil.mp h) hpat
  | cons a l ih =>
    rw [replaceFrom]
    split
    · have hl : l.length ≤ pat.length - 1 + (replaceFrom pat new (pat.length - 1) l).length :=
        length_le_replaceFrom hlt
      have hpos := List.length_pos_iff.mpr hpat
      rw [List.length_append, List.length_cons]
      omega
    · rename_i hhead
      rcases List.infix_cons_iff.mp h with hpre | hin
      · exact absurd (List.isPrefixOf_iff_prefix.mpr hpre) hhead
      · have hl := ih hin
        rw [List.length_cons, List.length_cons]
        omega

theorem replaceFrom_eq_self_iff (hpat : pat ≠ []) (hlt : pat.length < new.length) :
    replaceFrom pat new 0 l = l ↔ ¬ pat <:+: l := by
  constructor
  · intro heq h
    have hlen := length_lt_replaceFrom hpat hlt h
    rw [heq] at hlen
    exact Nat.lt_irrefl _ hlen
  · exact replaceFrom_of_not_infix

example : replace "a ws b wws" "ws" "http" = "a http b whttp" := by decide

end LabStreamGate
