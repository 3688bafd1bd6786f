import LabStreamGate.Library.Lines

/-!
# Ropes

A text that is stored in chunks.  A slice of it is there in one piece where it lies in one chunk.
-/

namespace LabStreamGate

variable {α : Type*}

structure Rope (α : Type*) where
  chunks : List (List α)

/-- From one offset up to another. -/
structure RopeSlice (α : Type*) where
  rope : Rope α
  start : Nat
  stop : Nat

namespace Rope

def text (rope : Rope α) : List α := rope.chunks.flatten

/-- Whether a part of some chunks lies in one of them. -/
def inOneChunk : List (List α) → Nat → Nat → Bool
  | [], start, stop => start == stop
  | chunk :: chunks, start, stop =>
    decide (stop ≤ chunk.length) ||
      (decide (chunk.length ≤ start) &&
        inOneChunk chunks (start - chunk.length) (stop - chunk.length))

example : inOneChunk ["ab".toList, "cde".toList] 2 4 = true ∧
    inOneChunk ["ab".toList, "cde".toList] 1 3 = false := by decide

end Rope

namespace RopeSlice

variable (slice : RopeSlice α)

def text : List α := (slice.rope.text.drop slice.start).take (slice.stop - slice.start)

def inOneChunk : Bool := Rope.inOneChunk slice.rope.chunks slice.start slice.stop

/-- The text, where it is stored in one piece. -/
def asStr : Option (List α) := if slice.inOneChunk then some slice.text else none

end RopeSlice

namespace Rope

variable [DecidableEq α] (sep : α) (rope : Rope α)

/-- The lines, with a last one that may be empty. -/
def lines : List (List α) := split sep rope.text

def linesLen : Nat := (rope.lines sep).length

/-- The offset of a line. -/
def lineStart (row : Nat) : Nat := (unlines sep ((rope.lines sep).take row)).length

/-- A line without its end. -/
def sliceLine (row : Nat) : RopeSlice α where
  rope := rope
  start := rope.lineStart sep row
  stop := rope.lineStart sep row + ((rope.lines sep)[row]?.getD []).length

variable {sep rope} {row : Nat}

/-- The lines before a line, the line and what comes after it make up the text. -/
theorem exists_text_eq (h : row < rope.linesLen sep) :
    ∃ rest, rope.text =
      unlines sep ((rope.lines sep).take row) ++ ((rope.lines sep)[row] ++ rest) := by
  have htext := @unlines_splitLines _ sep rope.text _
  let parts := (splitLines sep rope.text).1
  let last := (splitLines sep rope.text).2
  have hlines : rope.lines sep = parts ++ [last] := rfl
  have hlen : rope.linesLen sep = parts.length + 1 := by
    rw [linesLen, hlines, List.length_append, List.length_singleton]
  rcases Nat.lt_or_ge row parts.length with hlt | hge
  · have hget : (rope.lines sep)[row] = parts[row] := by
      simp only [hlines, List.getElem_append_left hlt]
    have htake : (rope.lines sep).take row = parts.take row := by
      rw [hlines, List.take_append_of_le_length (Nat.le_of_lt hlt)]
    refine ⟨sep :: (unlines sep (parts.drop (row + 1)) ++ last), ?_⟩
    rw [hget, htake, ← htext]
    change unlines sep parts ++ last = _
    rw [unlines_getElem hlt, List.append_assoc, List.append_assoc, List.cons_append]
  · obtain rfl : row = parts.length := by omega
    have hget : (rope.lines sep)[parts.length] = last := by
      simp only [hlines, List.getElem_concat_length]
    have htake : (rope.lines sep).take parts.length = parts := by
      rw [hlines, List.take_left]
    refine ⟨[], ?_⟩
    rw [hget, htake, List.append_nil]
    exact htext.symm

/-- The slice of a line is the line. -/
theorem text_sliceLine (h : row < rope.linesLen sep) :
    (rope.sliceLine sep row).text = (rope.lines sep)[row] := by
  obtain ⟨rest, htext⟩ := exists_text_eq h
  have hget : (rope.lines sep)[row]?.getD [] = (rope.lines sep)[row] := by
    rw [List.getElem?_eq_getElem h, Option.getD_some]
  rw [RopeSlice.text, sliceLine, hget, Nat.add_sub_cancel_left, lineStart, htext, List.drop_left,
    List.take_left]

end Rope

end LabStreamGate
