import LabStreamGate.Library.FileSystem

/-!
# Several writers of one text

Writers that overlap on one file and all write the same text, each from its own start: whichever
ends last, the file holds the text once all have ended.  A writer that opens the file empties it
for the others too, so what is missing is always still ahead of some writer.
-/

namespace LabStreamGate

namespace Fs

variable {P : Type*} {fs : Fs P} {p : P} {data : Bytes} {ahead ahead' : Nat → Prop}

/-- `p` has every byte of `data` that is not still ahead of a writer; `ahead k` says that one is
at offset `k`. -/
def FilledBut (fs : Fs P) (p : P) (data : Bytes) (ahead : Nat → Prop) : Prop :=
  ∃ content, fs.read p = some content ∧ content.length ≤ data.length ∧
    ∀ i < data.length, content[i]? = data[i]? ∨ ∃ k ≤ i, ahead k

-- Only writers short of the end of the text count.
theorem FilledBut.mono (h : fs.FilledBut p data ahead)
    (hahead : ∀ k < data.length, ahead k → ahead' k) : fs.FilledBut p data ahead' := by
  obtain ⟨content, hread, hlen, hbytes⟩ := h
  refine ⟨content, hread, hlen, fun i hi ↦ (hbytes i hi).imp_right ?_⟩
  rintro ⟨k, hk, ha⟩
  exact ⟨k, hk, hahead k (by omega) ha⟩

/-- With no writer left the text is there. -/
theorem FilledBut.read_eq (h : fs.FilledBut p data ahead) (hahead : ∀ k, ¬ ahead k) :
    fs.read p = some data := by
  obtain ⟨content, hread, hlen, hbytes⟩ := h
  have heq : content = data := by
    apply List.ext_getElem?
    intro i
    by_cases hi : i < data.length
    · rcases hbytes i hi with h | ⟨k, -, ha⟩
      · exact h
      · exact absurd ha (hahead k)
    · rw [List.getElem?_eq_none (by omega), List.getElem?_eq_none (by omega)]
  rw [hread, heq]

-- Emptying the file puts all of the text ahead of the one who did it.
theorem create_filledBut [DecidableEq P] (h : ahead 0) :
    (fs.create p).1.FilledBut p data ahead := by
  have hw := fs.create_writing p data
  refine ⟨[], ?_, Nat.zero_le _, fun i _ ↦ .inr ⟨0, Nat.zero_le _, h⟩⟩
  rw [read, hw.named, Option.map_some, hw.written, create_offset, List.take_zero]

-- Byte by byte: before the offset, within what is written, and behind it.
theorem getElem?_overwrite {old new : Bytes} {offset i : Nat} :
    (overwrite old offset new)[i]? =
      if i < offset then if i < old.length then old[i]? else some 0
      else if i < offset + new.length then new[i - offset]? else old[i]? := by
  have hlead : (old.take offset ++ List.replicate (offset - old.length) 0).length = offset := by
    simp only [List.length_append, List.length_take, List.length_replicate]
    omega
  unfold overwrite
  by_cases hi : i < offset
  · rw [if_pos hi, List.append_assoc, List.getElem?_append_left (by omega)]
    by_cases hold : i < old.length
    · rw [if_pos hold, List.getElem?_append_left (by simp; omega), List.getElem?_take_of_lt hi]
    · rw [if_neg hold, List.getElem?_append_right (by simp; omega), List.getElem?_replicate,
        if_pos (by simp; omega)]
  · rw [if_neg hi, List.append_assoc, List.getElem?_append_right (by omega), hlead]
    by_cases hnew : i < offset + new.length
    · rw [if_pos hnew, List.getElem?_append_left (by omega)]
    · rw [if_neg hnew, List.getElem?_append_right (by omega), List.getElem?_drop]
      congr 1
      omega

/-- A writer goes on by `n` bytes of the text. -/
theorem FilledBut.write {h : Handle} {n : Nat} (hf : fs.FilledBut p data ahead)
    (hp : fs.dir p = some h.inode) (hle : h.offset ≤ data.length)
    (hself : ahead' (fs.write h ((data.drop h.offset).take n)).2.offset)
    (hothers : ∀ k, ahead k → k = h.offset ∨ ahead' k) :
    (fs.write h ((data.drop h.offset).take n)).1.FilledBut p data ahead' := by
  obtain ⟨content, hread, hlen, hbytes⟩ := hf
  obtain rfl : fs.data h.inode = content := by
    rw [read, hp, Option.map_some] at hread
    exact Option.some.inj hread
  set piece := (data.drop h.offset).take n with hpiece
  have hpiece_len : piece.length = min n (data.length - h.offset) := by
    rw [hpiece, List.length_take, List.length_drop]
  have hdata : (fs.write h piece).1.data h.inode =
      overwrite (fs.data h.inode) h.offset piece := by
    simp [Fs.write]
  refine ⟨overwrite (fs.data h.inode) h.offset piece, ?_, ?_, ?_⟩
  · rw [read, show (fs.write h piece).1.dir p = fs.dir p from rfl, hp, Option.map_some, hdata]
  · simp only [overwrite, List.length_append, List.length_take, List.length_replicate,
      List.length_drop, hpiece_len]
    omega
  · intro i hi
    rw [getElem?_overwrite]
    -- a byte this writer has passed over is there, or is ahead of another writer
    have hother : i < h.offset → (∃ k ≤ i, ahead k) → ∃ k ≤ i, ahead' k := by
      rintro hlt ⟨k, hk, ha⟩
      rcases hothers k ha with rfl | ha
      · omega
      · exact ⟨k, hk, ha⟩
    have hlater : h.offset + piece.length ≤ i → (∃ k ≤ i, ahead k) → ∃ k ≤ i, ahead' k := by
      rintro hle ⟨k, hk, ha⟩
      rcases hothers k ha with rfl | ha
      · exact ⟨_, hle, hself⟩
      · exact ⟨k, hk, ha⟩
    by_cases hlt : i < h.offset
    · rw [if_pos hlt]
      by_cases hold : i < (fs.data h.inode).length
      · rw [if_pos hold]
        exact (hbytes i hi).imp_right (hother hlt)
      · refine .inr (hother hlt ((hbytes i hi).resolve_left ?_))
        rw [List.getElem?_eq_none (by omega), List.getElem?_eq_getElem hi]
        simp
    · rw [if_neg hlt]
      by_cases hnew : i < h.offset + piece.length
      · rw [if_pos hnew]
        left
        rw [hpiece, List.getElem?_take_of_lt (by omega), List.getElem?_drop]
        congr 1
        omega
      · rw [if_neg hnew]
        exact (hbytes i hi).imp_right (hlater (by omega))

end Fs

end LabStreamGate
