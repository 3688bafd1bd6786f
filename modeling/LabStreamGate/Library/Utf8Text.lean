import Mathlib.Data.List.Infix
import Mathlib.Data.List.Basic

/-!
# Text and its bytes

A text is a list of characters, and its parts are named by the offsets of their UTF-8 bytes.  A
slice that does not start and end between two characters of the text panics, as does a byte that is
outside of it.
-/

namespace LabStreamGate

abbrev Text := List Char

/-- Why a computation on a text does not end as it should. -/
inductive Fault
  | slice
  | index
  | fuel
  deriving DecidableEq, Repr

/-! ## Lengths -/

/-- `str::len`. -/
def utf8Len : Text → Nat
  | [] => 0
  | c :: cs => c.utf8Size + utf8Len cs

variable {cs front back part word : Text} {c : Char} {n m : Nat}

@[simp] theorem utf8Len_nil : utf8Len [] = 0 := rfl

@[simp] theorem utf8Len_cons : utf8Len (c :: cs) = c.utf8Size + utf8Len cs := rfl

@[simp] theorem utf8Len_append : utf8Len (front ++ back) = utf8Len front + utf8Len back := by
  induction front with
  | nil => exact (Nat.zero_add _).symm
  | cons c front ih => rw [List.cons_append, utf8Len_cons, utf8Len_cons, ih, Nat.add_assoc]

theorem utf8Len_eq_zero : utf8Len cs = 0 ↔ cs = [] := by
  cases cs with
  | nil => simp
  | cons c cs =>
    have hpos := c.utf8Size_pos
    simp only [utf8Len_cons, reduceCtorEq, iff_false]
    omega

theorem utf8Len_pos (h : cs ≠ []) : 0 < utf8Len cs :=
  Nat.pos_of_ne_zero fun hzero ↦ h (utf8Len_eq_zero.mp hzero)

/-- Of two parts before an offset one continues the other. -/
theorem exists_append_of_le {front' back' : Text} (h : front ++ back = front' ++ back')
    (hle : utf8Len front ≤ utf8Len front') :
    ∃ middle, front' = front ++ middle ∧ back = middle ++ back' := by
  rcases List.append_eq_append_iff.mp h with hparts | ⟨middle, hfront, hback⟩
  · exact hparts
  · rw [hfront, utf8Len_append] at hle
    have hmiddle : middle = [] := utf8Len_eq_zero.mp (by omega)
    rw [hmiddle, List.append_nil] at hfront
    rw [hmiddle, List.nil_append] at hback
    exact ⟨[], by rw [List.append_nil, hfront], hback.symm⟩

/-- What is before an offset is given by the text. -/
theorem append_inj_of_utf8Len {front' back' : Text} (h : front ++ back = front' ++ back')
    (hlen : utf8Len front = utf8Len front') : front = front' ∧ back = back' := by
  obtain ⟨middle, rfl, rfl⟩ := exists_append_of_le h hlen.le
  rw [utf8Len_append] at hlen
  have hmiddle : middle = [] := utf8Len_eq_zero.mp (by omega)
  rw [hmiddle]
  exact ⟨(List.append_nil front).symm, rfl⟩

/-! ## Slices -/

/-- `&text[n..]`. -/
def sliceFrom : Nat → Text → Except Fault Text
  | 0, cs => .ok cs
  | _ + 1, [] => .error .slice
  | n + 1, c :: cs =>
    if c.utf8Size ≤ n + 1 then sliceFrom (n + 1 - c.utf8Size) cs else .error .slice

/-- `&text[..n]`. -/
def sliceTo : Nat → Text → Except Fault Text
  | 0, _ => .ok []
  | _ + 1, [] => .error .slice
  | n + 1, c :: cs =>
    if c.utf8Size ≤ n + 1 then (sliceTo (n + 1 - c.utf8Size) cs).map (c :: ·)
    else .error .slice

/-- `&text[n..m]`. -/
def slice (n m : Nat) (cs : Text) : Except Fault Text := (sliceTo m cs).bind (sliceFrom n)

/-- A slice goes past the first character of what is before its offset. -/
theorem exists_utf8Len_cons (c : Char) (front : Text) : ∃ n, utf8Len (c :: front) = n + 1 ∧
    c.utf8Size ≤ n + 1 ∧ n + 1 - c.utf8Size = utf8Len front := by
  obtain ⟨n, hn⟩ : ∃ n, utf8Len (c :: front) = n + 1 :=
    Nat.exists_eq_succ_of_ne_zero (utf8Len_pos (List.cons_ne_nil c front)).ne'
  refine ⟨n, hn, ?_, ?_⟩ <;> rw [← hn, utf8Len_cons]
  · exact Nat.le_add_right _ _
  · exact Nat.add_sub_cancel_left _ _

theorem sliceFrom_append : sliceFrom (utf8Len front) (front ++ back) = .ok back := by
  induction front with
  | nil => cases back <;> rfl
  | cons c front ih =>
    obtain ⟨n, hn, hle, hrest⟩ := exists_utf8Len_cons c front
    rw [hn, List.cons_append, sliceFrom, if_pos hle, hrest, ih]

theorem sliceTo_append : sliceTo (utf8Len front) (front ++ back) = .ok front := by
  induction front with
  | nil => cases back <;> rfl
  | cons c front ih =>
    obtain ⟨n, hn, hle, hrest⟩ := exists_utf8Len_cons c front
    rw [hn, List.cons_append, sliceTo, if_pos hle, hrest, ih]
    rfl

theorem slice_append : slice (utf8Len front) (utf8Len front + utf8Len part)
    (front ++ (part ++ back)) = .ok part := by
  have hto : sliceTo (utf8Len front + utf8Len part) (front ++ (part ++ back)) =
      .ok (front ++ part) := by
    rw [← utf8Len_append, ← List.append_assoc]
    exact sliceTo_append
  rw [slice, hto]
  exact sliceFrom_append

/-- A slice is defined where the offset is between two characters. -/
theorem sliceFrom_eq_ok : sliceFrom n cs = .ok back ↔
    ∃ front, cs = front ++ back ∧ utf8Len front = n := by
  constructor
  · intro h
    induction n, cs using sliceFrom.induct with
    | case1 cs => exact ⟨[], by simpa [sliceFrom] using h, rfl⟩
    | case2 n => simp [sliceFrom] at h
    | case3 n c cs hle ih =>
      rw [sliceFrom, if_pos hle] at h
      obtain ⟨front, rfl, hlen⟩ := ih h
      exact ⟨c :: front, rfl, by rw [utf8Len_cons, hlen, Nat.add_sub_cancel' hle]⟩
    | case4 n c cs hle => simp [sliceFrom, hle] at h
  · rintro ⟨front, rfl, rfl⟩
    exact sliceFrom_append

theorem sliceFrom_error {fault : Fault} (h : sliceFrom n cs = .error fault) : fault = .slice := by
  induction n, cs using sliceFrom.induct with
  | case1 cs => simp [sliceFrom] at h
  | case2 n => simpa [sliceFrom] using h.symm
  | case3 n c cs hle ih =>
    rw [sliceFrom, if_pos hle] at h
    exact ih h
  | case4 n c cs hle => simpa [sliceFrom, hle] using h.symm

/-- A slice does not start one byte after the start of a longer character. -/
theorem sliceFrom_succ (hsize : c.utf8Size ≠ 1) :
    sliceFrom (utf8Len front + 1) (front ++ c :: back) = .error .slice := by
  cases h : sliceFrom (utf8Len front + 1) (front ++ c :: back) with
  | error fault => rw [sliceFrom_error h]
  | ok rest =>
    obtain ⟨front', heq, hlen⟩ := sliceFrom_eq_ok.mp h
    obtain ⟨middle, rfl, hmiddle⟩ := exists_append_of_le heq (by omega)
    rw [utf8Len_append] at hlen
    cases middle with
    | nil => simp at hlen
    | cons c' middle =>
      obtain ⟨rfl, -⟩ := List.cons.inj hmiddle
      have hpos := c.utf8Size_pos
      rw [utf8Len_cons] at hlen
      omega

/-! ## Finding a part -/

/-- `str::find`, with a text as the pattern. -/
def find (part : Text) : Text → Option Nat
  | [] => if part = [] then some 0 else none
  | c :: cs =>
    if part.isPrefixOf (c :: cs) then some 0 else (find part cs).map (c.utf8Size + ·)

theorem find_eq_none : find part cs = none ↔ ¬part <:+: cs := by
  induction cs with
  | nil =>
    rw [find, List.infix_nil]
    split <;> simp [*]
  | cons c cs ih =>
    rw [find, List.infix_cons_iff, ← List.isPrefixOf_iff_prefix]
    split
    · simp [*]
    · rename_i hhead
      rw [Option.map_eq_none_iff, ih]
      simp [hhead]

/-- The first occurrence. -/
theorem find_eq_some (h : find part cs = some n) :
    (∃ front back, cs = front ++ (part ++ back) ∧ utf8Len front = n) ∧
      ∀ front back, cs = front ++ (part ++ back) → n ≤ utf8Len front := by
  induction cs generalizing n with
  | nil =>
    rw [find] at h
    split at h
    · rename_i hpart
      cases h
      exact ⟨⟨[], [], by simp [hpart], rfl⟩, fun _ _ _ ↦ Nat.zero_le _⟩
    · cases h
  | cons c cs ih =>
    rw [find] at h
    split at h
    · rename_i hhead
      cases h
      obtain ⟨back, hback⟩ := List.isPrefixOf_iff_prefix.mp hhead
      exact ⟨⟨[], back, hback.symm, rfl⟩, fun _ _ _ ↦ Nat.zero_le _⟩
    · rename_i hhead
      obtain ⟨m, hm, rfl⟩ := Option.map_eq_some_iff.mp h
      obtain ⟨⟨front, back, rfl, rfl⟩, hleast⟩ := ih hm
      refine ⟨⟨c :: front, back, rfl, rfl⟩, fun front' back' heq ↦ ?_⟩
      cases front' with
      | nil => exact absurd (List.isPrefixOf_iff_prefix.mpr ⟨back', heq.symm⟩) hhead
      | cons c' front' =>
        obtain ⟨rfl, hrest⟩ := List.cons.inj heq
        exact Nat.add_le_add_left (hleast front' back' hrest) _

theorem find_of_first (h : cs = front ++ (part ++ back))
    (hfirst : ∀ front' back', cs = front' ++ (part ++ back') → utf8Len front ≤ utf8Len front') :
    find part cs = some (utf8Len front) := by
  cases hfind : find part cs with
  | none => exact absurd ⟨front, back, by rw [h, List.append_assoc]⟩ (find_eq_none.mp hfind)
  | some n =>
    obtain ⟨⟨front', back', heq, hlen⟩, hleast⟩ := find_eq_some hfind
    have hle := hfirst front' back' heq
    have hle' := hleast front back h
    rw [Nat.le_antisymm hle' (hlen ▸ hle)]

/-! ## Bytes -/

/-- `str::as_bytes`. -/
def asBytes (cs : Text) : List UInt8 := cs.flatMap String.utf8EncodeChar

/-- `text.as_bytes()[n]`. -/
def byteAt (n : Nat) (cs : Text) : Except Fault UInt8 :=
  match (asBytes cs)[n]? with
  | some byte => .ok byte
  | none => .error .index

/-- `u8::is_ascii_alphanumeric`. -/
def isAsciiAlphanumeric (byte : UInt8) : Bool :=
  (48 ≤ byte && byte ≤ 57) || (65 ≤ byte && byte ≤ 90) || (97 ≤ byte && byte ≤ 122)

theorem length_asBytes : (asBytes cs).length = utf8Len cs := by
  induction cs with
  | nil => rfl
  | cons c cs ih =>
    have hcons : asBytes (c :: cs) = String.utf8EncodeChar c ++ asBytes cs := List.flatMap_cons
    rw [hcons, List.length_append, String.length_utf8EncodeChar, ih, utf8Len_cons]

theorem asBytes_append : asBytes (front ++ back) = asBytes front ++ asBytes back :=
  List.flatMap_append

/-- The bytes of a character are the character itself or no ASCII. -/
theorem toNat_of_mem_utf8EncodeChar {byte : UInt8} (h : byte ∈ String.utf8EncodeChar c) :
    c.val.toNat = byte.toNat ∨ 128 ≤ c.val.toNat ∧ 128 ≤ byte.toNat := by
  unfold String.utf8EncodeChar at h
  dsimp only at h
  split at h
  · rename_i hascii
    left
    rw [List.mem_singleton.mp h, UInt8.toNat_ofNat']
    omega
  · right
    refine ⟨by omega, ?_⟩
    split at h
    · simp only [List.mem_cons, List.not_mem_nil, or_false] at h
      rcases h with rfl | rfl <;> rw [UInt8.toNat_ofNat'] <;> omega
    · split at h
      · simp only [List.mem_cons, List.not_mem_nil, or_false] at h
        rcases h with rfl | rfl | rfl <;> rw [UInt8.toNat_ofNat'] <;> omega
      · simp only [List.mem_cons, List.not_mem_nil, or_false] at h
        rcases h with rfl | rfl | rfl | rfl <;> rw [UInt8.toNat_ofNat'] <;> omega

/-- Every byte of a character tells whether it is an ASCII letter or digit. -/
theorem isAsciiAlphanumeric_of_mem {byte : UInt8} (h : byte ∈ String.utf8EncodeChar c) :
    isAsciiAlphanumeric byte = c.isAlphanum := by
  have hdef : c.isAlphanum = ((decide (65 ≤ c.val ∧ c.val ≤ 90) || (97 ≤ c.val && c.val ≤ 122)) ||
      (48 ≤ c.val && c.val ≤ 57)) := rfl
  have hchar : c.isAlphanum = ((48 ≤ c.val.toNat && c.val.toNat ≤ 57) ||
      (65 ≤ c.val.toNat && c.val.toNat ≤ 90) || (97 ≤ c.val.toNat && c.val.toNat ≤ 122)) := by
    rw [hdef, Bool.eq_iff_iff]
    simp [UInt32.le_iff_toNat_le]
    omega
  have hbyte : isAsciiAlphanumeric byte = ((48 ≤ byte.toNat && byte.toNat ≤ 57) ||
      (65 ≤ byte.toNat && byte.toNat ≤ 90) || (97 ≤ byte.toNat && byte.toNat ≤ 122)) := by
    simp [isAsciiAlphanumeric, UInt8.le_iff_toNat_le]
  rw [hchar, hbyte]
  rcases toNat_of_mem_utf8EncodeChar h with heq | ⟨hc, hb⟩
  · rw [heq]
  · rw [Bool.eq_iff_iff]
    simp only [Bool.or_eq_true, Bool.and_eq_true, decide_eq_true_eq]
    omega

theorem byteAt_append (h : n < c.utf8Size) :
    ∃ byte, byteAt (utf8Len front + n) (front ++ c :: back) = .ok byte ∧
      isAsciiAlphanumeric byte = c.isAlphanum := by
  have hn : n < (String.utf8EncodeChar c).length := by rwa [String.length_utf8EncodeChar]
  have hbytes : asBytes (front ++ c :: back) =
      asBytes front ++ (String.utf8EncodeChar c ++ asBytes back) := by
    rw [asBytes_append]
    rfl
  refine ⟨(String.utf8EncodeChar c)[n], ?_, isAsciiAlphanumeric_of_mem (List.getElem_mem hn)⟩
  rw [byteAt, hbytes, ← length_asBytes, List.getElem?_append_right (Nat.le_add_right _ _),
    Nat.add_sub_cancel_left, List.getElem?_append_left hn, List.getElem?_eq_getElem hn]

end LabStreamGate
