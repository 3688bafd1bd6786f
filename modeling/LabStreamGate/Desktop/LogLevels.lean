import LabStreamGate.Desktop.Logs

/-!
# The level of a line

`find_word` goes on after a whole word where an occurrence is part of a longer one, and still finds
the first occurrence that stands alone: what it jumps over has a letter or digit before it.
-/

namespace LabStreamGate.Desktop

variable {line word front back rest level : Text} {fuel n m : Nat} {pos : Option Nat}
  {seen words : List Text} {best : Option (Nat × Text)}

/-- No ASCII letter or digit. -/
def apart (c : Option Char) : Bool := c.all fun c ↦ !c.isAlphanum

/-- A word stands at a byte of the line, with no ASCII letter or digit directly before or after. -/
def IsWordAt (line word : Text) (n : Nat) : Prop :=
  ∃ front back, line = front ++ (word ++ back) ∧ utf8Len front = n ∧
    apart front.getLast? = true ∧ apart back.head? = true

def IsFirstWord (line word : Text) : Option Nat → Prop
  | some n => IsWordAt line word n ∧ ∀ m, IsWordAt line word m → n ≤ m
  | none => ∀ m, ¬IsWordAt line word m

/-- The words that are searched for: ASCII letters and digits, at least one. -/
structure IsWord (word : Text) : Prop where
  ne_nil : word ≠ []
  alphanum : ∀ c ∈ word, c.isAlphanum = true

/-! ## The bytes around a word -/

theorem standsApart_before :
    standsApart (utf8Len front == 0) (utf8Len front - 1) (front ++ rest) =
      .ok (apart front.getLast?) := by
  rcases List.eq_nil_or_concat front with rfl | ⟨cs, c, rfl⟩
  · rfl
  · rw [List.concat_eq_append]
    have hpos := c.utf8Size_pos
    have hlen : utf8Len (cs ++ [c]) - 1 = utf8Len cs + (c.utf8Size - 1) := by
      rw [utf8Len_append, utf8Len_cons, utf8Len_nil]
      omega
    have hzero : (utf8Len (cs ++ [c]) == 0) = false := by
      rw [beq_eq_false_iff_ne, utf8Len_append, utf8Len_cons]
      omega
    have hbyte : c.utf8Size - 1 < c.utf8Size := by omega
    obtain ⟨byte, hat, halphanum⟩ := @byteAt_append cs rest c _ hbyte
    rw [hzero, hlen, List.append_assoc, List.singleton_append, standsApart, hat,
      List.getLast?_concat]
    simp [apart, Except.map, halphanum]

theorem standsApart_after :
    standsApart (utf8Len (front ++ rest) ≤ utf8Len front) (utf8Len front) (front ++ rest) =
      .ok (apart rest.head?) := by
  cases rest with
  | nil => simp [standsApart, apart]
  | cons c cs =>
    have hpos := c.utf8Size_pos
    have hle : ¬utf8Len (front ++ c :: cs) ≤ utf8Len front := by
      rw [utf8Len_append, utf8Len_cons]
      omega
    obtain ⟨byte, hat, halphanum⟩ := @byteAt_append front cs c 0 hpos
    rw [Nat.add_zero] at hat
    rw [decide_eq_false hle, standsApart, hat]
    simp [apart, Except.map, halphanum]

/-! ## `find_word` -/

/-- Past a word that does not stand alone there is none before its end. -/
theorem utf8Len_le_of_rejected (hword : IsWord word) (hline : line = front ++ (word ++ back))
    (hreject : ¬(apart front.getLast? = true ∧ apart back.head? = true))
    (hn : IsWordAt line word n) (hle : utf8Len front ≤ n) : utf8Len (front ++ word) ≤ n := by
  obtain ⟨front', back', hline', rfl, hbefore, hafter⟩ := hn
  obtain ⟨middle, rfl, hmiddle⟩ := exists_append_of_le (hline.symm.trans hline') hle
  rcases Nat.le_total (utf8Len word) (utf8Len middle) with hle' | hlt
  · rw [utf8Len_append, utf8Len_append]
    omega
  · obtain ⟨rest, hrest, -⟩ := exists_append_of_le hmiddle.symm hlt
    rcases List.eq_nil_or_concat middle with rfl | ⟨cs, c, rfl⟩
    · -- the same occurrence
      rw [List.append_nil] at hbefore
      rw [List.nil_append, List.append_cancel_left_eq] at hmiddle
      exact absurd ⟨hbefore, hmiddle ▸ hafter⟩ hreject
    · -- an occurrence inside this one has one of its characters before it
      rw [List.concat_eq_append] at hrest hbefore
      have hc : c.isAlphanum = true := hword.alphanum c (by rw [hrest]; simp)
      rw [← List.append_assoc, List.getLast?_concat] at hbefore
      simp [apart, hc] at hbefore

/-- A word that does not stand before an offset stands in what comes from there on. -/
theorem IsWordAt.exists_middle (h : IsWordAt line word n) (hline : line = front ++ rest)
    (hle : utf8Len front ≤ n) :
    ∃ middle back, rest = middle ++ (word ++ back) ∧ utf8Len front + utf8Len middle = n := by
  obtain ⟨front', back, hline', rfl, -, -⟩ := h
  obtain ⟨middle, rfl, hmiddle⟩ := exists_append_of_le (hline.symm.trans hline') hle
  exact ⟨middle, back, hmiddle, utf8Len_append.symm⟩

theorem findWordFrom_spec (hword : IsWord word) (hline : line = front ++ rest)
    (hfuel : utf8Len rest < fuel) (hleast : ∀ m, IsWordAt line word m → utf8Len front ≤ m) :
    ∃ pos, findWordFrom line word fuel (utf8Len front) = .ok pos ∧ IsFirstWord line word pos := by
  induction fuel generalizing front rest with
  | zero => exact absurd hfuel (Nat.not_lt_zero _)
  | succ fuel ih =>
    have hslice : sliceFrom (utf8Len front) line = .ok rest := hline ▸ sliceFrom_append
    simp only [findWordFrom, hslice, bind, Except.bind, pure, Except.pure]
    cases hfind : find word rest with
    | none =>
      refine ⟨none, rfl, fun m hm ↦ ?_⟩
      obtain ⟨middle, back', rfl, -⟩ := hm.exists_middle hline (hleast m hm)
      exact find_eq_none.mp hfind ⟨middle, back', by simp⟩
    | some rel =>
      obtain ⟨⟨before, back, rfl, rfl⟩, hfirst⟩ := find_eq_some hfind
      have hbound : ∀ m, IsWordAt line word m → utf8Len (front ++ before) ≤ m := by
        intro m hm
        obtain ⟨middle, back', hmiddle, rfl⟩ := hm.exists_middle hline (hleast m hm)
        rw [utf8Len_append]
        exact Nat.add_le_add_left (hfirst middle back' hmiddle) _
      have hline' : line = (front ++ before) ++ (word ++ back) := by
        rw [hline, List.append_assoc]
      have hbefore := @standsApart_before (front ++ before) (word ++ back)
      have hafter := @standsApart_after ((front ++ before) ++ word) back
      rw [← hline', utf8Len_append] at hbefore
      rw [List.append_assoc, ← hline', utf8Len_append, utf8Len_append] at hafter
      dsimp only
      rw [hbefore, hafter]
      dsimp only
      by_cases hok : apart (front ++ before).getLast? = true ∧ apart back.head? = true
      · rw [if_pos (by rw [hok.1, hok.2]; rfl), ← utf8Len_append]
        exact ⟨_, rfl, ⟨front ++ before, back, hline', rfl, hok⟩, hbound⟩
      · rw [if_neg (by rwa [Bool.and_eq_true]), ← utf8Len_append, ← utf8Len_append]
        have hpos := utf8Len_pos hword.ne_nil
        rw [utf8Len_append, utf8Len_append] at hfuel
        rw [← List.append_assoc] at hline'
        exact ih hline' (by omega) fun m hm ↦
          utf8Len_le_of_rejected hword (hline'.trans (List.append_assoc _ _ _)) hok hm (hbound m hm)

theorem findWord_spec (hword : IsWord word) :
    ∃ pos, findWord line word = .ok pos ∧ IsFirstWord line word pos :=
  @findWordFrom_spec line word [] line _ hword rfl (Nat.lt_succ_self _) fun _ _ ↦ Nat.zero_le _

/-! ## `find_level` -/

/-- The first of some words, and where it stands. -/
def IsFirstLevel (line : Text) (words : List Text) : Option (Nat × Text) → Prop
  | some (n, level) => level ∈ words ∧ IsWordAt line level n ∧
      ∀ word ∈ words, ∀ m, IsWordAt line word m → n ≤ m
  | none => ∀ word ∈ words, ∀ m, ¬IsWordAt line word m

theorem IsFirstLevel.keep (hbest : IsFirstLevel line seen best)
    (h : ∀ m, IsWordAt line word m → ∃ b, best = some b ∧ b.1 ≤ m) :
    IsFirstLevel line (seen ++ [word]) best := by
  cases best with
  | none =>
    intro word' hword' m hm
    rcases List.mem_append.mp hword' with hseen | hlast
    · exact hbest word' hseen m hm
    · rw [List.mem_singleton.mp hlast] at hm
      obtain ⟨b, hb, -⟩ := h m hm
      cases hb
  | some b =>
    refine ⟨List.mem_append_left _ hbest.1, hbest.2.1, fun word' hword' m hm ↦ ?_⟩
    rcases List.mem_append.mp hword' with hseen | hlast
    · exact hbest.2.2 word' hseen m hm
    · rw [List.mem_singleton.mp hlast] at hm
      obtain ⟨b', hb', hle⟩ := h m hm
      rwa [← Option.some.inj hb'] at hle

theorem IsFirstLevel.replace (hbest : IsFirstLevel line seen best)
    (hfirst : IsFirstWord line word (some n)) (hlt : ∀ b, best = some b → n < b.1) :
    IsFirstLevel line (seen ++ [word]) (some (n, word)) := by
  refine ⟨List.mem_append_right _ List.mem_cons_self, hfirst.1, fun word' hword' m hm ↦ ?_⟩
  rcases List.mem_append.mp hword' with hseen | hlast
  · cases best with
    | none => exact absurd hm (hbest word' hseen m)
    | some b => exact (hlt b rfl).le.trans (hbest.2.2 word' hseen m hm)
  · rw [List.mem_singleton.mp hlast] at hm
    exact hfirst.2 m hm

theorem findLevelFrom_spec (hwords : ∀ word ∈ words, IsWord word)
    (hbest : IsFirstLevel line seen best) :
    ∃ found, findLevelFrom line best words = .ok found ∧
      IsFirstLevel line (seen ++ words) found := by
  induction words generalizing seen best with
  | nil => exact ⟨best, rfl, by rwa [List.append_nil]⟩
  | cons word words ih =>
    obtain ⟨pos, hpos, hfirst⟩ := @findWord_spec line word (hwords word List.mem_cons_self)
    have hrest : ∀ word' ∈ words, IsWord word' := fun word' h ↦
      hwords word' (List.mem_cons_of_mem word h)
    simp only [findLevelFrom, hpos, bind, Except.bind]
    rw [List.append_cons]
    cases pos with
    | none => exact ih hrest (hbest.keep fun m hm ↦ absurd hm (hfirst m))
    | some n =>
      dsimp only
      split
      · rename_i hall
        refine ih hrest (hbest.replace hfirst ?_)
        rintro b rfl
        simpa using hall
      · rename_i hall
        refine ih hrest (hbest.keep fun m hm ↦ ?_)
        obtain ⟨b, rfl⟩ : ∃ b, best = some b := by
          cases best with
          | none => exact absurd rfl hall
          | some b => exact ⟨b, rfl⟩
        have hle : b.1 ≤ n := by simpa using hall
        exact ⟨b, rfl, hle.trans (hfirst.2 m hm)⟩

theorem isWord_of_mem_levels (h : word ∈ levels) : IsWord word := by
  have hall : ∀ word ∈ levels, word ≠ [] ∧ word.all Char.isAlphanum = true := by decide
  exact ⟨(hall word h).1, List.all_eq_true.mp (hall word h).2⟩

/-- The first level is found, whatever the line. -/
theorem findLevel_spec : ∃ found, findLevel line = .ok found ∧ IsFirstLevel line levels found :=
  @findLevelFrom_spec line [] levels none (fun _ ↦ isWord_of_mem_levels) fun _ h ↦ by cases h

/-- What comes after a word is not more of it. -/
theorem eq_nil_of_apart {more : Text} (hmore : ∀ c ∈ more, c.isAlphanum = true)
    (hafter : apart (more ++ back).head? = true) : more = [] := by
  cases more with
  | nil => rfl
  | cons c more =>
    have hc := hmore c List.mem_cons_self
    simp [apart, hc] at hafter

/-- Two words do not stand in one place. -/
theorem IsWordAt.unique {word' : Text} (hword : IsWord word) (hword' : IsWord word')
    (h : IsWordAt line word n) (h' : IsWordAt line word' n) : word = word' := by
  obtain ⟨front, back, hline, rfl, -, hafter⟩ := h
  obtain ⟨front', back', hline', hlen, -, hafter'⟩ := h'
  obtain ⟨rfl, hrest⟩ := append_inj_of_utf8Len (hline'.symm.trans hline) hlen
  rcases List.append_eq_append_iff.mp hrest with ⟨more, rfl, rfl⟩ | ⟨more, rfl, rfl⟩
  · have hmore := eq_nil_of_apart (fun c hc ↦ hword.alphanum c (List.mem_append_right _ hc)) hafter'
    rw [hmore, List.append_nil]
  · have hmore := eq_nil_of_apart (fun c hc ↦ hword'.alphanum c (List.mem_append_right _ hc)) hafter
    rw [hmore, List.append_nil]

/-- A level is the first one where none stands before it. -/
theorem findLevel_of_first (hlevel : level ∈ levels) (h : IsWordAt line level n)
    (hfirst : ∀ word ∈ levels, ∀ m, IsWordAt line word m → n ≤ m) :
    findLevel line = .ok (some (n, level)) := by
  obtain ⟨found, hfound, hspec⟩ := @findLevel_spec line
  rw [hfound]
  cases found with
  | none => exact absurd h (hspec level hlevel n)
  | some found =>
    obtain ⟨hmem, hat, hleast⟩ := hspec
    have hn : found.1 = n := Nat.le_antisymm (hleast level hlevel n h) (hfirst _ hmem _ hat)
    rw [hn] at hat
    have hsame := hat.unique (isWord_of_mem_levels hmem) (isWord_of_mem_levels hlevel) h
    rw [← hn, ← hsame]

theorem IsFirstWord.some_iff (hfirst : IsFirstWord line word pos) :
    pos = some n ↔ IsWordAt line word n ∧ ∀ m, IsWordAt line word m → n ≤ m := by
  constructor
  · rintro rfl
    exact hfirst
  · intro h
    cases pos with
    | none => exact absurd h.1 (hfirst n)
    | some k => rw [Nat.le_antisymm (hfirst.2 n h.1) (h.2 k hfirst.1)]

theorem IsFirstWord.none_iff (hfirst : IsFirstWord line word pos) :
    pos = none ↔ ∀ m, ¬IsWordAt line word m := by
  constructor
  · rintro rfl
    exact hfirst
  · intro h
    cases pos with
    | none => rfl
    | some k => exact absurd hfirst.1 (h k)

/-- A word is found at the first place where it stands alone, and the level of a line is the first
of the five that does. -/
theorem findWord_findLevel_first (line word : Text) (hne : word ≠ [])
    (halphanum : ∀ c ∈ word, c.isAlphanum = true) :
    (∃ pos, findWord line word = .ok pos ∧
      (∀ n, pos = some n ↔ IsWordAt line word n ∧ ∀ m, IsWordAt line word m → n ≤ m) ∧
      (pos = none ↔ ∀ m, ¬IsWordAt line word m)) ∧
    ∃ found, findLevel line = .ok found ∧
      (∀ n level, found = some (n, level) ↔ level ∈ levels ∧ IsWordAt line level n ∧
        ∀ word ∈ levels, ∀ m, IsWordAt line word m → n ≤ m) ∧
      (found = none ↔ ∀ word ∈ levels, ∀ m, ¬IsWordAt line word m) := by
  constructor
  · obtain ⟨pos, hpos, hfirst⟩ := @findWord_spec line word ⟨hne, halphanum⟩
    exact ⟨pos, hpos, fun n ↦ hfirst.some_iff, hfirst.none_iff⟩
  · obtain ⟨found, hfound, hfirst⟩ := @findLevel_spec line
    refine ⟨found, hfound, fun n level ↦ ⟨?_, ?_⟩, ?_, ?_⟩
    · rintro rfl
      exact hfirst
    · rintro ⟨hlevel, hat, hleast⟩
      exact Except.ok.inj (hfound.symm.trans (findLevel_of_first hlevel hat hleast))
    · rintro rfl
      exact hfirst
    · intro hnone
      cases found with
      | none => rfl
      | some found => exact absurd hfirst.2.1 (hnone found.2 hfirst.1 found.1)

/-- The first `aa` is part of `aaa`, and the search goes on behind it. -/
theorem findWord_findLevel_first_sample :
    findWord "aaa aa WARN".toList "aa".toList = .ok (some 4) ∧
      ∀ m, IsWordAt "aaa aa WARN".toList "aa".toList m → 4 ≤ m := by
  have hfind : findWord "aaa aa WARN".toList "aa".toList = .ok (some 4) := by decide
  obtain ⟨⟨pos, hpos, hsome, -⟩, -⟩ :=
    findWord_findLevel_first "aaa aa WARN".toList "aa".toList (by decide)
      (List.all_eq_true.mp (by decide))
  exact ⟨hfind, ((hsome 4).mp (Except.ok.inj (hpos.symm.trans hfind))).2⟩

end LabStreamGate.Desktop
