import Mathlib.Data.List.Basic

/-!
# The first match in a list

Changing the first element that passes a test, as `iter_mut().find(..)` does.
-/

namespace LabStreamGate

variable {α β : Type*}

/-- `f` applied to the first element that passes `p`. -/
def updateFirst (p : α → Bool) (f : α → α) : List α → List α
  | [] => []
  | a :: as => if p a then f a :: as else a :: updateFirst p f as

variable {p : α → Bool} {f : α → α} {l : List α} {b : α}

/-- What the change leaves alone is the same in the whole list. -/
theorem map_updateFirst {g : α → β} (h : ∀ a, g (f a) = g a) :
    (updateFirst p f l).map g = l.map g := by
  induction l with
  | nil => rfl
  | cons a as ih =>
    unfold updateFirst
    split
    · rw [List.map_cons, List.map_cons, h]
    · rw [List.map_cons, List.map_cons, ih]

-- Every element was there before or is the changed one.
theorem mem_updateFirst (h : b ∈ updateFirst p f l) : b ∈ l ∨ ∃ a ∈ l, p a = true ∧ b = f a := by
  induction l with
  | nil => cases h
  | cons a as ih =>
    unfold updateFirst at h
    split at h
    · rename_i hp
      rcases List.mem_cons.mp h with rfl | h
      · exact .inr ⟨a, List.mem_cons_self .., hp, rfl⟩
      · exact .inl (List.mem_cons_of_mem _ h)
    · rcases List.mem_cons.mp h with rfl | h
      · exact .inl (List.mem_cons_self ..)
      · rcases ih h with h | ⟨a', ha', hp, rfl⟩
        · exact .inl (List.mem_cons_of_mem _ h)
        · exact .inr ⟨a', List.mem_cons_of_mem _ ha', hp, rfl⟩

/-- The first match is changed, and an element that fails the test stays. -/
theorem mem_updateFirst_of_not (h : b ∈ l) (hp : p b = false) : b ∈ updateFirst p f l := by
  induction l with
  | nil => cases h
  | cons a as ih =>
    unfold updateFirst
    rcases List.mem_cons.mp h with rfl | h
    · rw [hp]
      exact List.mem_cons_self ..
    · split
      · exact List.mem_cons_of_mem _ h
      · exact List.mem_cons_of_mem _ (ih h)

-- Where something matches, the first match is found in its changed form.
theorem exists_mem_updateFirst (h : ∃ a ∈ l, p a = true) :
    ∃ a ∈ l, p a = true ∧ f a ∈ updateFirst p f l := by
  induction l with
  | nil => simp at h
  | cons a as ih =>
    unfold updateFirst
    by_cases hp : p a = true
    · rw [if_pos hp]
      exact ⟨a, List.mem_cons_self .., hp, List.mem_cons_self ..⟩
    · obtain ⟨a', ha', hp'⟩ := h
      rcases List.mem_cons.mp ha' with rfl | ha'
      · exact absurd hp' hp
      · obtain ⟨a', ha', hp', hf⟩ := ih ⟨a', ha', hp'⟩
        rw [if_neg hp]
        exact ⟨a', List.mem_cons_of_mem _ ha', hp', List.mem_cons_of_mem _ hf⟩

/-- Elements that fail the test `q`, before and after the change, do not show in a filter by it. -/
theorem filter_updateFirst {q : α → Bool} (hp : ∀ a, p a = true → q a = false)
    (hf : ∀ a, p a = true → q (f a) = false) : (updateFirst p f l).filter q = l.filter q := by
  induction l with
  | nil => rfl
  | cons a as ih =>
    unfold updateFirst
    split
    · rename_i h
      simp [hp a h, hf a h]
    · rw [List.filter_cons, List.filter_cons, ih]

/-- A function of the elements that the test and the change respect. -/
theorem map_updateFirst_of {g : α → β} {q : β → Bool} {f' : β → β} (hp : ∀ a, q (g a) = p a)
    (hf : ∀ a, p a = true → g (f a) = f' (g a)) :
    (updateFirst p f l).map g = updateFirst q f' (l.map g) := by
  induction l with
  | nil => rfl
  | cons a as ih =>
    rw [List.map_cons, updateFirst, updateFirst, hp]
    split
    · rename_i h
      rw [List.map_cons, hf a h]
    · rw [List.map_cons, ih]

theorem length_updateFirst : (updateFirst p f l).length = l.length := by
  have h := congrArg List.length (@map_updateFirst α Unit p f l (fun _ ↦ ()) fun _ ↦ rfl)
  rwa [List.length_map, List.length_map] at h

/-- Only the place of the first match is changed. -/
theorem getElem?_updateFirst (i : Nat) :
    (updateFirst p f l)[i]? = if l.findIdx p = i then l[i]?.map f else l[i]? := by
  induction l generalizing i with
  | nil => simp [updateFirst]
  | cons a as ih =>
    rw [updateFirst, List.findIdx_cons]
    cases hp : p a with
    | true => cases i <;> simp
    | false =>
      cases i with
      | zero => simp
      | succ i => simp [ih]

/-- Where one element alone passes the test, it is the one that is changed. -/
theorem updateFirst_eq_map [DecidableEq α] (hnodup : l.Nodup) (hb : b ∈ l) (hp : p b = true)
    (hunique : ∀ a ∈ l, p a = true → a = b) :
    updateFirst p f l = l.map fun a ↦ if a = b then f b else a := by
  induction l with
  | nil => cases hb
  | cons a as ih =>
    obtain ⟨hnew, has⟩ := List.nodup_cons.mp hnodup
    rw [List.map_cons, updateFirst]
    by_cases ha : a = b
    · subst ha
      have hrest : as.map (fun c ↦ if c = a then f a else c) = as := by
        have hid : as.map (fun c ↦ if c = a then f a else c) = as.map id :=
          List.map_congr_left fun c hc ↦ if_neg (ne_of_mem_of_not_mem hc hnew)
        rw [hid, List.map_id]
      rw [if_pos hp, if_pos rfl, hrest]
    · have hmem : b ∈ as := (List.mem_cons.mp hb).resolve_left (Ne.symm ha)
      rw [if_neg fun h ↦ ha (hunique a List.mem_cons_self h), if_neg ha,
        ih has hmem fun c hc ↦ hunique c (List.mem_cons_of_mem a hc)]

/-! ## Writing rows by their keys -/

/-- Rows with the same keys differ in their values only. -/
theorem rows_eq_iff {κ : Type*} {rows rows' : List (κ × β)} (h : rows.map Prod.fst = rows'.map Prod.fst) :
    rows = rows' ↔ rows.map Prod.snd = rows'.map Prod.snd := by
  refine ⟨fun heq ↦ heq ▸ rfl, fun hvalues ↦ ?_⟩
  rw [← List.zip_unzip rows, ← List.zip_unzip rows', List.unzip_eq_map, List.unzip_eq_map, h,
    hvalues]

section

variable {κ : Type*} [DecidableEq κ] {rows calls : List (κ × β)} {call : κ × β}

/-- The first row of the key gets a new value. -/
def writeRow (rows : List (κ × β)) (call : κ × β) : List (κ × β) :=
  updateFirst (fun row ↦ row.1 == call.1) (fun _ ↦ call) rows

def writeRows (rows calls : List (κ × β)) : List (κ × β) := calls.foldl writeRow rows

theorem writeRows_concat :
    writeRows rows (calls ++ [call]) = writeRow (writeRows rows calls) call := by
  rw [writeRows, List.foldl_append]
  rfl

theorem length_writeRows : (writeRows rows calls).length = rows.length := by
  unfold writeRows
  induction calls generalizing rows with
  | nil => rfl
  | cons call calls ih => rw [List.foldl_cons, ih, writeRow, length_updateFirst]

theorem keys_writeRow : (writeRow rows call).map Prod.fst = rows.map Prod.fst := by
  unfold writeRow
  induction rows with
  | nil => rfl
  | cons row rows ih =>
    rw [updateFirst]
    split
    · rename_i h
      rw [List.map_cons, List.map_cons, beq_iff_eq.mp h]
    · rw [List.map_cons, ih, List.map_cons]

theorem keys_writeRows : (writeRows rows calls).map Prod.fst = rows.map Prod.fst := by
  unfold writeRows
  induction calls generalizing rows with
  | nil => rfl
  | cons call calls ih => rw [List.foldl_cons, ih, keys_writeRow]

/-- The first place with the key that is at `k`. -/
def firstOf (keys : List κ) (k : Nat) : Nat := keys.findIdx fun key ↦ keys[k]? == some key

theorem firstOf_spec {keys : List κ} {k : Nat} (h : k < keys.length) :
    firstOf keys k ≤ k ∧ keys[firstOf keys k]? = keys[k]? := by
  have hself : (keys[k]? == some keys[k]) = true := by
    rw [List.getElem?_eq_getElem h]
    exact beq_self_eq_true _
  have hlt : firstOf keys k < keys.length :=
    List.findIdx_lt_length.mpr ⟨keys[k], List.getElem_mem h, hself⟩
  constructor
  · by_contra hgt
    have hnot := List.not_of_lt_findIdx (Nat.lt_of_not_le hgt)
    rw [hself] at hnot
    cases hnot
  · have hat := @List.findIdx_getElem _ (fun key ↦ keys[k]? == some key) keys hlt
    rw [List.getElem?_eq_getElem hlt]
    exact (beq_iff_eq.mp hat).symm

theorem firstOf_eq_iff {keys : List κ} {i k : Nat} (hi : i < keys.length) (hk : k < keys.length) :
    firstOf keys i = firstOf keys k ↔ keys[i]? = keys[k]? := by
  constructor
  · intro h
    rw [← (firstOf_spec hi).2, h, (firstOf_spec hk).2]
  · intro h
    unfold firstOf
    rw [h]

/-- One more call writes the first place of its key. -/
theorem getElem?_writeRows_succ (hkeys : calls.map Prod.fst = rows.map Prod.fst) {k : Nat}
    (hk : k < calls.length) (i : Nat) : (writeRows rows (calls.take (k + 1)))[i]? =
      if firstOf (calls.map Prod.fst) k = i then calls[k]?
      else (writeRows rows (calls.take k))[i]? := by
  have hstep : writeRows rows (calls.take (k + 1)) =
      writeRow (writeRows rows (calls.take k)) calls[k] := by
    rw [List.take_succ_eq_append_getElem hk, writeRows_concat]
  have hlen : calls.length = rows.length := by
    rw [← List.length_map Prod.fst, hkeys, List.length_map]
  have hfirst : (writeRows rows (calls.take k)).findIdx (fun row ↦ row.1 == calls[k].1) =
      firstOf (calls.map Prod.fst) k := by
    have hkey : (calls.map Prod.fst)[k]? = some calls[k].1 := by
      rw [List.getElem?_map, List.getElem?_eq_getElem hk, Option.map_some]
    rw [firstOf, hkey, hkeys, ← @keys_writeRows _ _ _ rows (calls.take k), List.findIdx_map]
    congr 1
    funext row
    exact BEq.comm
  rw [hstep, writeRow, getElem?_updateFirst, hfirst]
  split
  · rename_i hi
    have hle := (@firstOf_spec _ _ (calls.map Prod.fst) k (by rwa [List.length_map])).1
    have hlt : i < (writeRows rows (calls.take k)).length := by
      rw [length_writeRows]
      omega
    rw [List.getElem?_eq_getElem hlt, List.getElem?_eq_getElem hk, Option.map_some]
  · rfl

-- Where rows with one key get one value, and all but the first have it already, each call finds
-- its own row as it should be, and so writes nothing but its own.
theorem writeRows_take (hkeys : calls.map Prod.fst = rows.map Prod.fst)
    (h : ∀ j, j < calls.length → ∀ i, i < j →
      (calls.map Prod.fst)[i]? = (calls.map Prod.fst)[j]? →
        calls[i]? = calls[j]? ∧ rows[j]? = calls[j]?) {k : Nat} (hk : k ≤ calls.length) (i : Nat) :
    (writeRows rows (calls.take k))[i]? = if i < k then calls[i]? else rows[i]? := by
  induction k generalizing i with
  | zero => rw [List.take_zero, if_neg (Nat.not_lt_zero i)]; rfl
  | succ k ih =>
    have hk : k < calls.length := hk
    have hlen : k < (calls.map Prod.fst).length := by rwa [List.length_map]
    obtain ⟨hle, hsame⟩ := firstOf_spec hlen
    rw [getElem?_writeRows_succ hkeys hk, ih (Nat.le_of_lt hk)]
    rcases Nat.eq_or_lt_of_le hle with hown | hearlier
    · rw [hown]
      split
      · rename_i hi
        subst hi
        rw [if_pos (Nat.lt_succ_self _)]
      · congr 1
        exact propext ⟨fun hlt ↦ Nat.lt_succ_of_lt hlt, fun hlt ↦ by omega⟩
    · obtain ⟨hvalue, hrow⟩ := h k hk _ hearlier hsame
      split
      · rename_i hi
        subst hi
        rw [if_pos (by omega), hvalue]
      · by_cases hi : i = k
        · subst hi
          rw [if_neg (Nat.lt_irrefl _), if_pos (Nat.lt_succ_self _), hrow]
        · congr 1
          exact propext ⟨fun hlt ↦ Nat.lt_succ_of_lt hlt, fun hlt ↦ by omega⟩

/-- Where the step `k` changes nothing but the place `k`, a place is as at first before its step. -/
theorem place_before {γ : Type*} {f : Nat → Nat → γ} {n i k : Nat}
    (hframe : ∀ k, k < n → ∀ i, i ≠ k → f (k + 1) i = f k i) (hi : k ≤ i) (hk : k ≤ n) :
    f k i = f 0 i := by
  induction k with
  | zero => rfl
  | succ k ih => rw [hframe k hk i (by omega), ih (by omega) (by omega)]

/-- After its step it stays as it is. -/
theorem place_after {γ : Type*} {f : Nat → Nat → γ} {n i k : Nat}
    (hframe : ∀ k, k < n → ∀ i, i ≠ k → f (k + 1) i = f k i) (hi : i < k) (hk : k ≤ n) :
    f k i = f (i + 1) i := by
  induction hi with
  | refl => rfl
  | @step k hi ih => rw [hframe k hk i (Nat.ne_of_lt hi), ih (Nat.le_of_succ_le hk)]

-- Where every row has the value of its own call, and no call has changed another row.
theorem same_of_own (hkeys : calls.map Prod.fst = rows.map Prod.fst)
    (hown : writeRows rows calls = calls)
    (hframe : ∀ k, k < calls.length → ∀ i, i ≠ k →
      (writeRows rows (calls.take (k + 1)))[i]? = (writeRows rows (calls.take k))[i]?)
    {i j : Nat} (hj : j < calls.length) (hi : i < j)
    (hkey : (calls.map Prod.fst)[i]? = (calls.map Prod.fst)[j]?) :
    calls[i]? = calls[j]? ∧ rows[j]? = calls[j]? := by
  let f := fun k i : Nat ↦ (writeRows rows (calls.take k))[i]?
  have hafter : ∀ i k, i < k → k ≤ calls.length → f k i = f (i + 1) i :=
    fun i k hi hk ↦ place_after hframe hi hk
  have hfinal : ∀ i, i < calls.length → f (i + 1) i = calls[i]? := by
    intro i hi
    rw [← hafter i calls.length hi (Nat.le_refl _)]
    show (writeRows rows (calls.take calls.length))[i]? = calls[i]?
    rw [List.take_length, hown]
  have hlen : ∀ k, k < calls.length → k < (calls.map Prod.fst).length := fun k hk ↦ by
    rwa [List.length_map]
  -- a later call for the key writes the first row of the key, and must find its own value there
  have hfirst : ∀ k, k < calls.length → calls[firstOf (calls.map Prod.fst) k]? = calls[k]? := by
    intro k hk
    rcases Nat.eq_or_lt_of_le (firstOf_spec (hlen k hk)).1 with hown | hearlier
    · rw [hown]
    · have hwrites : f (k + 1) (firstOf (calls.map Prod.fst) k) = calls[k]? :=
        (getElem?_writeRows_succ hkeys hk _).trans (if_pos rfl)
      rw [hafter _ _ (Nat.lt_succ_of_lt hearlier) hk, hfinal _ (by omega)] at hwrites
      exact hwrites
  have hplace := (firstOf_eq_iff (hlen i (by omega)) (hlen j hj)).mpr hkey
  have hle := (firstOf_spec (hlen i (by omega))).1
  refine ⟨by rw [← hfirst i (by omega), hplace, hfirst j hj], ?_⟩
  have hwrites : f (j + 1) j = f j j :=
    (getElem?_writeRows_succ hkeys hj j).trans (if_neg (by omega))
  have hbefore : f j j = f 0 j := place_before hframe (Nat.le_refl _) (Nat.le_of_lt hj)
  rw [hfinal j hj, hbefore] at hwrites
  exact hwrites.symm

/-- After a call for each row in turn every row has the value of its own call, and no call has
changed another row, if and only if rows with one key got one value and all of them but the first
had it before. -/
theorem writeRows_own_iff (hkeys : calls.map Prod.fst = rows.map Prod.fst) :
    (writeRows rows calls = calls ∧ ∀ k, k < calls.length → ∀ i, i ≠ k →
        (writeRows rows (calls.take (k + 1)))[i]? = (writeRows rows (calls.take k))[i]?) ↔
      ∀ j, j < calls.length → ∀ i, i < j →
        (calls.map Prod.fst)[i]? = (calls.map Prod.fst)[j]? →
          calls[i]? = calls[j]? ∧ rows[j]? = calls[j]? := by
  constructor
  · rintro ⟨hown, hframe⟩ j hj i hi hkey
    exact same_of_own hkeys hown hframe hj hi hkey
  · intro h
    have hlen : calls.length = rows.length := by
      rw [← List.length_map Prod.fst, hkeys, List.length_map]
    constructor
    · apply List.ext_getElem?
      intro i
      have hi := writeRows_take hkeys h (Nat.le_refl _) i
      rw [List.take_length] at hi
      rw [hi]
      split
      · rfl
      · rw [List.getElem?_eq_none (by omega), List.getElem?_eq_none (by omega)]
    · intro k hk i hi
      rw [writeRows_take hkeys h hk, writeRows_take hkeys h (Nat.le_of_lt hk)]
      congr 1
      exact propext ⟨fun hlt ↦ by omega, fun hlt ↦ Nat.lt_succ_of_lt hlt⟩

end

end LabStreamGate
