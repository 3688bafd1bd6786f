import LabStreamGate.Library.Json

/-!
# The compact text of a JSON value

The text is prefix free: where two texts, each followed by something that cannot continue a
number, are equal, so are the values and what follows them.  Hence the text determines the value
and a library as in `JsonText` exists.
-/

namespace LabStreamGate

namespace Json

/-! ## Numbers -/

def digits (n : Nat) : List Char := Nat.toDigits 10 n

/-- Floats are written by their bits; what the text of a float is plays no part here. -/
def numberText : Number → List Char
  | .int (.ofNat n) => digits n
  | .int (.negSucc n) => '-' :: digits (n + 1)
  | .float bits => '0' :: 'e' :: digits bits.toNat

/-- What may follow a number. -/
def Stops (r : List Char) : Prop := ∀ c ∈ r.head?, c.isDigit = false ∧ c ≠ 'e'

theorem stops_nil : Stops [] := by simp [Stops]

-- A rest that starts with no digit marks where the digits end.
theorem takeWhile_digits (n : Nat) {r : List Char} (hr : Stops r) :
    (digits n ++ r).takeWhile Char.isDigit = digits n := by
  have hall : ∀ c ∈ digits n, c.isDigit = true := fun c hc ↦
    Nat.isDigit_of_mem_toDigits (by decide) (by decide) hc
  rw [List.takeWhile_append_of_pos hall]
  cases r with
  | nil => simp
  | cons c r => simp [(hr c (by simp)).1]

-- The digits are cut off by `takeWhile` and then stand for the number.
theorem digits_append_inj {n m : Nat} {r r' : List Char} (hr : Stops r) (hr' : Stops r')
    (h : digits n ++ r = digits m ++ r') : n = m ∧ r = r' := by
  have hd : digits n = digits m := by
    rw [← takeWhile_digits n hr, h, takeWhile_digits m hr']
  constructor
  · rw [← Nat.ofDigitChars_ten_toDigits (n := n), ← Nat.ofDigitChars_ten_toDigits (n := m)]
    exact congrArg (fun l ↦ Nat.ofDigitChars 10 l 0) hd
  · rw [hd] at h
    exact List.append_cancel_left h

/-- A natural number's text begins with a digit. -/
theorem digits_head (n : Nat) : ∃ c cs, digits n = c :: cs ∧ c.isDigit = true := by
  cases hd : digits n with
  | nil => exact absurd hd Nat.toDigits_ne_nil
  | cons c cs =>
    refine ⟨c, cs, rfl, Nat.isDigit_of_mem_toDigits (b := 10) (n := n) (by decide) (by decide) ?_⟩
    have : c ∈ digits n := by simp [hd]
    exact this

theorem digits_ne_minus {n : Nat} {r r' : List Char} : digits n ++ r ≠ '-' :: r' := by
  obtain ⟨c, cs, hd, hc⟩ := digits_head n
  rw [hd]
  rintro ⟨⟩
  exact absurd hc (by decide)

-- A float starts with a mark of its own.
theorem digits_ne_float {n : Nat} {r r' : List Char} (hr : Stops r) :
    digits n ++ r ≠ '0' :: 'e' :: r' := by
  intro h
  have hd := takeWhile_digits n hr
  rw [h] at hd
  simp only [List.takeWhile_cons, show Char.isDigit '0' = true by decide,
    show Char.isDigit 'e' = false by decide, if_true] at hd
  rw [← hd] at h
  have he : r = 'e' :: r' := by simpa using h
  exact (hr 'e' (by simp [he])).2 rfl

-- The first characters tell the three kinds of numbers apart.
theorem numberText_append_inj {n m : Number} {r r' : List Char} (hr : Stops r) (hr' : Stops r')
    (h : numberText n ++ r = numberText m ++ r') : n = m ∧ r = r' := by
  match n, m with
  | .int (.ofNat a), .int (.ofNat b) =>
    obtain ⟨rfl, rfl⟩ := digits_append_inj hr hr' h
    exact ⟨rfl, rfl⟩
  | .int (.negSucc a), .int (.negSucc b) =>
    obtain ⟨hab, rfl⟩ := digits_append_inj hr hr' (List.cons.inj h).2
    exact ⟨by rw [Nat.succ.inj hab], rfl⟩
  | .float a, .float b =>
    obtain ⟨hab, rfl⟩ := digits_append_inj hr hr' (List.cons.inj (List.cons.inj h).2).2
    exact ⟨by rw [UInt64.toNat_inj.mp hab], rfl⟩
  | .int (.ofNat a), .int (.negSucc b) => exact absurd h digits_ne_minus
  | .int (.negSucc a), .int (.ofNat b) => exact absurd h.symm digits_ne_minus
  | .int (.ofNat a), .float b => exact absurd h (digits_ne_float hr)
  | .float a, .int (.ofNat b) => exact absurd h.symm (digits_ne_float hr')
  | .int (.negSucc a), .float b => simp [numberText] at h
  | .float a, .int (.negSucc b) => simp [numberText] at h

/-! ## Strings -/

def hexChar (n : Nat) : Char := Nat.digitChar n

def escape (c : Char) : List Char :=
  if c = '"' then ['\\', '"']
  else if c = '\\' then ['\\', '\\']
  else if c = '\n' then ['\\', 'n']
  else if c = '\r' then ['\\', 'r']
  else if c = '\t' then ['\\', 't']
  else if c = '\x08' then ['\\', 'b']
  else if c = '\x0c' then ['\\', 'f']
  else if c.toNat < 32 then ['\\', 'u', '0', '0', hexChar (c.toNat / 16), hexChar (c.toNat % 16)]
  else [c]

def stringText (s : String) : List Char :=
  '"' :: (s.toList.flatMap escape ++ ['"'])

def hexValue (c : Char) : Nat :=
  if c.isDigit then c.toNat - '0'.toNat else c.toNat - 'a'.toNat + 10

/-- Reads one character of a string back. -/
def unescape : List Char → Option (Char × List Char)
  | '\\' :: '"' :: r => some ('"', r)
  | '\\' :: '\\' :: r => some ('\\', r)
  | '\\' :: 'n' :: r => some ('\n', r)
  | '\\' :: 'r' :: r => some ('\r', r)
  | '\\' :: 't' :: r => some ('\t', r)
  | '\\' :: 'b' :: r => some ('\x08', r)
  | '\\' :: 'f' :: r => some ('\x0c', r)
  | '\\' :: 'u' :: '0' :: '0' :: h :: l :: r =>
    some (Char.ofNat (16 * hexValue h + hexValue l), r)
  | c :: r => some (c, r)
  | [] => none

theorem hexValue_hexChar : ∀ n < 16, hexValue (hexChar n) = n := by decide

-- Reading an escaped character gives the character.
theorem unescape_escape (c : Char) (r : List Char) : unescape (escape c ++ r) = some (c, r) := by
  unfold escape
  split_ifs with h₁ h₂ h₃ h₄ h₅ h₆ h₇ h₈
  iterate 7 (· subst c; rfl)
  · have hhi := hexValue_hexChar (c.toNat / 16) (by omega)
    have hlo := hexValue_hexChar (c.toNat % 16) (by omega)
    show some (Char.ofNat (16 * hexValue _ + hexValue _), r) = _
    rw [hhi, hlo, Nat.div_add_mod, Char.ofNat_toNat]
  · show unescape (c :: r) = _
    unfold unescape
    split <;> simp_all

-- No escaped character starts like the end of a string.
theorem escape_ne_quote {c : Char} {r r' : List Char} : escape c ++ r ≠ '"' :: r' := by
  intro h
  have hc := unescape_escape c r
  rw [h] at hc
  have hq : c = '"' := by
    unfold unescape at hc
    simpa [eq_comm] using congrArg (Option.map Prod.fst) hc
  subst hq
  simp [escape] at h

-- By induction on the characters up to the closing quote.
theorem escapes_append_inj {cs cs' r r' : List Char}
    (h : cs.flatMap escape ++ '"' :: r = cs'.flatMap escape ++ '"' :: r') :
    cs = cs' ∧ r = r' := by
  induction cs generalizing cs' with
  | nil =>
    cases cs' with
    | nil => simpa using h
    | cons c' cs' =>
      rw [List.flatMap_cons, List.append_assoc] at h
      exact absurd h.symm escape_ne_quote
  | cons c cs ih =>
    cases cs' with
    | nil =>
      rw [List.flatMap_cons, List.append_assoc] at h
      exact absurd h escape_ne_quote
    | cons c' cs' =>
      simp only [List.flatMap_cons, List.append_assoc] at h
      have hu := unescape_escape c (cs.flatMap escape ++ '"' :: r)
      rw [h, unescape_escape] at hu
      obtain ⟨rfl, htail⟩ := Prod.mk.inj (Option.some.inj hu)
      obtain ⟨rfl, rfl⟩ := ih htail.symm
      exact ⟨rfl, rfl⟩

theorem stringText_append_inj {s s' : String} {r r' : List Char}
    (h : stringText s ++ r = stringText s' ++ r') : s = s' ∧ r = r' := by
  simp only [stringText, List.cons_append, List.append_assoc, List.cons.injEq, true_and,
    List.nil_append] at h
  obtain ⟨hs, hr⟩ := escapes_append_inj h
  exact ⟨String.toList_inj.mp hs, hr⟩

/-! ## Values -/

mutual

/-- The compact text of a value; `colon` stands between a key and its value. -/
def text (colon : List Char) : Json → List Char
  | .null => ['n', 'u', 'l', 'l']
  | .bool true => ['t', 'r', 'u', 'e']
  | .bool false => ['f', 'a', 'l', 's', 'e']
  | .num n => numberText n
  | .str s => stringText s
  | .arr [] => ['[', ']']
  | .arr (j :: js) => '[' :: (text colon j ++ itemsText colon js)
  | .obj [] => ['{', '}']
  | .obj ((k, j) :: fs) => '{' :: (stringText k ++ (colon ++ (text colon j ++ fieldsText colon fs)))

def itemsText (colon : List Char) : List Json → List Char
  | [] => [']']
  | j :: js => ',' :: (text colon j ++ itemsText colon js)

def fieldsText (colon : List Char) : List (String × Json) → List Char
  | [] => ['}']
  | (k, j) :: fs => ',' :: (stringText k ++ (colon ++ (text colon j ++ fieldsText colon fs)))

end

/-- What the first character of a text says about the value. -/
def charKind (c : Char) : Nat :=
  if c = 'n' then 0
  else if c = 't' then 1
  else if c = 'f' then 2
  else if c = '"' then 3
  else if c = '[' then 4
  else if c = '{' then 5
  else if c.isDigit || c = '-' then 6
  else 7

def kind : Json → Nat
  | .null => 0
  | .bool true => 1
  | .bool false => 2
  | .str _ => 3
  | .arr _ => 4
  | .obj _ => 5
  | .num _ => 6

theorem charKind_of_isDigit {c : Char} (hc : c.isDigit = true) : charKind c = 6 := by
  have hne : ∀ d : Char, d.isDigit = false → c ≠ d := by
    rintro d hd rfl
    simp [hc] at hd
  simp [charKind, hc, hne 'n' (by decide), hne 't' (by decide), hne 'f' (by decide),
    hne '"' (by decide), hne '[' (by decide), hne '{' (by decide)]

theorem numberText_head (n : Number) : ∃ c cs, numberText n = c :: cs ∧ charKind c = 6 := by
  match n with
  | .int (.ofNat a) =>
    obtain ⟨c, cs, hd, hc⟩ := digits_head a
    exact ⟨c, cs, hd, charKind_of_isDigit hc⟩
  | .int (.negSucc a) => exact ⟨'-', _, rfl, by decide⟩
  | .float a => exact ⟨'0', _, rfl, by decide⟩

-- Every text starts with a character that tells its kind.
theorem text_head (colon : List Char) (j : Json) :
    ∃ c cs, text colon j = c :: cs ∧ charKind c = j.kind := by
  match j with
  | .num n =>
    obtain ⟨c, cs, hn, hc⟩ := numberText_head n
    exact ⟨c, cs, by rw [text, hn], by rw [hc, kind]⟩
  | .null => exact ⟨'n', _, by rw [text], by decide⟩
  | .bool true => exact ⟨'t', _, by rw [text], by decide⟩
  | .bool false => exact ⟨'f', _, by rw [text], by decide⟩
  | .str s => exact ⟨'"', _, by rw [text, stringText], by rw [kind]; decide⟩
  | .arr [] => exact ⟨'[', _, by rw [text], by rw [kind]; decide⟩
  | .arr (j :: js) => exact ⟨'[', _, by rw [text], by rw [kind]; decide⟩
  | .obj [] => exact ⟨'{', _, by rw [text], by rw [kind]; decide⟩
  | .obj ((k, j) :: fs) => exact ⟨'{', _, by rw [text], by rw [kind]; decide⟩

-- So two values with one text are of one kind.
theorem kind_eq_of_text {colon : List Char} {j j' : Json} {r r' : List Char}
    (h : text colon j ++ r = text colon j' ++ r') : j.kind = j'.kind := by
  obtain ⟨c, cs, hj, hc⟩ := text_head colon j
  obtain ⟨c', cs', hj', hc'⟩ := text_head colon j'
  rw [hj, hj'] at h
  rw [← hc, ← hc', (List.cons.inj h).1]

/-- No value begins with a closing bracket. -/
theorem text_ne_close {colon : List Char} {j : Json} {c : Char} {r r' : List Char}
    (hc : charKind c = 7) : text colon j ++ r ≠ c :: r' := by
  obtain ⟨d, ds, hj, hd⟩ := text_head colon j
  rw [hj]
  rintro ⟨⟩
  rw [hc] at hd
  rcases j with _ | (_ | _) | _ | _ | _ | _ <;> simp [kind] at hd

theorem eq_arr_of_kind {j : Json} (h : j.kind = 4) : ∃ items, j = .arr items := by
  rcases j with _ | (_ | _) | _ | _ | items | _ <;> simp_all [kind]

theorem eq_obj_of_kind {j : Json} (h : j.kind = 5) : ∃ fields, j = .obj fields := by
  rcases j with _ | (_ | _) | _ | _ | _ | fields <;> simp_all [kind]

theorem itemsText_stops (colon : List Char) (js : List Json) (r : List Char) :
    Stops (itemsText colon js ++ r) := by
  cases js <;> simp [itemsText, Stops]

theorem fieldsText_stops (colon : List Char) (fs : List (String × Json)) (r : List Char) :
    Stops (fieldsText colon fs ++ r) := by
  rcases fs with _ | ⟨⟨k, j⟩, fs⟩ <;> simp [fieldsText, Stops]

mutual

/-- The text of a value is prefix free. -/
theorem text_append_inj (colon : List Char) : ∀ (j j' : Json) {r r' : List Char},
    Stops r → Stops r' →
    text colon j ++ r = text colon j' ++ r' → j = j' ∧ r = r'
  | .null, j', r, r', hr, hr', h => by
    have hk := kind_eq_of_text h
    rcases j' with _ | (_ | _) | _ | _ | _ | _ <;> simp_all [kind, text]
  | .bool b, j', r, r', hr, hr', h => by
    have hk := kind_eq_of_text h
    cases b <;> rcases j' with _ | (_ | _) | _ | _ | _ | _ <;> simp_all [kind, text]
  | .num n, j', r, r', hr, hr', h => by
    have hk := kind_eq_of_text h
    rcases j' with _ | (_ | _) | m | _ | _ | _
    case num =>
      simp only [text] at h
      simpa using numberText_append_inj hr hr' h
    all_goals simp [kind] at hk
  | .str s, j', r, r', hr, hr', h => by
    have hk := kind_eq_of_text h
    rcases j' with _ | (_ | _) | _ | s' | _ | _
    case str =>
      simp only [text] at h
      simpa using stringText_append_inj h
    all_goals simp [kind] at hk
  | .arr [], j', r, r', hr, hr', h => by
    obtain ⟨items, rfl⟩ := eq_arr_of_kind (kind_eq_of_text h).symm
    cases items with
    | nil => simpa [text] using h
    | cons y ys =>
      simp only [text, List.cons_append, List.append_assoc, List.nil_append, List.cons.injEq,
        true_and] at h
      exact absurd h.symm (text_ne_close (by decide))
  | .arr (x :: xs), j', r, r', hr, hr', h => by
    obtain ⟨items, rfl⟩ := eq_arr_of_kind (kind_eq_of_text h).symm
    cases items with
    | nil =>
      simp only [text, List.cons_append, List.append_assoc, List.nil_append, List.cons.injEq,
        true_and] at h
      exact absurd h (text_ne_close (by decide))
    | cons y ys =>
      simp only [text, List.cons_append, List.append_assoc, List.cons.injEq, true_and] at h
      obtain ⟨hxy, h₁⟩ := text_append_inj colon x y (itemsText_stops _ _ _)
        (itemsText_stops _ _ _) h
      obtain ⟨hxs, h₂⟩ := itemsText_append_inj colon xs ys h₁
      exact ⟨by rw [hxy, hxs], h₂⟩
  | .obj [], j', r, r', hr, hr', h => by
    obtain ⟨fields, rfl⟩ := eq_obj_of_kind (kind_eq_of_text h).symm
    rcases fields with _ | ⟨⟨k', y⟩, ys⟩
    · simpa [text] using h
    · simp [text, stringText] at h
  | .obj ((k, x) :: xs), j', r, r', hr, hr', h => by
    obtain ⟨fields, rfl⟩ := eq_obj_of_kind (kind_eq_of_text h).symm
    rcases fields with _ | ⟨⟨k', y⟩, ys⟩
    · simp [text, stringText] at h
    · simp only [text, List.cons_append, List.append_assoc, List.cons.injEq, true_and] at h
      obtain ⟨hk, h₁⟩ := stringText_append_inj h
      obtain ⟨hxy, h₂⟩ := text_append_inj colon x y (fieldsText_stops _ _ _)
        (fieldsText_stops _ _ _) (List.append_cancel_left h₁)
      obtain ⟨hxs, h₃⟩ := fieldsText_append_inj colon xs ys h₂
      exact ⟨by rw [hk, hxy, hxs], h₃⟩

-- An array goes on with a comma or ends, so the lengths agree.
theorem itemsText_append_inj (colon : List Char) : ∀ (js js' : List Json) {r r' : List Char},
    itemsText colon js ++ r = itemsText colon js' ++ r' → js = js' ∧ r = r'
  | [], [], r, r', h => by simpa [itemsText] using h
  | [], y :: ys, r, r', h => by simp [itemsText] at h
  | x :: xs, [], r, r', h => by simp [itemsText] at h
  | x :: xs, y :: ys, r, r', h => by
    simp only [itemsText, List.cons_append, List.append_assoc, List.cons.injEq, true_and] at h
    obtain ⟨hxy, h₁⟩ := text_append_inj colon x y (itemsText_stops _ _ _) (itemsText_stops _ _ _) h
    obtain ⟨hxs, h₂⟩ := itemsText_append_inj colon xs ys h₁
    exact ⟨by rw [hxy, hxs], h₂⟩

-- The same for objects, with the key before each value.
theorem fieldsText_append_inj (colon : List Char) : ∀ (fs fs' : List (String × Json))
    {r r' : List Char}, fieldsText colon fs ++ r = fieldsText colon fs' ++ r' → fs = fs' ∧ r = r'
  | [], [], r, r', h => by simpa [fieldsText] using h
  | [], (k', y) :: ys, r, r', h => by simp [fieldsText] at h
  | (k, x) :: xs, [], r, r', h => by simp [fieldsText] at h
  | (k, x) :: xs, (k', y) :: ys, r, r', h => by
    simp only [fieldsText, List.cons_append, List.append_assoc, List.cons.injEq, true_and] at h
    obtain ⟨hk, h₁⟩ := stringText_append_inj h
    obtain ⟨hxy, h₂⟩ := text_append_inj colon x y (fieldsText_stops _ _ _) (fieldsText_stops _ _ _)
      (List.append_cancel_left h₁)
    obtain ⟨hxs, h₃⟩ := fieldsText_append_inj colon xs ys h₂
    exact ⟨by rw [hk, hxy, hxs], h₃⟩

end

theorem text_injective (colon : List Char) : Function.Injective (text colon) := by
  intro j j' h
  exact (text_append_inj colon j j' stops_nil stops_nil (by rw [h])).1

end Json

theorem Json.utf8_text_injective :
    Function.Injective fun j : Json ↦ utf8 (String.ofList (j.text [':'])) := by
  intro j j' h
  exact text_injective _ (String.ofList_injective (utf8_injective h))

/-- The library that writes compact texts and reads exactly these. -/
noncomputable def JsonText.compact : JsonText where
  toVec := fun j ↦ utf8 (String.ofList (j.text [':']))
  fromSlice := Function.partialInv fun j ↦ utf8 (String.ofList (j.text [':']))
  fromSlice_toVec := fun j _ ↦ Function.partialInv_left Json.utf8_text_injective j

theorem JsonText.compact_toVec_ne_nil (j : Json) : JsonText.compact.toVec j ≠ [] := by
  obtain ⟨c, cs, htext, -⟩ := Json.text_head [':'] j
  intro h
  have hnil : String.ofList (j.text [':']) = "" := utf8_injective h
  rw [htext] at hnil
  cases String.ofList_injective hnil

-- No value is written as the empty text.
theorem JsonText.compact_nil : JsonText.compact.fromSlice [] = none := by
  cases h : JsonText.compact.fromSlice [] with
  | none => rfl
  | some j =>
    have htext := (Json.utf8_text_injective.isPartialInv j []).mp h
    exact absurd htext (compact_toVec_ne_nil j)

/-- The same library with its answer for the text of `j` written out, so that it can be computed
there. -/
def JsonText.answering (json : JsonText) (j : Json) (hj : j.Ok) : JsonText where
  toVec := json.toVec
  fromSlice := fun data ↦ if data = json.toVec j then some j else json.fromSlice data
  fromSlice_toVec := by
    intro j' hj'
    split
    · rename_i heq
      have h := json.fromSlice_toVec j' hj'
      rwa [heq, json.fromSlice_toVec j hj] at h
    · exact json.fromSlice_toVec j' hj'

end LabStreamGate
