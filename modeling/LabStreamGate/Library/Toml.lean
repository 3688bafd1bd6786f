import LabStreamGate.Library.JsonText

/-!
# TOML documents

The values of a TOML document, how they stand for JSON values (TOML has no null, and a library may
have a narrower range of integers), and what is relied on of a TOML library: reading back the text
of a document gives the document.  A table is kept in the order of its keys.
-/

namespace LabStreamGate

inductive Toml
  | string (s : String)
  | integer (i : Int)
  | float (bits : UInt64)
  | boolean (b : Bool)
  | array (items : List Toml)
  | table (entries : List (String × Toml))
  deriving Repr

/-- Whether an integer is one of `i64`. -/
def fitsI64 (i : Int) : Bool := -2 ^ 63 ≤ i && i < 2 ^ 63

namespace Toml

section

variable (fits : Int → Bool)

mutual

/-- Integers are those that fit, floats are finite, and the keys of every table ascend. -/
def check : Toml → Bool
  | .integer i => fits i
  | .float bits => finiteBits bits
  | .array items => checkItems items
  | .table entries => ascending (entries.map Prod.fst) && checkEntries entries
  | _ => true

def checkItems : List Toml → Bool
  | [] => true
  | t :: ts => check t && checkItems ts

def checkEntries : List (String × Toml) → Bool
  | [] => true
  | (_, t) :: es => check t && checkEntries es

end

/-! ## JSON values as TOML values -/

mutual

/-- The encoding of a value; null and integers that do not fit are errors. -/
def ofJson : Json → Option Toml
  | .null => none
  | .bool b => some (.boolean b)
  | .num (.int i) => if fits i then some (.integer i) else none
  | .num (.float bits) => some (.float bits)
  | .str s => some (.string s)
  | .arr items => (ofItems items).map .array
  | .obj fields => (ofFields fields).map .table

def ofItems : List Json → Option (List Toml)
  | [] => some []
  | j :: js => (ofJson j).bind fun t ↦ (ofItems js).map (t :: ·)

def ofFields : List (String × Json) → Option (List (String × Toml))
  | [] => some []
  | (k, j) :: fs => (ofJson j).bind fun t ↦ (ofFields fs).map ((k, t) :: ·)

end

end

mutual

/-- The value that a decoder makes of a TOML value; a float that is no number is null. -/
def toJson : Toml → Json
  | .string s => .str s
  | .integer i => .num (.int i)
  | .float bits => if finiteBits bits then .num (.float bits) else .null
  | .boolean b => .bool b
  | .array items => .arr (toItems items)
  | .table entries => .obj (toFields entries)

def toItems : List Toml → List Json
  | [] => []
  | t :: ts => t.toJson :: toItems ts

def toFields : List (String × Toml) → List (String × Json)
  | [] => []
  | (k, t) :: es => (k, t.toJson) :: toFields es

end

theorem toFields_keys : ∀ es : List (String × Toml), (toFields es).map Prod.fst = es.map Prod.fst
  | [] => rfl
  | (k, t) :: es => by rw [toFields, List.map_cons, List.map_cons, toFields_keys es]

variable {fits : Int → Bool}

-- The encoding changes no key.
theorem ofFields_keys : ∀ {fs : List (String × Json)} {es : List (String × Toml)},
    ofFields fits fs = some es → es.map Prod.fst = fs.map Prod.fst
  | [], es, h => by
    cases h
    rfl
  | (k, j) :: fs, es, h => by
    simp only [ofFields, Option.bind_eq_some_iff, Option.map_eq_some_iff] at h
    obtain ⟨t, -, es', h', rfl⟩ := h
    rw [List.map_cons, List.map_cons, ofFields_keys h']

mutual

/-- The encoding of a value is a document that a library can hold, and is decoded to the same
value. -/
theorem of_ofJson : ∀ {j : Json} {t : Toml}, j.Canonical → ofJson fits j = some t →
    t.check fits = true ∧ t.toJson = j
  | .null, t, hj, h => by cases h
  | .bool b, t, hj, h => by
    cases h
    exact ⟨rfl, rfl⟩
  | .num (.int i), t, hj, h => by
    simp only [ofJson, Option.ite_none_right_eq_some, Option.some.injEq] at h
    obtain ⟨hi, rfl⟩ := h
    exact ⟨hi, rfl⟩
  | .num (.float bits), t, hj, h => by
    cases h
    exact ⟨hj, if_pos hj⟩
  | .str s, t, hj, h => by
    cases h
    exact ⟨rfl, rfl⟩
  | .arr items, t, hj, h => by
    simp only [ofJson, Option.map_eq_some_iff] at h
    obtain ⟨ts, hts, rfl⟩ := h
    obtain ⟨hcheck, hread⟩ := of_ofItems hj hts
    exact ⟨hcheck, by rw [toJson, hread]⟩
  | .obj fields, t, hj, h => by
    simp only [ofJson, Option.map_eq_some_iff] at h
    obtain ⟨es, hes, rfl⟩ := h
    simp only [Json.Canonical, Json.check, Bool.and_eq_true] at hj
    obtain ⟨hcheck, hread⟩ := of_ofFields hj.2 hes
    exact ⟨by rw [check, ofFields_keys hes, hj.1, hcheck, Bool.and_true], by rw [toJson, hread]⟩

theorem of_ofItems : ∀ {js : List Json} {ts : List Toml}, Json.checkItems ascending js = true →
    ofItems fits js = some ts → checkItems fits ts = true ∧ toItems ts = js
  | [], ts, hj, h => by
    cases h
    exact ⟨rfl, rfl⟩
  | j :: js, ts, hj, h => by
    simp only [ofItems, Option.bind_eq_some_iff, Option.map_eq_some_iff] at h
    obtain ⟨t, ht, ts', hts, rfl⟩ := h
    rw [Json.checkItems, Bool.and_eq_true] at hj
    obtain ⟨hcheck, hread⟩ := of_ofJson hj.1 ht
    obtain ⟨hchecks, hreads⟩ := of_ofItems hj.2 hts
    exact ⟨by rw [checkItems, hcheck, hchecks, Bool.and_true], by rw [toItems, hread, hreads]⟩

-- The keys are checked as they are, the values one by one.
theorem of_ofFields : ∀ {fs : List (String × Json)} {es : List (String × Toml)},
    Json.checkFields ascending fs = true → ofFields fits fs = some es →
      checkEntries fits es = true ∧ toFields es = fs
  | [], es, hj, h => by
    cases h
    exact ⟨rfl, rfl⟩
  | (k, j) :: fs, es, hj, h => by
    simp only [ofFields, Option.bind_eq_some_iff, Option.map_eq_some_iff] at h
    obtain ⟨t, ht, es', hes, rfl⟩ := h
    rw [Json.checkFields, Bool.and_eq_true] at hj
    obtain ⟨hcheck, hread⟩ := of_ofJson hj.1 ht
    obtain ⟨hchecks, hreads⟩ := of_ofFields hj.2 hes
    exact ⟨by rw [checkEntries, hcheck, hchecks, Bool.and_true], by rw [toFields, hread, hreads]⟩

end

/-! ## What can be encoded -/

section

variable (fits : Int → Bool)

mutual

/-- A value with no null in it and no integer that does not fit. -/
def encodable : Json → Bool
  | .null => false
  | .num (.int i) => fits i
  | .arr items => encodableItems items
  | .obj fields => encodableFields fields
  | _ => true

def encodableItems : List Json → Bool
  | [] => true
  | j :: js => encodable j && encodableItems js

def encodableFields : List (String × Json) → Bool
  | [] => true
  | (_, j) :: fs => encodable j && encodableFields fs

end

end

mutual

theorem isSome_ofJson : ∀ j : Json, (ofJson fits j).isSome = encodable fits j
  | .null => rfl
  | .bool b => rfl
  | .num (.int i) => by
    rw [ofJson, encodable]
    cases fits i <;> rfl
  | .num (.float bits) => rfl
  | .str s => rfl
  | .arr items => by rw [ofJson, encodable, Option.isSome_map, isSome_ofItems]
  | .obj fields => by rw [ofJson, encodable, Option.isSome_map, isSome_ofFields]

theorem isSome_ofItems : ∀ js : List Json, (ofItems fits js).isSome = encodableItems fits js
  | [] => rfl
  | j :: js => by
    rw [ofItems, encodableItems, ← isSome_ofJson j, ← isSome_ofItems js]
    cases ofJson fits j <;> simp

theorem isSome_ofFields : ∀ fs : List (String × Json), (ofFields fits fs).isSome =
    encodableFields fits fs
  | [] => rfl
  | (k, j) :: fs => by
    rw [ofFields, encodableFields, ← isSome_ofJson j, ← isSome_ofFields fs]
    cases ofJson fits j <;> simp

end

mutual

/-- A document that a library can hold is the encoding of what is decoded from it. -/
theorem ofJson_toJson : ∀ {t : Toml}, t.check fits = true → ofJson fits t.toJson = some t
  | .string s, h => rfl
  | .integer i, h => if_pos h
  | .float bits, h => by
    have hfinite : finiteBits bits = true := h
    rw [toJson, if_pos hfinite, ofJson]
  | .boolean b, h => rfl
  | .array items, h => by rw [toJson, ofJson, ofItems_toItems h, Option.map_some]
  | .table entries, h => by
    rw [check, Bool.and_eq_true] at h
    rw [toJson, ofJson, ofFields_toFields h.2, Option.map_some]

theorem ofItems_toItems : ∀ {ts : List Toml}, checkItems fits ts = true →
    ofItems fits (toItems ts) = some ts
  | [], h => rfl
  | t :: ts, h => by
    rw [checkItems, Bool.and_eq_true] at h
    rw [toItems, ofItems, ofJson_toJson h.1, ofItems_toItems h.2]
    rfl

theorem ofFields_toFields : ∀ {es : List (String × Toml)}, checkEntries fits es = true →
    ofFields fits (toFields es) = some es
  | [], h => rfl
  | (k, t) :: es, h => by
    rw [checkEntries, Bool.and_eq_true] at h
    rw [toFields, ofFields, ofJson_toJson h.1, ofFields_toFields h.2]
    rfl

end

/-! ## Text -/

/-- The text of a value within a line. -/
def inlineText (t : Toml) : List Char := t.toJson.text " = ".toList

/-- The text of a document: nothing for an empty one, `scopes = ...` for one with that key
alone. -/
def text (t : Toml) : List Char :=
  match t with
  | .table [] => []
  | .table [(k, v)] =>
    if k = "scopes" then "scopes = ".toList ++ (v.inlineText ++ ['\n']) else t.inlineText
  | t => t.inlineText

theorem inlineText_injective {t t' : Toml} (ht : t.check fits = true) (ht' : t'.check fits = true)
    (h : t.inlineText = t'.inlineText) : t = t' := by
  have hjson := Json.text_injective _ h
  have hread := ofJson_toJson ht
  rw [hjson, ofJson_toJson ht'] at hread
  exact (Option.some.inj hread).symm

-- Three forms of texts: nothing, the one key `scopes`, and all others.
theorem text_cases (t : Toml) :
    (t = .table [] ∧ t.text = []) ∨
    (∃ v, t = .table [("scopes", v)] ∧
      t.text = "scopes = ".toList ++ (v.inlineText ++ ['\n'])) ∨
    t.text = t.inlineText := by
  match t with
  | .table [] => exact .inl ⟨rfl, rfl⟩
  | .table [(k, v)] =>
    by_cases hk : k = "scopes"
    · subst hk
      exact .inr (.inl ⟨v, rfl, rfl⟩)
    · exact .inr (.inr (if_neg hk))
  | .table (_ :: _ :: _) => exact .inr (.inr rfl)
  | .string _ => exact .inr (.inr rfl)
  | .integer _ => exact .inr (.inr rfl)
  | .float _ => exact .inr (.inr rfl)
  | .boolean _ => exact .inr (.inr rfl)
  | .array _ => exact .inr (.inr rfl)

-- The forms start differently, and within a form the text of the value decides.
theorem text_injective {t t' : Toml} (ht : t.check fits = true) (ht' : t'.check fits = true)
    (h : t.text = t'.text) : t = t' := by
  have hnil : ∀ u : Toml, u.inlineText ≠ [] := by
    intro u hu
    obtain ⟨c, cs, htext, -⟩ := Json.text_head " = ".toList u.toJson
    exact List.cons_ne_nil c cs (htext.symm.trans hu)
  have hscopes : ∀ (u : Toml) l, u.inlineText ≠ "scopes = ".toList ++ l := by
    intro u l hu
    exact Json.text_ne_close (j := u.toJson) (r := []) (by decide)
      ((List.append_nil _).trans hu)
  rcases text_cases t with ⟨rfl, hx⟩ | ⟨v, rfl, hx⟩ | hx <;>
    rcases text_cases t' with ⟨rfl, hx'⟩ | ⟨v', rfl, hx'⟩ | hx' <;>
    replace h := hx.symm.trans (h.trans hx')
  · rfl
  · cases h
  · exact absurd h.symm (hnil t')
  · cases h
  · have hv := List.append_cancel_right (List.append_cancel_left h)
    simp only [check, checkEntries, Bool.and_eq_true] at ht ht'
    rw [inlineText_injective ht.2.1 ht'.2.1 hv]
  · exact absurd h.symm (hscopes t' _)
  · exact absurd h (hnil t)
  · exact absurd h (hscopes t _)
  · exact inlineText_injective ht ht' h

end Toml

/-- What is relied on of a TOML library: `toString` writes a document whose integers are among those
that it takes and `fromStr` reads it back; an empty text is an empty document. -/
structure TomlText where
  fits : Int → Bool
  toString : Toml → Bytes
  fromStr : Bytes → Option Toml
  fromStr_toString : ∀ entries, (Toml.table entries).check fits = true →
    fromStr (toString (.table entries)) = some (.table entries)
  fromStr_nil : fromStr [] = some (.table [])

open Classical in
/-- The library that takes these integers and reads exactly the texts it writes. -/
noncomputable def TomlText.taking (fits : Int → Bool) : TomlText where
  fits := fits
  toString := fun t ↦ utf8 (String.ofList t.text)
  fromStr := fun data ↦
    if h : ∃ t : Toml, t.check fits = true ∧ utf8 (String.ofList t.text) = data then some h.choose
    else none
  fromStr_toString := by
    intro entries hcheck
    have h : ∃ t : Toml, t.check fits = true ∧ utf8 (String.ofList t.text) =
        utf8 (String.ofList (Toml.table entries).text) := ⟨_, hcheck, rfl⟩
    rw [dif_pos h]
    exact congrArg some (Toml.text_injective h.choose_spec.1 hcheck
      (String.ofList_injective (utf8_injective h.choose_spec.2)))
  fromStr_nil := by
    have h : ∃ t : Toml, t.check fits = true ∧ utf8 (String.ofList t.text) = [] :=
      ⟨.table [], rfl, rfl⟩
    rw [dif_pos h]
    exact congrArg some (Toml.text_injective h.choose_spec.1 rfl
      (String.ofList_injective (utf8_injective h.choose_spec.2)))

noncomputable def TomlText.compact : TomlText := .taking fitsI64

/-- The same library with its answer for the text of one document written out, so that it can be
computed there. -/
def TomlText.answering (toml : TomlText) (entries : List (String × Toml))
    (h : (Toml.table entries).check toml.fits = true) : TomlText where
  fits := toml.fits
  toString := toml.toString
  fromStr := fun data ↦
    if data = toml.toString (.table entries) then some (.table entries) else toml.fromStr data
  fromStr_toString := by
    intro entries' h'
    split
    · rename_i heq
      have hread := toml.fromStr_toString entries' h'
      rwa [heq, toml.fromStr_toString entries h] at hread
    · exact toml.fromStr_toString entries' h'
  fromStr_nil := by
    split
    · rename_i heq
      have hread := toml.fromStr_toString entries h
      rwa [← heq, toml.fromStr_nil, eq_comm] at hread
    · exact toml.fromStr_nil

end LabStreamGate
