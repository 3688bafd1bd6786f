import Mathlib.Algebra.Group.Int.Defs
import Mathlib.Data.List.Nodup
import Mathlib.Data.String.Basic
import LabStreamGate.Library.FileSystem

/-!
# JSON values

The value tree of a JSON document, the look-ups that deserializing a record does in it, and what
is relied on of a JSON library: reading back the text of a value gives the value.
-/

namespace LabStreamGate

/-- A number as it was read: an integer, or a floating point number given by its bits. -/
inductive Number
  | int (i : Int)
  | float (bits : UInt64)
  deriving DecidableEq, Repr

inductive Json
  | null
  | bool (b : Bool)
  | num (n : Number)
  | str (s : String)
  | arr (items : List Json)
  | obj (fields : List (String × Json))
  deriving Repr

/-- The exponent of an infinity or a NaN is all ones. -/
def finiteBits (bits : UInt64) : Bool :=
  (bits >>> 52) &&& 0x7ff != 0x7ff

/-- Integers are those of `i64` and `u64`, floats are finite. -/
def Number.check : Number → Bool
  | .int i => -2 ^ 63 ≤ i && i < 2 ^ 64
  | .float bits => finiteBits bits

mutual

/-- All numbers are in range and the keys of every object pass `keys`. -/
def Json.check (keys : List String → Bool) : Json → Bool
  | .num n => n.check
  | .arr items => Json.checkItems keys items
  | .obj fields => keys (fields.map Prod.fst) && Json.checkFields keys fields
  | _ => true

def Json.checkItems (keys : List String → Bool) : List Json → Bool
  | [] => true
  | j :: js => j.check keys && Json.checkItems keys js

def Json.checkFields (keys : List String → Bool) : List (String × Json) → Bool
  | [] => true
  | (_, j) :: fs => j.check keys && Json.checkFields keys fs

end

/-- The values a document can hold: no key comes twice in one object. -/
def Json.Ok (j : Json) : Prop := j.check (fun keys ↦ keys.Nodup) = true

def ascending (keys : List String) : Bool := keys.Pairwise (· < ·)

/-- The values of a library that keeps an object as a map in the order of its keys. -/
def Json.Canonical (j : Json) : Prop := j.check ascending = true

instance (j : Json) : Decidable j.Canonical := inferInstanceAs (Decidable (_ = true))

/-! ## Objects in the order of their keys -/

theorem ascending_iff {keys : List String} : ascending keys = true ↔ keys.Pairwise (· < ·) :=
  decide_eq_true_iff

/-- Puts an entry into a map in the order of its keys; an entry already there stays. -/
def insertEntry {α : Type*} (key : String) (value : α) :
    List (String × α) → List (String × α)
  | [] => [(key, value)]
  | (k, v) :: entries =>
    if key < k then (key, value) :: (k, v) :: entries
    else if key = k then (k, v) :: entries
    else (k, v) :: insertEntry key value entries

section

variable {α : Type*} {key : String} {value : α} {entries : List (String × α)}

-- Nothing but the new entry is added.
theorem mem_insertEntry {e : String × α} (h : e ∈ insertEntry key value entries) :
    e = (key, value) ∨ e ∈ entries := by
  induction entries with
  | nil => simpa [insertEntry] using h
  | cons entry entries ih =>
    unfold insertEntry at h
    split at h
    · simpa using h
    · split at h
      · exact .inr h
      · rcases List.mem_cons.mp h with rfl | h
        · exact .inr (List.mem_cons_self ..)
        · exact (ih h).imp_right (List.mem_cons_of_mem _)

-- The entry is put before the first greater key.
theorem ascending_insertEntry (h : ascending (entries.map Prod.fst) = true) :
    ascending ((insertEntry key value entries).map Prod.fst) = true := by
  rw [ascending_iff] at h ⊢
  induction entries with
  | nil => simp [insertEntry]
  | cons entry entries ih =>
    obtain ⟨k, v⟩ := entry
    rw [List.map_cons, List.pairwise_cons] at h
    unfold insertEntry
    split
    · rename_i hlt
      refine List.pairwise_cons.mpr ⟨?_, List.pairwise_cons.mpr h⟩
      intro k' hk'
      rcases List.mem_cons.mp hk' with rfl | hk'
      · exact hlt
      · exact hlt.trans (h.1 k' hk')
    · rename_i hle
      split
      · exact List.pairwise_cons.mpr h
      · rename_i hne
        refine List.pairwise_cons.mpr ⟨?_, ih h.2⟩
        intro k' hk'
        obtain ⟨e, he, rfl⟩ := List.mem_map.mp hk'
        rcases mem_insertEntry he with rfl | he
        · exact lt_of_le_of_ne (not_lt.mp hle) (Ne.symm hne)
        · exact h.1 _ (List.mem_map_of_mem he)

theorem insertEntry_of_lt (h : ∀ k ∈ entries.map Prod.fst, key < k) :
    insertEntry key value entries = (key, value) :: entries := by
  cases entries with
  | nil => rfl
  | cons entry entries => exact if_pos (h _ (List.mem_cons_self ..))

end

namespace Json

mutual

/-- The value as a library holds it: objects in the order of their keys, and of the entries with
one key the last. -/
def canon : Json → Json
  | .arr items => .arr (canonItems items)
  | .obj fields => .obj (canonFields fields)
  | j => j

def canonItems : List Json → List Json
  | [] => []
  | j :: js => j.canon :: canonItems js

def canonFields : List (String × Json) → List (String × Json)
  | [] => []
  | (k, j) :: fs => insertEntry k j.canon (canonFields fs)

end

theorem checkFields_iff {keys : List String → Bool} {fs : List (String × Json)} :
    checkFields keys fs = true ↔ ∀ f ∈ fs, f.2.check keys = true := by
  induction fs with
  | nil => simp [checkFields]
  | cons f fs ih => simp [checkFields, ih]

mutual

-- One case for each constructor; the two lists go along.
theorem canon_canonical : ∀ {j : Json}, j.check (fun _ ↦ true) = true → j.canon.Canonical
  | .null, _ => rfl
  | .bool _, _ => rfl
  | .num _, h => h
  | .str _, _ => rfl
  | .arr _, h => canonItems_check h
  | .obj fs, h => by
    obtain ⟨hkeys, hcheck⟩ := @canonFields_check fs h
    rw [canon, Canonical, check, hkeys, hcheck]
    rfl

theorem canonItems_check : ∀ {js : List Json}, checkItems (fun _ ↦ true) js = true →
    checkItems ascending (canonItems js) = true
  | [], _ => rfl
  | j :: js, h => by
    rw [checkItems, Bool.and_eq_true] at h
    rw [canonItems, checkItems, canonItems_check h.2, Bool.and_true]
    exact canon_canonical h.1

theorem canonFields_check : ∀ {fs : List (String × Json)},
    checkFields (fun _ ↦ true) fs = true →
      ascending ((canonFields fs).map Prod.fst) = true ∧
        checkFields ascending (canonFields fs) = true
  | [], _ => ⟨rfl, rfl⟩
  | (k, j) :: fs, h => by
    rw [checkFields, Bool.and_eq_true] at h
    obtain ⟨hkeys, hcheck⟩ := canonFields_check h.2
    refine ⟨ascending_insertEntry hkeys, checkFields_iff.mpr ?_⟩
    intro f hf
    rcases mem_insertEntry hf with rfl | hf
    · exact canon_canonical h.1
    · exact checkFields_iff.mp hcheck f hf

end

mutual

-- A value that is in order already is left as it is.
theorem canon_of_canonical : ∀ {j : Json}, j.Canonical → j.canon = j
  | .null, _ => rfl
  | .bool _, _ => rfl
  | .num _, _ => rfl
  | .str _, _ => rfl
  | .arr _, h => congrArg arr (canonItems_of_check h)
  | .obj fs, h => by
    rw [Canonical, check, Bool.and_eq_true] at h
    rw [canon, canonFields_of_check h.1 h.2]

theorem canonItems_of_check : ∀ {js : List Json}, checkItems ascending js = true →
    canonItems js = js
  | [], _ => rfl
  | j :: js, h => by
    rw [checkItems, Bool.and_eq_true] at h
    rw [canonItems, canon_of_canonical h.1, canonItems_of_check h.2]

theorem canonFields_of_check : ∀ {fs : List (String × Json)},
    ascending (fs.map Prod.fst) = true → checkFields ascending fs = true → canonFields fs = fs
  | [], _, _ => rfl
  | (k, j) :: fs, hkeys, h => by
    rw [checkFields, Bool.and_eq_true] at h
    rw [ascending_iff, List.map_cons, List.pairwise_cons] at hkeys
    rw [canonFields, canon_of_canonical h.1,
      canonFields_of_check (ascending_iff.mpr hkeys.2) h.2, insertEntry_of_lt hkeys.1]

end

end Json

/-! ## Reading a record out of a value -/

namespace Json

def asStr : Json → Option String
  | .str s => some s
  | _ => none

def asBool : Json → Option Bool
  | .bool b => some b
  | _ => none

def asU64 : Json → Option UInt64
  | .num (.int i) => if 0 ≤ i ∧ i < 2 ^ 64 then some (UInt64.ofNat i.toNat) else none
  | _ => none

def asU16 : Json → Option UInt16
  | .num (.int i) => if 0 ≤ i ∧ i < 2 ^ 16 then some (UInt16.ofNat i.toNat) else none
  | _ => none

def asI32 : Json → Option Int
  | .num (.int i) => if -2 ^ 31 ≤ i ∧ i < 2 ^ 31 then some i else none
  | _ => none

theorem asU64_toNat (n : UInt64) : asU64 (.num (.int n.toNat)) = some n := by
  have hlt : (n.toNat : Int) < 2 ^ 64 := by exact_mod_cast n.toNat_lt
  simp only [asU64, Int.natCast_nonneg, hlt, and_self, if_true, Int.toNat_natCast,
    UInt64.ofNat_toNat]

/-- `null` is the absent value of an optional field. -/
def asOption {α : Type*} (read : Json → Option α) : Json → Option (Option α)
  | .null => some none
  | j => (read j).map some

def ofOption {α : Type*} (write : α → Json) : Option α → Json
  | none => .null
  | some a => write a

theorem asOption_num {α : Type*} (read : Json → Option α) (n : Number) :
    asOption read (.num n) = (read (.num n)).map some := rfl

theorem asOption_ofOption_str (o : Option String) : asOption asStr (ofOption .str o) = some o := by
  cases o <;> rfl

def asArr : Json → Option (List Json)
  | .arr items => some items
  | _ => none

def asObj : Json → Option (List (String × Json))
  | .obj fields => some fields
  | _ => none

/-- The values of a record's fields, in the order of `names`, each with the names it goes by.  A
record may also be written as an array of its fields in order.  A field named twice is an error. -/
def fields (names : List (List String)) : Json → Option (List (Option Json))
  | .obj entries => names.mapM fun aliases ↦
      match entries.filter (fun e ↦ aliases.contains e.1) with
      | [] => some none
      | [e] => some (some e.2)
      | _ => none
  | .arr items =>
    if items.length ≤ names.length then
      some (items.map some ++ List.replicate (names.length - items.length) none)
    else none
  | _ => none

/-- A field that has to be there. -/
def required {α : Type*} (read : Json → Option α) (field : Option Json) : Option α :=
  field.bind read

/-- A field that is `default` where it is missing. -/
def optional {α : Type*} (read : Json → Option α) (default : α) : Option Json → Option α
  | none => some default
  | some j => read j

end Json

/-! ## Text -/

/-- What is relied on of a JSON library: `toVec` writes a value and `fromSlice` reads it back. -/
structure JsonText where
  toVec : Json → Bytes
  fromSlice : Bytes → Option Json
  fromSlice_toVec : ∀ j : Json, j.Ok → fromSlice (toVec j) = some j

/-- The bytes of a text. -/
def utf8 (s : String) : Bytes := s.toByteArray.data.toList

theorem utf8_injective : Function.Injective utf8 := by
  intro s t h
  apply String.toByteArray_inj.mp
  exact ByteArray.ext (Array.toList_inj.mp h)

/-- The text that the bytes encode, as `read_to_string` finds it. -/
def fromUtf8 (bytes : Bytes) : Option String := String.fromUTF8? ⟨bytes.toArray⟩

theorem fromUtf8_utf8 (s : String) : fromUtf8 (utf8 s) = some s := by
  unfold fromUtf8 String.fromUTF8? utf8
  exact dif_pos s.isValidUTF8

end LabStreamGate
