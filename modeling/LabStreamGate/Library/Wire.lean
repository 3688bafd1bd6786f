import Mathlib.Algebra.Ring.Nat
import LabStreamGate.Library.FileSystem

/-!
# Numbers and parts of byte strings

Numbers of a fixed width with the low byte first or last, readers that take what they recognize off
the front of a byte string, and the parts that a byte string is cut into.
-/

namespace LabStreamGate

/-! ## Numbers -/

/-- The low `width` bytes of `n`, the lowest first. -/
def leBytes : Nat → Nat → Bytes
  | 0, _ => []
  | width + 1, n => UInt8.ofNat n :: leBytes width (n / 256)

def beBytes (width n : Nat) : Bytes := (leBytes width n).reverse

def ofLeBytes : Bytes → Nat
  | [] => 0
  | b :: bs => b.toNat + 256 * ofLeBytes bs

def ofBeBytes (bs : Bytes) : Nat := ofLeBytes bs.reverse

@[simp] theorem length_leBytes (width n : Nat) : (leBytes width n).length = width := by
  induction width generalizing n with
  | zero => rfl
  | succ width ih => rw [leBytes, List.length_cons, ih]

@[simp] theorem length_beBytes (width n : Nat) : (beBytes width n).length = width := by
  rw [beBytes, List.length_reverse, length_leBytes]

theorem ofLeBytes_leBytes {width n : Nat} (h : n < 256 ^ width) :
    ofLeBytes (leBytes width n) = n := by
  induction width generalizing n with
  | zero =>
    rw [Nat.pow_zero] at h
    rw [leBytes, ofLeBytes]
    omega
  | succ width ih =>
    have hdiv : n / 256 < 256 ^ width := by
      rw [Nat.pow_succ] at h
      exact Nat.div_lt_of_lt_mul (by omega)
    have hlow : (UInt8.ofNat n).toNat = n % 256 := UInt8.toNat_ofNat'
    rw [leBytes, ofLeBytes, ih hdiv, hlow]
    omega

theorem ofBeBytes_beBytes {width n : Nat} (h : n < 256 ^ width) :
    ofBeBytes (beBytes width n) = n := by
  rw [ofBeBytes, beBytes, List.reverse_reverse, ofLeBytes_leBytes h]

theorem ofLeBytes_lt (bs : Bytes) : ofLeBytes bs < 256 ^ bs.length := by
  induction bs with
  | nil => exact Nat.one_pos
  | cons b bs ih =>
    have hb := b.toNat_lt
    rw [ofLeBytes, List.length_cons, Nat.pow_succ]
    omega

def u16LeBytes (n : UInt16) : Bytes := leBytes 2 n.toNat

def u32LeBytes (n : UInt32) : Bytes := leBytes 4 n.toNat

def u16BeBytes (n : UInt16) : Bytes := beBytes 2 n.toNat

@[simp] theorem length_u16LeBytes (n : UInt16) : (u16LeBytes n).length = 2 := length_leBytes ..

@[simp] theorem length_u32LeBytes (n : UInt32) : (u32LeBytes n).length = 4 := length_leBytes ..

@[simp] theorem length_u16BeBytes (n : UInt16) : (u16BeBytes n).length = 2 := length_beBytes ..

/-! ## Readers -/

/-- What is read, and what comes after it. -/
abbrev Reader (α : Type) := Bytes → Option (α × Bytes)

namespace Reader

def bytes (n : Nat) : Reader Bytes := fun bs ↦
  if n ≤ bs.length then some (bs.take n, bs.drop n) else none

def le (width : Nat) : Reader Nat := fun bs ↦
  (bytes width bs).map fun r ↦ (ofLeBytes r.1, r.2)

def be (width : Nat) : Reader Nat := fun bs ↦
  (bytes width bs).map fun r ↦ (ofBeBytes r.1, r.2)

/-- Reads to the end of the string, with at most `fuel` reads. -/
def many {α : Type} (p : Reader α) : Nat → Bytes → Option (List α)
  | _, [] => some []
  | 0, _ :: _ => none
  | fuel + 1, b :: bs => (p (b :: bs)).bind fun r ↦ (many p fuel r.2).map (r.1 :: ·)

theorem bytes_append {n : Nat} {bs rest : Bytes} (h : bs.length = n) :
    bytes n (bs ++ rest) = some (bs, rest) := by
  subst h
  simp [bytes]

@[simp] theorem le_u16 (n : UInt16) (rest : Bytes) :
    le 2 (u16LeBytes n ++ rest) = some (n.toNat, rest) := by
  rw [le, bytes_append (length_u16LeBytes n), Option.map_some, u16LeBytes,
    ofLeBytes_leBytes n.toNat_lt]

@[simp] theorem le_u32 (n : UInt32) (rest : Bytes) :
    le 4 (u32LeBytes n ++ rest) = some (n.toNat, rest) := by
  rw [le, bytes_append (length_u32LeBytes n), Option.map_some, u32LeBytes,
    ofLeBytes_leBytes n.toNat_lt]

@[simp] theorem be_u16 (n : UInt16) (rest : Bytes) :
    be 2 (u16BeBytes n ++ rest) = some (n.toNat, rest) := by
  rw [be, bytes_append (length_u16BeBytes n), Option.map_some, u16BeBytes,
    ofBeBytes_beBytes n.toNat_lt]

@[simp] theorem be_one (b : UInt8) (rest : Bytes) : be 1 (b :: rest) = some (b.toNat, rest) := by
  simp [be, bytes, ofBeBytes, ofLeBytes]

@[simp] theorem be_two (b c : UInt8) (rest : Bytes) :
    be 2 (b :: c :: rest) = some (c.toNat + 256 * b.toNat, rest) := by
  simp [be, bytes, ofBeBytes, ofLeBytes]

@[simp] theorem bytes_zero (bs : Bytes) : bytes 0 bs = some ([], bs) := by
  simp [bytes]

/-! What has been read is what was at the front. -/

theorem bytes_eq_some {n : Nat} {bs part rest : Bytes} (h : bytes n bs = some (part, rest)) :
    bs = part ++ rest ∧ part.length = n := by
  unfold bytes at h
  split at h
  case isTrue hle =>
    cases h
    exact ⟨(List.take_append_drop n bs).symm, List.length_take_of_le hle⟩
  case isFalse => cases h

theorem length_of_bytes {n : Nat} {bs part rest : Bytes} (h : bytes n bs = some (part, rest)) :
    bs.length = n + rest.length := by
  obtain ⟨rfl, rfl⟩ := bytes_eq_some h
  exact List.length_append

theorem length_of_le {width n : Nat} {bs rest : Bytes} (h : le width bs = some (n, rest)) :
    bs.length = width + rest.length := by
  obtain ⟨r, hr, heq⟩ := Option.map_eq_some_iff.mp h
  cases heq
  exact length_of_bytes hr

theorem length_of_be {width n : Nat} {bs rest : Bytes} (h : be width bs = some (n, rest)) :
    bs.length = width + rest.length := by
  obtain ⟨r, hr, heq⟩ := Option.map_eq_some_iff.mp h
  cases heq
  exact length_of_bytes hr

theorem be_lt {width n : Nat} {bs rest : Bytes} (h : be width bs = some (n, rest)) :
    n < 256 ^ width := by
  obtain ⟨r, hr, heq⟩ := Option.map_eq_some_iff.mp h
  cases heq
  obtain ⟨-, rfl⟩ := bytes_eq_some hr
  exact List.length_reverse ▸ ofLeBytes_lt r.1.reverse

/-- The items that are read to the end are all that there was. -/
theorem length_of_many {α : Type} {p : Reader α} {size : α → Nat}
    (hp : ∀ bs item rest, p bs = some (item, rest) → bs.length = size item + rest.length)
    {fuel : Nat} {bs : Bytes} {items : List α} (h : many p fuel bs = some items) :
    bs.length = (items.map size).sum := by
  induction fuel generalizing bs items with
  | zero =>
    cases bs with
    | nil =>
      cases h
      rfl
    | cons b bs => cases h
  | succ fuel ih =>
    cases bs with
    | nil =>
      cases h
      rfl
    | cons b bs =>
      simp only [many, Option.bind_eq_some_iff, Option.map_eq_some_iff] at h
      obtain ⟨⟨item, rest⟩, hitem, items, hrest, rfl⟩ := h
      rw [hp _ _ _ hitem, ih hrest, List.map_cons, List.sum_cons]

theorem length_le_flatMap {β : Type} {encode : β → Bytes} {items : List β}
    (hne : ∀ item ∈ items, encode item ≠ []) : items.length ≤ (items.flatMap encode).length := by
  induction items with
  | nil => exact Nat.le_refl _
  | cons item items ih =>
    have hitem := List.length_pos_iff.mpr (hne item List.mem_cons_self)
    have hrest := ih fun item' h ↦ hne item' (List.mem_cons_of_mem _ h)
    rw [List.flatMap_cons, List.length_append, List.length_cons]
    omega

/-- Items written one after the other are read one after the other. -/
theorem many_flatMap {α β : Type} {p : Reader α} {encode : β → Bytes} {decode : β → α}
    {items : List β}
    (hp : ∀ item ∈ items, ∀ rest, p (encode item ++ rest) = some (decode item, rest))
    (hne : ∀ item ∈ items, encode item ≠ []) {fuel : Nat} (hfuel : items.length ≤ fuel) :
    many p fuel (items.flatMap encode) = some (items.map decode) := by
  induction items generalizing fuel with
  | nil => cases fuel <;> rfl
  | cons item items ih =>
    obtain ⟨b, bs, hitem⟩ := List.exists_cons_of_ne_nil (hne item List.mem_cons_self)
    have hread := hp item List.mem_cons_self (items.flatMap encode)
    rw [List.length_cons] at hfuel
    obtain ⟨fuel, rfl⟩ := Nat.exists_eq_add_of_lt (Nat.lt_of_lt_of_le (Nat.zero_lt_succ _) hfuel)
    have hrest := ih (fun item' h ↦ hp item' (List.mem_cons_of_mem _ h))
      (fun item' h ↦ hne item' (List.mem_cons_of_mem _ h)) (by omega : items.length ≤ 0 + fuel)
    rw [List.flatMap_cons, hitem, List.cons_append, many, ← List.cons_append, ← hitem, hread,
      Option.bind_some, hrest]
    rfl

end Reader

/-! ## Parts -/

/-- `slice::chunks`: parts of `size` bytes, the last of which may be shorter. -/
def chunks (size : Nat) (data : Bytes) : List Bytes :=
  (List.range ((data.length + size - 1) / size)).map fun i ↦ (data.drop (i * size)).take size

-- By induction on the number of parts.
theorem flatten_parts (size : Nat) (data : Bytes) (n : Nat) :
    ((List.range n).map fun i ↦ (data.drop (i * size)).take size).flatten =
      data.take (n * size) := by
  induction n with
  | zero => simp
  | succ n ih =>
    rw [List.range_succ, List.map_append, List.flatten_append, ih, List.map_singleton,
      List.flatten_singleton, ← List.take_add, Nat.succ_mul]

theorem flatten_chunks {size : Nat} (hsize : 0 < size) (data : Bytes) :
    (chunks size data).flatten = data := by
  have hlen : data.length ≤ (data.length + size - 1) / size * size := by
    have hmod := Nat.mod_lt (data.length + size - 1) hsize
    have hdiv := Nat.div_add_mod (data.length + size - 1) size
    rw [Nat.mul_comm] at hdiv
    omega
  rw [chunks, flatten_parts, List.take_of_length_le hlen]

theorem length_chunks {size : Nat} {data : Bytes} :
    (chunks size data).length = (data.length + size - 1) / size := by
  rw [chunks, List.length_map, List.length_range]

/-- The first part, and the parts of what comes after it. -/
theorem chunks_of_ne_nil {size : Nat} {data : Bytes} (hsize : 0 < size) (h : data ≠ []) :
    chunks size data = data.take size :: chunks size (data.drop size) := by
  have hlen := List.length_pos_iff.mpr h
  have hfirst : (data.length + size - 1) / size = (data.length - 1) / size + 1 := by
    rw [show data.length + size - 1 = data.length - 1 + size by omega,
      Nat.add_div_right _ hsize]
  have hrest : ((data.drop size).length + size - 1) / size = (data.length - 1) / size := by
    rw [List.length_drop]
    rcases Nat.le_total data.length size with hle | hle
    · rw [Nat.div_eq_of_lt (by omega), Nat.div_eq_of_lt (by omega)]
    · congr 1
      omega
  rw [chunks, chunks, hfirst, hrest, List.range_succ_eq_map, List.map_cons, List.map_map,
    Nat.zero_mul, List.drop_zero]
  congr 1
  apply List.map_congr_left
  intro i _
  rw [List.drop_drop, Function.comp_apply, Nat.succ_mul, Nat.add_comm]

theorem length_part_le {size : Nat} {data part : Bytes} (hsize : 0 < size)
    (h : part ∈ chunks size data) : part.length ≤ data.length := by
  have hle := (List.sublist_flatten_of_mem h).length_le
  rwa [flatten_chunks hsize] at hle

theorem length_le_of_mem_chunks {size : Nat} {data part : Bytes} (h : part ∈ chunks size data) :
    part.length ≤ size := by
  obtain ⟨i, -, rfl⟩ := List.mem_map.mp h
  exact List.length_take_le _ _

theorem ne_nil_of_mem_chunks {size : Nat} {data part : Bytes} (hsize : 0 < size)
    (h : part ∈ chunks size data) : part ≠ [] := by
  obtain ⟨i, hi, rfl⟩ := List.mem_map.mp h
  rw [List.mem_range] at hi
  have hlt : i * size < data.length := by
    have hmul := Nat.mul_le_mul_right size (Nat.succ_le_of_lt hi)
    have hdiv := Nat.div_mul_le_self (data.length + size - 1) size
    rw [Nat.succ_mul] at hmul
    omega
  rw [← List.length_pos_iff, List.length_take, List.length_drop]
  omega

end LabStreamGate
