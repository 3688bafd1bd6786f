import LabStreamGate.Library.Wire

/-!
# One's-complement sums

Numbers up to `m = 2 ^ w - 1` are added with the carry coming in again at the low end.  That is
addition modulo `m`, with `m` and not zero for the multiples of `m` that are not zero themselves.
-/

namespace LabStreamGate

/-- The big-endian words of a byte string, without a last single byte. -/
def beWords : Bytes → List Nat
  | high :: low :: bs => (high.toNat * 256 + low.toNat) :: beWords bs
  | _ => []

/-- Addition with an end-around carry. -/
def addAround (m a b : Nat) : Nat := if a + b ≤ m then a + b else a + b - m

def onesSum (m : Nat) (words : List Nat) : Nat := words.foldl (addAround m) 0

/-- The number up to `m` that an unlimited sum stands for. -/
def residue (m n : Nat) : Nat := if n = 0 then 0 else (n - 1) % m + 1

variable {m n a b : Nat} {words : List Nat} {word : UInt16} {rest : Bytes}

/-! ## Words -/

@[simp] theorem beWords_nil : beWords [] = [] := rfl

@[simp] theorem beWords_cons (high low : UInt8) (rest : Bytes) :
    beWords (high :: low :: rest) = (high.toNat * 256 + low.toNat) :: beWords rest := rfl

@[simp] theorem beWords_u16BeBytes : beWords (u16BeBytes word ++ rest) =
    word.toNat :: beWords rest := by
  have hword := word.toNat_lt
  have hlow : (UInt8.ofNat word.toNat).toNat = word.toNat % 256 := UInt8.toNat_ofNat'
  have hhigh : (UInt8.ofNat (word.toNat / 256)).toNat = word.toNat / 256 % 256 :=
    UInt8.toNat_ofNat'
  change ((UInt8.ofNat (word.toNat / 256)).toNat * 256 + (UInt8.ofNat word.toNat).toNat) ::
    beWords rest = _
  rw [hlow, hhigh]
  congr 1
  omega

theorem lt_of_mem_beWords {bs : Bytes} (h : n ∈ beWords bs) : n < 65536 := by
  induction bs using beWords.induct with
  | case1 high low bs ih =>
    have hhigh := high.toNat_lt
    have hlow := low.toNat_lt
    rcases List.mem_cons.mp h with rfl | h
    · omega
    · exact ih h
  | case2 bs hbs =>
    rw [beWords] at h
    · cases h
    · exact hbs

theorem length_beWords (bs : Bytes) : (beWords bs).length = bs.length / 2 := by
  induction bs using beWords.induct with
  | case1 high low bs ih =>
    rw [beWords_cons, List.length_cons, ih, List.length_cons, List.length_cons]
    omega
  | case2 bs hbs =>
    rcases bs with _ | ⟨byte, _ | ⟨byte', bs⟩⟩
    · rfl
    · simp [beWords]
    · exact absurd rfl (hbs byte byte' bs)

/-! ## Sums -/

theorem residue_le (hm : 0 < m) : residue m n ≤ m := by
  rw [residue]
  split
  · exact Nat.zero_le m
  · exact Nat.mod_lt _ hm

theorem residue_of_le (h : n ≤ m) : residue m n = n := by
  rw [residue]
  split
  · omega
  · rw [Nat.mod_eq_of_lt (by omega)]
    omega

theorem residue_add_mul (k : Nat) (ha : 0 < a) : residue m (a + m * k) = residue m a := by
  have hsub : a + m * k - 1 = a - 1 + m * k := by omega
  rw [residue, residue, if_neg (by omega), if_neg (by omega), hsub, Nat.add_mul_mod_self_left]

theorem exists_eq_residue_add : ∃ k, n = residue m n + m * k := by
  rw [residue]
  split
  · exact ⟨0, by omega⟩
  · have hdiv := Nat.mod_add_div (n - 1) m
    exact ⟨(n - 1) / m, by omega⟩

theorem residue_pos (hn : 0 < n) : 0 < residue m n := by
  rw [residue, if_neg (by omega)]
  omega

theorem residue_residue_add : residue m (residue m a + b) = residue m (a + b) := by
  rcases Nat.eq_zero_or_pos a with rfl | ha
  · rfl
  · obtain ⟨k, hk⟩ := @exists_eq_residue_add m a
    have hpos := @residue_pos m a ha
    have hsum : a + b = residue m a + b + m * k := by omega
    rw [hsum, residue_add_mul k (by omega)]

/-- Adding the upper part of a number to the lower one does not change what it stands for. -/
theorem residue_fold : residue m (n % (m + 1) + n / (m + 1)) = residue m n := by
  have hdiv := Nat.mod_add_div n (m + 1)
  generalize n % (m + 1) = low, n / (m + 1) = high at hdiv ⊢
  rw [Nat.add_mul, Nat.one_mul] at hdiv
  rcases Nat.eq_zero_or_pos (low + high) with hzero | hpos
  · obtain ⟨rfl, rfl⟩ : low = 0 ∧ high = 0 := by omega
    rw [← hdiv, Nat.mul_zero]
  · have hsum : n = low + high + m * high := by omega
    rw [hsum, residue_add_mul high hpos]

theorem addAround_eq (ha : a ≤ m) (hb : b ≤ m) : addAround m a b = residue m (a + b) := by
  rw [addAround]
  split
  · rw [residue_of_le ‹_›]
  · have hsum : a + b = a + b - m + m * 1 := by omega
    rw [hsum, residue_add_mul 1 (by omega), residue_of_le (by omega)]
    omega

theorem foldl_addAround (hm : 0 < m) (ha : a ≤ m) (hwords : ∀ n ∈ words, n ≤ m) :
    words.foldl (addAround m) a = residue m (a + words.sum) := by
  induction words generalizing a with
  | nil => exact (residue_of_le ha).symm
  | cons n words ih =>
    have hn := hwords n List.mem_cons_self
    rw [List.foldl_cons, addAround_eq ha hn,
      ih (residue_le hm) fun k hk ↦ hwords k (List.mem_cons_of_mem n hk), residue_residue_add,
      List.sum_cons, Nat.add_assoc]

theorem onesSum_eq (hm : 0 < m) (hwords : ∀ n ∈ words, n ≤ m) :
    onesSum m words = residue m words.sum := by
  rw [onesSum, foldl_addAround hm (Nat.zero_le m) hwords, Nat.zero_add]

/-- A sum and its complement make all ones. -/
theorem residue_add_complement (hm : 0 < m) : residue m (n + (m - residue m n)) = m := by
  have hle := @residue_le m n hm
  have hsum : residue m n + (m - residue m n) = m := by omega
  rw [← residue_residue_add, hsum, residue_of_le (Nat.le_refl m)]

end LabStreamGate
