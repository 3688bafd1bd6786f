import Mathlib.Data.List.TakeWhile
import LabStreamGate.Library.Http
import LabStreamGate.Library.SocketAddr

/-!
# How the text of a socket address ends

A parser of addresses takes a part off the front of a text.  So the text of a whole address ends in
a colon and the digits of the port, which the last colon of the text sets off from the rest.
-/

namespace LabStreamGate

/-- `SocketAddr::to_string`. -/
def SocketAddr.toString (addr : SocketAddr) : String :=
  let port := String.ofList (Nat.toDigits 10 addr.port.toNat)
  match addr.ip with
  | .v4 _ => addr.ip.toString ++ ":" ++ port
  | .v6 _ => "[" ++ addr.ip.toString ++ "]:" ++ port

/-! ## The last part of a text -/

/-- The part after the last separator holds no other. -/
theorem rsplitOnce_eq {sep : Char} {s : String} {front back : List Char}
    (hs : s.toList = front ++ sep :: back) (hback : sep ∉ back) :
    rsplitOnce sep s = some (String.ofList front, String.ofList back) := by
  have hall : ∀ c ∈ back.reverse, (decide (c ≠ sep)) = true := by
    intro c hc
    rw [decide_eq_true_eq]
    rintro rfl
    exact hback (List.mem_reverse.mp hc)
  have hrev : s.toList.reverse = back.reverse ++ sep :: front.reverse := by
    rw [hs, List.reverse_append, List.reverse_cons, List.append_assoc, List.singleton_append]
  have htake : s.toList.reverse.takeWhile (· ≠ sep) = back.reverse := by
    rw [hrev, List.takeWhile_append_of_pos hall, List.takeWhile_cons_of_neg (by simp),
      List.append_nil]
  have hdrop : (back.reverse ++ sep :: front.reverse).drop back.reverse.length =
      sep :: front.reverse := List.drop_left
  unfold rsplitOnce
  rw [htake, hrev]
  dsimp only
  rw [hdrop]
  dsimp only
  rw [List.reverse_reverse, List.reverse_reverse]

/-! ## Digits -/

theorem digitValue_ten {c : Char} :
    digitValue 10 c = if c.isDigit then some (c.toNat - '0'.toNat) else none := by
  have hletter : ∀ n : Nat, (some (n + 10)).filter (· < 10) = none := by
    intro n
    rw [Option.filter_some, if_neg (by simp)]
  unfold digitValue
  dsimp only
  split
  · rename_i hdigit
    have hlt : c.toNat - '0'.toNat < 10 := by
      have h9 : c.toNat ≤ 57 := (Char.isDigit_iff_toNat.mp hdigit).2
      have h0 : '0'.toNat = 48 := rfl
      omega
    rw [Option.filter_some, if_pos (by simpa using hlt)]
  · split
    · exact hletter _
    · split
      · exact hletter _
      · rfl

theorem isDigit_of_digitValue {c : Char} (h : (digitValue 10 c).isSome = true) :
    c.isDigit = true := by
  rw [digitValue_ten] at h
  split at h
  · assumption
  · cases h

theorem numberValue_ten {ds : List Char} (h : ∀ c ∈ ds, c.isDigit = true) :
    numberValue 10 ds = Nat.ofDigitChars 10 ds 0 := by
  rw [Nat.ofDigitChars_eq_foldl]
  refine List.foldl_ext _ _ _ fun n c hc ↦ ?_
  rw [digitValue_ten, if_pos (h c hc), Option.getD_some, Nat.mul_comm]

theorem parseU16_digits {ds : List Char} (hne : ds ≠ []) (hall : ∀ c ∈ ds, c.isDigit = true)
    (hlt : Nat.ofDigitChars 10 ds 0 < 65536) :
    parseU16 (String.ofList ds) = some (UInt16.ofNat (Nat.ofDigitChars 10 ds 0)) := by
  unfold parseU16
  rw [String.toList_ofList]
  extract_lets digits
  have hsame : digits = ds := by
    unfold digits
    split
    · -- a sign is not a digit
      exact absurd (hall '+' List.mem_cons_self) (by decide)
    · rfl
  have hvalid : digits ≠ [] ∧ digits.all Char.isDigit = true ∧
      Nat.ofDigitChars 10 digits 0 < 65536 := by
    rw [hsame]
    exact ⟨hne, List.all_eq_true.mpr hall, hlt⟩
  rw [if_pos hvalid, hsame]

/-- A port is read back from its digits. -/
theorem parseU16_toDigits (port : UInt16) :
    parseU16 (String.ofList (Nat.toDigits 10 port.toNat)) = some port := by
  rw [parseU16_digits Nat.toDigits_ne_nil
    (fun c hc ↦ Nat.isDigit_of_mem_toDigits (by decide) (by decide) hc)
    (by rw [Nat.ofDigitChars_ten_toDigits]; exact port.toNat_lt),
    Nat.ofDigitChars_ten_toDigits, UInt16.ofNat_toNat]

theorem isWhiteSpace_of_isDigit {c : Char} (h : c.isDigit = true) : isWhiteSpace c = false := by
  have hrange : 48 ≤ c.toNat ∧ c.toNat ≤ 57 := Char.isDigit_iff_toNat.mp h
  unfold isWhiteSpace
  simp only [Bool.or_eq_false_iff, Bool.and_eq_false_iff, decide_eq_false_iff_not,
    beq_eq_false_iff_ne]
  omega

/-! ## What a parser takes -/

/-- What a parser leaves is the end of what it was given. -/
def Parser.Takes {α : Type} (p : Parser α) : Prop :=
  ∀ cs a rest, p cs = some (a, rest) → rest <:+ cs

namespace Parser

variable {α : Type} {p : Parser α} {cs rest : List Char}

theorem givenChar_eq_some {c : Char} (h : givenChar c cs = some ((), rest)) : cs = c :: rest := by
  cases cs with
  | nil => cases h
  | cons d cs =>
    rw [givenChar] at h
    split at h
    · rename_i hd
      cases h
      rw [hd]
    · cases h

theorem givenChar_takes {c : Char} : (givenChar c).Takes := by
  rintro cs ⟨⟩ rest h
  rw [givenChar_eq_some h]
  exact List.suffix_cons c rest

/-- A number is read from the digits that come next. -/
theorem number_eq_some {radix limit n : Nat} {maxDigits : Option Nat} {allowZeroPrefix : Bool}
    (h : number radix maxDigits allowZeroPrefix limit cs = some (n, rest)) :
    ∃ ds, cs = ds ++ rest ∧ ds ≠ [] ∧ (∀ c ∈ ds, (digitValue radix c).isSome = true) ∧
      n = numberValue radix ds ∧ n ≤ limit := by
  unfold number at h
  dsimp only at h
  split at h
  · cases h
  split at h
  · cases h
  split at h
  · cases h
  split at h
  · rename_i hne _ _ hle
    cases h
    exact ⟨_, (List.prefix_iff_eq_append.mp (List.takeWhile_prefix _)).symm, hne,
      fun c hc ↦ @List.mem_takeWhile_imp _ (fun c ↦ (digitValue radix c).isSome) _ c hc, rfl, hle⟩
  · cases h

theorem number_takes {radix limit : Nat} {maxDigits : Option Nat} {allowZeroPrefix : Bool} :
    (number radix maxDigits allowZeroPrefix limit).Takes := by
  intro cs n rest h
  obtain ⟨ds, rfl, -⟩ := number_eq_some h
  exact List.suffix_append ds rest

theorem octet_takes : octet.Takes := by
  intro cs a rest h
  obtain ⟨r, hr, heq⟩ := Option.map_eq_some_iff.mp h
  cases heq
  exact number_takes cs r.1 r.2 hr

-- Octets and points by turns.
theorem ipv4Addr_takes : ipv4Addr.Takes := by
  intro cs ip rest h
  simp only [ipv4Addr, Option.bind_eq_bind, Option.bind_eq_some_iff, Option.pure_def,
    Option.some.injEq, Prod.exists, Prod.mk.injEq] at h
  obtain ⟨a, r₁, ha, _, r₂, h₁, b, r₃, hb, _, r₄, h₂, c, r₅, hc, _, r₆, h₃, d, r₇, hd, -, rfl⟩ := h
  have hthree := (givenChar_takes _ _ _ h₃).trans (octet_takes _ _ _ hc)
  have htwo := (givenChar_takes _ _ _ h₂).trans (octet_takes _ _ _ hb)
  have hone := (givenChar_takes _ _ _ h₁).trans (octet_takes _ _ _ ha)
  exact (octet_takes _ _ _ hd).trans (hthree.trans (htwo.trans hone))

theorem separated_takes {sep : Char} {first : Bool} (hp : p.Takes) :
    (separated sep first p).Takes := by
  intro cs a rest h
  unfold separated at h
  split at h
  · exact hp cs a rest h
  · obtain ⟨r, hsep, hrest⟩ := Option.bind_eq_some_iff.mp h
    exact (hp r.2 a rest hrest).trans (givenChar_takes cs r.1 r.2 hsep)

theorem groups_takes {first : Bool} {n : Nat} : (groups first n cs).2.2 <:+ cs := by
  induction n generalizing first cs with
  | zero => exact List.suffix_refl cs
  | succ n ih =>
    rw [groups]
    split
    · rename_i ip rest h
      rw [Option.ite_none_right_eq_some] at h
      exact separated_takes ipv4Addr_takes _ _ _ h.2
    · split
      · rename_i g rest h
        exact ih.trans (separated_takes number_takes _ _ _ h)
      · exact List.suffix_refl cs

-- All eight groups at once, or those before and after the `::`.
theorem ipv6Addr_takes : ipv6Addr.Takes := by
  intro cs ip rest h
  have hhead : (groups true 8 cs).2.2 <:+ cs := groups_takes
  simp only [ipv6Addr, Option.pure_def, Option.bind_eq_bind, Option.bind_none] at h
  split at h
  · cases h
    exact hhead
  · rw [Option.ite_none_left_eq_some] at h
    obtain ⟨-, h⟩ := h
    simp only [Option.bind_eq_some_iff, Prod.exists] at h
    obtain ⟨_, r₁, h₁, _, r₂, h₂, h⟩ := h
    split at h
    · cases h
      have hcolons := (givenChar_takes _ _ _ h₂).trans (givenChar_takes _ _ _ h₁)
      exact groups_takes.trans (hcolons.trans hhead)
    · cases h

theorem scopeId_takes : scopeId.Takes := by
  intro cs n rest h
  obtain ⟨r, hpercent, hnumber⟩ := Option.bind_eq_some_iff.mp h
  exact (number_takes r.2 n rest hnumber).trans (givenChar_takes cs r.1 r.2 hpercent)

/-- Where a port is all that is left, it is a colon and the digits of the number. -/
theorem port_eq_some {n : UInt16} (h : port cs = some (n, [])) :
    ∃ ds, cs = ':' :: ds ∧ ':' ∉ ds ∧ parseU16 (String.ofList ds) = some n := by
  simp only [port, Option.bind_eq_bind, Option.pure_def, Option.bind_eq_some_iff,
    Option.some.injEq, Prod.exists, Prod.mk.injEq] at h
  obtain ⟨_, ds, hcolon, n, _, hnumber, rfl, rfl⟩ := h
  obtain ⟨ds', rfl, hne, hdigits, rfl, hle⟩ := number_eq_some hnumber
  rw [List.append_nil] at hcolon
  have hall : ∀ c ∈ ds', c.isDigit = true := fun c hc ↦ isDigit_of_digitValue (hdigits c hc)
  refine ⟨ds', givenChar_eq_some hcolon, fun hmem ↦ absurd (hall ':' hmem) (by decide), ?_⟩
  rw [numberValue_ten hall] at hle ⊢
  exact parseU16_digits hne hall (by omega)

theorem socketAddrV4_ends {address : SocketAddr} (h : socketAddrV4 cs = some (address, [])) :
    ∃ rest, rest <:+ cs ∧ port rest = some (address.port, []) := by
  simp only [socketAddrV4, Option.bind_eq_bind, Option.pure_def, Option.bind_eq_some_iff,
    Option.some.injEq, Prod.exists, Prod.mk.injEq] at h
  obtain ⟨ip, rest, hip, n, _, hport, rfl, rfl⟩ := h
  exact ⟨rest, ipv4Addr_takes cs ip rest hip, hport⟩

-- The scope may be there or not.
theorem socketAddrV6_ends {address : SocketAddr} (h : socketAddrV6 cs = some (address, [])) :
    ∃ rest, rest <:+ cs ∧ port rest = some (address.port, []) := by
  simp only [socketAddrV6, Option.bind_eq_bind, Option.pure_def, Option.bind_eq_some_iff,
    Option.some.injEq, Prod.exists, Prod.mk.injEq] at h
  obtain ⟨_, r₁, hopen, ip, r₂, hip, _, r₃, hclose, n, _, hport, rfl, rfl⟩ := h
  have hscope : ((scopeId r₂).map Prod.snd).getD r₂ <:+ r₂ := by
    cases hs : scopeId r₂ with
    | none => exact List.suffix_refl r₂
    | some r => exact scopeId_takes r₂ r.1 r.2 hs
  have htext := (ipv6Addr_takes _ _ _ hip).trans (givenChar_takes _ _ _ hopen)
  exact ⟨r₃, (givenChar_takes _ _ _ hclose).trans (hscope.trans htext), hport⟩

end Parser

/-- The text of an address ends in its port, after the last colon. -/
theorem SocketAddr.fromStr_port {s : String} {address : SocketAddr}
    (h : SocketAddr.fromStr s = some address) :
    ((rsplitOnce ':' s).bind fun parts ↦ parseU16 parts.2) = some address.port := by
  unfold SocketAddr.fromStr at h
  split at h
  · rename_i found hparsed
    cases h
    have hends : ∃ rest, rest <:+ s.toList ∧ Parser.port rest = some (address.port, []) := by
      rcases Option.or_eq_some_iff.mp hparsed with h4 | ⟨-, h6⟩
      · exact Parser.socketAddrV4_ends h4
      · exact Parser.socketAddrV6_ends h6
    obtain ⟨rest, ⟨front, hfront⟩, hport⟩ := hends
    obtain ⟨ds, rfl, hcolon, hparse⟩ := Parser.port_eq_some hport
    rw [rsplitOnce_eq hfront.symm hcolon]
    exact hparse
  · cases h

end LabStreamGate
