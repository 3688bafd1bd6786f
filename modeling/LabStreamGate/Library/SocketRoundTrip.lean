import LabStreamGate.Library.SocketText

/-!
# Printed addresses are read back

The standard library prints an IPv6 address with its first longest run of zero groups left out, and
one that stands for an IPv4 address with that at its end.  Its parser gives back the address that
was printed.
-/

namespace LabStreamGate

open LabStreamGate.Parser

/-! ## Digits of either radix -/

theorem digitValue_digitChar {radix d : Nat} (hradix : radix ≤ 16) (hd : d < radix) :
    digitValue radix d.digitChar = some d := by
  have htable : ∀ d < 16, ∀ radix ≤ 16, d < radix → digitValue radix d.digitChar = some d := by
    decide
  exact htable d (by omega) radix hradix hd

-- By recursion on the number, whose last digit is printed last.
theorem digitValue_toDigits {radix : Nat} (hone : 1 < radix) (hradix : radix ≤ 16) (n : Nat) :
    (∀ c ∈ Nat.toDigits radix n, (digitValue radix c).isSome = true) ∧
      numberValue radix (Nat.toDigits radix n) = n := by
  induction n using Nat.strongRecOn with
  | ind n ih =>
    by_cases hlt : n < radix
    · rw [Nat.toDigits_of_lt_base hlt]
      have hvalue := digitValue_digitChar hradix hlt
      simp [hvalue, numberValue]
    · have hdiv : n / radix < n := Nat.div_lt_self (by omega) hone
      have hmod : n % radix < radix := Nat.mod_lt _ (by omega)
      have hvalue := digitValue_digitChar hradix hmod
      obtain ⟨hall, hnumber⟩ := ih (n / radix) hdiv
      rw [Nat.toDigits_of_base_le hone (by omega)]
      constructor
      · intro c hc
        rcases List.mem_append.mp hc with hc | hc
        · exact hall c hc
        · rw [List.mem_singleton.mp hc, hvalue]
          rfl
      · unfold numberValue at hnumber ⊢
        rw [List.foldl_append, hnumber, List.foldl_cons, List.foldl_nil, hvalue, Option.getD_some,
          Nat.div_add_mod']

-- Only zero is printed with a zero in front.
theorem head_toDigits {radix : Nat} (hone : 1 < radix) (hradix : radix ≤ 16) {n : Nat}
    (h : (Nat.toDigits radix n).head? = some '0') : n = 0 := by
  induction n using Nat.strongRecOn with
  | ind n ih =>
    by_cases hlt : n < radix
    · rw [Nat.toDigits_of_lt_base hlt, List.head?_cons, Option.some.injEq] at h
      have hvalue := digitValue_digitChar hradix hlt
      rw [h] at hvalue
      have hzero := digitValue_digitChar hradix (Nat.lt_of_succ_lt hone)
      exact Option.some.inj (hvalue.symm.trans hzero)
    · have hpos : 0 < n / radix := Nat.div_pos (by omega) (by omega)
      rw [Nat.toDigits_of_base_le hone (by omega),
        List.head?_append_of_ne_nil _ Nat.toDigits_ne_nil] at h
      have := ih (n / radix) (Nat.div_lt_self (by omega) hone) h
      omega

namespace Parser

variable {radix n limit : Nat} {cs rest : List Char}

/-- The text does not go on with a digit. -/
def Stops (radix : Nat) (cs : List Char) : Prop :=
  ∀ c, cs.head? = some c → (digitValue radix c).isSome = false

theorem Stops.takeWhile (h : Stops radix cs) :
    cs.takeWhile (fun c ↦ (digitValue radix c).isSome) = [] := by
  cases cs with
  | nil => rfl
  | cons c cs => rw [List.takeWhile_cons, h c rfl, if_neg Bool.false_ne_true]

-- A decimal digit is a hexadecimal one.
theorem Stops.ten (h : Stops 16 cs) : Stops 10 cs := by
  intro c hc
  have hhex := h c hc
  rw [Bool.eq_false_iff] at hhex ⊢
  refine fun hsome ↦ hhex ?_
  have hdigit := isDigit_of_digitValue hsome
  have hle : c.toNat ≤ 57 := (Char.isDigit_iff_toNat.mp hdigit).2
  have hlt : c.toNat - 48 < 16 := by omega
  simp [digitValue, hdigit, hlt]

/-- A number is read from its digits. -/
theorem number_toDigits {maxDigits : Option Nat} {allowZeroPrefix : Bool} (hone : 1 < radix)
    (hradix : radix ≤ 16) (hstop : Stops radix rest)
    (hmax : ∀ m ∈ maxDigits, 0 < m ∧ n < radix ^ m) (hlimit : n ≤ limit) :
    number radix maxDigits allowZeroPrefix limit (Nat.toDigits radix n ++ rest) =
      some (n, rest) := by
  obtain ⟨hall, hvalue⟩ := digitValue_toDigits hone hradix n
  have htake : (Nat.toDigits radix n ++ rest).takeWhile (fun c ↦ (digitValue radix c).isSome) =
      Nat.toDigits radix n := by
    rw [List.takeWhile_append_of_pos hall, hstop.takeWhile, List.append_nil]
  have hshort : maxDigits.any (· < (Nat.toDigits radix n).length) = false := by
    cases maxDigits with
    | none => rfl
    | some m =>
      obtain ⟨hpos, hlt⟩ := hmax m rfl
      have hlength := (Nat.length_toDigits_le_iff hone hpos).mpr hlt
      simpa using hlength
  have hplain : (!allowZeroPrefix && (Nat.toDigits radix n).head? == some '0' &&
      decide (1 < (Nat.toDigits radix n).length)) = false := by
    by_cases hhead : (Nat.toDigits radix n).head? = some '0'
    · rw [head_toDigits hone hradix hhead, Nat.toDigits_zero]
      simp
    · rw [beq_eq_false_iff_ne.mpr hhead, Bool.and_false, Bool.false_and]
  unfold number
  dsimp only
  rw [htake, if_neg Nat.toDigits_ne_nil, hshort, hplain, hvalue, if_pos hlimit, List.drop_left]
  rfl

theorem number_stops {maxDigits : Option Nat} {allowZeroPrefix : Bool} (h : Stops radix cs) :
    number radix maxDigits allowZeroPrefix limit cs = none := by
  unfold number
  dsimp only
  rw [h.takeWhile, if_pos rfl]

@[simp] theorem givenChar_cons {c : Char} : givenChar c (c :: cs) = some ((), cs) := if_pos rfl

theorem givenChar_of_ne {c d : Char} (h : d ≠ c) : givenChar c (d :: cs) = none := if_neg h

/-! ## IPv4 -/

theorem octet_toDigits {a : UInt8} (hstop : Stops 10 rest) :
    octet (Nat.toDigits 10 a.toNat ++ rest) = some (a, rest) := by
  have ha := a.toNat_lt
  rw [octet, number_toDigits (by decide) (by decide) hstop
    (fun m hm ↦ by cases hm; exact ⟨by decide, by omega⟩) (by omega)]
  simp

theorem stops_cons {c : Char} (h : (digitValue radix c).isSome = false) :
    Stops radix (c :: cs) := by
  intro d hd
  cases hd
  exact h

theorem ipv4Addr_text {ip : Ipv4Addr} (hstop : Stops 10 rest) :
    ipv4Addr (ip.text ++ rest) = some (ip, rest) := by
  have hdot : ∀ cs, Stops 10 ('.' :: cs) := fun cs ↦ stops_cons (by decide)
  unfold ipv4Addr Ipv4Addr.text
  simp only [List.append_assoc, List.cons_append, Option.bind_eq_bind, octet_toDigits (hdot _),
    Option.bind_some, givenChar_cons, octet_toDigits hstop, Option.pure_def]

-- There are points between the octets.
theorem ipv4Addr_of_no_point (h : '.' ∉ cs) : ipv4Addr cs = none := by
  cases hoctet : octet cs with
  | none => rw [ipv4Addr, hoctet]; rfl
  | some r =>
    obtain ⟨a, cs'⟩ := r
    have hsuffix := octet_takes cs a cs' hoctet
    cases hpoint : givenChar '.' cs' with
    | none =>
      rw [ipv4Addr, hoctet]
      simp [hpoint]
    | some r =>
      have hcons : cs' = '.' :: r.2 := givenChar_eq_some hpoint
      rw [hcons] at hsuffix
      exact absurd (hsuffix.mem List.mem_cons_self) h

-- An octet needs a decimal digit.
theorem ipv4Addr_stops (h : Stops 10 cs) : ipv4Addr cs = none := by
  rw [ipv4Addr, octet, number_stops h]
  rfl

/-! ## Groups of an IPv6 address -/

/-- What may follow the text of an address: no point, no digit and no colon. -/
structure After (rest : List Char) : Prop where
  point : '.' ∉ rest
  stops : Stops 16 rest
  colon : rest.head? ≠ some ':'

/-- The groups after the first one. -/
def tailText (gs : List UInt16) : List Char := gs.flatMap fun g ↦ ':' :: Nat.toDigits 16 g.toNat

theorem groupsText_cons {g : UInt16} {gs : List UInt16} :
    groupsText (g :: gs) = Nat.toDigits 16 g.toNat ++ tailText gs := by
  induction gs generalizing g with
  | nil => simp [groupsText, tailText]
  | cons g' gs ih =>
    have hcons : groupsText (g :: g' :: gs) =
        Nat.toDigits 16 g.toNat ++ ':' :: groupsText (g' :: gs) := by
      simp [groupsText, List.intercalate_cons_cons]
    rw [hcons, ih]
    simp [tailText]

theorem point_toDigits {n : Nat} : '.' ∉ Nat.toDigits 16 n := by
  intro hmem
  have hdigit := (digitValue_toDigits (by decide : 1 < 16) (by decide) n).1 '.' hmem
  revert hdigit
  decide

theorem point_tailText {gs : List UInt16} : '.' ∉ tailText gs := by
  intro hmem
  obtain ⟨g, -, hg⟩ := List.mem_flatMap.mp hmem
  rcases List.mem_cons.mp hg with heq | hmem
  · revert heq
    decide
  · exact point_toDigits hmem

theorem point_groupsText {gs : List UInt16} : '.' ∉ groupsText gs := by
  cases gs with
  | nil => simp [groupsText]
  | cons g gs =>
    rw [groupsText_cons, List.mem_append]
    exact fun h ↦ h.elim point_toDigits point_tailText

theorem stops_tailText {gs : List UInt16} (h : Stops 16 rest) : Stops 16 (tailText gs ++ rest) := by
  cases gs with
  | nil => exact h
  | cons g gs => exact stops_cons (by decide)

theorem number_group {g : UInt16} (h : Stops 16 cs) :
    number 16 (some 4) true 65535 (Nat.toDigits 16 g.toNat ++ cs) = some (g.toNat, cs) := by
  have hg := g.toNat_lt
  exact number_toDigits (by decide) (by decide) h
    (fun m hm ↦ by cases hm; exact ⟨by decide, by omega⟩) (by omega)

/-- No more groups are read, for there is no room or what comes next is none. -/
def Ends (room : Nat) (rest : List Char) : Prop :=
  room = 0 ∨ ∀ cs, rest = ':' :: cs → Stops 16 cs

theorem groups_stops {room : Nat} (h : Stops 16 rest) :
    groups true room rest = ([], false, rest) := by
  cases room with
  | zero => rfl
  | succ room =>
    have hipv4 : (if 0 < room then separated ':' true ipv4Addr rest else none) = none := by
      rw [ite_eq_right_iff]
      exact fun _ ↦ ipv4Addr_stops h.ten
    have hnumber : separated ':' true (number 16 (some 4) true 65535) rest = none := number_stops h
    rw [groups, hipv4]
    dsimp only
    rw [hnumber]

theorem groups_ends {room : Nat} (hpoint : '.' ∉ rest) (hends : Ends room rest) :
    groups false room rest = ([], false, rest) := by
  cases room with
  | zero => rfl
  | succ room =>
    cases hcolon : givenChar ':' rest with
    | none =>
      have hnone : ∀ {α} {p : Parser α}, separated ':' false p rest = none := by
        intro α p
        rw [separated, if_neg Bool.false_ne_true, hcolon, Option.bind_none]
      rw [groups, hnone, ite_self]
      dsimp only
      rw [hnone]
    | some r =>
      have hrest : rest = ':' :: r.2 := givenChar_eq_some hcolon
      have hsome : ∀ {α} {p : Parser α}, separated ':' false p rest = p r.2 := by
        intro α p
        rw [separated, if_neg Bool.false_ne_true, hcolon, Option.bind_some]
      have hnone : ipv4Addr r.2 = none := by
        refine ipv4Addr_of_no_point fun hmem ↦ hpoint ?_
        rw [hrest]
        exact List.mem_cons_of_mem _ hmem
      have hnumber : number 16 (some 4) true 65535 r.2 = none := by
        rcases hends with hzero | hstop
        · cases hzero
        · exact number_stops (hstop r.2 hrest)
      rw [groups, hsome, hnone, ite_self]
      dsimp only
      rw [hsome, hnumber]

-- By induction on the groups; each takes one place of the room.
theorem groups_tailText {gs : List UInt16} {room : Nat} (hpoint : '.' ∉ rest)
    (hstop : Stops 16 rest) (hroom : gs.length ≤ room) (hends : Ends (room - gs.length) rest) :
    groups false room (tailText gs ++ rest) = (gs, false, rest) := by
  induction gs generalizing room with
  | nil =>
    have hroomEnds : Ends room rest := by simpa using hends
    exact groups_ends hpoint hroomEnds
  | cons g gs ih =>
    cases room with
    | zero => simp at hroom
    | succ room =>
      have htext : tailText (g :: gs) ++ rest =
          ':' :: (Nat.toDigits 16 g.toNat ++ (tailText gs ++ rest)) := by
        simp [tailText]
      have hnone : '.' ∉ Nat.toDigits 16 g.toNat ++ (tailText gs ++ rest) := by
        simp only [List.mem_append, not_or]
        exact ⟨point_toDigits, point_tailText, hpoint⟩
      have hipv4 : (if 0 < room then
          separated ':' false ipv4Addr (tailText (g :: gs) ++ rest) else none) = none := by
        rw [ite_eq_right_iff]
        intro _
        rw [separated, if_neg Bool.false_ne_true, htext, givenChar_cons]
        exact ipv4Addr_of_no_point hnone
      have hnumber : separated ':' false (number 16 (some 4) true 65535)
          (tailText (g :: gs) ++ rest) = some (g.toNat, tailText gs ++ rest) := by
        rw [separated, if_neg Bool.false_ne_true, htext, givenChar_cons]
        exact number_group (stops_tailText hstop)
      have hroom' : gs.length ≤ room := Nat.le_of_succ_le_succ hroom
      have hends' : Ends (room - gs.length) rest := by
        rwa [List.length_cons, Nat.add_sub_add_right] at hends
      rw [groups, hipv4]
      dsimp only
      rw [hnumber]
      dsimp only
      rw [ih hroom' hends', UInt16.ofNat_toNat]

theorem groups_groupsText {gs : List UInt16} {room : Nat} (hpoint : '.' ∉ rest)
    (hstop : Stops 16 rest) (hroom : gs.length ≤ room) (hends : Ends (room - gs.length) rest) :
    groups true room (groupsText gs ++ rest) = (gs, false, rest) := by
  cases gs with
  | nil => exact groups_stops (by simpa [groupsText] using hstop)
  | cons g gs =>
    cases room with
    | zero => simp at hroom
    | succ room =>
      have hnone : '.' ∉ groupsText (g :: gs) ++ rest := by
        rw [List.mem_append, not_or]
        exact ⟨point_groupsText, hpoint⟩
      have hipv4 : (if 0 < room then
          separated ':' true ipv4Addr (groupsText (g :: gs) ++ rest) else none) = none := by
        rw [ite_eq_right_iff]
        intro _
        exact ipv4Addr_of_no_point hnone
      have hnumber : separated ':' true (number 16 (some 4) true 65535)
          (groupsText (g :: gs) ++ rest) = some (g.toNat, tailText gs ++ rest) := by
        rw [separated, if_pos rfl, groupsText_cons, List.append_assoc]
        exact number_group (stops_tailText hstop)
      have hroom' : gs.length ≤ room := Nat.le_of_succ_le_succ hroom
      have hends' : Ends (room - gs.length) rest := by
        rwa [List.length_cons, Nat.add_sub_add_right] at hends
      rw [groups, hipv4]
      dsimp only
      rw [hnumber]
      dsimp only
      rw [groups_tailText hpoint hstop hroom' hends', UInt16.ofNat_toNat]

/-! ## The run of zeros -/

/-- `r.2` zeros stand in the list from `r.1` on. -/
def IsZeros (l : List UInt16) (r : Nat × Nat) : Prop :=
  ∃ front back, l = front ++ List.replicate r.2 0 ++ back ∧ front.length = r.1

-- By recursion on the list; `cur` ends where the list goes on.
theorem isZeros_longestZeros {ss : List UInt16} : ∀ {pre : List UInt16} {cur best : Nat × Nat},
    (cur.2 = 0 ∨ ∃ front, pre = front ++ List.replicate cur.2 0 ∧ front.length = cur.1) →
    IsZeros (pre ++ ss) best → IsZeros (pre ++ ss) (longestZeros ss pre.length cur best) := by
  induction ss with
  | nil => exact fun _ hbest ↦ hbest
  | cons s ss ih =>
    intro pre cur best hcur hbest
    rw [longestZeros]
    have hpre : pre ++ s :: ss = (pre ++ [s]) ++ ss := List.append_cons ..
    have hlength : pre.length + 1 = (pre ++ [s]).length := by simp
    split
    · rename_i hzero
      subst hzero
      extract_lets cur'
      have hcur' : ∃ front, pre ++ [0] = front ++ List.replicate cur'.2 0 ∧
          front.length = cur'.1 := by
        rcases hcur with hnone | ⟨front, hfront, hstart⟩
        · refine ⟨pre, ?_, ?_⟩
          · simp [cur', hnone]
          · simp [cur', hnone]
        · by_cases hnone : cur.2 = 0
          · refine ⟨pre, ?_, ?_⟩
            · simp [cur', hnone]
            · simp [cur', hnone]
          · refine ⟨front, ?_, ?_⟩
            · simp only [cur']
              rw [List.replicate_succ', ← List.append_assoc, ← hfront]
            · simp only [cur', if_neg hnone]
              exact hstart
      rw [hpre] at hbest ⊢
      rw [hlength]
      refine ih (.inr hcur') ?_
      split
      · obtain ⟨front, hfront, hstart⟩ := hcur'
        exact ⟨front, ss, by rw [hfront], hstart⟩
      · exact hbest
    · rw [hpre] at hbest ⊢
      rw [hlength]
      exact ih (.inl rfl) hbest

/-! ## IPv6 -/

theorem IsZeros.take_drop {l : List UInt16} {r : Nat × Nat} (h : IsZeros l r) :
    l = l.take r.1 ++ List.replicate r.2 0 ++ l.drop (r.1 + r.2) ∧ r.1 + r.2 ≤ l.length := by
  obtain ⟨front, back, rfl, hstart⟩ := h
  have hlength : (front ++ List.replicate r.2 (0 : UInt16)).length = r.1 + r.2 := by simp [hstart]
  constructor
  · rw [← hlength, List.drop_left, ← hstart, List.append_assoc, List.take_left, List.append_assoc]
  · rw [← hlength]
    simp

-- A `::` stands for the groups that are left out.
theorem ipv6Addr_compressed {ip : Ipv6Addr} {r : Nat × Nat} (hafter : After rest)
    (hzeros : IsZeros ip.segments r) (htwo : 1 < r.2) :
    ipv6Addr (groupsText (ip.segments.take r.1) ++ "::".toList ++
      groupsText (ip.segments.drop (r.1 + r.2)) ++ rest) = some (ip, rest) := by
  obtain ⟨hsegments, hle⟩ := hzeros.take_drop
  rw [ip.length] at hle
  have hhead : (ip.segments.take r.1).length = r.1 := by
    rw [List.length_take, ip.length]
    omega
  have htail : (ip.segments.drop (r.1 + r.2)).length = 8 - (r.1 + r.2) := by
    rw [List.length_drop, ip.length]
  have htext : groupsText (ip.segments.take r.1) ++ "::".toList ++
      groupsText (ip.segments.drop (r.1 + r.2)) ++ rest =
      groupsText (ip.segments.take r.1) ++
        (':' :: ':' :: (groupsText (ip.segments.drop (r.1 + r.2)) ++ rest)) := by
    simp
  have hpoint : '.' ∉ ':' :: ':' :: (groupsText (ip.segments.drop (r.1 + r.2)) ++ rest) := by
    simp [point_groupsText, hafter.point]
  have hfirst : groups true 8 (groupsText (ip.segments.take r.1) ++
      (':' :: ':' :: (groupsText (ip.segments.drop (r.1 + r.2)) ++ rest))) =
      (ip.segments.take r.1, false,
        ':' :: ':' :: (groupsText (ip.segments.drop (r.1 + r.2)) ++ rest)) := by
    refine groups_groupsText hpoint (stops_cons (by decide)) (by omega) (.inr fun cs hcs ↦ ?_)
    cases hcs
    exact stops_cons (by decide)
  have hsecond : groups true (8 - (r.1 + 1))
      (groupsText (ip.segments.drop (r.1 + r.2)) ++ rest) =
      (ip.segments.drop (r.1 + r.2), false, rest) := by
    refine groups_groupsText hafter.point hafter.stops (by omega) (.inr fun cs hcs ↦ ?_)
    have hcolon := hafter.colon
    rw [hcs] at hcolon
    exact absurd rfl hcolon
  have hall : ip.segments.take r.1 ++ List.replicate (8 - (r.1 + (8 - (r.1 + r.2)))) 0 ++
      ip.segments.drop (r.1 + r.2) = ip.segments := by
    rw [show 8 - (r.1 + (8 - (r.1 + r.2))) = r.2 by omega]
    exact hsegments.symm
  rw [htext, ipv6Addr, hfirst]
  dsimp only
  rw [dif_neg (by omega), if_neg Bool.false_ne_true]
  simp only [givenChar_cons, Option.bind_eq_bind, Option.bind_some, hhead, hsecond, htail, hall,
    ip.length, dite_true, Option.pure_def]

theorem ipv6Addr_plain {ip : Ipv6Addr} (hafter : After rest) :
    ipv6Addr (groupsText ip.segments ++ rest) = some (ip, rest) := by
  have hgroups : groups true 8 (groupsText ip.segments ++ rest) = (ip.segments, false, rest) :=
    groups_groupsText hafter.point hafter.stops (by rw [ip.length])
      (.inl (by rw [ip.length]))
  rw [ipv6Addr, hgroups]
  dsimp only
  rw [dif_pos ip.length]
  rfl

-- Two octets make a group and a group two octets.
theorem group_of_octets (g : UInt16) :
    (g / 256).toUInt8.toUInt16 * 256 + g.toUInt8.toUInt16 = g := by
  have hg := g.toNat_lt
  apply UInt16.toNat.inj
  simp
  omega

theorem ipv6Addr_mapped {ip : Ipv6Addr} {ipv4 : Ipv4Addr} (hmapped : ip.toIpv4Mapped = some ipv4)
    (hafter : After rest) :
    ipv6Addr ("::ffff:".toList ++ ipv4.text ++ rest) = some (ip, rest) := by
  have hsegments : ∃ ab cd, ip.segments = [0, 0, 0, 0, 0, 0xffff, ab, cd] ∧
      ipv4 = ⟨(ab / 256).toUInt8, ab.toUInt8, (cd / 256).toUInt8, cd.toUInt8⟩ := by
    unfold Ipv6Addr.toIpv4Mapped at hmapped
    split at hmapped
    · rename_i ab cd hsegments
      exact ⟨ab, cd, hsegments, (Option.some.inj hmapped).symm⟩
    · cases hmapped
  obtain ⟨ab, cd, hsegments, hipv4⟩ := hsegments
  have htext : "::ffff:".toList ++ ipv4.text ++ rest =
      ':' :: ':' :: (Nat.toDigits 16 (0xffff : UInt16).toNat ++ ':' :: (ipv4.text ++ rest)) := by
    rw [show Nat.toDigits 16 (0xffff : UInt16).toNat = "ffff".toList by decide]
    simp
  have hfirst : ∀ cs, groups true 8 (':' :: cs) = ([], false, ':' :: cs) :=
    fun cs ↦ groups_stops (stops_cons (by decide))
  have hlast : groups false 6 (':' :: (ipv4.text ++ rest)) = ([ab, cd], true, rest) := by
    rw [groups, if_pos (by decide), separated, if_neg Bool.false_ne_true, givenChar_cons,
      Option.bind_some, ipv4Addr_text hafter.stops.ten]
    dsimp only
    rw [hipv4, group_of_octets, group_of_octets]
  have hsecond : groups true 7
      (Nat.toDigits 16 (0xffff : UInt16).toNat ++ ':' :: (ipv4.text ++ rest)) =
      ([0xffff, ab, cd], true, rest) := by
    have hletter : ipv4Addr (Nat.toDigits 16 (0xffff : UInt16).toNat ++
        ':' :: (ipv4.text ++ rest)) = none := by
      rw [show Nat.toDigits 16 (0xffff : UInt16).toNat = 'f' :: "fff".toList by decide]
      exact ipv4Addr_stops (stops_cons (by decide))
    rw [groups, if_pos (by decide), separated, if_pos rfl, hletter]
    dsimp only
    rw [separated, if_pos rfl, number_group (stops_cons (by decide))]
    dsimp only
    rw [hlast]
    rfl
  have hall : [] ++ List.replicate (8 - (0 + 3)) 0 ++ [0xffff, ab, cd] = ip.segments :=
    hsegments.symm
  rw [htext, ipv6Addr, hfirst]
  dsimp only
  rw [dif_neg (by decide), if_neg Bool.false_ne_true]
  simp only [givenChar_cons, Option.bind_eq_bind, Option.bind_some, List.length_nil, hsecond,
    List.length_cons, Nat.zero_add, hall, ip.length, dite_true, Option.pure_def]

theorem ipv6Addr_text {ip : Ipv6Addr} (hafter : After rest) :
    ipv6Addr (ip.text ++ rest) = some (ip, rest) := by
  unfold Ipv6Addr.text
  cases hmapped : ip.toIpv4Mapped with
  | some ipv4 => exact ipv6Addr_mapped hmapped hafter
  | none =>
    dsimp only
    have hzeros : IsZeros ip.segments (longestZeros ip.segments 0 (0, 0) (0, 0)) :=
      @isZeros_longestZeros ip.segments [] _ _ (.inl rfl) ⟨[], ip.segments, rfl, rfl⟩
    split
    · exact ipv6Addr_compressed hafter hzeros ‹_›
    · exact ipv6Addr_plain hafter

end Parser


/-! ## Whole texts -/

/-- `IpAddr::from_str`. -/
def IpAddr.fromStr (s : String) : Option IpAddr :=
  match ((Parser.ipv4Addr s.toList).map fun r ↦ (IpAddr.v4 r.1, r.2)).or
      ((Parser.ipv6Addr s.toList).map fun r ↦ (IpAddr.v6 r.1, r.2)) with
  | some (ip, []) => some ip
  | _ => none

namespace Parser

theorem after_nil : After [] where
  point := List.not_mem_nil
  stops := by simp [Stops]
  colon := by simp

theorem port_toDigits {n : UInt16} : port (':' :: Nat.toDigits 10 n.toNat) = some (n, []) := by
  have hn := n.toNat_lt
  have hnumber := @number_toDigits 10 n.toNat 65535 [] none true (by decide) (by decide)
    after_nil.stops.ten (fun m hm ↦ by cases hm) (by omega)
  rw [List.append_nil] at hnumber
  rw [port, givenChar_cons, Option.bind_eq_bind, Option.bind_some]
  dsimp only
  rw [hnumber]
  simp

-- The text of an IPv6 address begins with a hexadecimal digit or a colon.
theorem ipv4Addr_text_v6 {ip : Ipv6Addr} : ipv4Addr ip.text = none := by
  unfold Ipv6Addr.text
  split
  · exact ipv4Addr_stops (stops_cons (by decide))
  · dsimp only
    split
    · refine ipv4Addr_of_no_point ?_
      simp [point_groupsText]
    · exact ipv4Addr_of_no_point point_groupsText

end Parser

/-- An address is read back from its text. -/
theorem IpAddr.fromStr_toString (ip : IpAddr) : IpAddr.fromStr ip.toString = some ip := by
  cases ip with
  | v4 ip =>
    have hparse := @ipv4Addr_text [] ip after_nil.stops.ten
    rw [List.append_nil] at hparse
    rw [fromStr, toString, String.toList_ofList, hparse]
    rfl
  | v6 ip =>
    have hparse := @ipv6Addr_text [] ip after_nil
    rw [List.append_nil] at hparse
    rw [fromStr, toString, String.toList_ofList, hparse, ipv4Addr_text_v6]
    rfl

/-- So is a socket address. -/
theorem SocketAddr.fromStr_toString (addr : SocketAddr) :
    SocketAddr.fromStr addr.toString = some addr := by
  obtain ⟨ip, port⟩ := addr
  cases ip with
  | v4 ip =>
    have htext : (SocketAddr.toString ⟨.v4 ip, port⟩).toList =
        ip.text ++ ':' :: Nat.toDigits 10 port.toNat := by
      simp [toString, IpAddr.toString]
    have hparse : socketAddrV4 (ip.text ++ ':' :: Nat.toDigits 10 port.toNat) =
        some (⟨.v4 ip, port⟩, []) := by
      rw [socketAddrV4, ipv4Addr_text (stops_cons (by decide)), Option.bind_eq_bind,
        Option.bind_some]
      dsimp only
      rw [port_toDigits]
      rfl
    rw [fromStr, htext, hparse]
    rfl
  | v6 ip =>
    have htext : (SocketAddr.toString ⟨.v6 ip, port⟩).toList =
        '[' :: (ip.text ++ ']' :: ':' :: Nat.toDigits 10 port.toNat) := by
      simp [toString, IpAddr.toString]
    have hafter : After (']' :: ':' :: Nat.toDigits 10 port.toNat) := by
      refine ⟨?_, stops_cons (by decide), by simp⟩
      simp only [List.mem_cons, not_or]
      refine ⟨by decide, by decide, fun hmem ↦ ?_⟩
      have hdigit := Nat.isDigit_of_mem_toDigits (by decide) (by decide) hmem
      revert hdigit
      decide
    have hv4 : socketAddrV4 ('[' :: (ip.text ++ ']' :: ':' :: Nat.toDigits 10 port.toNat)) =
        none := by
      rw [socketAddrV4, ipv4Addr_stops (stops_cons (by decide))]
      rfl
    have hscope : scopeId (']' :: ':' :: Nat.toDigits 10 port.toNat) = none := by
      rw [scopeId, givenChar_of_ne (by decide)]
      rfl
    have hparse : socketAddrV6 ('[' :: (ip.text ++ ']' :: ':' :: Nat.toDigits 10 port.toNat)) =
        some (⟨.v6 ip, port⟩, []) := by
      rw [socketAddrV6, givenChar_cons, Option.bind_eq_bind, Option.bind_some]
      dsimp only
      rw [ipv6Addr_text hafter, Option.bind_eq_bind, Option.bind_some]
      dsimp only
      rw [hscope, Option.map_none, Option.getD_none, givenChar_cons, Option.bind_eq_bind,
        Option.bind_some]
      dsimp only
      rw [port_toDigits]
      rfl
    rw [fromStr, htext, hv4, hparse]
    rfl

theorem IpAddr.toString_injective : Function.Injective IpAddr.toString := by
  intro ip ip' h
  have hparse := IpAddr.fromStr_toString ip
  rw [h, IpAddr.fromStr_toString] at hparse
  exact (Option.some.inj hparse).symm

theorem SocketAddr.toString_injective : Function.Injective SocketAddr.toString := by
  intro addr addr' h
  have hparse := SocketAddr.fromStr_toString addr
  rw [h, SocketAddr.fromStr_toString] at hparse
  exact (Option.some.inj hparse).symm

end LabStreamGate
