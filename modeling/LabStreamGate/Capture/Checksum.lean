import LabStreamGate.Capture.Decoding
import LabStreamGate.Library.OnesComplement

/-!
# The checksum of a header

`ipv4_checksum` adds in 32 bits and folds the carries in.  Both are done without bounds in the
packets, where nothing is lost by it; a header verifies where its words make all ones.
-/

namespace LabStreamGate.Capture

/-! ## `ipv4_checksum` in 32 bits -/

/-- What a run of it can come to other than a checksum. -/
inductive Trap
  | overflow
  | rounds
  deriving DecidableEq, Repr

def checkedAdd (a b : UInt32) : Except Trap UInt32 :=
  if a.toNat + b.toNat < 2 ^ 32 then .ok (a + b) else .error .overflow

def sumWords32 (sum : UInt32) : Bytes → Except Trap UInt32
  | high :: low :: header => do
    let sum ← checkedAdd sum (UInt32.ofNat (high.toNat * 256 + low.toNat))
    sumWords32 sum header
  | _ => .ok sum

/-- The second loop, with no more than `rounds` tests of its condition. -/
def foldCarries32 : Nat → UInt32 → Except Trap UInt32
  | 0, _ => .error .rounds
  | rounds + 1, sum =>
    if sum >>> 16 = 0 then .ok sum
    else do
      let sum ← checkedAdd (sum &&& 0xffff) (sum >>> 16)
      foldCarries32 rounds sum

def ipv4Checksum32 (rounds : Nat) (header : Bytes) : Except Trap UInt16 := do
  let sum ← sumWords32 0 header
  let sum ← foldCarries32 rounds sum
  return ~~~sum.toUInt16

variable {header : Bytes} {sum : UInt32} {n rounds : Nat}

theorem checkedAdd_ok {a b : UInt32} (h : a.toNat + b.toNat < 2 ^ 32) :
    checkedAdd a b = .ok (a + b) ∧ (a + b).toNat = a.toNat + b.toNat := by
  rw [checkedAdd, if_pos h, UInt32.toNat_add, Nat.mod_eq_of_lt h]
  exact ⟨rfl, rfl⟩

/-! ## The sum of the words -/

theorem sumWords_eq : sumWords n header = n + (beWords header).sum := by
  induction n, header using sumWords.induct with
  | case1 n high low header ih =>
    rw [sumWords, ih, beWords_cons, List.sum_cons, Nat.add_assoc]
  | case2 n header hheader =>
    rw [sumWords, beWords]
    · rfl
    · exact hheader
    · exact hheader

theorem sumWords32_ok (h : sum.toNat + (beWords header).sum < 2 ^ 32) :
    ∃ total, sumWords32 sum header = .ok total ∧ total.toNat = sumWords sum.toNat header := by
  induction header using beWords.induct generalizing sum with
  | case1 high low header ih =>
    have hhigh := high.toNat_lt
    have hlow := low.toNat_lt
    rw [beWords_cons, List.sum_cons] at h
    have hword : (UInt32.ofNat (high.toNat * 256 + low.toNat)).toNat =
        high.toNat * 256 + low.toNat := by
      rw [UInt32.toNat_ofNat']
      exact Nat.mod_eq_of_lt (by omega)
    have hlt : sum.toNat + (UInt32.ofNat (high.toNat * 256 + low.toNat)).toNat < 2 ^ 32 := by omega
    obtain ⟨hadd, hnat⟩ := checkedAdd_ok hlt
    rw [hword] at hnat
    simp only [sumWords32, hadd, bind, Except.bind, sumWords]
    rw [← hnat]
    exact ih (by omega)
  | case2 header hheader =>
    rw [sumWords32, sumWords]
    · exact ⟨sum, rfl, rfl⟩
    · exact hheader
    · exact hheader

/-- Up to 65535 words fit into 32 bits. -/
theorem sum_beWords_lt (h : header.length < 131072) : (beWords header).sum < 2 ^ 32 := by
  have hlen := length_beWords header
  have hsum := List.sum_le_card_nsmul (beWords header) 65535 fun n hn ↦
    Nat.le_of_lt_succ (lt_of_mem_beWords hn)
  have hle : (beWords header).length * 65535 ≤ 65535 * 65535 :=
    Nat.mul_le_mul_right _ (by omega)
  change _ ≤ (beWords header).length * 65535 at hsum
  omega

/-! ## The carries -/

theorem foldCarries_step (h : 65536 ≤ n) :
    foldCarries n = foldCarries (n % 65536 + n / 65536) := by
  rw [foldCarries, if_neg (by omega)]

theorem foldCarries_of_lt (h : n < 65536) : foldCarries n = n := by
  rw [foldCarries, if_pos (by omega)]

theorem foldCarries_eq : foldCarries n = residue 65535 n := by
  induction n using foldCarries.induct with
  | case1 n h => rw [foldCarries_of_lt (by omega), residue_of_le (by omega)]
  | case2 n h ih =>
    rw [foldCarries_step (by omega), ih]
    exact residue_fold

theorem toNat_shiftRight_16 : (sum >>> 16).toNat = sum.toNat / 65536 := by
  rw [UInt32.toNat_shiftRight]
  exact Nat.shiftRight_eq_div_pow _ _

theorem toNat_and_ffff : (sum &&& 0xffff).toNat = sum.toNat % 65536 := by
  rw [UInt32.toNat_and]
  exact Nat.and_two_pow_sub_one_eq_mod _ 16

theorem foldCarries32_of_lt (h : sum.toNat < 65536) :
    foldCarries32 (rounds + 1) sum = .ok sum := by
  have hzero : sum >>> 16 = 0 := by
    rw [← UInt32.toNat_inj, toNat_shiftRight_16, Nat.div_eq_of_lt h]
    rfl
  rw [foldCarries32, if_pos hzero]

theorem foldCarries32_step (h : 65536 ≤ sum.toNat) :
    ∃ next : UInt32, next.toNat = sum.toNat % 65536 + sum.toNat / 65536 ∧
      foldCarries32 (rounds + 1) sum = foldCarries32 rounds next := by
  have hlt := sum.toNat_lt
  have hzero : ¬sum >>> 16 = 0 := by
    rw [← UInt32.toNat_inj, toNat_shiftRight_16]
    change ¬sum.toNat / 65536 = 0
    omega
  obtain ⟨hadd, hnat⟩ := @checkedAdd_ok (sum &&& 0xffff) (sum >>> 16) (by
    rw [toNat_and_ffff, toNat_shiftRight_16]
    omega)
  rw [toNat_and_ffff, toNat_shiftRight_16] at hnat
  refine ⟨_, hnat, ?_⟩
  simp only [foldCarries32, if_neg hzero, hadd, bind, Except.bind]

/-- Two rounds fold every sum of 32 bits, and a third test finds that. -/
theorem foldCarries32_ok :
    ∃ folded, foldCarries32 (rounds + 3) sum = .ok folded ∧
      folded.toNat = foldCarries sum.toNat := by
  have hlt := sum.toNat_lt
  rcases Nat.lt_or_ge sum.toNat 65536 with hsmall | hlarge
  · exact ⟨sum, foldCarries32_of_lt hsmall, (foldCarries_of_lt hsmall).symm⟩
  obtain ⟨once, honce, hfold⟩ := @foldCarries32_step sum (rounds + 2) hlarge
  rw [hfold, foldCarries_step hlarge, ← honce]
  rcases Nat.lt_or_ge once.toNat 65536 with hsmall' | hlarge'
  · exact ⟨once, foldCarries32_of_lt hsmall', (foldCarries_of_lt hsmall').symm⟩
  obtain ⟨twice, htwice, hfold'⟩ := @foldCarries32_step once (rounds + 1) hlarge'
  have hdone : twice.toNat < 65536 := by omega
  rw [hfold', foldCarries_step hlarge', ← htwice]
  exact ⟨twice, foldCarries32_of_lt hdone, (foldCarries_of_lt hdone).symm⟩

theorem ipv4Checksum32_ok (h : header.length < 131072) :
    ipv4Checksum32 (rounds + 3) header = .ok (ipv4Checksum header) := by
  obtain ⟨total, htotal, hsum⟩ := @sumWords32_ok header 0 (by
    rw [UInt32.toNat_zero, Nat.zero_add]
    exact sum_beWords_lt h)
  obtain ⟨folded, hfolded, hfold⟩ := @foldCarries32_ok total rounds
  have hchecksum : folded.toUInt16 = UInt16.ofNat (foldCarries (sumWords 0 header)) := by
    rw [← UInt16.toNat_inj, UInt32.toNat_toUInt16, hfold, hsum]
    rfl
  simp only [ipv4Checksum32, htotal, hfolded, bind, Except.bind, pure, Except.pure, hchecksum,
    ipv4Checksum]

/-! ## The header of a packet -/

variable {totalLength checksum : UInt16} {source dest sourceIp destIp : Ipv4Addr}
  {sourcePort destPort : UInt16} {payload : Bytes}

/-- The words of a header other than its checksum. -/
def otherWords (totalLength : UInt16) (source dest : Ipv4Addr) : List Nat :=
  [0x4500, totalLength.toNat, 0, 0x4000, 0x4011,
    source.a.toNat * 256 + source.b.toNat, source.c.toNat * 256 + source.d.toNat,
    dest.a.toNat * 256 + dest.b.toNat, dest.c.toNat * 256 + dest.d.toNat]

theorem sum_beWords_ipv4Header :
    (beWords (ipv4Header totalLength checksum source dest)).sum =
      (otherWords totalLength source dest).sum + checksum.toNat := by
  have hflags : (0x4000 : UInt16).toNat = 0x4000 := rfl
  simp only [ipv4Header, otherWords, Ipv4Addr.octets, List.append_assoc, List.cons_append,
    List.nil_append, beWords_cons, beWords_u16BeBytes, beWords_nil, List.sum_cons, List.sum_nil,
    hflags, UInt8.toNat_ofNat]
  omega

/-- The twenty bytes behind the Ethernet header. -/
theorem header_buildUdpPacket :
    ((buildUdpPacket sourceIp sourcePort destIp destPort payload).drop 14).take 20 =
      ipv4Header (UInt16.ofNat (28 + payload.length))
        (ipv4Checksum (ipv4Header (UInt16.ofNat (28 + payload.length)) 0 sourceIp destIp))
        sourceIp destIp := by
  have hethernet : (List.replicate 12 0 ++ u16BeBytes 0x0800).length = 14 := by simp
  simp only [buildUdpPacket, List.append_assoc]
  rw [← List.append_assoc (List.replicate 12 0), List.drop_left' hethernet,
    List.take_left' length_ipv4Header]

/-- Every header that is built verifies, and up to a length of 131072 bytes nothing is lost in 32
bits and the loop ends. -/
theorem headers_verify :
    (∀ (sourceIp : Ipv4Addr) (sourcePort : UInt16) (destIp : Ipv4Addr) (destPort : UInt16)
      (payload : Bytes), payload.length ≤ 65507 →
      let header := ((buildUdpPacket sourceIp sourcePort destIp destPort payload).drop 14).take 20
      (beWords header).length = 10 ∧ onesSum 0xffff (beWords header) = 0xffff ∧
        foldCarries (beWords header).sum = 0xffff) ∧
    ∀ (header : Bytes) (rounds : Nat), header.length < 131072 →
      ipv4Checksum32 (rounds + 3) header = .ok (ipv4Checksum header) := by
  constructor
  · intro sourceIp sourcePort destIp destPort payload _ header
    have hfold : foldCarries (beWords header).sum = 0xffff := by
      let words := otherWords (UInt16.ofNat (28 + payload.length)) sourceIp destIp
      have hle := @residue_le 65535 words.sum (by decide)
      have hchecksum : (ipv4Checksum
          (ipv4Header (UInt16.ofNat (28 + payload.length)) 0 sourceIp destIp)).toNat =
          65535 - residue 65535 words.sum := by
        rw [ipv4Checksum, sumWords_eq, sum_beWords_ipv4Header, foldCarries_eq, UInt16.toNat_not,
          UInt16.toNat_ofNat', UInt16.toNat_zero, Nat.zero_add, Nat.add_zero,
          Nat.mod_eq_of_lt (Nat.lt_succ_of_le hle)]
        rfl
      change foldCarries (beWords (((buildUdpPacket _ _ _ _ _).drop 14).take 20)).sum = _
      rw [header_buildUdpPacket, sum_beWords_ipv4Header, hchecksum, foldCarries_eq,
        residue_add_complement (by decide)]
    refine ⟨?_, ?_, hfold⟩
    · rw [length_beWords]
      change (((buildUdpPacket _ _ _ _ _).drop 14).take 20).length / 2 = 10
      rw [header_buildUdpPacket, length_ipv4Header]
    · rw [onesSum_eq (by decide) fun n hn ↦ Nat.le_of_lt_succ (lt_of_mem_beWords hn),
        ← foldCarries_eq, hfold]
  · intro header rounds h
    exact ipv4Checksum32_ok h

/-- The longest header of all ones has the largest sum. -/
theorem headers_verify_sample :
    onesSum 0xffff (beWords (((buildUdpPacket ⟨10, 0, 0, 7⟩ 50000 ⟨192, 0, 2, 2⟩ 80
      [1, 2, 3]).drop 14).take 20)) = 0xffff ∧
    ipv4Checksum32 3 (List.replicate 131070 0xff) =
      .ok (ipv4Checksum (List.replicate 131070 0xff)) := by
  obtain ⟨hpacket, hheader⟩ := headers_verify
  refine ⟨(hpacket ⟨10, 0, 0, 7⟩ 50000 ⟨192, 0, 2, 2⟩ 80 [1, 2, 3] (by decide)).2.1,
    hheader _ 0 ?_⟩
  rw [List.length_replicate]
  decide

end LabStreamGate.Capture
