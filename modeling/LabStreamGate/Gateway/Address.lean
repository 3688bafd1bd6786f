import LabStreamGate.Gateway.Target
import LabStreamGate.Library.SocketRoundTrip

/-!
# Addresses in an allow-list and in a header

An operator lists addresses as they are printed, and a proxy in front of the gateway writes the
address of its client into a header.  Both texts are read back as the addresses they were printed
from.
-/

namespace LabStreamGate

/-! ## The characters of an address -/

theorem digitChar_of_mem_toDigits {radix : Nat} (hone : 1 < radix) {n : Nat} {c : Char}
    (h : c ∈ Nat.toDigits radix n) : ∃ d < radix, c = d.digitChar := by
  induction n using Nat.strongRecOn with
  | ind n ih =>
    by_cases hlt : n < radix
    · rw [Nat.toDigits_of_lt_base hlt, List.mem_singleton] at h
      exact ⟨n, hlt, h⟩
    · rw [Nat.toDigits_of_base_le hone (by omega)] at h
      rcases List.mem_append.mp h with h | h
      · exact ih (n / radix) (Nat.div_lt_self (by omega) hone) h
      · exact ⟨n % radix, Nat.mod_lt _ (by omega), List.mem_singleton.mp h⟩

/-- Small letters and digits with points and colons between them. -/
def isAddressChar (c : Char) : Bool := "0123456789abcdef:.".toList.contains c

theorem isAddressChar_digits {radix n : Nat} (hone : 1 < radix) (hradix : radix ≤ 16) {c : Char}
    (h : c ∈ Nat.toDigits radix n) : isAddressChar c = true := by
  obtain ⟨d, hd, rfl⟩ := digitChar_of_mem_toDigits hone h
  have htable : ∀ d < 16, isAddressChar d.digitChar = true := by decide
  exact htable d (by omega)

theorem Ipv4Addr.isAddressChar_text {ip : Ipv4Addr} {c : Char} (h : c ∈ ip.text) :
    isAddressChar c = true := by
  have hoctet : ∀ {a : UInt8}, c ∈ Nat.toDigits 10 a.toNat → isAddressChar c = true :=
    fun h ↦ isAddressChar_digits (by decide) (by decide) h
  simp only [text, List.mem_append, List.mem_cons] at h
  rcases h with (((h | rfl | h) | rfl | h) | rfl | h)
  · exact hoctet h
  · rfl
  · exact hoctet h
  · rfl
  · exact hoctet h
  · rfl
  · exact hoctet h

theorem isAddressChar_groupsText {gs : List UInt16} {c : Char} (h : c ∈ groupsText gs) :
    isAddressChar c = true := by
  cases gs with
  | nil => simp [groupsText] at h
  | cons g gs =>
    rw [Parser.groupsText_cons, List.mem_append] at h
    rcases h with h | h
    · exact isAddressChar_digits (by decide) (by decide) h
    · obtain ⟨g', -, hg⟩ := List.mem_flatMap.mp h
      rcases List.mem_cons.mp hg with rfl | hg
      · rfl
      · exact isAddressChar_digits (by decide) (by decide) hg

theorem IpAddr.isAddressChar_toString {ip : IpAddr} {c : Char} (h : c ∈ ip.toString.toList) :
    isAddressChar c = true := by
  cases ip with
  | v4 ip =>
    rw [toString, String.toList_ofList] at h
    exact Ipv4Addr.isAddressChar_text h
  | v6 ip =>
    rw [toString, String.toList_ofList] at h
    unfold Ipv6Addr.text at h
    split at h
    · rcases List.mem_append.mp h with h | h
      · have hprefix : ("::ffff:".toList.all isAddressChar) = true := by decide
        exact List.all_eq_true.mp hprefix c h
      · exact Ipv4Addr.isAddressChar_text h
    · dsimp only at h
      split at h
      · simp only [List.mem_append] at h
        rcases h with (h | h) | h
        · exact isAddressChar_groupsText h
        · have hcolons : ("::".toList.all isAddressChar) = true := by decide
          exact List.all_eq_true.mp hcolons c h
        · exact isAddressChar_groupsText h
      · exact isAddressChar_groupsText h

theorem isAddressChar_plain {c : Char} (h : isAddressChar c = true) :
    isWhiteSpace c = false ∧ c.toLower = c ∧ c ≠ ',' := by
  rw [isAddressChar, List.contains_iff_mem] at h
  have hall : ("0123456789abcdef:.".toList.all fun c ↦
      decide (isWhiteSpace c = false ∧ c.toLower = c ∧ c ≠ ',')) = true := by decide
  exact of_decide_eq_true (List.all_eq_true.mp hall c h)

theorem IpAddr.toString_ne_empty (ip : IpAddr) : ip.toString ≠ "" := by
  intro hempty
  have hparse := fromStr_toString ip
  rw [hempty] at hparse
  revert hparse
  rw [show fromStr "" = none by decide]
  exact fun h ↦ by cases h

theorem toAsciiLowercase_address {ip : IpAddr} : toAsciiLowercase ip.toString = ip.toString := by
  rw [toAsciiLowercase, List.map_congr_left (g := id), List.map_id, String.ofList_toList]
  exact fun c hc ↦ (isAddressChar_plain (IpAddr.isAddressChar_toString hc)).2.1

theorem trim_address {ip : IpAddr} : trim ip.toString = ip.toString :=
  trim_of_all fun _ hc ↦ (isAddressChar_plain (IpAddr.isAddressChar_toString hc)).1

namespace Gateway

/-! ## An allow-list of addresses -/

theorem parseAllowedHosts_addresses (ips : List IpAddr) :
    parseAllowedHosts (ips.map IpAddr.toString) = ips.map IpAddr.toString := by
  have hsame : (ips.map IpAddr.toString).map (fun host ↦ toAsciiLowercase (trim host)) =
      ips.map IpAddr.toString := by
    rw [List.map_map]
    refine List.map_congr_left fun ip _ ↦ ?_
    rw [Function.comp_apply, trim_address, toAsciiLowercase_address]
  rw [parseAllowedHosts, hsame, List.filter_eq_self]
  intro host hhost
  obtain ⟨ip, -, rfl⟩ := List.mem_map.mp hhost
  simpa using ip.toString_ne_empty

/-- The address a connection is made to, where the text names one: `to_socket_addrs` looks for an
address before it resolves a name. -/
def Dialed.ip : Dialed → Option IpAddr
  | .address addr => some addr.ip
  | .name host _ => IpAddr.fromStr host

theorem toLower_eq_self {c : Char} (h : c.toLower.toNat < 97) : c.toLower = c := by
  unfold Char.toLower at h ⊢
  split
  · rename_i hupper
    rw [dif_pos hupper] at h
    have hval : 65 ≤ c.val.toNat ∧ c.val.toNat ≤ 90 := hupper
    have hsum : (c.val + 32).toNat < 97 := h
    rw [UInt32.toNat_add] at hsum
    have h32 : (32 : UInt32).toNat = 32 := rfl
    omega
  · rfl

-- Digits and points have no capitals.
theorem toAsciiLowercase_eq_v4 {host : String} {ip : Ipv4Addr}
    (h : toAsciiLowercase host = (IpAddr.v4 ip).toString) : host = (IpAddr.v4 ip).toString := by
  have hlower : host.toList.map Char.toLower = ip.text := by
    have hlist := congrArg String.toList h
    rwa [toAsciiLowercase, IpAddr.toString, String.toList_ofList, String.toList_ofList] at hlist
  have hsame : host.toList.map Char.toLower = host.toList := by
    rw [List.map_congr_left (g := id), List.map_id]
    intro c hc
    refine toLower_eq_self ?_
    have hmem : c.toLower ∈ ip.text := hlower ▸ List.mem_map_of_mem hc
    have hdecimal : ∀ {a : UInt8} {d : Char}, d ∈ Nat.toDigits 10 a.toNat → d.toNat < 97 := by
      intro a d hd
      have hdigit := Nat.isDigit_of_mem_toDigits (by decide) (by decide) hd
      have hle : d.toNat ≤ 57 := (Char.isDigit_iff_toNat.mp hdigit).2
      omega
    simp only [Ipv4Addr.text, List.mem_append, List.mem_cons] at hmem
    rcases hmem with (((hmem | hmem | hmem) | hmem | hmem) | hmem | hmem)
    · exact hdecimal hmem
    · rw [hmem]
      decide
    · exact hdecimal hmem
    · rw [hmem]
      decide
    · exact hdecimal hmem
    · rw [hmem]
      decide
    · exact hdecimal hmem
  rw [hsame] at hlower
  rw [IpAddr.toString, ← hlower, String.ofList_toList]

theorem colon_mem_text (ip : Ipv6Addr) : ':' ∈ ip.text := by
  unfold Ipv6Addr.text
  split
  · simp
  · dsimp only
    split
    · simp
    · obtain ⟨segments, hlength⟩ := ip
      match segments, hlength with
      | g :: g' :: gs, _ =>
        rw [Parser.groupsText_cons]
        simp [Parser.tailText]

-- The name is checked byte by byte.
theorem targetHost_bytes {target host : String} {parts : String × String}
    (haddr : SocketAddr.fromStr target = none) (hparts : rsplitOnce ':' target = some parts)
    (h : targetHost target = .ok host) : (utf8 parts.1).all isHostByte = true := by
  rw [targetHost, haddr, hparts] at h
  dsimp only at h
  split at h
  · cases h
  · rename_i hvalid
    obtain ⟨hbytes, -⟩ := not_or.mp (not_or.mp hvalid).2
    rwa [not_not] at hbytes

theorem colon_notMem_name {host : String} (h : (utf8 host).all isHostByte = true) :
    ':' ∉ host.toList := by
  intro hmem
  have hbytes : utf8 host = host.toList.flatMap String.utf8EncodeChar := by
    rw [utf8, ← String.utf8Encode_toList]
    exact List.toList_data_toByteArray
  have hbyte : (58 : UInt8) ∈ utf8 host := by
    rw [hbytes, List.mem_flatMap]
    exact ⟨':', hmem, by decide⟩
  have hcolon := List.all_eq_true.mp h 58 hbyte
  revert hcolon
  decide

/-- A name that stands in an allow-list of addresses is an address itself. -/
theorem fromStr_of_lowercase {host : String} {ip : IpAddr} (hhost : (utf8 host).all isHostByte)
    (h : toAsciiLowercase host = ip.toString) : IpAddr.fromStr host = some ip := by
  cases ip with
  | v4 ip =>
    rw [toAsciiLowercase_eq_v4 h]
    exact IpAddr.fromStr_toString _
  | v6 ip =>
    -- a name has no colons
    exfalso
    have hcolon : ':' ∈ host.toList.map Char.toLower := by
      have hlist := congrArg String.toList h
      rw [toAsciiLowercase, IpAddr.toString, String.toList_ofList, String.toList_ofList] at hlist
      rw [hlist]
      exact colon_mem_text ip
    obtain ⟨c, hc, hlower⟩ := List.mem_map.mp hcolon
    have hsame : c.toLower = c := toLower_eq_self (by rw [hlower]; decide)
    rw [hsame] at hlower
    exact colon_notMem_name hhost (hlower ▸ hc)

/-- A gateway that lists addresses dials nothing else; a target that is an address is let through
where it is listed, however it is written. -/
theorem address_list_exact (ips : List IpAddr) (target : String) :
    (∀ addr, SocketAddr.fromStr target = some addr →
      (validateTarget target (parseAllowedHosts (ips.map IpAddr.toString)) = .ok () ↔
        addr.ip ∈ ips)) ∧
    (validateTarget target (parseAllowedHosts (ips.map IpAddr.toString)) = .ok () →
      ∃ dialed, connect target = some dialed ∧ ∃ ip ∈ ips, dialed.ip = some ip) := by
  rw [parseAllowedHosts_addresses]
  constructor
  · intro addr haddr
    rw [validateTarget_eq_ok, targetHost, haddr]
    constructor
    · rintro ⟨host, hmem, hhost⟩
      cases hhost
      obtain ⟨ip, hip, heq⟩ := List.mem_map.mp hmem
      rwa [IpAddr.toString_injective heq] at hip
    · exact fun hmem ↦ ⟨_, List.mem_map_of_mem hmem, rfl⟩
  · intro hok
    obtain ⟨host, hmem, hhost⟩ := validateTarget_eq_ok.mp hok
    obtain ⟨ip, hip, heq⟩ := List.mem_map.mp hmem
    cases haddr : SocketAddr.fromStr target with
    | some addr =>
      rw [targetHost, haddr] at hhost
      cases hhost
      exact ⟨.address addr, by rw [connect, haddr], ip, hip,
        congrArg some (IpAddr.toString_injective heq).symm⟩
    | none =>
      cases hparts : rsplitOnce ':' target with
      | none =>
        rw [targetHost, haddr, hparts] at hhost
        cases hhost
      | some parts =>
        obtain ⟨hname, port, hport⟩ := targetHost_name haddr hparts hhost
        refine ⟨.name parts.1 port, ?_, ip, hip, fromStr_of_lowercase ?_ (hname.trans heq.symm)⟩
        · rw [connect, haddr, hparts]
          exact congrArg (Option.map _) hport
        · exact targetHost_bytes haddr hparts hhost

-- The port has a sign, so that the text is no socket address.
theorem address_list_exact_sample : ∃ dialed, connect "10.0.0.5:+80" = some dialed ∧
    dialed.ip = some (.v4 ⟨10, 0, 0, 5⟩) := by
  obtain ⟨dialed, hconnect, ip, hmem, hip⟩ :=
    (address_list_exact [.v4 ⟨10, 0, 0, 5⟩] "10.0.0.5:+80").2 (by decide +kernel)
  rw [List.mem_singleton.mp hmem] at hip
  exact ⟨dialed, hconnect, hip⟩

/-! ## The address of a client -/

/-- `forwarded_client`: the first address of the `X-Forwarded-For` header, with the port of the
peer. -/
def forwardedClient (header : Option HeaderValue) (peer : SocketAddr) : SocketAddr :=
  let ip := (header.bind HeaderValue.toStr).bind fun value ↦
    IpAddr.fromStr (trim (String.ofList (value.toList.takeWhile (· ≠ ','))))
  match ip with
  | some ip => ⟨ip, peer.port⟩
  | none => peer

theorem dropWhile_blank {blank text : List Char} (hblank : ∀ c ∈ blank, isWhiteSpace c = true)
    (hne : text ≠ []) (htext : ∀ c ∈ text, isWhiteSpace c = false) (rest : List Char) :
    (blank ++ text ++ rest).dropWhile isWhiteSpace = text ++ rest := by
  rw [List.append_assoc, List.dropWhile_append_of_pos hblank]
  obtain ⟨c, text, rfl⟩ := List.exists_cons_of_ne_nil hne
  exact List.dropWhile_cons_of_neg (by simp [htext c List.mem_cons_self])

/-- What stands between blanks is what trimming leaves. -/
theorem trim_blank {before text after : List Char}
    (hbefore : ∀ c ∈ before, isWhiteSpace c = true)
    (hafter : ∀ c ∈ after, isWhiteSpace c = true) (hne : text ≠ [])
    (htext : ∀ c ∈ text, isWhiteSpace c = false) :
    trim (String.ofList (before ++ text ++ after)) = String.ofList text := by
  have hback := dropWhile_blank (fun c hc ↦ hafter c (List.mem_reverse.mp hc))
    (fun hnil ↦ hne (List.reverse_eq_nil_iff.mp hnil))
    (fun c hc ↦ htext c (List.mem_reverse.mp hc)) []
  rw [List.append_nil, List.append_nil] at hback
  rw [trim, String.toList_ofList, dropWhile_blank hbefore hne htext, List.reverse_append, hback,
    List.reverse_reverse]

-- The first field of the header ends at a comma or with the header.
theorem takeWhile_field {field rest : List Char} (hfield : ∀ c ∈ field, c ≠ ',')
    (hrest : rest = [] ∨ rest.head? = some ',') :
    (field ++ rest).takeWhile (· ≠ ',') = field := by
  have hall : ∀ c ∈ field, decide (c ≠ ',') = true := fun c hc ↦ decide_eq_true (hfield c hc)
  have hend : rest.takeWhile (fun c ↦ decide (c ≠ ',')) = [] := by
    cases rest with
    | nil => rfl
    | cons c rest =>
      have hc : c = ',' := by simpa using hrest
      rw [hc]
      rfl
  rw [List.takeWhile_append_of_pos hall, hend, List.append_nil]

/-- The port is always that of the peer.  The address is the one that stands first in the header as
it is printed, whatever follows it; where the first part is no address it is that of the peer. -/
theorem forwarded_client_recorded (peer : SocketAddr) :
    (∀ header, (forwardedClient header peer).port = peer.port) ∧
    (∀ header, (∀ text, header.bind HeaderValue.toStr = some text →
        IpAddr.fromStr (trim (String.ofList (text.toList.takeWhile (· ≠ ',')))) = none) →
      forwardedClient header peer = peer) ∧
    ∀ (value : HeaderValue) (text : String) (ip : IpAddr) (before after rest : List Char),
      value.toStr = some text → text.toList = before ++ ip.toString.toList ++ after ++ rest →
      (∀ c ∈ before ++ after, c = ' ' ∨ c = '\t') → (rest = [] ∨ rest.head? = some ',') →
      forwardedClient (some value) peer = ⟨ip, peer.port⟩ := by
  refine ⟨fun header ↦ ?_, fun header hnone ↦ ?_, ?_⟩
  · unfold forwardedClient
    dsimp only
    split <;> rfl
  · unfold forwardedClient
    dsimp only
    cases htext : header.bind HeaderValue.toStr with
    | none => rfl
    | some text => rw [Option.bind_some, hnone text htext]
  · intro value text ip before after rest hvalue htext hblank hrest
    have hwhite : ∀ c ∈ before ++ after, isWhiteSpace c = true ∧ c ≠ ',' := by
      intro c hc
      rcases hblank c hc with rfl | rfl <;> decide
    have hchars : ∀ c ∈ ip.toString.toList, isWhiteSpace c = false ∧ c ≠ ',' := fun c hc ↦
      ⟨(isAddressChar_plain (IpAddr.isAddressChar_toString hc)).1,
        (isAddressChar_plain (IpAddr.isAddressChar_toString hc)).2.2⟩
    have hfield : ∀ c ∈ before ++ ip.toString.toList ++ after, c ≠ ',' := by
      intro c hc
      rw [List.mem_append, List.mem_append] at hc
      rcases hc with (hc | hc) | hc
      · exact (hwhite c (List.mem_append_left _ hc)).2
      · exact (hchars c hc).2
      · exact (hwhite c (List.mem_append_right _ hc)).2
    have hfirst : text.toList.takeWhile (· ≠ ',') = before ++ ip.toString.toList ++ after := by
      rw [htext, takeWhile_field hfield hrest]
    have hne : ip.toString.toList ≠ [] := by
      intro hnil
      exact ip.toString_ne_empty (String.toList_eq_nil_iff.mp hnil)
    have htrim := trim_blank (fun c hc ↦ (hwhite c (List.mem_append_left _ hc)).1)
      (fun c hc ↦ (hwhite c (List.mem_append_right _ hc)).1) hne fun c hc ↦ (hchars c hc).1
    unfold forwardedClient
    rw [Option.bind_some, hvalue, Option.bind_some, hfirst, htrim, String.ofList_toList,
      IpAddr.fromStr_toString]

-- A proxy has put its client before what the client sent.
theorem forwarded_client_recorded_sample : ∃ ip, IpAddr.toString ip = "2001:db8::1" ∧
    forwardedClient (some ⟨" 2001:db8::1 ,127.0.0.1".toUTF8.toList⟩) ⟨.v4 ⟨10, 0, 0, 1⟩, 4000⟩ =
      ⟨ip, 4000⟩ := by
  refine ⟨.v6 ⟨[0x2001, 0xdb8, 0, 0, 0, 0, 0, 1], rfl⟩, by decide +kernel, ?_⟩
  exact (forwarded_client_recorded ⟨.v4 ⟨10, 0, 0, 1⟩, 4000⟩).2.2 _ " 2001:db8::1 ,127.0.0.1" _
    [' '] [' '] ",127.0.0.1".toList (by decide +kernel) (by decide +kernel) (by simp) (by decide)

end Gateway

end LabStreamGate
