import LabStreamGate.Capture.AuditLog
import LabStreamGate.Gateway.Connection
import LabStreamGate.Library.Utf8Text

/-!
# Where the evidence of a tunnel is

The audit file and the capture directory of a tunnel have one name, which `safe_segment` makes from
its instance id.  Two tunnels share them exactly where the name keeps the same of both.
-/

namespace LabStreamGate.Capture

open Gateway (Upgrade FilePath validateKey isKeyByte)

/-- `random_connection_id`, `{:016x}` of a random number. -/
def randomConnectionId (random : UInt64) : String :=
  let digits := Nat.toDigits 16 random.toNat
  String.ofList (List.replicate (16 - digits.length) '0' ++ digits)

/-- The file of `CaptureSession::start`, `root.join(&relative_path)`. -/
def capturePath (root : String) (session : CaptureSession) : String :=
  root ++ "/" ++ session.relativePath

/-- `Path::parent` of a file in some directory. -/
def parent (path : String) : Option String := (rsplitOnce '/' path).map Prod.fst

/-- The directory that `CaptureSession::start` makes. -/
def captureDirectory (root : String) (upgrade : Upgrade) (random : UInt64) : Option String :=
  parent (capturePath root
    (.start upgrade.instanceId (randomConnectionId random) upgrade.maxCaptureBytes))

/-- Who a tunnel belongs to: the instance, or the key where no instance is named. -/
def effectiveIdentity (upgrade : Upgrade) : String :=
  if upgrade.record.instanceId = "" then upgrade.key else upgrade.record.instanceId

/-- What a name keeps of that: the safe characters of an instance id, up to 128 of them, and the
first 32 characters of a key. -/
def kept (upgrade : Upgrade) : List Char :=
  if upgrade.record.instanceId = "" then upgrade.key.toList.take 32
  else
    match (upgrade.record.instanceId.toList.filter isSafe).take 128 with
    | [] => "unknown".toList
    | c :: cs => c :: cs

/-- Both places are directly in the directories of the root, under one safe name. -/
structure KeptUnder (root : String) (upgrade : Upgrade) (random : UInt64) (name : String) :
    Prop where
  audit : auditPath root upgrade.instanceId = ⟨root ++ "/audit", name ++ ".jsonl"⟩
  capture : captureDirectory root upgrade random = some (root ++ "/captures/" ++ name)
  ne_empty : name ≠ ""
  safe : ∀ c ∈ name.toList, c ≠ '/' ∧ c ≠ '\\' ∧ c ≠ '.'

variable {root : String} {upgrade : Upgrade} {random : UInt64} {value : String} {c : Char} {n : Nat}

/-! ## Paths -/

theorem ne_slash_of_mem_toDigits (h : c ∈ Nat.toDigits 16 n) : c ≠ '/' := by
  have hdigit : ∀ d < 16, d.digitChar ≠ '/' := by decide
  induction n using Nat.strong_induction_on with
  | h n ih =>
    rcases Nat.lt_or_ge n 16 with hlt | hge
    · rw [Nat.toDigits_of_lt_base hlt] at h
      rw [List.mem_singleton.mp h]
      exact hdigit n hlt
    · rw [Nat.toDigits_of_base_le (by decide) hge] at h
      rcases List.mem_append.mp h with hfront | hlast
      · exact ih (n / 16) (by omega) hfront
      · rw [List.mem_singleton.mp hlast]
        exact hdigit _ (Nat.mod_lt _ (by decide))

theorem slash_notMem_randomConnectionId :
    '/' ∉ (randomConnectionId random ++ ".pcap").toList := by
  intro h
  rw [String.toList_append, randomConnectionId, String.toList_ofList] at h
  rcases List.mem_append.mp h with hid | hend
  · rcases List.mem_append.mp hid with hzero | hdigit
    · exact absurd (List.eq_of_mem_replicate hzero) (by decide)
    · exact ne_slash_of_mem_toDigits hdigit rfl
  · exact absurd hend (by decide)

theorem captureDirectory_eq : captureDirectory root upgrade random =
    some (root ++ "/captures/" ++ safeSegment upgrade.instanceId) := by
  let front := root ++ "/captures/" ++ safeSegment upgrade.instanceId
  have hpath : (capturePath root (.start upgrade.instanceId (randomConnectionId random)
      upgrade.maxCaptureBytes)).toList =
      front.toList ++ '/' :: (randomConnectionId random ++ ".pcap").toList := by
    simp [capturePath, CaptureSession.start, front]
  rw [captureDirectory, parent, rsplitOnce_eq hpath slash_notMem_randomConnectionId]
  exact congrArg some (String.ofList_toList)

/-! ## Names -/

theorem utf8_eq_asBytes : utf8 value = asBytes value.toList := by
  rw [utf8, ← String.utf8Encode_toList]
  exact List.toList_data_toByteArray

/-- A character is safe where its bytes may be in a key. -/
theorem isSafe_of_isKeyByte (h : (String.utf8EncodeChar c).all isKeyByte = true) :
    isSafe c = true := by
  obtain ⟨byte, hbyte⟩ := List.exists_mem_of_ne_nil (String.utf8EncodeChar c) (by
    intro hnil
    have hlen := String.length_utf8EncodeChar c
    have hpos := c.utf8Size_pos
    rw [hnil, List.length_nil] at hlen
    omega)
  have hkey := List.all_eq_true.mp h byte hbyte
  have halphanum : Gateway.isAsciiAlphanumeric byte = c.isAlphanum :=
    isAsciiAlphanumeric_of_mem hbyte
  have hascii := toNat_of_mem_utf8EncodeChar hbyte
  rw [isKeyByte, halphanum, Bool.or_eq_true, Bool.or_eq_true, beq_iff_eq, beq_iff_eq] at hkey
  rw [isSafe, Bool.or_eq_true, Bool.or_eq_true, beq_iff_eq, beq_iff_eq]
  rcases hkey with (hkey | rfl) | rfl
  · exact Or.inl (Or.inl hkey)
  · refine Or.inl (Or.inr (Char.ext (UInt32.toNat_inj.mp (hascii.resolve_right ?_))))
    exact fun h ↦ absurd h.2 (by decide)
  · refine Or.inr (Char.ext (UInt32.toNat_inj.mp (hascii.resolve_right ?_)))
    exact fun h ↦ absurd h.2 (by decide)

theorem isSafe_of_validateKey (h : validateKey value = .ok ()) :
    value ≠ "" ∧ ∀ c ∈ value.toList, isSafe c = true := by
  unfold validateKey at h
  dsimp only at h
  split at h
  · rename_i hvalid
    obtain ⟨hlen, -, hall⟩ := hvalid
    rw [utf8_eq_asBytes] at hlen hall
    constructor
    · rintro rfl
      exact absurd hlen (by decide)
    · intro c hc
      refine isSafe_of_isKeyByte (List.all_eq_true.mpr fun byte hbyte ↦ ?_)
      exact List.all_eq_true.mp hall byte (List.mem_flatMap.mpr ⟨c, hc, hbyte⟩)
  · cases h

theorem toList_safeSegment : (safeSegment value).toList =
    match (value.toList.filter isSafe).take 128 with
    | [] => "unknown".toList
    | c :: cs => c :: cs := by
  unfold safeSegment
  dsimp only
  cases (value.toList.filter isSafe).take 128 with
  | nil => rfl
  | cons c cs =>
    rw [if_neg, String.toList_ofList]
    intro h
    have hnil := congrArg String.toList h
    rw [String.toList_ofList] at hnil
    cases hnil

theorem isSafe_of_mem_safeSegment (h : c ∈ (safeSegment value).toList) : isSafe c = true := by
  rw [toList_safeSegment] at h
  split at h
  · have hall : "unknown".toList.all isSafe = true := by decide
    exact List.all_eq_true.mp hall c h
  · rename_i hkept
    rw [← hkept] at h
    exact (List.mem_filter.mp (List.mem_of_mem_take h)).2

/-- The name of a tunnel is what is kept of its identity. -/
theorem toList_safeSegment_instanceId (hkey : validateKey upgrade.key = .ok ()) :
    (safeSegment upgrade.instanceId).toList = kept upgrade := by
  rw [toList_safeSegment, kept, Upgrade.instanceId]
  by_cases hid : upgrade.record.instanceId = ""
  · obtain ⟨hne, hsafe⟩ := isSafe_of_validateKey hkey
    have hnil : upgrade.key.toList ≠ [] := fun h ↦ hne (String.toList_eq_nil_iff.mp h)
    have hfilter : (upgrade.key.toList.take 32).filter isSafe = upgrade.key.toList.take 32 :=
      List.filter_eq_self.mpr fun c hc ↦ hsafe c (List.mem_of_mem_take hc)
    rw [if_pos hid, if_pos hid, String.toList_ofList, hfilter, List.take_take]
    change (match upgrade.key.toList.take 32 with
      | [] => "unknown".toList
      | c :: cs => c :: cs) = _
    cases hcs : upgrade.key.toList with
    | nil => exact absurd hcs hnil
    | cons c cs => rfl
  · rw [if_neg hid, if_neg hid]

theorem keptUnder : KeptUnder root upgrade random (safeSegment upgrade.instanceId) where
  audit := rfl
  capture := captureDirectory_eq
  ne_empty := safeSegment_ne_empty
  safe := by
    intro c hc
    have hsafe := isSafe_of_mem_safeSegment hc
    refine ⟨?_, ?_, ?_⟩ <;> rintro rfl <;> exact absurd hsafe (by decide)

/-- The places of two tunnels are apart where the names keep different parts of their identities,
and else they are the same. -/
theorem evidence_apart (root : String) (upgrade upgrade' : Upgrade) (random random' : UInt64)
    (hkey : validateKey upgrade.key = .ok ()) (hkey' : validateKey upgrade'.key = .ok ()) :
    (∃ name, KeptUnder root upgrade random name) ∧
    (∃ name, KeptUnder root upgrade' random' name) ∧
    (kept upgrade ≠ kept upgrade' →
      auditPath root upgrade.instanceId ≠ auditPath root upgrade'.instanceId ∧
      captureDirectory root upgrade random ≠ captureDirectory root upgrade' random') ∧
    (kept upgrade = kept upgrade' →
      auditPath root upgrade.instanceId = auditPath root upgrade'.instanceId ∧
      captureDirectory root upgrade random = captureDirectory root upgrade' random') := by
  have hname : safeSegment upgrade.instanceId = safeSegment upgrade'.instanceId ↔
      kept upgrade = kept upgrade' := by
    rw [← toList_safeSegment_instanceId hkey, ← toList_safeSegment_instanceId hkey',
      String.toList_inj]
  have hcapture : captureDirectory root upgrade random = captureDirectory root upgrade' random' ↔
      safeSegment upgrade.instanceId = safeSegment upgrade'.instanceId := by
    rw [captureDirectory_eq, captureDirectory_eq, Option.some_inj, ← String.toList_inj,
      @String.toList_append (root ++ "/captures/"), @String.toList_append (root ++ "/captures/"),
      List.append_cancel_left_eq, String.toList_inj]
  refine ⟨⟨_, keptUnder⟩, ⟨_, keptUnder⟩, fun h ↦ ⟨?_, ?_⟩, fun h ↦ ⟨?_, ?_⟩⟩
  · exact fun heq ↦ h (hname.mp (auditPath_inj.mp heq))
  · exact fun heq ↦ h (hname.mp (hcapture.mp heq))
  · exact auditPath_inj.mpr (hname.mpr h)
  · exact hcapture.mpr (hname.mpr h)

def sampleTunnel (instanceId : String) : Upgrade where
  key := "0123456789abcdef"
  record := ⟨"10.0.0.5:80", none, instanceId, "challenge", "user", none, true⟩
  client := ⟨.v4 ⟨10, 0, 0, 9⟩, 4000⟩
  connectionId := randomConnectionId 0
  startedAt := 1000
  maxCaptureBytes := 1000

theorem evidence_apart_sample :
    auditPath "/var/lib/wsrx" (sampleTunnel "team-1").instanceId ≠
      auditPath "/var/lib/wsrx" (sampleTunnel "").instanceId := by
  obtain ⟨-, -, hne, -⟩ := evidence_apart "/var/lib/wsrx" (sampleTunnel "team-1") (sampleTunnel "")
    0 1 (by decide) (by decide)
  exact (hne (by decide)).1

/-- The name does not keep the dot. -/
theorem evidence_shared : ¬∀ (root : String) (upgrade upgrade' : Upgrade) (random random' : UInt64),
    validateKey upgrade.key = .ok () → validateKey upgrade'.key = .ok () →
    (∃ name, KeptUnder root upgrade random name) ∧
    (∃ name, KeptUnder root upgrade' random' name) ∧
    (effectiveIdentity upgrade ≠ effectiveIdentity upgrade' →
      auditPath root upgrade.instanceId ≠ auditPath root upgrade'.instanceId ∧
      captureDirectory root upgrade random ≠ captureDirectory root upgrade' random') := by
  intro h
  obtain ⟨-, -, hne⟩ := h "/var/lib/wsrx" (sampleTunnel "team.1") (sampleTunnel "team1") 0 1
    (by decide) (by decide)
  have hsame : safeSegment (sampleTunnel "team.1").instanceId =
      safeSegment (sampleTunnel "team1").instanceId := by decide
  exact (hne (by decide)).1 (auditPath_inj.mpr hsame)

end LabStreamGate.Capture
