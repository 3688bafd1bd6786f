import Mathlib.Data.List.AList
import LabStreamGate.Library.Http
import LabStreamGate.Library.Json

/-!
# The tunnel registry of the gateway

The records `serve.rs` keeps under their keys, the JSON they are saved as, and reading a saved
registry back at the start of a process.  The order in which a hash map is walked is not
specified; here the entries are written oldest first.
-/

namespace LabStreamGate.Gateway

structure TunnelRecord where
  target : String
  expiresAt : Option UInt64
  instanceId : String
  challengeId : String
  userId : String
  competitionId : Option String
  capture : Bool
  deriving DecidableEq, Repr

def TunnelRecord.isExpired (record : TunnelRecord) (now : UInt64) : Bool :=
  record.expiresAt.any (· ≤ now)

theorem TunnelRecord.isExpired_mono {record : TunnelRecord} {now now' : UInt64}
    (h : record.isExpired now = true) (hle : now ≤ now') : record.isExpired now' = true := by
  rw [isExpired, Option.any_eq_true] at h ⊢
  obtain ⟨expiry, he, hexp⟩ := h
  exact ⟨expiry, he, decide_eq_true (UInt64.le_trans (of_decide_eq_true hexp) hle)⟩

abbrev Registry := AList fun _ : String ↦ TunnelRecord

/-- `HashMap::retain`. -/
def Registry.retain (registry : Registry) (keep : TunnelRecord → Bool) : Registry where
  entries := registry.entries.filter fun e ↦ keep e.2
  nodupKeys := by
    have h := registry.nodupKeys
    rw [List.NodupKeys, List.keys] at h ⊢
    exact h.sublist (List.filter_sublist.map _)

-- Keys are distinct, so dropping entries by their value cannot bring out another.
theorem dlookup_filter (keep : TunnelRecord → Bool) (key : String) :
    ∀ {entries : List (Sigma fun _ : String ↦ TunnelRecord)}, entries.NodupKeys →
      (entries.filter fun e ↦ keep e.2).dlookup key = (entries.dlookup key).filter keep
  | [], _ => rfl
  | ⟨k, r⟩ :: entries, h => by
    rw [List.nodupKeys_cons] at h
    have ih := dlookup_filter keep key h.2
    by_cases hk : key = k
    · subst hk
      rw [List.dlookup_eq_none.mpr h.1] at ih
      cases hr : keep r with
      | true => simp [hr, Option.filter]
      | false => simpa [hr, Option.filter] using ih
    · have hne : ∀ l : List (Sigma fun _ : String ↦ TunnelRecord),
          List.dlookup key (⟨k, r⟩ :: l) = List.dlookup key l :=
        fun l ↦ List.dlookup_cons_ne l ⟨k, r⟩ hk
      cases hr : keep r with
      | true => simp [hr, hne, ih]
      | false => simp [hr, hne, ih]

theorem Registry.lookup_retain (registry : Registry) (keep : TunnelRecord → Bool) (key : String) :
    (registry.retain keep).lookup key = (registry.lookup key).filter keep :=
  dlookup_filter keep key registry.nodupKeys

-- What is still there after a removal was there before.
theorem Registry.lookup_of_lookup_erase {registry : Registry} {key key' : String}
    {record : TunnelRecord} (h : (registry.erase key').lookup key = some record) :
    registry.lookup key = some record := by
  by_cases hk : key = key'
  · rw [hk, AList.lookup_erase] at h
    cases h
  · rwa [AList.lookup_erase_ne hk] at h

/-! ## The saved registry -/

/-- The record as `serde` writes it: camel case names, `expiresAt` left out where there is
none. -/
def TunnelRecord.toJson (record : TunnelRecord) : Json :=
  .obj ([("target", .str record.target)] ++
    (record.expiresAt.map fun expiry ↦ ("expiresAt", Json.num (.int expiry.toNat))).toList ++
    [("instanceId", .str record.instanceId),
      ("challengeId", .str record.challengeId),
      ("userId", .str record.userId),
      ("competitionId", .ofOption .str record.competitionId),
      ("capture", .bool record.capture)])

/-- The names of the fields, in the order of the declaration. -/
def TunnelRecord.names : List (List String) :=
  [["target"], ["expiresAt"], ["instanceId"], ["challengeId"], ["userId"], ["competitionId"],
    ["capture"]]

def TunnelRecord.ofFields : List (Option Json) → Option TunnelRecord
  | [target, expiresAt, instanceId, challengeId, userId, competitionId, capture] => do
    return {
      target := ← Json.required Json.asStr target
      expiresAt := ← Json.optional (Json.asOption Json.asU64) none expiresAt
      instanceId := ← Json.optional Json.asStr "" instanceId
      challengeId := ← Json.optional Json.asStr "" challengeId
      userId := ← Json.optional Json.asStr "" userId
      competitionId := ← Json.optional (Json.asOption Json.asStr) none competitionId
      capture := ← Json.optional Json.asBool false capture }
  | _ => none

def TunnelRecord.ofJson (j : Json) : Option TunnelRecord :=
  (j.fields names).bind ofFields

-- Every field is found under its own name, and `expiresAt` only where it was written.
theorem TunnelRecord.fields_toJson (record : TunnelRecord) :
    record.toJson.fields names =
      some [some (.str record.target),
        record.expiresAt.map fun expiry ↦ Json.num (.int expiry.toNat),
        some (.str record.instanceId), some (.str record.challengeId),
        some (.str record.userId), some (.ofOption .str record.competitionId),
        some (.bool record.capture)] := by
  obtain ⟨target, expiresAt, instanceId, challengeId, userId, competitionId, capture⟩ := record
  cases expiresAt <;> simp [toJson, names, Json.fields]

-- Reading a record back, field by field.
theorem TunnelRecord.ofJson_toJson (record : TunnelRecord) :
    ofJson record.toJson = some record := by
  have hexpiry : Json.optional (Json.asOption Json.asU64) none
      (record.expiresAt.map fun expiry ↦ Json.num (.int expiry.toNat)) =
        some record.expiresAt := by
    cases record.expiresAt with
    | none => rfl
    | some expiry =>
      rw [Option.map_some, Json.optional, Json.asOption_num, Json.asU64_toNat, Option.map_some]
  rw [ofJson, fields_toJson, Option.bind_some, ofFields, hexpiry]
  simp only [Json.required, Json.optional, Json.asStr, Json.asBool, Json.asOption_ofOption_str,
    Option.bind_some, Option.bind_eq_bind, Option.pure_def]

-- The names are distinct and a time fits an unsigned integer of 64 bits.
theorem TunnelRecord.toJson_ok (record : TunnelRecord) : record.toJson.Ok := by
  obtain ⟨target, expiresAt, instanceId, challengeId, userId, competitionId, capture⟩ := record
  have hu : ∀ n : UInt64, (Number.int n.toNat).check = true := by
    intro n
    have hlt : (n.toNat : Int) < 2 ^ 64 := by exact_mod_cast n.toNat_lt
    have hge : (-2 ^ 63 : Int) ≤ n.toNat := by omega
    rw [Number.check, decide_eq_true hge, decide_eq_true hlt, Bool.and_true]
  cases expiresAt <;> cases competitionId <;>
    simp [toJson, Json.ofOption, Json.Ok, Json.check, Json.checkFields, hu]

def Registry.toJson (registry : Registry) : Json :=
  .obj (registry.entries.reverse.map fun e ↦ (e.1, e.2.toJson))

/-- A key that comes twice has the last of its records. -/
def Registry.ofJson (j : Json) : Option Registry := do
  let entries ← (← j.asObj).mapM fun e ↦ (TunnelRecord.ofJson e.2).map (e.1, ·)
  return entries.foldl (fun registry e ↦ registry.insert e.1 e.2) ∅

-- The keys of a registry are distinct, so an object can hold it.
theorem Registry.toJson_ok (registry : Registry) : registry.toJson.Ok := by
  have hfields : ∀ es : List (Sigma fun _ : String ↦ TunnelRecord),
      Json.checkFields (fun keys ↦ keys.Nodup) (es.map fun e ↦ (e.1, e.2.toJson)) = true := by
    intro es
    induction es with
    | nil => rfl
    | cons e es ih => rw [List.map_cons, Json.checkFields, ih, Bool.and_true, e.2.toJson_ok]
  have hkeys : (registry.entries.reverse.map fun e ↦ (e.1, e.2.toJson)).map Prod.fst =
      registry.keys.reverse := by
    rw [List.map_map, List.map_reverse]
    rfl
  rw [Json.Ok, toJson, Json.check, hkeys, hfields, Bool.and_true, decide_eq_true_eq,
    List.nodup_reverse]
  exact registry.keys_nodup

/-- Entries inserted one after the other, the oldest first, make the map they were taken from. -/
theorem foldr_insert : ∀ {entries : List (Sigma fun _ : String ↦ TunnelRecord)}
    (h : entries.NodupKeys),
    entries.foldr (fun e (registry : Registry) ↦ registry.insert e.1 e.2) ∅ = ⟨entries, h⟩
  | [], _ => rfl
  | ⟨k, r⟩ :: entries, h => by
    rw [List.foldr_cons, foldr_insert (List.nodupKeys_cons.mp h).2]
    exact (AList.mk_cons_eq_insert ⟨k, r⟩ entries h).symm

-- Entries are inserted one after the other, which gives back the map they came from.
theorem Registry.ofJson_toJson (registry : Registry) : ofJson registry.toJson = some registry := by
  have hread : ∀ es : List (Sigma fun _ : String ↦ TunnelRecord),
      (es.map fun e ↦ (e.1, e.2.toJson)).mapM
        (fun e ↦ (TunnelRecord.ofJson e.2).map (e.1, ·)) =
        some (es.map fun e ↦ (e.1, e.2)) := by
    intro es
    induction es with
    | nil => rfl
    | cons e es ih =>
      rw [List.map_cons, List.mapM_cons, ih, TunnelRecord.ofJson_toJson]
      rfl
  rw [ofJson, toJson, Json.asObj, Option.bind_eq_bind, Option.bind_some, hread,
    Option.bind_eq_bind, Option.bind_some, List.map_reverse, List.foldl_reverse,
    List.foldr_map]
  exact congrArg some (foldr_insert registry.nodupKeys)

section

variable (json : JsonText)

/-- `serde_json::to_vec` of the registry. -/
def serialize (registry : Registry) : Bytes := json.toVec registry.toJson

/-- `serde_json::from_slice` of a registry. -/
def parse (data : Bytes) : Option Registry := (json.fromSlice data).bind Registry.ofJson

theorem parse_serialize (registry : Registry) :
    parse json (serialize json registry) = some registry := by
  rw [parse, serialize, json.fromSlice_toVec _ registry.toJson_ok, Option.bind_some,
    registry.ofJson_toJson]

/-- The registry that a state file with these bytes stands for: what cannot be read or parsed is
an empty one, and what has expired is left out. -/
def restore (now : UInt64) (content : Option Bytes) : Registry :=
  match content with
  | none => ∅
  | some data =>
    match parse json data with
    | some registry => registry.retain fun record ↦ !record.isExpired now
    | none => ∅

theorem restore_serialize (now : UInt64) (registry : Registry) :
    restore json now (some (serialize json registry)) =
      registry.retain fun record ↦ !record.isExpired now := by
  rw [restore, parse_serialize]

end

end LabStreamGate.Gateway
