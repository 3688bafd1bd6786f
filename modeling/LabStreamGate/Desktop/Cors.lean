import LabStreamGate.Desktop.Consent

/-!
# The gate before `/pool` and `/popup`

The CORS layer lets an origin through that ends with the host of any scope, allowed or not.  It
agrees with the consent of the user on every origin only while there is no scope at all.
-/

namespace LabStreamGate.Desktop

variable {toml : TomlText} {files : Fs String} {s t : State} {a : Action} {o : Out}
  {tr : List (Event State Action Out)}

/-! ## Hosts are origins -/

/-- The text is that of some `Origin` header. -/
def IsOrigin (text : String) : Prop := ∃ value, origin (some value) = text

theorem isOrigin_origin (header : Option HeaderValue) : IsOrigin (origin header) := by
  cases header with
  | none => exact ⟨⟨[]⟩, rfl⟩
  | some value => exact ⟨value, rfl⟩

theorem origin_of_toStr {value : HeaderValue} {text : String} (h : value.toStr = some text) :
    origin (some value) = text := by
  rw [origin, Option.bind_some, h, Option.getD_some]

theorem IsOrigin.isHeaderText {text : String} (h : IsOrigin text) : IsHeaderText text := by
  obtain ⟨value, rfl⟩ := h
  cases hvalue : value.toStr with
  | some text => exact ⟨value, hvalue.trans (congrArg some (origin_of_toStr hvalue).symm)⟩
  | none =>
    refine ⟨⟨[]⟩, ?_⟩
    rw [origin, Option.bind_some, hvalue]
    rfl

/-- Scopes are made for origins only, also those still to be made. -/
structure OriginHosts (s : State) : Prop where
  loader : s.loader = none
  scopes : ∀ scope ∈ s.scopes, IsOrigin scope.host
  tasks : ∀ id host body, s.tasks id = some (.requestControl host body) → IsOrigin host

-- The host that a request for control carries is its `Origin` header, whatever its body says.
theorem host_of_task {host : String} {body : Option ScopeData}
    (h : a.task = some (.requestControl host body)) : IsOrigin host := by
  cases a with
  | pool header request =>
    cases request <;>
      simp only [Action.task, PoolRequest.task, Option.map_eq_some_iff, Option.some.injEq,
        reduceCtorEq, and_false, exists_false] at h
  | connect header request =>
    cases request with
    | post =>
      cases h
      exact isOrigin_origin header
    | get => cases h
    | patch =>
      simp only [Action.task, ConnectRequest.task, Option.map_eq_some_iff, reduceCtorEq,
        and_false, exists_false] at h
  | _ => cases h

-- It is enough that a step brings in no host and no request but those of an origin.
theorem OriginHosts.kept (h : OriginHosts s) (hloader : t.loader = s.loader)
    (hscopes : ∀ scope ∈ t.scopes, scope.host ∈ s.scopes.map ScopeData.host ∨ IsOrigin scope.host)
    (htasks : ∀ id host body, t.tasks id = some (.requestControl host body) →
      s.tasks id = some (.requestControl host body) ∨ IsOrigin host) : OriginHosts t := by
  refine ⟨hloader.trans h.loader, ?_, fun id host body ht ↦ ?_⟩
  · intro scope hscope
    rcases hscopes scope hscope with hold | hnew
    · obtain ⟨scope', hscope', hhost⟩ := List.mem_map.mp hold
      exact hhost ▸ h.scopes scope' hscope'
    · exact hnew
  · exact (htasks id host body ht).elim (h.tasks id host body) (fun horigin ↦ horigin)

-- Only `push` brings in a host, and it takes it from the request that was waiting.
theorem OriginHosts.step (h : OriginHosts s) (hm : Moved toml s a o t) : OriginHosts t := by
  have hsame : ∀ scope ∈ s.scopes,
      scope.host ∈ s.scopes.map ScopeData.host ∨ IsOrigin scope.host :=
    fun scope hscope ↦ .inl (List.mem_map_of_mem hscope)
  cases hm with
  | reject => exact h
  | spawn _ htask =>
    refine h.kept rfl hsame fun id host body ht ↦ ?_
    rcases State.spawn_tasks ht with rfl | ht
    · exact .inr (host_of_task htask)
    · exact .inl ht
  | read hloader =>
    rw [h.loader] at hloader
    cases hloader
  | overwrite hloader =>
    rw [h.loader] at hloader
    cases hloader
  | run htask hrun =>
    have hran := run_ran hrun
    refine h.kept State.apply_loader ?_ fun id host body ht ↦ ?_
    · rw [State.apply_scopes]
      cases hran with
      | push =>
        intro scope hscope
        rcases List.mem_append.mp hscope with hscope | hscope
        · exact hsame scope hscope
        · rw [List.mem_singleton.mp hscope, requestedScope_host]
          exact .inr (h.tasks _ _ _ htask)
      | @update host data =>
        intro scope hscope
        rw [← @hosts_updateWebsiteInfo s.scopes host data]
        exact .inl (List.mem_map_of_mem hscope)
      | @allow host =>
        intro scope hscope
        rw [← @hosts_allowScope s.scopes host]
        exact .inl (List.mem_map_of_mem hscope)
      | remove => exact fun scope hscope ↦ hsame scope (List.mem_of_mem_eraseP hscope)
      | _ => exact hsame
    · rcases State.apply_tasks ht with ⟨-, ht⟩ | ⟨-, ht⟩ | ht
      · cases hran.task_changesScopes ht
      · exact .inl ht
      · cases hran.spawned_isPlain ht

theorem originHosts_idle : OriginHosts (State.idle files) := by
  refine ⟨rfl, ?_, ?_⟩
  · intro scope hscope
    cases hscope
  · intro id host body ht
    cases ht

theorem originHosts (h : Run (next toml) (State.idle files) tr s) : OriginHosts s :=
  h.invariant (C := fun _ ↦ True) originHosts_idle
    (fun _ _ _ _ hi _ hnext ↦ hi.step (next_moved hnext)) (fun _ _ ↦ trivial)

/-! ## The gate -/

theorem corsAllows_of_isAllowed {scopes : List ScopeData} {value : HeaderValue}
    (h : isAllowed scopes (origin (some value)) = true) : corsAllows scopes value = true := by
  obtain ⟨scope, hscope, hhost, -⟩ := isAllowed_iff.mp h
  exact corsAllows_iff.mpr ⟨scope, hscope, hhost ▸ List.suffix_refl _⟩

/-- Next to any scope there is an origin that the gate lets through and nobody asked for. -/
theorem exists_corsAllows {scopes : List ScopeData} {scope : ScopeData} (hscope : scope ∈ scopes)
    (horigin : IsOrigin scope.host) :
    ∃ value, corsAllows scopes value = true ∧ hasHost scopes (origin (some value)) = false := by
  obtain ⟨value, longer, hvalue, hends, hnew⟩ :=
    horigin.isHeaderText.exists_new (scopes.map ScopeData.host)
  refine ⟨value, corsAllows_iff.mpr ⟨scope, hscope, ?_⟩, ?_⟩
  · rwa [origin_of_toStr hvalue]
  · rw [Bool.eq_false_iff, Ne, hasHost_iff, origin_of_toStr hvalue]
    rintro ⟨scope', hscope', hhost⟩
    exact hnew (List.mem_map.mpr ⟨scope', hscope', hhost⟩)

/-- For one origin the gate follows the user's consent where no host is its end, or where the user
has allowed it; for every origin it does so where there is no scope at all. -/
theorem cors_follows_consent (h : Run (next toml) (State.idle files) tr s) :
    (∀ value, (corsAllows s.scopes value = true ↔
        isAllowed s.scopes (origin (some value)) = true) ↔
      (∀ scope ∈ s.scopes, ¬ scope.host.toList <:+ (origin (some value)).toList) ∨
        isAllowed s.scopes (origin (some value)) = true) ∧
    ((∀ value, corsAllows s.scopes value = true ↔
        isAllowed s.scopes (origin (some value)) = true) ↔ s.scopes = []) := by
  constructor
  · intro value
    have hback := @corsAllows_of_isAllowed s.scopes value
    have hclosed : corsAllows s.scopes value = false ↔
        ∀ scope ∈ s.scopes, ¬ scope.host.toList <:+ (origin (some value)).toList := by
      rw [Bool.eq_false_iff, Ne, corsAllows_iff]
      simp only [not_exists, not_and]
    rw [← hclosed]
    cases hcors : corsAllows s.scopes value <;>
      cases hallowed : isAllowed s.scopes (origin (some value)) <;> simp_all
  · constructor
    · intro hexact
      -- any scope at all lets an origin through that no scope has
      by_contra hne
      obtain ⟨scope, hscope⟩ := List.exists_mem_of_ne_nil _ hne
      obtain ⟨value, hcors, hhost⟩ :=
        exists_corsAllows hscope ((originHosts h).scopes scope hscope)
      obtain ⟨scope', hscope', hhost', -⟩ := isAllowed_iff.mp ((hexact value).mp hcors)
      rw [hasHost_iff.mpr ⟨scope', hscope', hhost'⟩] at hhost
      cases hhost
    · intro hnil value
      rw [hnil]
      exact Iff.rfl

-- One allowed scope, and so an origin that passes without being allowed.
theorem cors_follows_consent_sample : ∃ toml files tr s,
    Run (next toml) (State.idle files) tr s ∧ isAllowed s.scopes "https://lab.example" = true ∧
      ∃ value, corsAllows s.scopes value = true ∧
        isAllowed s.scopes (origin (some value)) = false := by
  obtain ⟨tr, s, hrun, hp⟩ := exists_run (next .compact) (State.idle Fs.empty)
    [sampleConnect, .run 0 .done, .allowScope "https://lab.example", .run 1 .done]
    (fun _ s ↦ isAllowed s.scopes "https://lab.example") (by decide +kernel)
  refine ⟨_, _, tr, s, hrun, hp, ?_⟩
  by_contra hnot
  have hnil : s.scopes = [] := by
    refine (cors_follows_consent hrun).2.mp fun value ↦ ⟨fun hcors ↦ ?_, corsAllows_of_isAllowed⟩
    by_contra hallowed
    exact hnot ⟨value, hcors, Bool.eq_false_iff.mpr hallowed⟩
  rw [hnil] at hp
  cases hp

/-- A website that has only asked for control is let through. -/
theorem pending_origin_passes : ¬ ∀ toml files tr s, Run (next toml) (State.idle files) tr s →
    ∀ value, corsAllows s.scopes value = true ↔
      isAllowed s.scopes (origin (some value)) = true := by
  intro hall
  obtain ⟨tr, s, hrun, hp⟩ := exists_run (next .compact) (State.idle Fs.empty)
    [sampleConnect, .run 0 .done]
    (fun _ s ↦ corsAllows s.scopes sampleOrigin &&
      !isAllowed s.scopes (origin (some sampleOrigin))) (by decide +kernel)
  rw [Bool.and_eq_true, Bool.not_eq_true'] at hp
  have hallowed := (hall _ _ tr s hrun sampleOrigin).mp hp.1
  rw [hp.2] at hallowed
  cases hallowed

end LabStreamGate.Desktop
