import LabStreamGate.Desktop.Consent

/-!
# The state of a scope

Whatever websites send, a scope is pending from the request that makes it until the user allows it,
and it is made anew, without the earlier consent, after the user has removed it.  A scope of the
list that the run began with keeps its state until the user allows it.
-/

namespace LabStreamGate.Desktop

variable {toml : TomlText} {s t : State} {a : Action} {o : Out}
  {tr : List (Event State Action Out)} {scopes : List ScopeData} {host state : String}

/-- A request has made the scope `host`. -/
def Out.pushes (host : String) : Out → Bool
  | .pushed scope => scope.host == host
  | _ => false

/-- A scope for `host` has been made. -/
def Created (host : String) (tr : List (Event State Action Out)) : Prop :=
  ∃ e ∈ tr, e.out.pushes host = true

/-- The user has allowed `host`, and no scope has been made for it since. -/
def AllowedSince (host : String) (tr : List (Event State Action Out)) : Prop :=
  Once (fun e ↦ e.out.allows host = true)
    (fun later ↦ ∀ e ∈ later, e.out.pushes host = false) tr

theorem created_snoc :
    Created host (tr ++ [⟨s, a, o⟩]) ↔ Created host tr ∨ o.pushes host = true := by
  simp [Created, or_and_right, exists_or]

theorem allowedSince_snoc : AllowedSince host (tr ++ [⟨s, a, o⟩]) ↔
    o.allows host = true ∨ AllowedSince host tr ∧ o.pushes host = false :=
  Once.snoc_iff

/-- The state that a scope of `host` has after the steps `tr` from the list `scopes`. -/
def StateAfter (scopes : List ScopeData) (tr : List (Event State Action Out))
    (host state : String) : Prop :=
  (AllowedSince host tr → state = "allowed") ∧
    (¬ AllowedSince host tr → Created host tr → state = "pending") ∧
    (¬ Created host tr → ∃ scope ∈ scopes, scope.host = host ∧
      (¬ AllowedSince host tr → state = scope.state))

/-! ## One step -/

theorem StateAfter.kept (h : StateAfter scopes tr host state) (hallows : o.allows host = false)
    (hpushes : o.pushes host = false) : StateAfter scopes (tr ++ [⟨s, a, o⟩]) host state := by
  have hallowed : AllowedSince host (tr ++ [⟨s, a, o⟩]) ↔ AllowedSince host tr := by
    rw [allowedSince_snoc, hallows, hpushes]
    simp
  have hcreated : Created host (tr ++ [⟨s, a, o⟩]) ↔ Created host tr := by
    rw [created_snoc, hpushes]
    simp
  unfold StateAfter
  rw [hallowed, hcreated]
  exact h

theorem StateAfter.allow (h : StateAfter scopes tr host state) (hallows : o.allows host = true) :
    StateAfter scopes (tr ++ [⟨s, a, o⟩]) host "allowed" := by
  have hallowed : AllowedSince host (tr ++ [⟨s, a, o⟩]) := allowedSince_snoc.mpr (.inl hallows)
  refine ⟨fun _ ↦ rfl, fun hnot ↦ absurd hallowed hnot, fun hnot ↦ ?_⟩
  obtain ⟨scope, hscope, hhost, -⟩ := h.2.2 fun hcreated ↦ hnot (created_snoc.mpr (.inl hcreated))
  exact ⟨scope, hscope, hhost, fun hnone ↦ absurd hallowed hnone⟩

-- An earlier consent does not count for the scope that is made now.
theorem StateAfter.push (hallows : o.allows host = false) (hpushes : o.pushes host = true) :
    StateAfter scopes (tr ++ [⟨s, a, o⟩]) host "pending" := by
  have hcreated : Created host (tr ++ [⟨s, a, o⟩]) := created_snoc.mpr (.inr hpushes)
  refine ⟨fun hallowed ↦ ?_, fun _ _ ↦ rfl, fun hnot ↦ absurd hcreated hnot⟩
  rw [allowedSince_snoc, hallows, hpushes] at hallowed
  simp at hallowed

-- Only one scope has the host, so all that have it after the button are allowed.
theorem state_allowScope {scope : ScopeData} (hdistinct : DistinctHosts scopes)
    (hscope : scope ∈ allowScope scopes host) :
    scope.host = host ∧ scope.state = "allowed" ∧ hasHost scopes host = true ∨
      scope.host ≠ host ∧ scope ∈ scopes := by
  rcases mem_updateFirst hscope with hold | ⟨scope', hold, hhost, rfl⟩
  · by_cases hhost : scope.host = host
    · have hfirst : ∃ scope ∈ scopes, (scope.host == host) = true :=
        ⟨scope, hold, beq_iff_eq.mpr hhost⟩
      obtain ⟨scope', -, hhost', hmem⟩ := exists_mem_updateFirst hfirst
      have heq := List.inj_on_of_nodup_map hdistinct.allow hscope hmem
        (hhost.trans (beq_iff_eq.mp hhost').symm)
      exact .inl ⟨hhost, heq ▸ rfl, hasHost_iff.mpr ⟨scope, hold, hhost⟩⟩
    · exact .inr ⟨hhost, hold⟩
  · exact .inl ⟨beq_iff_eq.mp hhost, rfl, hasHost_iff.mpr ⟨scope', hold, beq_iff_eq.mp hhost⟩⟩

-- A website changes neither the host nor the state of its scope.
theorem state_updateWebsiteInfo {scope data : ScopeData}
    (hscope : scope ∈ updateWebsiteInfo scopes host data) :
    ∃ scope' ∈ scopes, scope'.host = scope.host ∧ scope'.state = scope.state := by
  rcases mem_updateFirst hscope with hold | ⟨scope', hold, -, rfl⟩
  · exact ⟨scope, hold, rfl, rfl⟩
  · exact ⟨scope', hold, rfl, rfl⟩

/-- The state of every scope is explained by the steps `tr` from the list `scopes`. -/
structure Explained (scopes : List ScopeData) (tr : List (Event State Action Out)) (s : State) :
    Prop where
  loader : s.loader = none
  distinct : DistinctHosts s.scopes
  state : ∀ scope ∈ s.scopes, StateAfter scopes tr scope.host scope.state

theorem Explained.start (hloader : s.loader = none) (hdistinct : DistinctHosts s.scopes) :
    Explained s.scopes [] s := by
  refine ⟨hloader, hdistinct, fun scope hscope ↦
    ⟨?_, ?_, fun _ ↦ ⟨scope, hscope, rfl, fun _ ↦ rfl⟩⟩⟩
  · rintro ⟨tr₁, e, tr₂, htr, -⟩
    simp at htr
  · rintro - ⟨e, he, -⟩
    cases he

theorem Explained.step (h : Explained scopes tr s) (hm : Moved toml s a o t) :
    Explained scopes (tr ++ [⟨s, a, o⟩]) t := by
  obtain ⟨hloader, hmoved⟩ := hm.scopes h.loader
  refine ⟨hloader, hmoved.distinct h.distinct, fun scope hscope ↦ ?_⟩
  cases hmoved with
  | kept hscopes hout =>
    rw [hscopes] at hscope
    refine (h.state scope hscope).kept ?_ ?_
    · cases o <;> first | rfl | cases hout
    · cases o <;> first | rfl | cases hout
  | @push host body _ hnew hscopes =>
    rw [hscopes] at hscope
    rcases List.mem_append.mp hscope with hold | hmade
    · have hne : host ≠ scope.host := by
        rintro rfl
        rw [hasHost_iff.mpr ⟨scope, hold, rfl⟩] at hnew
        cases hnew
      refine (h.state scope hold).kept rfl ?_
      rw [Out.pushes, requestedScope_host]
      exact beq_eq_false_iff_ne.mpr hne
    · obtain rfl := List.mem_singleton.mp hmade
      rw [requestedScope_state]
      refine .push rfl ?_
      exact beq_self_eq_true _
  | update hscopes =>
    rw [hscopes] at hscope
    obtain ⟨scope', hold, hhost, hstate⟩ := state_updateWebsiteInfo hscope
    rw [← hhost, ← hstate]
    exact (h.state scope' hold).kept rfl rfl
  | allow _ hscopes =>
    rw [hscopes] at hscope
    rcases state_allowScope h.distinct hscope with ⟨hhost, hstate, hold⟩ | ⟨hne, hold⟩
    · obtain ⟨scope', hold, hhost'⟩ := hasHost_iff.mp hold
      have hbefore := h.state scope' hold
      rw [hhost', ← hhost] at hbefore
      rw [hstate]
      exact hbefore.allow (beq_iff_eq.mpr hhost.symm)
    · exact (h.state scope hold).kept (beq_eq_false_iff_ne.mpr hne.symm) rfl
  | remove hscopes =>
    rw [hscopes] at hscope
    exact (h.state scope (List.mem_of_mem_eraseP hscope)).kept rfl rfl

theorem explained (h : Run (next toml) s tr t) (hloader : s.loader = none)
    (hdistinct : DistinctHosts s.scopes) : Explained s.scopes tr t :=
  h.history (P := Explained s.scopes) (C := fun _ ↦ True) (.start hloader hdistinct)
    (fun _ _ _ _ _ hc _ hnext ↦ hc.step (next_moved hnext)) (fun _ _ ↦ trivial)

/-! ## Every run -/

/-- The hosts of the list stay distinct.  A scope that was not in the list at first, or was made
anew, is allowed exactly where the user has allowed it since it was made, and pending otherwise; one
that was kept has the state it had at first until the user allows it. -/
theorem scope_automaton (h : Run (next toml) s tr t) (hloader : s.loader = none)
    (hdistinct : DistinctHosts s.scopes) :
    DistinctHosts t.scopes ∧ ∀ scope ∈ t.scopes,
      (hasHost s.scopes scope.host = false → Created scope.host tr) ∧
      (Created scope.host tr →
        (scope.state = "allowed" ↔ AllowedSince scope.host tr) ∧
          (scope.state = "pending" ↔ ¬ AllowedSince scope.host tr)) ∧
      (¬ Created scope.host tr →
        (AllowedSince scope.host tr → scope.state = "allowed") ∧
          (¬ AllowedSince scope.host tr →
            ∃ scope₀ ∈ s.scopes, scope₀.host = scope.host ∧ scope.state = scope₀.state)) := by
  have hexplained := explained h hloader hdistinct
  refine ⟨hexplained.distinct, fun scope hscope ↦ ?_⟩
  obtain ⟨hallowed, hpending, hkept⟩ := hexplained.state scope hscope
  refine ⟨fun hnew ↦ ?_, fun hcreated ↦ ?_, fun hnot ↦ ⟨hallowed, fun hnone ↦ ?_⟩⟩
  · by_contra hnot
    obtain ⟨scope₀, hscope₀, hhost, -⟩ := hkept hnot
    rw [hasHost_iff.mpr ⟨scope₀, hscope₀, hhost⟩] at hnew
    cases hnew
  · by_cases hsince : AllowedSince scope.host tr
    · simp [hallowed hsince, hsince]
    · simp [hpending hsince hcreated, hsince]
  · obtain ⟨scope₀, hscope₀, hhost, hstate⟩ := hkept hnot
    exact ⟨scope₀, hscope₀, hhost, hstate hnone⟩

/-- What a website sends that gives itself out for another one, and for allowed. -/
def forgedBody : Json :=
  .obj [("host", .str "https://other.example"), ("name", .str ""), ("state", .str "allowed"),
    ("features", .arr []), ("settings", .obj [])]

/-- A website asks with a body that says it is allowed, the user allows it and removes it, and the
website asks once more. -/
theorem scope_automaton_sample : ∃ toml s tr t, Run (next toml) s tr t ∧
    t.scopes.map (fun scope ↦ scope.state) = ["pending"] ∧
    DistinctHosts t.scopes ∧ ∀ scope ∈ t.scopes,
      (hasHost s.scopes scope.host = false → Created scope.host tr) ∧
      (Created scope.host tr →
        (scope.state = "allowed" ↔ AllowedSince scope.host tr) ∧
          (scope.state = "pending" ↔ ¬ AllowedSince scope.host tr)) ∧
      (¬ Created scope.host tr →
        (AllowedSince scope.host tr → scope.state = "allowed") ∧
          (¬ AllowedSince scope.host tr →
            ∃ scope₀ ∈ s.scopes, scope₀.host = scope.host ∧ scope.state = scope₀.state)) := by
  obtain ⟨tr, t, hrun, hp⟩ := exists_run (next .compact) (State.idle Fs.empty)
    ([.connect (some sampleOrigin) (.post (some forgedBody)), .run 0 .done] ++ samplePersist 0 ++
      [.allowScope "https://lab.example", .run 1 .done] ++ samplePersist 1 ++
      [.removeScope "https://lab.example", .run 2 .done, .run 2 .done] ++ samplePersist 2 ++
      [.connect (some sampleOrigin) (.post (some forgedBody)), .run 3 .done])
    (fun _ t ↦ t.scopes.map (fun scope ↦ scope.state) == ["pending"]) (by decide +kernel)
  exact ⟨_, _, tr, t, hrun, beq_iff_eq.mp hp,
    scope_automaton hrun rfl List.nodup_nil⟩

end LabStreamGate.Desktop
