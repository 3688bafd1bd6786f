import LabStreamGate.Desktop.Frame

/-!
# Who launches instances with the user's consent

A website asks for control, the user allows or declines it.  From an empty list of scopes on, a
scope is allowed exactly while the user's consent to it stands; the launch of an instance does not
ask for it.
-/

namespace LabStreamGate.Desktop

variable {toml : TomlText} {files : Fs String} {s t : State} {a : Action} {o : Out}
  {tr : List (Event State Action Out)} {host : String}

def Out.allows (host : String) : Out → Bool
  | .allowed host' => host' == host
  | _ => false

def Out.removes (host : String) : Out → Bool
  | .removed host' => host' == host
  | _ => false

/-- The user has allowed the scope `host` and has not removed it since. -/
def Consented (host : String) (tr : List (Event State Action Out)) : Prop :=
  Once (fun e ↦ e.out.allows host = true)
    (fun later ↦ ∀ e ∈ later, e.out.removes host = false) tr

/-- The state after the steps `tr` from an empty list of scopes. -/
structure Consistent (tr : List (Event State Action Out)) (s : State) : Prop where
  loader : s.loader = none
  distinct : DistinctHosts s.scopes
  consent : ∀ host, isAllowed s.scopes host = true ↔ Consented host tr

-- Before the first step nobody is allowed and nothing has been consented to.
theorem consistent_idle : Consistent [] (State.idle files) := by
  refine ⟨rfl, List.nodup_nil, fun host ↦ ?_⟩
  constructor
  · intro h
    cases h
  · rintro ⟨tr₁, e, tr₂, htr, -⟩
    simp at htr

/-- Who is allowed after a step. -/
theorem ScopesMoved.isAllowed_iff (h : ScopesMoved s o t) (hdistinct : DistinctHosts s.scopes) :
    isAllowed t.scopes host = true ↔
      o.allows host = true ∨ isAllowed s.scopes host = true ∧ o.removes host = false := by
  cases h with
  | kept hscopes hout =>
    rw [hscopes]
    cases o <;> simp_all [Out.changesScopes, Out.allows, Out.removes]
  | push _ hscopes =>
    rw [hscopes, isAllowed_push]
    simp [Out.allows, Out.removes]
  | update hscopes =>
    rw [hscopes, isAllowed_updateWebsiteInfo]
    simp [Out.allows, Out.removes]
  | @allow host' _ hhost hscopes =>
    rw [hscopes]
    by_cases heq : host = host'
    · subst heq
      simp [Out.allows, isAllowed_allowScope_self hhost]
    · rw [isAllowed_allowScope_of_ne heq]
      simp [Out.allows, Out.removes, Ne.symm heq]
  | @remove host' _ hscopes =>
    rw [hscopes]
    by_cases heq : host = host'
    · subst heq
      simp [Out.allows, Out.removes, isAllowed_removeScope_self hdistinct]
    · rw [isAllowed_removeScope_of_ne heq]
      simp [Out.allows, Out.removes, Ne.symm heq]

theorem Consistent.step (h : Consistent tr s) (hm : Moved toml s a o t) :
    Consistent (tr ++ [⟨s, a, o⟩]) t := by
  obtain ⟨hloader, hscopes⟩ := hm.scopes h.loader
  refine ⟨hloader, hscopes.distinct h.distinct, fun host ↦ ?_⟩
  rw [hscopes.isAllowed_iff h.distinct, h.consent, Consented, Consented, Once.snoc_iff]

/-- A scope is allowed exactly while the user's consent stands. -/
theorem consistent (h : Run (next toml) (State.idle files) tr s) : Consistent tr s :=
  h.history (P := Consistent) (C := fun _ ↦ True) consistent_idle
    (fun _ _ _ _ _ hc _ hnext ↦ hc.step (next_moved hnext)) (fun _ _ ↦ trivial)

/-! ## Launches -/

theorem stepping_added {i : ProxyInstance} (h : next toml s a = some (o, t)) (ho : o = .added i) :
    ∃ data localAddr caller, s.stepping a = some (.launchInstance data localAddr caller) ∧
      isTaken s.instances localAddr = false ∧
      isLaunched s.instances data.remote data.scopeHost = false ∧
      i.data.scopeHost = data.scopeHost := by
  cases next_moved h with
  | reject => cases ho
  | spawn => cases ho
  | read => cases ho
  | overwrite => cases ho
  | run htask hrun =>
    cases run_ran hrun with
    | launch htaken hlaunched hhost =>
      cases ho
      exact ⟨_, _, _, htask, htaken, hlaunched, hhost⟩
    | quiet _ _ hadded =>
      rw [State.keep_out] at ho
      rw [ho] at hadded
      cases hadded
    | _ => cases ho

-- Conversely that step adds one whenever neither of its two checks stops it.
theorem added_of_stepping {data : InstanceData} {localAddr : String} {caller : Caller}
    (h : next toml s a = some (o, t))
    (hstep : s.stepping a = some (.launchInstance data localAddr caller))
    (htaken : isTaken s.instances localAddr = false)
    (hlaunched : isLaunched s.instances data.remote data.scopeHost = false) :
    ∃ i, o = .added i ∧ i.data.scopeHost = data.scopeHost := by
  cases next_moved h with
  | run htask hrun =>
    obtain rfl := Option.some.inj (htask.symm.trans hstep)
    rename_i io e
    cases io with
    | done =>
      cases hrun
      exact launchInstance_added htaken hlaunched
    | _ => cases hrun
  | reject hidle =>
    rw [hidle] at hstep
    cases hstep
  | spawn hidle =>
    rw [hidle] at hstep
    cases hstep
  | _ => cases hstep

/-- Every instance that a website adds has the consent of the user at that moment, if and only if
each launch for a website finds that the user has allowed it and has not removed it since, or that
there is nothing to add: the address is taken, or the instance is there already. -/
theorem added_with_consent (h : Run (next toml) (State.idle files) tr t) :
    (∀ e ∈ tr, ∀ i, e.out = .added i → i.data.scopeHost ≠ defaultScope →
      isAllowed e.pre.scopes i.data.scopeHost = true) ↔
    ∀ tr₁ e tr₂, tr = tr₁ ++ e :: tr₂ → ∀ data localAddr caller,
      e.pre.stepping e.act = some (.launchInstance data localAddr caller) →
      data.scopeHost ≠ defaultScope →
        Consented data.scopeHost tr₁ ∨ isTaken e.pre.instances localAddr = true ∨
          isLaunched e.pre.instances data.remote data.scopeHost = true := by
  constructor
  · rintro hall tr₁ e tr₂ rfl data localAddr caller hstep hhost
    obtain ⟨u, hbefore, hnext, -⟩ := h.cut
    -- otherwise the launch adds an instance, which then has the consent
    by_contra hnot
    rw [not_or, not_or, Bool.not_eq_true, Bool.not_eq_true] at hnot
    obtain ⟨hconsent, htaken, hlaunched⟩ := hnot
    obtain ⟨i, hout, hi⟩ := added_of_stepping hnext hstep htaken hlaunched
    have hallowed := hall e (by simp) i hout (hi ▸ hhost)
    rw [hi] at hallowed
    exact hconsent (((consistent hbefore).consent _).mp hallowed)
  · intro hall e he i hout hhost
    obtain ⟨tr₁, tr₂, rfl⟩ := List.append_of_mem he
    obtain ⟨u, hbefore, hnext, -⟩ := h.cut
    obtain ⟨data, localAddr, caller, hstep, htaken, hlaunched, hi⟩ := stepping_added hnext hout
    rw [hi] at hhost ⊢
    rcases hall tr₁ e tr₂ rfl data localAddr caller hstep hhost with hconsent | htaken' | hlaunched'
    · exact ((consistent hbefore).consent _).mpr hconsent
    · rw [htaken] at htaken'
      cases htaken'
    · rw [hlaunched] at hlaunched'
      cases hlaunched'

/-- Whether a website adds an instance and has no consent. -/
def addsUnasked (e : Event State Action Out) : Bool :=
  match e.out with
  | .added i => i.data.scopeHost != defaultScope && !isAllowed e.pre.scopes i.data.scopeHost
  | _ => false

theorem addsUnasked_iff {e : Event State Action Out} : addsUnasked e = true ↔
    ∃ i, e.out = .added i ∧ i.data.scopeHost ≠ defaultScope ∧
      isAllowed e.pre.scopes i.data.scopeHost = false := by
  unfold addsUnasked
  split
  · rename_i i hi
    simp [hi]
  · rename_i hnot
    simp only [Bool.false_eq_true, false_iff, not_exists, not_and]
    intro i hi
    exact absurd hi (hnot i)

-- A website asks, the user allows it, and the website launches an instance.
theorem added_with_consent_sample : ∃ toml files tr t,
    Run (next toml) (State.idle files) tr t ∧ tr.any (fun e ↦ e.out.isAdded) = true ∧
      ∀ tr₁ e tr₂, tr = tr₁ ++ e :: tr₂ → ∀ data localAddr caller,
        e.pre.stepping e.act = some (.launchInstance data localAddr caller) →
        data.scopeHost ≠ defaultScope →
          Consented data.scopeHost tr₁ ∨ isTaken e.pre.instances localAddr = true ∨
            isLaunched e.pre.instances data.remote data.scopeHost = true := by
  obtain ⟨tr, t, hrun, hp⟩ := exists_run (next .compact) (State.idle Fs.empty)
    [sampleConnect, .run 0 .done, .allowScope "https://lab.example", .run 1 .done, sampleLaunch,
      .run 2 (.bound "127.0.0.1:4000"), .run 2 .done]
    (fun tr _ ↦ tr.any (fun e ↦ e.out.isAdded) && tr.all fun e ↦ !addsUnasked e) (by decide +kernel)
  rw [Bool.and_eq_true, List.all_eq_true] at hp
  refine ⟨_, _, tr, t, hrun, hp.1, (added_with_consent hrun).mp ?_⟩
  intro e he i hi hhost
  by_contra hnot
  have hunasked := addsUnasked_iff.mpr ⟨i, hi, hhost, Bool.eq_false_iff.mpr hnot⟩
  simpa [hunasked] using hp.2 e he

/-- A website that never asked for control launches an instance. -/
theorem unasked_origin_adds : ¬ ∀ toml files tr t, Run (next toml) (State.idle files) tr t →
    ∀ e ∈ tr, ∀ i, e.out = .added i → i.data.scopeHost ≠ defaultScope →
      isAllowed e.pre.scopes i.data.scopeHost = true := by
  intro hall
  obtain ⟨tr, t, hrun, hp⟩ := exists_run (next .compact) (State.idle Fs.empty)
    [sampleLaunch, .run 0 (.bound "127.0.0.1:4000"), .run 0 .done]
    (fun tr _ ↦ tr.any addsUnasked) (by decide +kernel)
  obtain ⟨e, he, hunasked⟩ := List.any_eq_true.mp hp
  obtain ⟨i, hi, hhost, hnot⟩ := addsUnasked_iff.mp hunasked
  have hallowed := hall _ _ tr t hrun e he i hi hhost
  rw [hnot] at hallowed
  cases hallowed

end LabStreamGate.Desktop
