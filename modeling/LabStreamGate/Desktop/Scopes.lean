import LabStreamGate.Library.FirstMatch
import LabStreamGate.Library.Http
import LabStreamGate.Desktop.Models

/-!
# The list of scopes

What the handlers of `/connect` and the buttons of the client do to the list of scopes, and the
two tests that are made on it: the one of the CORS layer and whether the user allowed an origin.
-/

namespace LabStreamGate.Desktop

/-- `origin`: the `Origin` header as text, empty where there is none. -/
def origin (header : Option HeaderValue) : String := (header.bind HeaderValue.toStr).getD ""

def hasHost (scopes : List ScopeData) (host : String) : Bool :=
  scopes.any fun scope ↦ scope.host == host

/-- The scope with this host is there and the user allowed it. -/
def isAllowed (scopes : List ScopeData) (host : String) : Bool :=
  scopes.any fun scope ↦ scope.host == host && scope.state == "allowed"

/-- The predicate of the CORS layer before `/pool` and `/popup`. -/
def corsAllows (scopes : List ScopeData) (value : HeaderValue) : Bool :=
  scopes.any fun scope ↦ endsWith (origin (some value)) scope.host

/-- The scope that a request for control asks for. -/
def requestedScope (host : String) (body : Option ScopeData) : ScopeData :=
  match body with
  | some data =>
    { host := host
      name := if data.name = "" then host else data.name
      state := "pending"
      features := data.features
      settings := data.settings }
  | none =>
    { host := host
      name := host
      state := "pending"
      features := FeatureFlags.basic
      settings := Settings.empty }

def updateWebsiteInfo (scopes : List ScopeData) (host : String) (data : ScopeData) :
    List ScopeData :=
  updateFirst (fun scope ↦ scope.host == host)
    (fun scope ↦
      { scope with name := data.name, features := data.features, settings := data.settings })
    scopes

def allowScope (scopes : List ScopeData) (host : String) : List ScopeData :=
  updateFirst (fun scope ↦ scope.host == host) (fun scope ↦ { scope with state := "allowed" })
    scopes

def removeScope (scopes : List ScopeData) (host : String) : List ScopeData :=
  scopes.eraseP fun scope ↦ scope.host == host

/-- No two scopes have one host. -/
def DistinctHosts (scopes : List ScopeData) : Prop := (scopes.map ScopeData.host).Nodup

variable {scopes : List ScopeData} {host other : String} {body : Option ScopeData}
  {data : ScopeData} {value : HeaderValue}

@[simp] theorem requestedScope_host : (requestedScope host body).host = host := by
  cases body <;> rfl

@[simp] theorem requestedScope_state : (requestedScope host body).state = "pending" := by
  cases body <;> rfl

theorem hasHost_iff : hasHost scopes host = true ↔ ∃ scope ∈ scopes, scope.host = host := by
  simp [hasHost]

theorem hasHost_iff_mem : hasHost scopes host = true ↔ host ∈ scopes.map ScopeData.host := by
  rw [hasHost_iff, List.mem_map]

theorem isAllowed_iff :
    isAllowed scopes host = true ↔
      ∃ scope ∈ scopes, scope.host = host ∧ scope.state = "allowed" := by
  simp [isAllowed]

theorem corsAllows_iff : corsAllows scopes value = true ↔
    ∃ scope ∈ scopes, scope.host.toList <:+ (origin (some value)).toList := by
  simp [corsAllows, endsWith_iff]

/-! ## Hosts stay distinct -/

theorem hosts_updateWebsiteInfo :
    (updateWebsiteInfo scopes host data).map ScopeData.host = scopes.map ScopeData.host :=
  map_updateFirst fun _ ↦ rfl

theorem hosts_allowScope :
    (allowScope scopes host).map ScopeData.host = scopes.map ScopeData.host :=
  map_updateFirst fun _ ↦ rfl

-- `request_control` looks for the host before it pushes.
theorem DistinctHosts.push (h : DistinctHosts scopes) (hnew : hasHost scopes host = false) :
    DistinctHosts (scopes ++ [requestedScope host body]) := by
  have hnot : host ∉ scopes.map ScopeData.host := by
    rw [← hasHost_iff_mem, hnew]
    exact Bool.false_ne_true
  rw [DistinctHosts, List.map_append, List.nodup_append]
  refine ⟨h, List.nodup_singleton _, ?_⟩
  intro a ha b hb hab
  rw [List.map_singleton, List.mem_singleton, requestedScope_host] at hb
  exact hnot (hb ▸ hab ▸ ha)

theorem DistinctHosts.update (h : DistinctHosts scopes) :
    DistinctHosts (updateWebsiteInfo scopes host data) := by
  rwa [DistinctHosts, hosts_updateWebsiteInfo]

theorem DistinctHosts.allow (h : DistinctHosts scopes) :
    DistinctHosts (allowScope scopes host) := by
  rwa [DistinctHosts, hosts_allowScope]

theorem DistinctHosts.remove (h : DistinctHosts scopes) :
    DistinctHosts (removeScope scopes host) :=
  h.sublist ((List.eraseP_sublist ..).map _)

/-! ## Who is allowed -/

theorem isAllowed_push :
    isAllowed (scopes ++ [requestedScope host body]) other = isAllowed scopes other := by
  simp [isAllowed]

/-- The host and the state of a scope are not a website's to change. -/
theorem isAllowed_updateWebsiteInfo :
    isAllowed (updateWebsiteInfo scopes host data) other = isAllowed scopes other := by
  have hmap : ∀ l : List ScopeData, isAllowed l other =
      (l.map fun scope ↦ (scope.host, scope.state)).any
        fun e ↦ e.1 == other && e.2 == "allowed" := by
    intro l
    rw [List.any_map]
    rfl
  rw [hmap, hmap]
  exact congrArg (List.any · _) (map_updateFirst fun _ ↦ rfl)

-- The button allows the first scope with the host, which is enough to be allowed.
theorem isAllowed_allowScope_self (h : hasHost scopes host = true) :
    isAllowed (allowScope scopes host) host = true := by
  obtain ⟨scope, hscope, hhost⟩ := hasHost_iff.mp h
  have hfirst : ∃ scope ∈ scopes, (scope.host == host) = true := ⟨scope, hscope, by simp [hhost]⟩
  obtain ⟨scope, -, hhost, hmem⟩ := exists_mem_updateFirst hfirst
  exact isAllowed_iff.mpr ⟨_, hmem, beq_iff_eq.mp hhost, rfl⟩

-- The state of another host is not touched.
theorem isAllowed_allowScope_of_ne (h : other ≠ host) :
    isAllowed (allowScope scopes host) other = isAllowed scopes other := by
  rw [Bool.eq_iff_iff, isAllowed_iff, isAllowed_iff]
  constructor
  · rintro ⟨scope, hscope, hother, hstate⟩
    rcases mem_updateFirst hscope with hscope | ⟨scope', -, hhost, rfl⟩
    · exact ⟨scope, hscope, hother, hstate⟩
    · exact absurd (hother.symm.trans (beq_iff_eq.mp hhost)) h
  · rintro ⟨scope, hscope, hother, hstate⟩
    refine ⟨scope, mem_updateFirst_of_not hscope ?_, hother, hstate⟩
    exact beq_eq_false_iff_ne.mpr (hother ▸ h)

-- A button for a host that is gone does nothing.
theorem allowScope_of_not_hasHost (h : hasHost scopes host = false) :
    allowScope scopes host = scopes := by
  induction scopes with
  | nil => rfl
  | cons scope scopes ih =>
    rw [hasHost, List.any_cons, Bool.or_eq_false_iff] at h
    rw [allowScope, updateFirst, if_neg (by simp [h.1])]
    exact congrArg _ (ih h.2)

-- Only the first scope with the host is removed, so the hosts have to be distinct here.
theorem isAllowed_removeScope_self (h : DistinctHosts scopes) :
    isAllowed (removeScope scopes host) host = false := by
  rw [Bool.eq_false_iff, Ne, isAllowed_iff]
  rintro ⟨scope, hscope, hhost, -⟩
  obtain ⟨first, l₁, l₂, -, hfirst, hl, herase⟩ :=
    List.exists_of_eraseP (p := fun scope : ScopeData ↦ scope.host == host)
      (List.mem_of_mem_eraseP hscope) (beq_iff_eq.mpr hhost)
  rw [removeScope, herase] at hscope
  rw [DistinctHosts, hl, List.map_append, List.map_cons, List.nodup_middle, List.nodup_cons] at h
  apply h.1
  rw [← List.map_append, List.mem_map]
  exact ⟨scope, hscope, hhost.trans (beq_iff_eq.mp hfirst).symm⟩

-- A scope with another host is neither taken out nor changed.
theorem isAllowed_removeScope_of_ne (h : other ≠ host) :
    isAllowed (removeScope scopes host) other = isAllowed scopes other := by
  rw [Bool.eq_iff_iff, isAllowed_iff, isAllowed_iff]
  constructor
  · rintro ⟨scope, hscope, hother⟩
    exact ⟨scope, List.mem_of_mem_eraseP hscope, hother⟩
  · rintro ⟨scope, hscope, hother⟩
    refine ⟨scope, (List.mem_eraseP_of_neg ?_).mpr hscope, hother⟩
    rw [beq_iff_eq, hother.1]
    exact h

end LabStreamGate.Desktop
