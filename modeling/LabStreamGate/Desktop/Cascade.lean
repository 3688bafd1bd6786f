import LabStreamGate.Desktop.Consent
import LabStreamGate.Desktop.Instances

/-!
# Removing a scope with its instances

`remove_scope` takes the scope out of its list and then clears the other list of the instances of
the scope.  A launch that has not come to the list by then is not held back: it adds its instance
to a scope that is gone.
-/

namespace LabStreamGate.Desktop

variable {toml : TomlText} {files : Fs String} {s t u : State} {a : Action} {o : Out}
  {tr tr₀ : List (Event State Action Out)} {host : String}

/-- A call of `remove_scope` has still to clear the instances of the scope. -/
def State.clears (s : State) (host : String) : Prop :=
  ∃ id, s.tasks id = some (.removeInstances host)

/-- Every call of `remove_scope` for the scope has cleared its instances, and there are none. -/
def Cleared (host : String) (s : State) : Prop :=
  ¬ s.clears host → ∀ i ∈ s.instances, i.data.scopeHost ≠ host

/-- A launch for the scope comes to the list of instances before they are cleared, or finds that
its address is taken. -/
def launchesBefore (host : String) (e : Event State Action Out) : Prop :=
  ∀ data localAddr caller, e.pre.stepping e.act = some (.launchInstance data localAddr caller) →
    data.scopeHost = host → e.pre.clears host ∨ isTaken e.pre.instances localAddr = true

/-! ## One step -/

-- The scope is out of its list, and its instances are the next to go.
theorem clears_of_removed (hbelow : s.Below) (hm : Moved toml s a o t) (ho : o = .removed host) :
    t.clears host := by
  cases hm with
  | @run id io task e htask hrun =>
    cases run_ran hrun with
    | remove =>
      cases ho
      exact ⟨id, hbelow.apply_tasks_self htask⟩
    | quiet _ hout =>
      rw [State.keep_out] at ho
      rw [ho] at hout
      cases hout
    | _ => cases ho
  | _ => cases ho

-- A pending call stays where it is or takes the instances out.
theorem State.clears.step (hclears : s.clears host) (hbelow : s.Below) (hm : Moved toml s a o t) :
    t.clears host ∨ ∀ i ∈ t.instances, i.data.scopeHost ≠ host := by
  obtain ⟨id, ht⟩ := hclears
  cases hm with
  | reject => exact .inl ⟨id, ht⟩
  | spawn => exact .inl ⟨id, hbelow.spawn_tasks_of_some ht⟩
  | read => exact .inl ⟨id, ht⟩
  | overwrite => exact .inl ⟨id, ht⟩
  | @run id' io task e htask hrun =>
    by_cases hid : id = id'
    · subst hid
      obtain rfl := Option.some.inj (htask.symm.trans ht)
      cases io <;> cases hrun
      right
      intro i hi
      rw [State.apply_instances] at hi
      simpa using (List.mem_filter.mp hi).2
    · exact .inl ⟨id, hbelow.apply_tasks_of_ne hid ht⟩

/-- The instances after a step have the scopes of those before, unless one is launched. -/
theorem scopes_of_moved (hm : Moved toml s a o t) {i : ProxyInstance} (hi : i ∈ t.instances) :
    (∃ j ∈ s.instances, j.data.scopeHost = i.data.scopeHost) ∨
      ∃ data localAddr caller, s.stepping a = some (.launchInstance data localAddr caller) ∧
        data.scopeHost = i.data.scopeHost ∧ isTaken s.instances localAddr = false := by
  have hkey : ∀ {l : List ProxyInstance},
      l.map ProxyInstance.key = s.instances.map ProxyInstance.key → i ∈ l →
        ∃ j ∈ s.instances, j.data.scopeHost = i.data.scopeHost := by
    intro l heq hi
    obtain ⟨j, hj, hsame⟩ := exists_key heq hi
    exact ⟨j, hj, congrArg (fun k ↦ k.2.1.2) hsame⟩
  cases hm with
  | reject => exact .inl ⟨i, hi, rfl⟩
  | spawn => exact .inl ⟨i, hi, rfl⟩
  | read => exact .inl ⟨i, hi, rfl⟩
  | overwrite => exact .inl ⟨i, hi, rfl⟩
  | run htask hrun =>
    rw [State.apply_instances] at hi
    cases run_changed hrun with
    | keep hinstances => exact .inl ⟨i, hinstances ▸ hi, rfl⟩
    | relabel _ _ hinstances =>
      rw [hinstances] at hi
      exact .inl (hkey key_relabel hi)
    | measure hinstances =>
      rw [hinstances] at hi
      exact .inl (hkey key_measure hi)
    | add htaken _ _ _ hhost _ hinstances =>
      rw [hinstances] at hi
      rcases List.mem_append.mp hi with hi | hi
      · exact .inl ⟨i, hi, rfl⟩
      · obtain rfl := List.mem_singleton.mp hi
        exact .inr ⟨_, _, _, htask, hhost.symm, htaken⟩
    | close hinstances =>
      rw [hinstances] at hi
      exact .inl ⟨i, List.mem_of_mem_filter hi, rfl⟩
    | fall hinstances =>
      rw [hinstances] at hi
      exact .inl ⟨i, List.mem_of_mem_filter hi, rfl⟩
    | cascade hinstances =>
      rw [hinstances] at hi
      exact .inl ⟨i, List.mem_of_mem_filter hi, rfl⟩

theorem Cleared.step (h : Cleared host s) (hbelow : s.Below) (hm : Moved toml s a o t)
    (hlaunch : launchesBefore host ⟨s, a, o⟩) : Cleared host t := by
  by_cases hclears : s.clears host
  · rcases hclears.step hbelow hm with hstill | hnone
    · exact fun hnot ↦ absurd hstill hnot
    · exact fun _ ↦ hnone
  · intro _ i hi hhost
    rcases scopes_of_moved hm hi with ⟨j, hj, heq⟩ | ⟨data, localAddr, caller, hstep, heq, htaken⟩
    · exact h hclears j hj (heq.trans hhost)
    · rcases hlaunch data localAddr caller hstep (heq.trans hhost) with hstill | htaken'
      · exact hclears hstill
      · rw [htaken] at htaken'
        cases htaken'

/-- With its address free a launch ends with an instance of its scope in the list. -/
theorem launchInstance_leaves {data : InstanceData} {localAddr : String} {caller : Caller}
    (htaken : isTaken s.instances localAddr = false) :
    ∃ i ∈ (launchInstance s data localAddr caller).instances,
      i.data.scopeHost = data.scopeHost := by
  unfold launchInstance
  split
  · rename_i h
    exact absurd h (Bool.eq_false_iff.mp htaken)
  · dsimp only
    split
    · rename_i found hfound
      have hsame := List.find?_some hfound
      rw [Bool.and_eq_true, beq_iff_eq, beq_iff_eq] at hsame
      obtain ⟨i, hi, hkey⟩ := exists_key
        (@key_relabel s.instances data.remote data.scopeHost data.label).symm
        (List.mem_of_find?_eq_some hfound)
      have hscope : i.data.scopeHost = found.data.scopeHost := congrArg (fun k ↦ k.2.1.2) hkey
      exact ⟨i, hi, hscope.trans hsame.2⟩
    · exact ⟨_, List.mem_append_right _ (List.mem_singleton_self _), rfl⟩

-- It goes on to answer and to ping, and neither clears anything.
theorem launchInstance_tasks {data : InstanceData} {localAddr : String} {caller : Caller} :
    (launchInstance s data localAddr caller).task ≠ some (.removeInstances host) ∧
      (launchInstance s data localAddr caller).spawned ≠ some (.removeInstances host) := by
  have hresume : ∀ status reply, caller.resume status reply ≠ some (.removeInstances host) := by
    intro status reply
    cases caller <;> simp [Caller.resume]
  unfold launchInstance
  split
  · exact ⟨hresume _ _, by simp⟩
  · dsimp only
    split
    · exact ⟨hresume _ _, by simp⟩
    · exact ⟨hresume _ _, by simp⟩

/-- A launch that comes too late leaves an instance behind. -/
theorem not_cleared_of_launch {data : InstanceData} {localAddr : String} {caller : Caller}
    (hm : Moved toml s a o t)
    (hstep : s.stepping a = some (.launchInstance data localAddr caller))
    (hnot : ¬ s.clears data.scopeHost) (htaken : isTaken s.instances localAddr = false) :
    ¬ Cleared data.scopeHost t := by
  cases hm with
  | @run id io task e htask hrun =>
    obtain rfl := Option.some.inj (htask.symm.trans hstep)
    cases io <;> cases hrun
    intro hcleared
    obtain ⟨i, hi, hscope⟩ := @launchInstance_leaves s data localAddr caller htaken
    refine hcleared ?_ i (State.apply_instances.symm ▸ hi) hscope
    rintro ⟨id', ht⟩
    obtain ⟨htask', hspawned⟩ := @launchInstance_tasks s data.scopeHost data localAddr caller
    rcases State.apply_tasks ht with ⟨-, ht⟩ | ⟨-, ht⟩ | ht
    · exact htask' ht
    · exact hnot ⟨id', ht⟩
    · exact hspawned ht
  | reject hidle =>
    rw [hidle] at hstep
    cases hstep
  | spawn hidle =>
    rw [hidle] at hstep
    cases hstep
  | _ => cases hstep

/-! ## Every run -/

/-- From the step on in which `remove_scope` takes a scope out of the list, the scope has no
instance whenever no call is about to clear them, if and only if every launch for it comes to the
list of instances before they are cleared, or finds its address taken. -/
theorem removed_scope_has_none (h₀ : Run (next toml) (State.spawnBackground files) tr₀ s)
    (hremove : next toml s a = some (.removed host, u)) (h : Run (next toml) u tr t) :
    (∀ tr₁ tr₂ v, tr = tr₁ ++ tr₂ → Run (next toml) u tr₁ v → Cleared host v) ↔
      ∀ e ∈ tr, launchesBefore host e := by
  have hstart : Run (next toml) (State.spawnBackground files) _ u := h₀.snoc hremove
  constructor
  · intro hall e he data localAddr caller hstep hhost
    obtain ⟨tr₁, tr₂, rfl⟩ := List.append_of_mem he
    obtain ⟨v, hbefore, hnext, -⟩ := h.cut
    by_contra hnot
    rw [not_or, Bool.not_eq_true] at hnot
    subst hhost
    refine not_cleared_of_launch (next_moved hnext) hstep hnot.1 hnot.2 ?_
    exact hall (tr₁ ++ [e]) tr₂ v (by simp) (hbefore.snoc hnext)
  · rintro hall tr₁ tr₂ v rfl hrun
    have hfirst : Cleared host u := by
      intro hnot
      exact absurd (clears_of_removed (below h₀) (next_moved hremove) rfl) hnot
    have hboth : v.Below ∧ Cleared host v := by
      refine hrun.invariant (I := fun v ↦ v.Below ∧ Cleared host v) (C := launchesBefore host)
        ⟨below hstart, hfirst⟩ ?_ fun e he ↦ hall e (List.mem_append_left _ he)
      rintro v b o w ⟨hbelow, hcleared⟩ hlaunch hnext
      have hm := next_moved hnext
      exact ⟨hbelow.step hm, hcleared.step hbelow hm hlaunch⟩
    exact hboth.2

/-- The step takes the scope out of the list. -/
def removes (host : String) (e : Event State Action Out) : Bool := e.out.removes host

theorem out_of_removes {e : Event State Action Out} (h : removes host e = true) :
    e.out = .removed host := by
  unfold removes Out.removes at h
  split at h
  · rename_i heq
    rw [heq, beq_iff_eq.mp h]
  · cases h

/-- The step is the one of a launch at the list of instances. -/
def comesToList (e : Event State Action Out) : Bool :=
  match e.pre.stepping e.act with
  | some (.launchInstance _ _ _) => true
  | _ => false

theorem launchesBefore_of_not_comesToList {e : Event State Action Out}
    (h : comesToList e = false) : launchesBefore host e := by
  intro data localAddr caller hstep
  rw [comesToList, hstep] at h
  cases h

-- The launch is over before the user removes the scope.
theorem removed_scope_has_none_sample : ∃ toml files tr₀ s a u tr t,
    Run (next toml) (State.spawnBackground files) tr₀ s ∧ s.instances ≠ [] ∧
      next toml s a = some (.removed "https://lab.example", u) ∧ Run (next toml) u tr t ∧
      ∀ tr₁ tr₂ v, tr = tr₁ ++ tr₂ → Run (next toml) u tr₁ v →
        Cleared "https://lab.example" v := by
  obtain ⟨tr₀, e, tr, t, hrun, -, hp⟩ :=
    exists_run_at (next .compact) (State.spawnBackground Fs.empty)
      (.load :: .load :: sampleRequest ++ [sampleLaunch, .run 1 (.bound "127.0.0.1:4000"), .run 1 .done,
        .removeScope "https://lab.example"])
      (.run 3 .done) [.run 3 .done]
      (fun _ e tr _ ↦ !e.pre.instances.isEmpty && removes "https://lab.example" e &&
        tr.all fun e ↦ !comesToList e)
      (by decide +kernel)
  simp only [Bool.and_eq_true, Bool.not_eq_true', List.isEmpty_eq_false_iff,
    List.all_eq_true] at hp
  obtain ⟨⟨hinstances, hremoves⟩, hnone⟩ := hp
  obtain ⟨u, hbefore, hnext, hafter⟩ := hrun.cut
  rw [out_of_removes hremoves] at hnext
  refine ⟨_, _, tr₀, e.pre, e.act, u, tr, t, hbefore, hinstances, hnext, hafter, ?_⟩
  exact (removed_scope_has_none hbefore hnext hafter).mpr fun e' he' ↦
    launchesBefore_of_not_comesToList (hnone e' he')

/-- The action starts a launch for the scope. -/
def Action.launches (host : String) (a : Action) : Bool :=
  match a.task with
  | some (.createListener data _) => data.scopeHost == host
  | _ => false

def Action.removesScope (host : String) : Action → Bool
  | .removeScope host' => host' == host
  | _ => false

/-- The user removes the scope while the listener of a launch is being bound; the launch then adds
its instance, and with nothing left to do the instance is still there. -/
theorem late_instance_stays : ¬ ∀ toml files tr₁ e tr₂ t host,
    Run (next toml) (State.spawnBackground files) (tr₁ ++ e :: tr₂) t →
    e.out = .removed host →
    (tr₁ ++ e :: tr₂).countP (fun e ↦ e.act.removesScope host) = 1 →
    (∀ e' ∈ tr₁, e'.act.launches host = true → hasHost e'.pre.scopes host = true) →
    (∀ e' ∈ tr₂, e'.act.launches host = false) → (∀ id, t.tasks id = none) →
      ∀ i ∈ t.instances, i.data.scopeHost ≠ host := by
  intro hall
  obtain ⟨tr₁, e, tr₂, t, hrun, -, hp⟩ :=
    exists_run_at (next .compact) (State.spawnBackground Fs.empty)
      (.load :: .load :: sampleRequest ++ [sampleLaunch, .run 1 (.bound "127.0.0.1:4000"),
        .removeScope "https://lab.example"])
      (.run 2 .done)
      ([.run 2 .done] ++ samplePersist 2 ++ [.run 1 .done, .run 1 .done, .run 3 (.pinged (.ok 1)),
        .run 3 .done])
      (fun tr₁ e tr₂ t ↦ removes "https://lab.example" e &&
        (tr₁ ++ e :: tr₂).countP (fun e ↦ e.act.removesScope "https://lab.example") == 1 &&
        tr₁.all (fun e ↦ !e.act.launches "https://lab.example" ||
          hasHost e.pre.scopes "https://lab.example") &&
        tr₂.all (fun e ↦ !e.act.launches "https://lab.example") &&
        (List.range t.nextTask).all (fun id ↦ (t.tasks id).isNone) &&
        t.instances.any fun i ↦ i.data.scopeHost == "https://lab.example")
      (by decide +kernel)
  simp only [Bool.and_eq_true, beq_iff_eq, List.all_eq_true, List.any_eq_true,
    Bool.not_eq_true'] at hp
  obtain ⟨⟨⟨⟨⟨hremoves, hcount⟩, hstarted⟩, hlate⟩, hidle⟩, i, hi, hhost⟩ := hp
  refine hall _ _ tr₁ e tr₂ t _ hrun (out_of_removes hremoves) hcount ?_ hlate ?_ i hi hhost
  · intro e' he' hlaunch
    simpa [hlaunch] using hstarted e' he'
  · exact (below hrun).all_idle (by simpa using hidle)

end LabStreamGate.Desktop
