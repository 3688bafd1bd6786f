import LabStreamGate.Desktop.Frame

/-!
# The list of instances

What a step of a task does to the list of instances, and that no two instances ever share a local
address, a remote within one scope, or a tunnel.
-/

namespace LabStreamGate.Desktop

variable {toml : TomlText} {files : Fs String} {s t : State} {task : Task} {io : Io} {e : Effect}
  {a : Action} {o : Out} {tr : List (Event State Action Out)} {instances : List ProxyInstance}

/-! ## One step of a task -/

/-- The first instance of the scope for this remote gets another label. -/
def relabel (instances : List ProxyInstance) (remote scope label : String) : List ProxyInstance :=
  updateFirst (fun i ↦ i.data.remote == remote && i.data.scopeHost == scope)
    (fun i ↦ { i with data := { i.data with label := label } }) instances

/-- The first instance for this remote gets another latency. -/
def measure (instances : List ProxyInstance) (remote : String) (latency : Int) :
    List ProxyInstance :=
  updateFirst (fun i ↦ i.data.remote == remote)
    (fun i ↦ { i with data := { i.data with latency := latency } }) instances

/-- The instances on other addresses. -/
def dropAddr (instances : List ProxyInstance) (localAddr : String) : List ProxyInstance :=
  instances.filter fun i ↦ i.data.localAddr != localAddr

/-- The instances of other scopes. -/
def dropScope (instances : List ProxyInstance) (host : String) : List ProxyInstance :=
  instances.filter fun i ↦ i.data.scopeHost != host

/-- What a step does to the instances. -/
inductive Changed (s : State) : Task → Effect → Prop
  | keep {task : Task} {e : Effect} : e.instances = s.instances → e.nextTunnel = s.nextTunnel →
      Changed s task e
  | relabel {data : InstanceData} {localAddr : String} {caller : Caller} {e : Effect} :
      isTaken s.instances localAddr = false →
      isLaunched s.instances data.remote data.scopeHost = true →
      e.instances = relabel s.instances data.remote data.scopeHost data.label →
      e.nextTunnel = s.nextTunnel → Changed s (.launchInstance data localAddr caller) e
  | add {data : InstanceData} {localAddr : String} {caller : Caller} {i : ProxyInstance}
      {e : Effect} :
      isTaken s.instances localAddr = false →
      isLaunched s.instances data.remote data.scopeHost = false →
      i.data.localAddr = localAddr → i.data.remote = data.remote →
      i.data.scopeHost = data.scopeHost → i.tunnel = s.nextTunnel →
      e.instances = s.instances ++ [i] → e.nextTunnel = s.nextTunnel + 1 →
      Changed s (.launchInstance data localAddr caller) e
  | close {localAddr : String} {caller : Caller} {e : Effect} :
      e.instances = dropAddr s.instances localAddr → e.nextTunnel = s.nextTunnel →
      Changed s (.removeInstance localAddr caller) e
  | fall {localAddr : String} {rest : List InstanceData} {e : Effect} :
      e.instances = dropAddr s.instances localAddr → e.nextTunnel = s.nextTunnel →
      Changed s (.pingfallRemove localAddr rest) e
  | cascade {host : String} {e : Effect} :
      e.instances = dropScope s.instances host → e.nextTunnel = s.nextTunnel →
      Changed s (.removeInstances host) e
  | measure {data : InstanceData} {result : Except LatencyError Int}
      {rest : Option (List InstanceData)} {e : Effect} :
      e.instances = measure s.instances data.remote (elapsed result) →
      e.nextTunnel = s.nextTunnel → Changed s (.updateInstanceState data result rest) e

-- The three ways in which `launch_instance` can go.
theorem launchInstance_changed {data : InstanceData} {localAddr : String} {caller : Caller} :
    Changed s (.launchInstance data localAddr caller)
      (launchInstance s data localAddr caller) := by
  unfold launchInstance
  split
  · exact .keep rfl rfl
  · rename_i htaken
    have htaken : isTaken s.instances localAddr = false := Bool.eq_false_iff.mpr htaken
    dsimp only
    split
    · rename_i found hfound
      have hsame := List.find?_some hfound
      have hmem := List.mem_of_find?_eq_some hfound
      exact .relabel htaken (List.any_eq_true.mpr ⟨found, hmem, hsame⟩) rfl rfl
    · rename_i hnone
      exact .add htaken (List.any_eq_false.mpr (List.find?_eq_none.mp hnone)) rfl rfl rfl rfl rfl
        rfl

-- The two ways in which the check of `close_instance` can go.
theorem closeInstance_keep {localAddr scope : String} :
    (∃ text, closeInstance s localAddr scope =
      s.keep .silent (some (.respond .badRequest (.text text)))) ∨
    closeInstance s localAddr scope =
      s.keep .silent (some (.removeInstance localAddr .http)) := by
  unfold closeInstance
  split
  · exact .inl ⟨_, rfl⟩
  · split
    · exact .inr rfl
    · exact .inl ⟨_, rfl⟩

theorem closeInstance_instances {localAddr scope : String} :
    (closeInstance s localAddr scope).instances = s.instances ∧
      (closeInstance s localAddr scope).nextTunnel = s.nextTunnel := by
  rcases closeInstance_keep with ⟨_, h⟩ | h
  · rw [h]
    exact ⟨rfl, rfl⟩
  · rw [h]
    exact ⟨rfl, rfl⟩

-- The case analysis over tasks and answers, for the instances.
theorem run_changed (h : task.run toml s io = some e) : Changed s task e := by
  cases task <;> cases io <;> try (cases h; done)
  case launchInstance.done =>
    cases h
    exact launchInstance_changed
  case closeInstance.done =>
    cases h
    exact .keep closeInstance_instances.1 closeInstance_instances.2
  case removeInstance.done =>
    cases h
    exact .close rfl rfl
  case removeInstances.done =>
    cases h
    exact .cascade rfl rfl
  case pingfallRemove.done =>
    cases h
    exact .fall rfl rfl
  case updateInstanceState.done =>
    cases h
    exact .measure rfl rfl
  case requestControl.done =>
    simp only [Task.run, Option.ite_none_left_eq_some] at h
    obtain ⟨-, h⟩ := h
    split at h <;> cases h <;> exact .keep rfl rfl
  case updateWebsiteInfo.done =>
    simp only [Task.run, Option.ite_none_left_eq_some] at h
    obtain ⟨-, h⟩ := h
    split at h <;> cases h <;> exact .keep rfl rfl
  case allowScope.done =>
    simp only [Task.run, Option.ite_none_left_eq_some] at h
    obtain ⟨-, h⟩ := h
    cases h
    exact .keep rfl rfl
  case removeScope.done =>
    simp only [Task.run, Option.ite_none_left_eq_some] at h
    obtain ⟨-, h⟩ := h
    split at h <;> cases h <;> exact .keep rfl rfl
  case persistTo.file =>
    simp only [Task.run, Option.map_eq_some_iff] at h
    obtain ⟨r, -, rfl⟩ := h
    exact .keep rfl rfl
  case pingfall.done =>
    simp only [Task.run] at h
    split at h <;> cases h <;> exact .keep rfl rfl
  all_goals
    cases h
    exact .keep rfl rfl

/-! ## What stays of an instance -/

/-- All that an instance is known by; its label and its latency may change. -/
def ProxyInstance.key (i : ProxyInstance) : String × (String × String) × Nat :=
  (i.data.localAddr, (i.data.remote, i.data.scopeHost), i.tunnel)

theorem key_relabel {remote scope label : String} :
    (relabel instances remote scope label).map ProxyInstance.key =
      instances.map ProxyInstance.key :=
  map_updateFirst fun _ ↦ rfl

theorem key_measure {remote : String} {latency : Int} :
    (measure instances remote latency).map ProxyInstance.key = instances.map ProxyInstance.key :=
  map_updateFirst fun _ ↦ rfl

-- Lists with the same keys have the same instances, up to label and latency.
theorem exists_key {l : List ProxyInstance} {i : ProxyInstance}
    (h : l.map ProxyInstance.key = instances.map ProxyInstance.key) (hi : i ∈ l) :
    ∃ j ∈ instances, j.key = i.key := by
  have hmem : i.key ∈ l.map ProxyInstance.key := List.mem_map_of_mem hi
  rw [h] at hmem
  exact List.mem_map.mp hmem

/-- An instance of which nothing was known before has just been launched. -/
theorem launchInstance_mem_instances {data : InstanceData} {localAddr : String} {caller : Caller}
    {i : ProxyInstance} (hi : i ∈ (launchInstance s data localAddr caller).instances) :
    (launchInstance s data localAddr caller).out = .added i ∨
      ∃ j ∈ s.instances, j.key = i.key := by
  revert hi
  unfold launchInstance
  split
  · exact fun hi ↦ .inr ⟨i, hi, rfl⟩
  · dsimp only
    split
    · exact fun hi ↦ .inr (exists_key key_relabel hi)
    · intro hi
      rcases List.mem_append.mp hi with hi | hi
      · exact .inr ⟨i, hi, rfl⟩
      · rw [List.mem_singleton.mp hi]
        exact .inl rfl

theorem run_mem_instances {i : ProxyInstance} (h : task.run toml s io = some e)
    (hi : i ∈ e.instances) : e.out = .added i ∨ ∃ j ∈ s.instances, j.key = i.key := by
  cases run_changed h with
  | keep hinstances => exact .inr ⟨i, hinstances ▸ hi, rfl⟩
  | relabel _ _ hinstances => exact .inr (exists_key key_relabel (hinstances ▸ hi))
  | measure hinstances => exact .inr (exists_key key_measure (hinstances ▸ hi))
  | add =>
    cases io <;> cases h
    exact launchInstance_mem_instances hi
  | close hinstances => exact .inr ⟨i, (List.mem_filter.mp (hinstances ▸ hi)).1, rfl⟩
  | fall hinstances => exact .inr ⟨i, (List.mem_filter.mp (hinstances ▸ hi)).1, rfl⟩
  | cascade hinstances => exact .inr ⟨i, (List.mem_filter.mp (hinstances ▸ hi)).1, rfl⟩

theorem Moved.mem_instances {i : ProxyInstance} (hm : Moved toml s a o t) (hi : i ∈ t.instances) :
    o = .added i ∨ ∃ j ∈ s.instances, j.key = i.key := by
  cases hm with
  | reject => exact .inr ⟨i, hi, rfl⟩
  | spawn => exact .inr ⟨i, hi, rfl⟩
  | run _ hrun => exact run_mem_instances hrun (State.apply_instances ▸ hi)
  | read => exact .inr ⟨i, hi, rfl⟩
  | overwrite => exact .inr ⟨i, hi, rfl⟩

/-- A launch that succeeds answers with an instance that is in the list. -/
theorem launchInstance_resume {data : InstanceData} {localAddr : String} {caller : Caller} :
    ∃ status reply,
      (launchInstance s data localAddr caller).task = caller.resume status reply ∧
      (status = .ok → ∃ i ∈ (launchInstance s data localAddr caller).instances,
        i.data.scopeHost = data.scopeHost ∧
          ∃ d, reply = .instance d ∧ d.localAddr = i.data.localAddr) := by
  unfold launchInstance
  split
  · exact ⟨_, _, rfl, nofun⟩
  · dsimp only
    split
    · rename_i found hfound
      have hmem := List.mem_of_find?_eq_some hfound
      have hsame := List.find?_some hfound
      rw [Bool.and_eq_true, beq_iff_eq, beq_iff_eq] at hsame
      obtain ⟨j, hj, hkey⟩ := exists_key (key_relabel.symm) hmem
      refine ⟨_, _, rfl, fun _ ↦ ⟨j, hj, ?_, _, rfl, ?_⟩⟩
      · exact (congrArg (fun k ↦ k.2.1.2) hkey).trans hsame.2
      · exact (congrArg Prod.fst hkey).symm
    · exact ⟨_, _, rfl, fun _ ↦ ⟨_, List.mem_append_right _ (List.mem_singleton_self _), rfl, _,
        rfl, rfl⟩⟩

/-- The answer to a launch is for a later step. -/
theorem launchInstance_out {data : InstanceData} {localAddr : String} {caller : Caller}
    {status : StatusCode} {reply : Reply} :
    (launchInstance s data localAddr caller).out ≠ .responded status reply := by
  unfold launchInstance
  split
  · exact nofun
  · dsimp only
    split <;> exact nofun

/-! ## No two instances are alike -/

/-- Local addresses, remotes within a scope and tunnels are distinct. -/
structure Registered (s : State) : Prop where
  localAddrs : (s.instances.map fun i ↦ i.data.localAddr).Nodup
  remotes : (s.instances.map fun i ↦ (i.data.remote, i.data.scopeHost)).Nodup
  tunnels : (s.instances.map ProxyInstance.tunnel).Nodup
  below : ∀ i ∈ s.instances, i.tunnel < s.nextTunnel

theorem Registered.of_key (h : Registered s) (hnext : t.nextTunnel = s.nextTunnel)
    (hkey : t.instances.map ProxyInstance.key = s.instances.map ProxyInstance.key) :
    Registered t := by
  have hmap : ∀ {β : Type} (g : String × (String × String) × Nat → β),
      t.instances.map (fun i ↦ g i.key) = s.instances.map fun i ↦ g i.key := by
    intro β g
    have hg := congrArg (List.map g) hkey
    rwa [List.map_map, List.map_map] at hg
  have haddrs : t.instances.map (fun i ↦ i.data.localAddr) =
      s.instances.map fun i ↦ i.data.localAddr := hmap fun k ↦ k.1
  have hremotes : t.instances.map (fun i ↦ (i.data.remote, i.data.scopeHost)) =
      s.instances.map fun i ↦ (i.data.remote, i.data.scopeHost) := hmap fun k ↦ k.2.1
  have htunnels : t.instances.map ProxyInstance.tunnel = s.instances.map ProxyInstance.tunnel :=
    hmap fun k ↦ k.2.2
  refine ⟨haddrs ▸ h.localAddrs, hremotes ▸ h.remotes, htunnels ▸ h.tunnels, fun i hi ↦ ?_⟩
  obtain ⟨j, hj, heq⟩ := exists_key hkey hi
  have htunnel : j.tunnel = i.tunnel := congrArg (fun k ↦ k.2.2) heq
  rw [hnext, ← htunnel]
  exact h.below j hj

-- Taking instances out makes no two of the others alike.
theorem Registered.of_sublist (h : Registered s) (hnext : t.nextTunnel = s.nextTunnel)
    (hsub : t.instances.Sublist s.instances) : Registered t :=
  ⟨h.localAddrs.sublist (hsub.map _), h.remotes.sublist (hsub.map _),
    h.tunnels.sublist (hsub.map _), fun i hi ↦ hnext ▸ h.below i (hsub.subset hi)⟩

-- `launch_instance` has looked for both keys under the lock that it still holds.
theorem Registered.add {i : ProxyInstance} (h : Registered s)
    (htaken : isTaken s.instances i.data.localAddr = false)
    (hlaunched : isLaunched s.instances i.data.remote i.data.scopeHost = false)
    (htunnel : i.tunnel = s.nextTunnel) (hinstances : t.instances = s.instances ++ [i])
    (hnext : t.nextTunnel = s.nextTunnel + 1) : Registered t := by
  have hfresh : ∀ {β : Type} {g : ProxyInstance → β}, (s.instances.map g).Nodup →
      (∀ j ∈ s.instances, g j ≠ g i) → (t.instances.map g).Nodup := by
    intro β g hnodup hne
    rw [hinstances, List.map_append, List.nodup_append]
    refine ⟨hnodup, List.nodup_singleton _, ?_⟩
    intro x hx y hy
    obtain ⟨j, hj, rfl⟩ := List.mem_map.mp hx
    rw [List.map_singleton, List.mem_singleton] at hy
    rw [hy]
    exact hne j hj
  refine ⟨hfresh h.localAddrs ?_, hfresh h.remotes ?_, hfresh h.tunnels ?_, fun j hj ↦ ?_⟩
  · intro j hj heq
    exact absurd (List.any_eq_false.mp htaken j hj) (by simp [heq])
  · intro j hj heq
    obtain ⟨hremote, hscope⟩ := Prod.mk.inj heq
    exact absurd (List.any_eq_false.mp hlaunched j hj) (by simp [hremote, hscope])
  · intro j hj heq
    have hlt := h.below j hj
    omega
  · rw [hinstances] at hj
    rcases List.mem_append.mp hj with hj | hj
    · have hlt := h.below j hj
      omega
    · obtain rfl := List.mem_singleton.mp hj
      omega

theorem Registered.step (h : Registered s) (hm : Moved toml s a o t) : Registered t := by
  cases hm with
  | reject => exact h
  | spawn => exact ⟨h.localAddrs, h.remotes, h.tunnels, h.below⟩
  | read => exact ⟨h.localAddrs, h.remotes, h.tunnels, h.below⟩
  | overwrite => exact ⟨h.localAddrs, h.remotes, h.tunnels, h.below⟩
  | run _ hrun =>
    cases run_changed hrun with
    | keep hinstances hnext =>
      refine h.of_key (State.apply_nextTunnel.trans hnext) ?_
      rw [State.apply_instances, hinstances]
    | relabel _ _ hinstances hnext =>
      refine h.of_key (State.apply_nextTunnel.trans hnext) ?_
      rw [State.apply_instances, hinstances]
      exact key_relabel
    | measure hinstances hnext =>
      refine h.of_key (State.apply_nextTunnel.trans hnext) ?_
      rw [State.apply_instances, hinstances]
      exact key_measure
    | add htaken hlaunched haddr hremote hscope htunnel hinstances hnext =>
      rw [← haddr] at htaken
      rw [← hremote, ← hscope] at hlaunched
      exact h.add htaken hlaunched htunnel (State.apply_instances.trans hinstances)
        (State.apply_nextTunnel.trans hnext)
    | close hinstances hnext =>
      refine h.of_sublist (State.apply_nextTunnel.trans hnext) ?_
      rw [State.apply_instances, hinstances]
      exact List.filter_sublist
    | fall hinstances hnext =>
      refine h.of_sublist (State.apply_nextTunnel.trans hnext) ?_
      rw [State.apply_instances, hinstances]
      exact List.filter_sublist
    | cascade hinstances hnext =>
      refine h.of_sublist (State.apply_nextTunnel.trans hnext) ?_
      rw [State.apply_instances, hinstances]
      exact List.filter_sublist

theorem registered (h : Run (next toml) (State.spawnBackground files) tr s) : Registered s :=
  h.invariant (C := fun _ ↦ True) ⟨List.nodup_nil, List.nodup_nil, List.nodup_nil, nofun⟩
    (fun _ _ _ _ hr _ hnext ↦ hr.step (next_moved hnext)) (fun _ _ ↦ trivial)

/-- Whatever requests, buttons and the latency worker do, no two instances have one local address,
and no two of one scope have one remote. -/
theorem instances_unique (h : Run (next toml) (State.spawnBackground files) tr s) :
    (s.instances.map fun i ↦ i.data.localAddr).Nodup ∧
      (s.instances.map fun i ↦ (i.data.remote, i.data.scopeHost)).Nodup :=
  ⟨(registered h).localAddrs, (registered h).remotes⟩

/-- A website launches an instance, and the user one on the same remote; a second launch of the
website only changes the label. -/
theorem instances_unique_sample : ∃ toml files tr s,
    Run (next toml) (State.spawnBackground files) tr s ∧ s.instances.length = 2 ∧
      (s.instances.map fun i ↦ i.data.localAddr).Nodup ∧
      (s.instances.map fun i ↦ (i.data.remote, i.data.scopeHost)).Nodup := by
  obtain ⟨tr, s, hrun, hp⟩ := exists_run (next .compact) (State.spawnBackground Fs.empty)
    [sampleLaunch, .run 0 (.bound "127.0.0.1:4000"), .run 0 .done,
      .launch 1 "ws://lab:80" "127.0.0.1:0", sampleLaunch, .run 2 (.bound "127.0.0.1:4001"),
      .run 2 .done, .run 3 (.bound "127.0.0.1:4002"), .run 3 .done]
    (fun _ s ↦ s.instances.length == 2) (by decide +kernel)
  exact ⟨_, _, tr, s, hrun, beq_iff_eq.mp hp, instances_unique hrun⟩

end LabStreamGate.Desktop
