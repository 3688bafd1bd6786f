import LabStreamGate.Desktop.Instances

/-!
# What pingfall takes away

A pass of the latency worker goes over the instances that there were when it began.  It removes one
whose ping failed by its local address, which another instance may have taken by then.
-/

namespace LabStreamGate.Desktop

variable {toml : TomlText} {files : Fs String} {s t u : State} {task task' : Task} {io : Io}
  {e : Effect} {a : Action} {o : Out} {id : Nat} {tr tr₁ tr₂ : List (Event State Action Out)}
  {i : ProxyInstance} {datas : List InstanceData} {failed failed' : InstanceData → Prop}

/-! ## The steps of a pass -/

/-- The pass takes its snapshot. -/
def TakesSnapshot (id : Nat) (e : Event State Action Out) : Prop :=
  ∃ io, e.act = .run id io ∧ e.pre.tasks id = some .latencySnapshot

/-- The ping of the instance fails. -/
def PingFails (id : Nat) (data : InstanceData) (e : Event State Action Out) : Prop :=
  ∃ error rest, e.act = .run id (.pinged (.error error)) ∧
    e.pre.tasks id = some (.ping data (some rest))

/-- The pass removes the instances at the address. -/
def Removes (id : Nat) (localAddr : String) (e : Event State Action Out) : Prop :=
  ∃ io rest, e.act = .run id io ∧ e.pre.tasks id = some (.pingfallRemove localAddr rest)

/-- The instance itself was there when the pass began, and has not answered it. -/
def FailedItself (id : Nat) (tr : List (Event State Action Out)) (i : ProxyInstance) : Prop :=
  ∃ j : ProxyInstance, j.tunnel = i.tunnel ∧
    Once (fun e ↦ TakesSnapshot id e ∧ j ∈ e.pre.instances)
      (fun later ↦ ∃ e ∈ later, PingFails id j.data e) tr

/-- The instance was launched after the pass had begun. -/
def LaunchedSince (id : Nat) (tr : List (Event State Action Out)) (i : ProxyInstance) : Prop :=
  Once (TakesSnapshot id)
    (fun later ↦ ∃ e ∈ later, ∃ made, e.out = .added made ∧ made.tunnel = i.tunnel) tr

/-! ## A pass from its snapshot on -/

/-- The tasks of a pass after its snapshot. -/
def Task.inPass : Task → Bool
  | .ping _ (some _) => true
  | .updateInstanceState _ _ (some _) => true
  | .pingfall _ _ _ => true
  | .pingfallRemove _ _ => true
  | _ => false

/-- The task goes on with a pass over `datas`, of which the pings of some have failed. -/
inductive Task.Passes (datas : List InstanceData) (failed : InstanceData → Prop) : Task → Prop
  | ping {data : InstanceData} {rest : List InstanceData} : data :: rest ⊆ datas →
      Passes datas failed (.ping data (some rest))
  | update {data : InstanceData} {result : Except LatencyError Int} {rest : List InstanceData} :
      data :: rest ⊆ datas → (∀ error, result = .error error → failed data) →
      Passes datas failed (.updateInstanceState data result (some rest))
  | fall {data : InstanceData} {error : LatencyError} {rest : List InstanceData} :
      data :: rest ⊆ datas → failed data → Passes datas failed (.pingfall data error rest)
  | remove {data : InstanceData} {rest : List InstanceData} : data :: rest ⊆ datas → failed data →
      Passes datas failed (.pingfallRemove data.localAddr rest)

theorem passes_pingNext {rest : List InstanceData} (h : rest ⊆ datas)
    (ht : pingNext rest = some task) : task.Passes datas failed := by
  cases rest with
  | nil => cases ht
  | cons data rest =>
    cases ht
    exact .ping h

theorem Task.Passes.mono (h : task.Passes datas failed) (hle : ∀ data, failed data → failed' data) :
    task.Passes datas failed' := by
  cases h with
  | ping hsub => exact .ping hsub
  | update hsub hfailed => exact .update hsub fun error herror ↦ hle _ (hfailed error herror)
  | fall hsub hfailed => exact .fall hsub (hle _ hfailed)
  | remove hsub hfailed => exact .remove hsub (hle _ hfailed)

theorem Task.Passes.removed {localAddr : String} {rest : List InstanceData}
    (h : (Task.pingfallRemove localAddr rest).Passes datas failed) :
    ∃ data ∈ datas, data.localAddr = localAddr ∧ failed data := by
  cases h with
  | remove hsub hfailed => exact ⟨_, hsub List.mem_cons_self, rfl, hfailed⟩

/-- A pass goes on until it is over. -/
theorem Task.Passes.run (h : task.Passes datas failed) (hrun : task.run toml s io = some e)
    (hfails : ∀ data rest error, task = .ping data (some rest) → io = .pinged (.error error) →
      failed data) (ht : e.task = some task') : task'.Passes datas failed := by
  cases h with
  | @ping data rest hsub =>
    cases io <;> simp only [Task.run, reduceCtorEq] at hrun
    cases hrun
    cases ht
    exact .update hsub fun error herror ↦ hfails data rest error rfl (herror ▸ rfl)
  | @update data result rest hsub hfailed =>
    cases io <;> simp only [Task.run, reduceCtorEq] at hrun
    cases hrun
    cases result with
    | ok latency => exact passes_pingNext (List.cons_subset.mp hsub).2 ht
    | error error =>
      cases ht
      exact .fall hsub (hfailed error rfl)
  | @fall data error rest hsub hfailed =>
    cases io <;> simp only [Task.run, reduceCtorEq] at hrun
    split at hrun
    · cases hrun
      cases ht
      exact .remove hsub hfailed
    · cases hrun
      exact passes_pingNext (List.cons_subset.mp hsub).2 ht
  | @remove data rest hsub hfailed =>
    cases io <;> simp only [Task.run, reduceCtorEq] at hrun
    cases hrun
    exact passes_pingNext (List.cons_subset.mp hsub).2 ht

theorem resume_inPass {caller : Caller} {status : StatusCode} {reply : Reply}
    (ht : caller.resume status reply = some task') : task'.inPass = false := by
  cases caller <;> cases ht
  rfl

theorem launchInstance_inPass {data : InstanceData} {localAddr : String} {caller : Caller} :
    (∀ task', (launchInstance s data localAddr caller).task = some task' → task'.inPass = false) ∧
      ∀ task', (launchInstance s data localAddr caller).spawned = some task' →
        task'.inPass = false := by
  unfold launchInstance
  split
  · exact ⟨fun _ ht ↦ resume_inPass ht, fun _ ht ↦ by cases ht⟩
  · dsimp only
    split
    · exact ⟨fun _ ht ↦ resume_inPass ht, fun _ ht ↦ by cases ht⟩
    · refine ⟨fun _ ht ↦ resume_inPass ht, fun _ ht ↦ ?_⟩
      cases ht
      rfl

-- The case analysis over tasks and answers, for what leads into a pass.
theorem run_inPass (hrun : task.run toml s io = some e) (ht : e.task = some task')
    (hout : task.inPass = false) : task = .latencySnapshot ∨ task'.inPass = false := by
  cases task <;> cases io <;> try (cases hrun; done)
  case launchInstance.done =>
    cases hrun
    exact .inr (launchInstance_inPass.1 _ ht)
  case closeInstance.done =>
    cases hrun
    rcases closeInstance_keep with ⟨text, heq⟩ | heq
    · rw [heq] at ht
      cases ht
      exact .inr rfl
    · rw [heq] at ht
      cases ht
      exact .inr rfl
  case requestControl.done =>
    simp only [Task.run, Option.ite_none_left_eq_some] at hrun
    obtain ⟨-, hrun⟩ := hrun
    split at hrun <;> cases hrun <;> cases ht <;> exact .inr rfl
  case updateWebsiteInfo.done =>
    simp only [Task.run, Option.ite_none_left_eq_some] at hrun
    obtain ⟨-, hrun⟩ := hrun
    split at hrun <;> cases hrun <;> cases ht <;> exact .inr rfl
  case allowScope.done =>
    simp only [Task.run, Option.ite_none_left_eq_some] at hrun
    obtain ⟨-, hrun⟩ := hrun
    cases hrun
    cases ht
    exact .inr rfl
  case removeScope.done =>
    simp only [Task.run, Option.ite_none_left_eq_some] at hrun
    obtain ⟨-, hrun⟩ := hrun
    split at hrun
    · cases hrun
      cases ht
      exact .inr rfl
    · cases hrun
      cases ht
  case persistTo.file stage caller io =>
    simp only [Task.run, Option.map_eq_some_iff] at hrun
    obtain ⟨⟨files, stage'⟩, -, rfl⟩ := hrun
    cases stage' with
    | some stage' =>
      cases ht
      exact .inr rfl
    | none => exact .inr (resume_inPass ht)
  case createListener.refused =>
    cases hrun
    exact .inr (resume_inPass ht)
  case removeInstance.done =>
    cases hrun
    exact .inr (resume_inPass ht)
  case latencySnapshot.done => exact .inl rfl
  case ping.pinged data rest result =>
    cases rest with
    | some rest => cases hout
    | none =>
      cases hrun
      cases ht
      exact .inr rfl
  case updateInstanceState.done data result rest =>
    cases rest with
    | some rest => cases hout
    | none =>
      cases hrun
      cases result <;> cases ht
  case pingfall.done => cases hout
  case pingfallRemove.done => cases hout
  all_goals
    cases hrun
    cases ht <;> exact .inr rfl

/-- No step starts a pass, or one of its tasks, beside its own. -/
theorem run_spawned (hrun : task.run toml s io = some e) (ht : e.spawned = some task') :
    task'.inPass = false := by
  cases run_ran hrun <;> cases ht
  rfl

/-- Requests and buttons start no task in the middle of a pass. -/
theorem action_inPass (h : a.task = some task) : task.inPass = false := by
  cases a with
  | pool header request =>
    cases request with
    | get =>
      cases h
      rfl
    | post random body =>
      obtain ⟨data, -, rfl⟩ := Option.map_eq_some_iff.mp h
      rfl
    | delete body =>
      obtain ⟨localAddr, -, rfl⟩ := Option.map_eq_some_iff.mp h
      rfl
  | connect header request =>
    cases request with
    | get =>
      cases h
      rfl
    | post body =>
      cases h
      rfl
    | patch body =>
      obtain ⟨data, -, rfl⟩ := Option.map_eq_some_iff.mp h
      rfl
  | load => cases h
  | run => cases h
  | _ =>
    cases h
    rfl

/-- Before a task of a pass there was a snapshot. -/
theorem exists_takesSnapshot (h : Run (next toml) (State.spawnBackground files) tr s) :
    ∀ id task, s.tasks id = some task → task.inPass = true → ∃ e ∈ tr, TakesSnapshot id e := by
  refine h.history (P := fun l v ↦ ∀ id task, v.tasks id = some task → task.inPass = true →
    ∃ e ∈ l, TakesSnapshot id e) (C := fun _ ↦ True) spawnBackground_tasks ?_ (fun _ _ ↦ trivial)
  intro l v a o w ih _ hnext id task' ht hin
  have hearlier : ∀ task, v.tasks id = some task → task.inPass = true →
      ∃ e ∈ l ++ [⟨v, a, o⟩], TakesSnapshot id e := by
    intro task htask htaskin
    obtain ⟨e, he, hsnapshot⟩ := ih id task htask htaskin
    exact ⟨e, List.mem_append_left _ he, hsnapshot⟩
  cases next_moved hnext with
  | reject => exact hearlier task' ht hin
  | read => exact hearlier task' ht hin
  | overwrite => exact hearlier task' ht hin
  | @spawn a task hidle htask =>
    rcases State.spawn_tasks ht with rfl | hold
    · rw [action_inPass htask] at hin
      cases hin
    · exact hearlier task' hold hin
  | @run id₀ io task e htask hrun =>
    rcases State.apply_tasks ht with ⟨rfl, hafter⟩ | ⟨-, hold⟩ | hspawned
    · by_cases htaskin : task.inPass = true
      · exact hearlier task htask htaskin
      · rcases run_inPass hrun hafter (Bool.eq_false_iff.mpr htaskin) with rfl | hout
        · exact ⟨_, List.mem_append_right _ (List.mem_singleton_self _), io, rfl, htask⟩
        · rw [hout] at hin
          cases hin
    · exact hearlier task' hold hin
    · rw [run_spawned hrun hspawned] at hin
      cases hin

/-- From its snapshot on a task goes on with its pass, or is over. -/
theorem passes_of_run (h : Run (next toml) u tr t) (hbelow : u.Below) (hlt : id < u.nextTask)
    (hstart : ∀ task, u.tasks id = some task → task.Passes datas fun _ ↦ False) :
    ∀ task, t.tasks id = some task →
      task.Passes datas fun data ↦ ∃ e ∈ tr, PingFails id data e := by
  have hall := h.history (P := fun l v ↦ v.Below ∧ id < v.nextTask ∧ ∀ task, v.tasks id = some task →
    task.Passes datas fun data ↦ ∃ e ∈ l, PingFails id data e) (C := fun _ ↦ True)
    ⟨hbelow, hlt, fun task ht ↦ (hstart task ht).mono fun _ hfalse ↦ hfalse.elim⟩ ?_
    (fun _ _ ↦ trivial)
  · exact hall.2.2
  rintro l v a o w ⟨hb, hl, ih⟩ - hnext
  have hm := next_moved hnext
  have hearlier : ∀ data, (∃ e ∈ l, PingFails id data e) →
      ∃ e ∈ l ++ [⟨v, a, o⟩], PingFails id data e := by
    rintro data ⟨e, he, hfails⟩
    exact ⟨e, List.mem_append_left _ he, hfails⟩
  by_cases hother : ∀ io, a ≠ .run id io
  · obtain ⟨htasks, hle⟩ := hm.tasks_of_other hl hother
    refine ⟨hb.step hm, Nat.lt_of_lt_of_le hl hle, fun task ht ↦ ?_⟩
    exact (ih task (htasks ▸ ht)).mono hearlier
  · obtain ⟨io, rfl⟩ := not_forall_not.mp hother
    cases hm with
    | @run _ _ task e htask hrun =>
      refine ⟨hb.apply htask, Nat.lt_of_lt_of_le hl State.le_apply_nextTask, fun task' ht ↦ ?_⟩
      rw [hb.apply_tasks_self htask] at ht
      refine ((ih task htask).mono hearlier).run hrun ?_ ht
      rintro data rest error rfl rfl
      exact ⟨_, List.mem_append_right _ (List.mem_singleton_self _), error, rest, rfl, htask⟩
    | reject hidle =>
      refine ⟨hb, hl, fun task ht ↦ ?_⟩
      rw [show v.tasks id = none from hidle] at ht
      cases ht
    | spawn _ htask => cases htask

theorem TakesSnapshot.next {e : Event State Action Out} (h : TakesSnapshot id e)
    (hnext : next toml e.pre e.act = some (e.out, u)) :
    u = e.pre.apply id
      (e.pre.keep .silent (pingNext (e.pre.instances.map ProxyInstance.data))) := by
  obtain ⟨io, hact, htask⟩ := h
  rw [hact] at hnext
  simp only [Desktop.next, htask, Option.bind_some, Option.map_eq_some_iff, Prod.mk.injEq] at hnext
  obtain ⟨e', hrun, -, rfl⟩ := hnext
  cases io <;> cases hrun
  rfl

/-- A task of a run that has taken its snapshot passes over the instances that it found. -/
theorem passes_of_snapshot {e : Event State Action Out}
    (h : Run (next toml) (State.spawnBackground files) (tr₁ ++ e :: tr₂) s)
    (hsnapshot : TakesSnapshot id e) : ∀ task, s.tasks id = some task →
      task.Passes (e.pre.instances.map ProxyInstance.data) fun data ↦
        ∃ e ∈ tr₂, PingFails id data e := by
  obtain ⟨u, hbefore, hnext, hafter⟩ := h.cut
  have hb : e.pre.Below := below hbefore
  have htask : e.pre.tasks id = some .latencySnapshot := hsnapshot.choose_spec.2
  rw [hsnapshot.next hnext] at hafter
  refine passes_of_run hafter (hb.apply htask)
    (Nat.lt_of_lt_of_le (hb.lt htask) State.le_apply_nextTask) fun task ht ↦ ?_
  rw [hb.apply_tasks_self htask] at ht
  exact passes_pingNext (List.Subset.refl _) ht

/-- A task takes its snapshot once. -/
theorem takesSnapshot_once {e e' : Event State Action Out} {l : List (Event State Action Out)}
    (h : Run (next toml) (State.spawnBackground files) (tr₁ ++ e :: (l ++ e' :: tr₂)) s)
    (hfirst : TakesSnapshot id e) : ¬ TakesSnapshot id e' := by
  rintro ⟨io, -, htask⟩
  rw [← List.cons_append, ← List.append_assoc] at h
  obtain ⟨u, hbefore, -, -⟩ := h.cut
  cases passes_of_snapshot hbefore hfirst _ htask

/-- Two snapshots of one task are one. -/
theorem takesSnapshot_unique {e e' : Event State Action Out}
    {tr₁' tr₂' : List (Event State Action Out)}
    (h : Run (next toml) (State.spawnBackground files) (tr₁ ++ e :: tr₂) s)
    (heq : tr₁ ++ e :: tr₂ = tr₁' ++ e' :: tr₂') (hsnapshot : TakesSnapshot id e)
    (hsnapshot' : TakesSnapshot id e') : e = e' ∧ tr₂ = tr₂' := by
  rcases List.append_eq_append_iff.mp heq with ⟨l, rfl, hl⟩ | ⟨l, rfl, hl⟩
  · cases l with
    | nil =>
      cases hl
      exact ⟨rfl, rfl⟩
    | cons e₀ l =>
      cases hl
      exact absurd hsnapshot' (takesSnapshot_once h hsnapshot)
  · cases l with
    | nil =>
      cases hl
      exact ⟨rfl, rfl⟩
    | cons e₀ l =>
      cases hl
      rw [List.append_assoc, List.cons_append] at h
      exact absurd hsnapshot (takesSnapshot_once h hsnapshot')

/-! ## Instances that come and go -/

theorem launchInstance_tunnel {data : InstanceData} {localAddr : String} {caller : Caller}
    (h : (launchInstance s data localAddr caller).out = .added i) : i.tunnel = s.nextTunnel := by
  unfold launchInstance at h
  split at h
  · cases h
  · dsimp only at h
    split at h
    · cases h
    · cases h
      rfl

theorem run_added (hrun : task.run toml s io = some e) (h : e.out = .added i) :
    i.tunnel = s.nextTunnel := by
  cases run_ran hrun with
  | @quiet _ _ o _ _ _ _ hadded =>
    obtain rfl : o = .added i := h
    cases hadded
  | launch => exact launchInstance_tunnel ((congrArg Effect.out (Option.some.inj hrun)).trans h)
  | _ => cases h

/-- A launched instance has a number that none had before. -/
theorem Moved.tunnel (hm : Moved toml s a o t) :
    s.nextTunnel ≤ t.nextTunnel ∧ ∀ made, o = .added made → s.nextTunnel ≤ made.tunnel := by
  cases hm with
  | @run id io task e _ hrun =>
    rw [State.apply_nextTunnel]
    refine ⟨?_, fun made hout ↦ Nat.le_of_eq (run_added hrun hout).symm⟩
    cases run_changed hrun with
    | add _ _ _ _ _ _ _ hnext => exact hnext ▸ Nat.le_succ _
    | keep _ hnext => exact Nat.le_of_eq hnext.symm
    | relabel _ _ _ hnext => exact Nat.le_of_eq hnext.symm
    | close _ hnext => exact Nat.le_of_eq hnext.symm
    | fall _ hnext => exact Nat.le_of_eq hnext.symm
    | cascade _ hnext => exact Nat.le_of_eq hnext.symm
    | measure _ hnext => exact Nat.le_of_eq hnext.symm
  | _ => exact ⟨Nat.le_refl _, fun made hout ↦ by cases hout⟩

theorem tunnel_of_run (h : Run (next toml) u tr t) :
    u.nextTunnel ≤ t.nextTunnel ∧
      ∀ e ∈ tr, ∀ made, e.out = .added made → u.nextTunnel ≤ made.tunnel := by
  refine h.history (P := fun l v ↦ u.nextTunnel ≤ v.nextTunnel ∧
    ∀ e ∈ l, ∀ made, e.out = .added made → u.nextTunnel ≤ made.tunnel) (C := fun _ ↦ True)
    ⟨Nat.le_refl _, fun e he ↦ absurd he (List.not_mem_nil)⟩ ?_ (fun _ _ ↦ trivial)
  rintro l v a o w ⟨hle, hmade⟩ - hnext
  obtain ⟨hstep, hadded⟩ := (next_moved hnext).tunnel
  refine ⟨hle.trans hstep, List.forall_mem_append.mpr ⟨hmade, ?_⟩⟩
  rw [List.forall_mem_singleton]
  exact fun made hout ↦ hle.trans (hadded made hout)

/-- An instance was there before, or has been launched meanwhile. -/
theorem mem_instances_of_run (h : Run (next toml) u tr t) :
    ∀ i ∈ t.instances, (∃ e ∈ tr, ∃ made, e.out = .added made ∧ made.key = i.key) ∨
      ∃ j ∈ u.instances, j.key = i.key := by
  refine h.history (P := fun l v ↦ ∀ i ∈ v.instances,
    (∃ e ∈ l, ∃ made, e.out = .added made ∧ made.key = i.key) ∨ ∃ j ∈ u.instances, j.key = i.key)
    (C := fun _ ↦ True) (fun i hi ↦ .inr ⟨i, hi, rfl⟩) ?_ (fun _ _ ↦ trivial)
  intro l v a o w ih _ hnext i hi
  rcases (next_moved hnext).mem_instances hi with rfl | ⟨j, hj, hkey⟩
  · exact .inl ⟨_, List.mem_append_right _ (List.mem_singleton_self _), i, rfl, rfl⟩
  · rcases ih j hj with ⟨e, he, made, hout, hmade⟩ | ⟨j', hj', hkey'⟩
    · exact .inl ⟨e, List.mem_append_left _ he, made, hout, hmade.trans hkey⟩
    · exact .inr ⟨j', hj', hkey'.trans hkey⟩

/-! ## What is removed -/

/-- Where pingfall is about to remove an address, an instance on it has itself failed the pass if
and only if it has not been launched since the pass began. -/
theorem failedItself_iff {localAddr : String} {rest : List InstanceData}
    (h : Run (next toml) (State.spawnBackground files) tr s)
    (htask : s.tasks id = some (.pingfallRemove localAddr rest)) (hi : i ∈ s.instances)
    (haddr : i.data.localAddr = localAddr) : FailedItself id tr i ↔ ¬ LaunchedSince id tr i := by
  obtain ⟨e, he, hsnapshot⟩ := exists_takesSnapshot h id _ htask rfl
  obtain ⟨tr₁, tr₂, rfl⟩ := List.append_of_mem he
  obtain ⟨u, hbefore, hnext, hafter⟩ := h.cut
  have hreg := registered hbefore
  have hu := hsnapshot.next hnext
  constructor
  · rintro ⟨j, htunnel, tr₁', e', tr₂', htr, ⟨hsnapshot', hj⟩, -⟩
      ⟨tr₁'', e'', tr₂'', htr', hsnapshot'', e₀, he₀, made, hout, hmade⟩
    obtain ⟨rfl, rfl⟩ := takesSnapshot_unique h htr hsnapshot hsnapshot'
    obtain ⟨rfl, rfl⟩ := takesSnapshot_unique h htr' hsnapshot hsnapshot''
    have hlt : j.tunnel < e.pre.nextTunnel := hreg.below j hj
    have hle := (tunnel_of_run hafter).2 e₀ he₀ made hout
    rw [hu, State.apply_nextTunnel] at hle
    change e.pre.nextTunnel ≤ made.tunnel at hle
    omega
  · intro hold
    obtain ⟨data, hdata, haddr', hfails⟩ := (passes_of_snapshot h hsnapshot _ htask).removed
    obtain ⟨j, hj, rfl⟩ := List.mem_map.mp hdata
    rcases mem_instances_of_run hafter i hi with ⟨e₀, he₀, made, hout, hkey⟩ | ⟨j', hj', hkey⟩
    · exact absurd ⟨tr₁, e, tr₂, rfl, hsnapshot, e₀, he₀, made, hout,
        congrArg (fun k ↦ k.2.2) hkey⟩ hold
    · rw [hu, State.apply_instances] at hj'
      -- at the snapshot no other instance had the address that was pinged
      have hsame : j' = j := by
        refine List.inj_on_of_nodup_map hreg.localAddrs hj' hj ?_
        rw [haddr', ← haddr]
        exact congrArg Prod.fst hkey
      subst hsame
      exact ⟨j', congrArg (fun k ↦ k.2.2) hkey, tr₁, e, tr₂, rfl, ⟨hsnapshot, hj⟩, hfails⟩

theorem Removes.exists_task {e : Event State Action Out} {localAddr : String}
    (h : Removes id localAddr e) :
    ∃ rest, e.pre.tasks id = some (.pingfallRemove localAddr rest) := by
  obtain ⟨io, rest, -, htask⟩ := h
  exact ⟨rest, htask⟩

/-- Pingfall takes all instances on the address out of the list. -/
theorem Removes.mem_instances {e : Event State Action Out} {localAddr : String}
    (h : Removes id localAddr e) (hnext : next toml e.pre e.act = some (o, u)) :
    i ∈ u.instances ↔ i ∈ e.pre.instances ∧ i.data.localAddr ≠ localAddr := by
  obtain ⟨io, rest, hact, htask⟩ := h
  rw [hact] at hnext
  simp only [next, htask, Option.bind_some, Option.map_eq_some_iff, Prod.mk.injEq] at hnext
  obtain ⟨e', hrun, -, rfl⟩ := hnext
  cases io <;> cases hrun
  rw [State.apply_instances, List.mem_filter, bne_iff_ne]

/-- All that pingfall removes has itself failed the pass that removes it. -/
def RemovesOwn (toml : TomlText) (tr : List (Event State Action Out)) : Prop :=
  ∀ tr₁ e tr₂ id localAddr u, tr = tr₁ ++ e :: tr₂ → Removes id localAddr e →
    next toml e.pre e.act = some (e.out, u) →
      ∀ i ∈ e.pre.instances, i ∉ u.instances → FailedItself id tr₁ i

/-- Wherever pingfall removes an address, no instance on it was launched after the pass had begun. -/
def NoneLaunchedSince (tr : List (Event State Action Out)) : Prop :=
  ∀ tr₁ e tr₂ id localAddr, tr = tr₁ ++ e :: tr₂ → Removes id localAddr e →
    ∀ i ∈ e.pre.instances, i.data.localAddr = localAddr → ¬ LaunchedSince id tr₁ i

/-- In every run pingfall removes only what has itself failed the pass, if and only if it never
finds an instance on an address it removes that was launched after the pass had begun. -/
theorem removesOwn_iff (h : Run (next toml) (State.spawnBackground files) tr s) :
    RemovesOwn toml tr ↔ NoneLaunchedSince tr := by
  constructor
  · intro hown tr₁ e tr₂ id localAddr htr hremoves i hi haddr
    subst htr
    obtain ⟨u, hbefore, hnext, -⟩ := h.cut
    obtain ⟨rest, htask⟩ := hremoves.exists_task
    have hgone : i ∉ u.instances := fun hmem ↦ ((hremoves.mem_instances hnext).mp hmem).2 haddr
    exact (failedItself_iff hbefore htask hi haddr).mp
      (hown tr₁ e tr₂ id localAddr u rfl hremoves hnext i hi hgone)
  · intro hnone tr₁ e tr₂ id localAddr u htr hremoves hnext i hi hgone
    subst htr
    obtain ⟨u', hbefore, -, -⟩ := h.cut
    obtain ⟨rest, htask⟩ := hremoves.exists_task
    have haddr : i.data.localAddr = localAddr := by
      by_contra hne
      exact hgone ((hremoves.mem_instances hnext).mpr ⟨hi, hne⟩)
    exact (failedItself_iff hbefore htask hi haddr).mpr
      (hnone tr₁ e tr₂ id localAddr rfl hremoves i hi haddr)

/-! ## An address that is taken again -/

/-- A website with pingfall launches an instance, which does not answer a pass. -/
def sampleFall : List Action :=
  [.connect (some sampleOrigin) (.post (some (.obj
      [("host", .str ""), ("name", .str "Lab"), ("state", .str ""),
        ("features", .arr [.str "pingfall"]),
        ("settings", .obj
          [("pingfall", .obj [("status", .arr []), ("drop_unknown", .bool true)])])]))),
    .run 0 .done, sampleLaunch, .run 1 (.bound "127.0.0.1:4000"), .run 1 .done, .latencyLoop,
    .run 3 .done, .run 3 (.pinged (.error .request)), .run 3 .done, .run 3 .done]

/-- The website closes the instance and launches another one, which gets the same address. -/
def sampleRelaunch : List Action :=
  [.pool (some sampleOrigin) (.delete (some (.obj [("local", .str "127.0.0.1:4000")]))),
    .run 4 .done, .run 4 .done, sampleLaunch, .run 5 (.bound "127.0.0.1:4000"), .run 5 .done]

/-- The instances that a snapshot finds, where the step takes one. -/
def snapshotOf (e : Event State Action Out) : Option (List ProxyInstance) :=
  match e.act with
  | .run id _ =>
    match e.pre.tasks id with
    | some .latencySnapshot => some e.pre.instances
    | _ => none
  | _ => none

/-- The address that the task is about to remove. -/
def removalOf (id : Nat) (e : Event State Action Out) : Option String :=
  match e.pre.tasks id with
  | some (.pingfallRemove localAddr _) => some localAddr
  | _ => none

theorem removes_of_removalOf {e : Event State Action Out} {localAddr : String}
    (hact : e.act = .run id io) (h : removalOf id e = some localAddr) :
    Removes id localAddr e := by
  unfold removalOf at h
  split at h
  · rename_i rest htask
    cases h
    exact ⟨io, rest, hact, htask⟩
  · cases h

theorem TakesSnapshot.snapshotOf_eq {e : Event State Action Out} (h : TakesSnapshot id e) :
    snapshotOf e = some e.pre.instances := by
  obtain ⟨io, hact, htask⟩ := h
  simp [snapshotOf, hact, htask]

theorem noneLaunchedSince_of_pairwise
    (h : tr.Pairwise fun e e' ↦ ((snapshotOf e).isSome && e'.out.isAdded) = false) :
    NoneLaunchedSince tr := by
  rintro tr₁ e tr₂ id localAddr rfl - i - - ⟨tr₃, e₀, tr₄, rfl, hsnapshot, e₁, he₁, made, hout, -⟩
  have hpast := (List.pairwise_append.mp (List.pairwise_append.mp h).1).2.1
  have hpair := (List.pairwise_cons.mp hpast).1 e₁ he₁
  rw [hsnapshot.snapshotOf_eq, hout] at hpair
  cases hpair

theorem removesOwn_iff_sample : ∃ toml files tr s,
    Run (next toml) (State.spawnBackground files) tr s ∧
      (∃ e ∈ tr, Removes 3 "127.0.0.1:4000" e) ∧ RemovesOwn toml tr := by
  obtain ⟨tr₁, e, tr₂, s, hrun, hact, hp⟩ := exists_run_at (next .compact)
    (State.spawnBackground Fs.empty) sampleFall (.run 3 .done) []
    (fun tr₁ e tr₂ _ ↦ removalOf 3 e == some "127.0.0.1:4000" &&
      decide ((tr₁ ++ e :: tr₂).Pairwise fun e e' ↦
        ((snapshotOf e).isSome && e'.out.isAdded) = false)) (by decide +kernel)
  rw [Bool.and_eq_true, beq_iff_eq, decide_eq_true_eq] at hp
  exact ⟨_, _, _, s, hrun, ⟨e, by simp, removes_of_removalOf hact hp.1⟩,
    (removesOwn_iff hrun).mpr (noneLaunchedSince_of_pairwise hp.2)⟩

/-- The instance whose ping failed is closed before pingfall comes to it, and another one that has
got its address is removed. -/
theorem pingfall_removes_other : ¬ ∀ toml files tr s,
    Run (next toml) (State.spawnBackground files) tr s → RemovesOwn toml tr := by
  intro hall
  obtain ⟨tr₁, e, tr₂, s, hrun, hact, hp⟩ := exists_run_at (next .compact)
    (State.spawnBackground Fs.empty) (sampleFall ++ sampleRelaunch) (.run 3 .done) []
    (fun tr₁ e _ _ ↦ removalOf 3 e == some "127.0.0.1:4000" &&
      (e.pre.instances.any fun i ↦ i.tunnel == 1 && i.data.localAddr == "127.0.0.1:4000") &&
      tr₁.all fun e ↦ (snapshotOf e).all fun found ↦ found.all fun j ↦ j.tunnel == 0)
    (by decide +kernel)
  simp only [Bool.and_eq_true, beq_iff_eq, List.any_eq_true, List.all_eq_true] at hp
  obtain ⟨⟨hremoval, i, hi, htunnel, haddr⟩, hfound⟩ := hp
  have hremoves := removes_of_removalOf hact hremoval
  obtain ⟨u, -, hnext, -⟩ := hrun.cut
  obtain ⟨j, hj, tr₃, e₀, tr₄, rfl, ⟨hsnapshot, hmem⟩, -⟩ :=
    hall _ _ _ s hrun tr₁ e tr₂ 3 _ u rfl hremoves hnext i hi fun hmem ↦
      ((hremoves.mem_instances hnext).mp hmem).2 haddr
  have hzero := hfound e₀ (List.mem_append_right _ List.mem_cons_self)
  rw [hsnapshot.snapshotOf_eq, Option.all_some, List.all_eq_true] at hzero
  have hj0 := beq_iff_eq.mp (hzero j hmem)
  omega

end LabStreamGate.Desktop
