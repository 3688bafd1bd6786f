import LabStreamGate.Desktop.Instances

/-!
# What a website's requests do to the instances of others

A request carries its origin through its steps, but the last step of a close does not look at it
again: `close_instance` has checked the scope under a lock that it has given up since.  Where the
address still belongs to the website, or to nobody, no request touches an instance of another scope.
-/

namespace LabStreamGate.Desktop

variable {toml : TomlText} {files : Fs String} {s t u : State} {task task' : Task} {io : Io}
  {e : Effect} {a : Action} {o : Out} {tr : List (Event State Action Out)} {id : Nat}
  {header : Option HeaderValue} {scope : String} {instances : List ProxyInstance}

/-! ## The tasks of a request -/

/-- A task of a request to `/pool` with the origin `scope`. -/
def Task.InScope (scope : String) : Task → Prop
  | .getInstances scope' => scope' = scope
  | .createListener data _ => data.scopeHost = scope
  | .launchInstance data _ _ => data.scopeHost = scope
  | .closeInstance _ scope' => scope' = scope
  | .removeInstance _ _ => True
  | .respond _ reply => ∀ list, reply ≠ .instances list
  | _ => False

theorem PoolRequest.task_inScope {request : PoolRequest}
    (h : request.task scope = some task) : task.InScope scope := by
  cases request with
  | get =>
    cases h
    exact rfl
  | post random body =>
    simp only [PoolRequest.task, Option.map_eq_some_iff] at h
    obtain ⟨data, -, rfl⟩ := h
    exact rfl
  | delete body =>
    simp only [PoolRequest.task, Option.map_eq_some_iff] at h
    obtain ⟨localAddr, -, rfl⟩ := h
    exact rfl

theorem resume_inScope {caller : Caller} {status : StatusCode} {reply : Reply}
    (hreply : ∀ list, reply ≠ .instances list) (h : caller.resume status reply = some task) :
    task.InScope scope := by
  cases caller with
  | http =>
    cases h
    exact hreply
  | ui => cases h

-- From the request to its answer the task keeps the scope it came with.
theorem Task.InScope.run (hscope : task.InScope scope) (h : task.run toml s io = some e)
    (ht : e.task = some task') : task'.InScope scope := by
  cases task with
  | getInstances scope' =>
    cases io <;> cases h
    cases ht
  | createListener data caller =>
    cases io <;> cases h
    · cases ht
      exact hscope
    · exact resume_inScope (by simp) ht
  | launchInstance data localAddr caller =>
    cases io <;> cases h
    unfold Desktop.launchInstance at ht
    split at ht
    · exact resume_inScope (by simp) ht
    · dsimp only at ht
      split at ht <;> exact resume_inScope (by simp) ht
  | closeInstance localAddr scope' =>
    cases io <;> cases h
    unfold Desktop.closeInstance at ht
    split at ht
    · cases ht
      simp [Task.InScope]
    · split at ht <;> cases ht <;> simp [Task.InScope]
  | removeInstance localAddr caller =>
    cases io <;> cases h
    exact resume_inScope (by simp) ht
  | respond status reply =>
    cases io <;> cases h
    cases ht
  | _ => exact hscope.elim

/-- The task `id` was started by a request to `/pool` with this `Origin` header. -/
def Serves (header : Option HeaderValue) (id : Nat) (tr : List (Event State Action Out)) : Prop :=
  ∃ e ∈ tr, (∃ request, e.act = .pool header request) ∧ e.out = .silent ∧ e.pre.nextTask = id

/-- What the task of a request is, after the steps `tr`. -/
structure Serving (tr : List (Event State Action Out)) (s : State) : Prop where
  below : s.Below
  lt : ∀ header id, Serves header id tr → id < s.nextTask
  inScope : ∀ header id task, Serves header id tr → s.tasks id = some task →
    task.InScope (origin header)

theorem serves_snoc : Serves header id (tr ++ [⟨s, a, o⟩]) ↔ Serves header id tr ∨
    (∃ request, a = .pool header request) ∧ o = .silent ∧ s.nextTask = id := by
  simp only [Serves, List.mem_append, List.mem_singleton, or_and_right, exists_or,
    exists_eq_left]

/-- A step that starts no request, and leaves its tasks where they are in the same scope. -/
theorem Serving.kept (h : Serving tr s) (hbelow : t.Below) (hle : s.nextTask ≤ t.nextTask)
    (hnew : ∀ header request, a = .pool header request → o ≠ .silent)
    (htasks : ∀ id task, id < s.nextTask → t.tasks id = some task →
      ∃ task', s.tasks id = some task' ∧ ∀ scope, task'.InScope scope → task.InScope scope) :
    Serving (tr ++ [⟨s, a, o⟩]) t := by
  have hserves : ∀ header id, Serves header id (tr ++ [⟨s, a, o⟩]) → Serves header id tr := by
    intro header id hs
    rcases serves_snoc.mp hs with hold | ⟨⟨request, hact⟩, hout, -⟩
    · exact hold
    · exact absurd hout (hnew header request hact)
  refine ⟨hbelow, fun header id hs ↦ ?_, fun header id task hs ht ↦ ?_⟩
  · exact Nat.lt_of_lt_of_le (h.lt header id (hserves header id hs)) hle
  · have hs := hserves header id hs
    obtain ⟨task', ht', hscope⟩ := htasks id task (h.lt header id hs) ht
    exact hscope _ (h.inScope header id task' hs ht')

theorem serving_spawnBackground : Serving [] (State.spawnBackground files) := by
  have hnone : ∀ header id, ¬ Serves header id [] := by
    rintro header id ⟨e, he, -⟩
    cases he
  exact ⟨fun _ _ ↦ rfl, fun header id hserves ↦ absurd hserves (hnone header id),
    fun header id _ hserves ↦ absurd hserves (hnone header id)⟩

-- A request gets a number that no earlier one has.
theorem Serving.step (h : Serving tr s) (hm : Moved toml s a o t) :
    Serving (tr ++ [⟨s, a, o⟩]) t := by
  have hsame : ∀ id task, s.tasks id = some task →
      ∃ task', s.tasks id = some task' ∧ ∀ scope, task'.InScope scope → task.InScope scope :=
    fun _ task ht ↦ ⟨task, ht, fun _ hscope ↦ hscope⟩
  cases hm with
  | reject => exact h.kept h.below (Nat.le_refl _) (by simp) fun id task _ ↦ hsame id task
  | @spawn _ started hidle htask =>
    refine ⟨h.below.spawn, fun header id hserves ↦ ?_, fun header id task hserves ht ↦ ?_⟩
    · rw [State.spawn_nextTask]
      rcases serves_snoc.mp hserves with hold | ⟨-, -, hid⟩
      · exact Nat.lt_succ_of_lt (h.lt header id hold)
      · omega
    · change Function.update s.tasks s.nextTask (some started) id = some task at ht
      rcases serves_snoc.mp hserves with hold | ⟨⟨request, rfl⟩, -, rfl⟩
      · rw [Function.update_of_ne (Nat.ne_of_lt (h.lt header id hold))] at ht
        exact h.inScope header id task hold ht
      · rw [Function.update_self] at ht
        cases ht
        exact PoolRequest.task_inScope htask
  | read => exact h.kept h.below (Nat.le_refl _) (by simp) fun id task _ ↦ hsame id task
  | overwrite => exact h.kept h.below (Nat.le_refl _) (by simp) fun id task _ ↦ hsame id task
  | @run id io task e htask hrun =>
    refine h.kept (h.below.apply htask) State.le_apply_nextTask (by simp) fun id' task' hlt ht ↦ ?_
    by_cases hid : id' = id
    · subst hid
      rw [h.below.apply_tasks_self htask] at ht
      exact ⟨task, htask, fun _ hscope ↦ hscope.run hrun ht⟩
    · exact hsame id' task' (State.apply_tasks_of_lt hid hlt ht)

theorem serving (h : Run (next toml) (State.spawnBackground files) tr s) : Serving tr s :=
  h.history (P := Serving) (C := fun _ ↦ True) serving_spawnBackground
    (fun _ _ _ _ _ hs _ hnext ↦ hs.step (next_moved hnext)) (fun _ _ ↦ trivial)

/-! ## The instances of other scopes -/

/-- The step `e` to the state `t` leaves the instances of other scopes as they are, and a list that
it answers has only those of the scope. -/
structure Isolated (scope : String) (e : Event State Action Out) (t : State) : Prop where
  others : dropScope t.instances scope = dropScope e.pre.instances scope
  listed : ∀ list, e.out = .responded .ok (.instances list) →
    list = (e.pre.instances.filter fun i ↦ i.data.scopeHost == scope).map
      fun i ↦ InstanceResponse.ofData i.data

theorem dropScope_relabel {remote label : String} :
    dropScope (relabel instances remote scope label) scope = dropScope instances scope := by
  refine filter_updateFirst ?_ ?_ <;> simp

theorem dropScope_append {i : ProxyInstance} (h : i.data.scopeHost = scope) :
    dropScope (instances ++ [i]) scope = dropScope instances scope := by
  simp [dropScope, h]

/-- What listens on the address belongs to the scope. -/
def Owns (scope localAddr : String) (instances : List ProxyInstance) : Prop :=
  ∀ i ∈ instances, i.data.localAddr = localAddr → i.data.scopeHost = scope

-- The other scopes lose nothing if and only if nothing on the address is theirs.
theorem dropScope_dropAddr {localAddr : String} :
    dropScope (dropAddr instances localAddr) scope = dropScope instances scope ↔
      Owns scope localAddr instances := by
  rw [dropScope, dropAddr, dropScope, List.filter_filter]
  constructor
  · intro heq i hi haddr
    by_contra hscope
    have hmem : i ∈ instances.filter fun i ↦ i.data.scopeHost != scope :=
      List.mem_filter.mpr ⟨hi, by simpa using hscope⟩
    rw [← heq, List.mem_filter] at hmem
    simp [haddr] at hmem
  · intro hall
    refine List.filter_congr fun i hi ↦ ?_
    by_cases haddr : i.data.localAddr = localAddr
    · simp [hall i hi haddr]
    · simp [haddr]

-- A list is answered by `get_instances` only, which filters by the origin it was asked with.
theorem Task.InScope.listed (hscope : task.InScope scope) (h : task.run toml s io = some e)
    {list : List InstanceResponse} (hout : e.out = .responded .ok (.instances list)) :
    list = (s.instances.filter fun i ↦ i.data.scopeHost == scope).map
      fun i ↦ InstanceResponse.ofData i.data := by
  cases task with
  | getInstances scope' =>
    obtain rfl : scope' = scope := hscope
    cases io <;> cases h
    cases hout
    rfl
  | createListener data caller => cases io <;> cases h <;> cases hout
  | launchInstance data localAddr caller =>
    cases io <;> cases h
    unfold Desktop.launchInstance at hout
    split at hout
    · cases hout
    · dsimp only at hout
      split at hout <;> cases hout
  | closeInstance localAddr scope' =>
    cases io <;> cases h
    unfold Desktop.closeInstance at hout
    split at hout
    · cases hout
    · split at hout <;> cases hout
  | removeInstance localAddr caller =>
    cases io <;> cases h
    cases hout
  | respond status reply =>
    cases io <;> cases h
    cases hout
    exact absurd rfl (hscope list)
  | _ => exact hscope.elim

/-- A step of a request leaves the others alone unless it closes an address that is theirs. -/
theorem Task.InScope.isolated_iff (hscope : task.InScope scope) (h : task.run toml s io = some e)
    (ht : t.instances = e.instances) :
    Isolated scope ⟨s, a, e.out⟩ t ↔
      ∀ localAddr caller, task = .removeInstance localAddr caller →
        Owns scope localAddr s.instances := by
  have hlisted : ∀ list, e.out = .responded .ok (.instances list) → _ :=
    fun list hout ↦ hscope.listed h hout
  have hothers : Isolated scope ⟨s, a, e.out⟩ t ↔
      dropScope e.instances scope = dropScope s.instances scope := by
    rw [← ht]
    exact ⟨fun hi ↦ hi.others, fun heq ↦ ⟨heq, hlisted⟩⟩
  rw [hothers]
  cases run_changed h with
  | keep hinstances =>
    refine ⟨fun _ localAddr caller heq ↦ ?_, fun _ ↦ by rw [hinstances]⟩
    subst heq
    -- a close that took nothing out found nothing on the address
    cases io <;> cases h
    exact dropScope_dropAddr.mp (congrArg (fun l ↦ dropScope l scope) hinstances)
  | relabel _ _ hinstances =>
    obtain rfl : _ = scope := hscope
    rw [hinstances]
    simp [dropScope_relabel]
  | add _ _ _ _ hhost _ hinstances =>
    have hhost : _ = scope := hhost.trans hscope
    rw [hinstances]
    simp [dropScope_append hhost]
  | @close localAddr caller _ hinstances =>
    rw [hinstances, dropScope_dropAddr]
    simp
  | fall => exact hscope.elim
  | cascade => exact hscope.elim
  | measure => exact hscope.elim

/-! ## Every run -/

/-- The requests of a run touch no instance of another scope, if and only if at the last step of
every close what listens on the address belongs to the scope of the request. -/
theorem requests_isolated (h : Run (next toml) (State.spawnBackground files) tr t) :
    (∀ tr₁ e tr₂ u, tr = tr₁ ++ e :: tr₂ → next toml e.pre e.act = some (e.out, u) →
      ∀ header id io, Serves header id tr₁ → e.act = .run id io →
        Isolated (origin header) e u) ↔
    ∀ tr₁ e tr₂, tr = tr₁ ++ e :: tr₂ → ∀ header id io localAddr caller, Serves header id tr₁ →
      e.act = .run id io → e.pre.tasks id = some (.removeInstance localAddr caller) →
        Owns (origin header) localAddr e.pre.instances := by
  have hstep : ∀ {tr₁ e tr₂ u header id io}, tr = tr₁ ++ e :: tr₂ →
      next toml e.pre e.act = some (e.out, u) → Serves header id tr₁ → e.act = .run id io →
      (Isolated (origin header) e u ↔ ∀ localAddr caller,
        e.pre.tasks id = some (.removeInstance localAddr caller) →
          Owns (origin header) localAddr e.pre.instances) := by
    rintro tr₁ ⟨s, a, o⟩ tr₂ u header id io rfl hnext hserves rfl
    obtain ⟨-, hbefore, -, -⟩ := h.cut
    cases next_moved hnext with
    | run htask hrun =>
      have hscope := (serving hbefore).inScope header id _ hserves htask
      rw [hscope.isolated_iff hrun State.apply_instances, htask]
      simp only [Option.some.injEq]
    | reject hidle =>
      have hidle : s.tasks id = none := hidle
      refine ⟨fun _ localAddr caller ht ↦ ?_, fun _ ↦ ⟨rfl, fun list hout ↦ by cases hout⟩⟩
      rw [hidle] at ht
      cases ht
    | spawn _ htask => cases htask
  constructor
  · intro hall tr₁ e tr₂ htr header id io localAddr caller hserves hact ht
    subst htr
    obtain ⟨u, -, hnext, -⟩ := h.cut
    exact (hstep rfl hnext hserves hact).mp (hall tr₁ e tr₂ u rfl hnext header id io hserves hact)
      localAddr caller ht
  · intro hall tr₁ e tr₂ u htr hnext header id io hserves hact
    refine (hstep htr hnext hserves hact).mpr fun localAddr caller ht ↦ ?_
    exact hall tr₁ e tr₂ htr header id io localAddr caller hserves hact ht

/-- The website closes an instance. -/
def sampleClose : Action :=
  .pool (some sampleOrigin) (.delete (some (.obj [("local", .str "127.0.0.1:4000")])))

/-- The other website launches an instance on the same address. -/
def otherLaunch : Action :=
  .pool (some ⟨utf8 "https://other.example"⟩)
    (.post 0 (some (.obj [("remote", .str "ws://lab:81"), ("local", .str "127.0.0.1:4000")])))

/-- A request with this header has started the task `id`. -/
def starts (header : Option HeaderValue) (id : Nat) (e : Event State Action Out) : Bool :=
  match e.act, e.out with
  | .pool header' _, .silent => header' == header && e.pre.nextTask == id
  | _, _ => false

/-- Requests come from this origin, and what they close is of its scope. -/
def closesOwn (header : Option HeaderValue) (e : Event State Action Out) : Bool :=
  match e.act, e.pre.stepping e.act with
  | .pool header' _, _ => header' == header
  | _, some (.removeInstance localAddr _) =>
    e.pre.instances.all fun i ↦ i.data.localAddr != localAddr || i.data.scopeHost == origin header
  | _, _ => true

theorem serves_of_starts {e : Event State Action Out} (he : e ∈ tr)
    (h : starts header id e = true) : Serves header id tr := by
  unfold starts at h
  split at h
  · rename_i header' request hact hout
    rw [Bool.and_eq_true, beq_iff_eq, beq_iff_eq] at h
    exact ⟨e, he, ⟨request, h.1 ▸ hact⟩, hout, h.2⟩
  · cases h

-- Where only one website sends requests, the check reads as the guard of the theorem.
theorem owns_of_closesOwn {header' : Option HeaderValue} {localAddr : String} {caller : Caller}
    {e : Event State Action Out} (hall : ∀ e ∈ tr, closesOwn header e = true)
    (hserves : Serves header' id tr) (hown : closesOwn header e = true)
    (hact : e.act = .run id io) (ht : e.pre.tasks id = some (.removeInstance localAddr caller)) :
    Owns (origin header') localAddr e.pre.instances := by
  obtain ⟨e', he', ⟨request, hact'⟩, -⟩ := hserves
  have hheader := hall e' he'
  rw [closesOwn, hact'] at hheader
  obtain rfl : header' = header := beq_iff_eq.mp hheader
  rw [closesOwn, hact, State.stepping, ht] at hown
  intro i hi haddr
  have hi := List.all_eq_true.mp hown i hi
  simpa [haddr] using hi

-- A website launches an instance and closes it.
theorem requests_isolated_sample : ∃ toml files tr t,
    Run (next toml) (State.spawnBackground files) tr t ∧ tr.any (fun e ↦ e.out.isAdded) = true ∧
      t.instances = [] ∧
      ∀ tr₁ e tr₂ u, tr = tr₁ ++ e :: tr₂ → next toml e.pre e.act = some (e.out, u) →
        ∀ header id io, Serves header id tr₁ → e.act = .run id io →
          Isolated (origin header) e u := by
  obtain ⟨tr, t, hrun, hp⟩ := exists_run (next .compact) (State.spawnBackground Fs.empty)
    [sampleLaunch, .run 0 (.bound "127.0.0.1:4000"), .run 0 .done, sampleClose, .run 2 .done,
      .run 2 .done]
    (fun tr t ↦ tr.any (fun e ↦ e.out.isAdded) && t.instances.isEmpty &&
      tr.all (closesOwn (some sampleOrigin)))
    (by decide +kernel)
  simp only [Bool.and_eq_true, List.isEmpty_iff, List.all_eq_true] at hp
  obtain ⟨⟨hadded, hempty⟩, hown⟩ := hp
  refine ⟨_, _, tr, t, hrun, hadded, hempty, (requests_isolated hrun).mpr ?_⟩
  rintro tr₁ e tr₂ rfl header id io localAddr caller hserves hact ht
  exact owns_of_closesOwn (fun e' he' ↦ hown e' (List.mem_append_left _ he')) hserves
    (hown e (by simp)) hact ht

/-- While a website closes its instance the user removes it, and another website launches one on the
address, which is then closed. -/
theorem other_instance_closed : ¬ ∀ toml files tr t,
    Run (next toml) (State.spawnBackground files) tr t →
      ∀ tr₁ e tr₂ u, tr = tr₁ ++ e :: tr₂ → next toml e.pre e.act = some (e.out, u) →
        ∀ header id io, Serves header id tr₁ → e.act = .run id io →
          Isolated (origin header) e u := by
  intro hall
  obtain ⟨tr₁, e, tr₂, t, hrun, hact, hp⟩ :=
    exists_run_at (next .compact) (State.spawnBackground Fs.empty)
      [sampleLaunch, .run 0 (.bound "127.0.0.1:4000"), .run 0 .done, sampleClose, .run 2 .done,
        .removeInstance "127.0.0.1:4000", .run 3 .done, otherLaunch,
        .run 4 (.bound "127.0.0.1:4000"), .run 4 .done]
      (.run 2 .done) []
      (fun tr₁ e tr₂ t ↦ tr₁.any (starts (some sampleOrigin) 2) && tr₂.isEmpty &&
        (dropScope t.instances (origin (some sampleOrigin))).isEmpty &&
        !(dropScope e.pre.instances (origin (some sampleOrigin))).isEmpty)
      (by decide +kernel)
  simp only [Bool.and_eq_true, List.isEmpty_iff, List.any_eq_true, Bool.not_eq_true',
    List.isEmpty_eq_false_iff] at hp
  obtain ⟨⟨⟨⟨e', he', hstarts⟩, rfl⟩, hafter⟩, hbefore⟩ := hp
  obtain ⟨-, hnext⟩ := hrun.snoc_inv
  have hisolated := hall _ _ _ t hrun tr₁ e [] t rfl hnext (some sampleOrigin) 2 .done
    (serves_of_starts he' hstarts) hact
  exact hbefore (hisolated.others.symm.trans hafter)

end LabStreamGate.Desktop
