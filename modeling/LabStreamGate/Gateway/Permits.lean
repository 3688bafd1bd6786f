import LabStreamGate.Gateway.Window
import LabStreamGate.Library.Counting
import LabStreamGate.Library.JsonText

/-!
# Connection permits

A connection takes a permit of its tunnel and then one of the gateway, and gives both back on every
way out.  The counters of the state are what the tasks hold.
-/

namespace LabStreamGate.Gateway

open Function

variable {json : JsonText} {stateFile : Option FilePath} {s t : State} {task : Task} {io : Io}
  {e : Effect} {a : Action} {o : Out} {tr : List (Event State Action Out)} {total limit : Nat}

/-! ## What a task holds -/

def Task.guards : Task → List Guard
  | .acquireSlot key _ => [.tunnelPermit key]
  | .upgrade key _ => [.tunnelPermit key, .permit]
  | .connect key _ => [.tunnelPermit key, .permit]
  | .startCapture key _ => [.tunnelPermit key, .permit]
  | .relay key _ _ => [.tunnelPermit key, .permit]
  | .release guards _ => guards
  | _ => []

def guardsOf (task : Option Task) : List Guard := task.elim [] Task.guards

/-- How many permits of the kind the tasks hold. -/
def State.live (s : State) (guard : Guard) : Nat :=
  timesHeld s.nextTask (fun id ↦ guardsOf (s.tasks id)) guard

/-- What a step does to the counters, from what its task held to what it holds then. -/
inductive Permitted (s : State) (e : Effect) : List Guard → List Guard → Prop
  | keep {before after : List Guard} : (∀ guard, after.count guard = before.count guard) →
      e.connectionSlots = s.connectionSlots → e.perTunnelConnections = s.perTunnelConnections →
      Permitted s e before after
  | full {key : String} :
      s.maxConnectionsPerTunnel ≤ (s.perTunnelConnections.lookup key).getD 0 →
      e.connectionSlots = s.connectionSlots →
      e.perTunnelConnections = s.perTunnelConnections.insert key
        ((s.perTunnelConnections.lookup key).getD 0) → Permitted s e [] []
  | acquire {key : String} :
      (s.perTunnelConnections.lookup key).getD 0 < s.maxConnectionsPerTunnel →
      e.connectionSlots = s.connectionSlots →
      e.perTunnelConnections = s.perTunnelConnections.insert key
        ((s.perTunnelConnections.lookup key).getD 0 + 1) → Permitted s e [] [.tunnelPermit key]
  | tryAcquire {key : String} : s.connectionSlots ≠ 0 →
      e.connectionSlots = s.connectionSlots - 1 →
      e.perTunnelConnections = s.perTunnelConnections →
      Permitted s e [.tunnelPermit key] [.tunnelPermit key, .permit]
  | dropTunnel {key : String} {guards : List Guard} : e.connectionSlots = s.connectionSlots →
      e.perTunnelConnections = dropPermit s.perTunnelConnections key →
      Permitted s e (.tunnelPermit key :: guards) guards
  | drop {guards : List Guard} : e.connectionSlots = s.connectionSlots + 1 →
      e.perTunnelConnections = s.perTunnelConnections → Permitted s e (.permit :: guards) guards

-- What only answers, lists or saves holds no permit.
theorem guardsOf_resume {caller : Caller} {result : Except String Unit} :
    guardsOf (caller.resume result) = [] := by
  cases caller with
  | launchTunnel => cases result <;> rfl
  | closeTunnel => cases result <;> rfl
  | activeRecord use => cases use <;> rfl
  | removeExpired listing => cases listing <;> rfl

theorem guardsOf_persistRegistry {caller : Caller} :
    guardsOf (persistRegistry stateFile caller) = [] := by
  cases stateFile with
  | none => exact guardsOf_resume
  | some path => rfl

/-- The steps of a task, as far as its permits go. -/
theorem run_permitted (h : task.run json stateFile s io = some e) :
    Permitted s e task.guards (guardsOf e.task) := by
  cases task with
  | launchInsert key record =>
    cases io <;> simp only [Task.run.eq_def, reduceCtorEq] at h
    cases h
    exact .keep (by simp [Task.guards, guardsOf_persistRegistry]) rfl rfl
  | closeRemove key =>
    cases io <;> simp only [Task.run.eq_def, reduceCtorEq] at h
    split at h <;> cases h
    · exact .keep (fun _ ↦ rfl) rfl rfl
    · exact .keep (by simp [Task.guards, guardsOf_persistRegistry]) rfl rfl
  | lookup key use =>
    cases io <;> simp only [Task.run.eq_def, reduceCtorEq] at h
    split at h <;> cases h
    · obtain ⟨reply, hreply⟩ := use.refuse_eq .notFound "tunnel not found"
      exact .keep (by simp [hreply, guardsOf, Task.guards]) rfl rfl
    · exact .keep (fun _ ↦ rfl) rfl rfl
  | checkExpiry key record use =>
    cases io <;> simp only [Task.run.eq_def, reduceCtorEq] at h
    split at h
    · cases h
      exact .keep (fun _ ↦ rfl) rfl rfl
    · split at h <;> cases h <;> exact .keep (fun _ ↦ rfl) rfl rfl
  | evict key use =>
    cases io <;> simp only [Task.run.eq_def, reduceCtorEq] at h
    cases h
    exact .keep (by simp [Task.guards, guardsOf_persistRegistry]) rfl rfl
  | retain now listing =>
    cases io <;> simp only [Task.run.eq_def, reduceCtorEq] at h
    split at h <;> cases h
    · exact .keep (by simp [Task.guards, guardsOf_resume]) rfl rfl
    · exact .keep (by simp [Task.guards, guardsOf_persistRegistry]) rfl rfl
  | list =>
    cases io <;> simp only [Task.run.eq_def, reduceCtorEq] at h
    cases h
    exact .keep (fun _ ↦ rfl) rfl rfl
  | persist stage caller =>
    obtain ⟨path, -, hstage⟩ := Task.run_persist h
    have hnone : (Task.persist stage caller).guards = [] := rfl
    cases PersistStage.run_ran hstage with
    | rename _ _ => exact .keep (by simp [hnone, guardsOf_resume]) rfl rfl
    | missing _ _ => exact .keep (by simp [hnone, persistError, guardsOf_resume]) rfl rfl
    | failed => exact .keep (by simp [hnone, persistError, guardsOf_resume]) rfl rfl
    | _ => exact .keep (fun _ ↦ rfl) rfl rfl
  | respond status reply =>
    cases io <;> simp only [Task.run.eq_def, reduceCtorEq] at h
    cases h
    exact .keep (fun _ ↦ rfl) rfl rfl
  | acquireTunnel key record =>
    cases io <;> simp only [Task.run.eq_def, reduceCtorEq] at h
    cases h
    by_cases hlimit : s.maxConnectionsPerTunnel ≤ (s.perTunnelConnections.lookup key).getD 0
    · simp only [acquirePermit, hlimit, if_true, Bool.false_eq_true, if_false]
      exact .full hlimit rfl rfl
    · simp only [acquirePermit, hlimit, if_false, if_true]
      exact .acquire (Nat.lt_of_not_le hlimit) rfl rfl
  | acquireSlot key record =>
    cases io <;> simp only [Task.run.eq_def, reduceCtorEq] at h
    split at h <;> cases h
    · exact .keep (fun _ ↦ rfl) rfl rfl
    · exact .tryAcquire ‹_› rfl rfl
  | upgrade key record =>
    cases io <;> simp only [Task.run.eq_def, reduceCtorEq] at h <;> cases h
    · exact .keep (fun _ ↦ rfl) rfl rfl
    · exact .keep (fun guard ↦ List.Perm.count_eq (List.Perm.swap ..) guard) rfl rfl
  | connect key record =>
    have hguards : guardsOf (some (if record.capture then .startCapture key record
        else s.startRelay key record)) = [.tunnelPermit key, .permit] := by
      split <;> rfl
    cases io <;> simp only [Task.run.eq_def, reduceCtorEq] at h <;> cases h
    · exact .keep (fun guard ↦ congrArg (List.count guard) hguards) rfl rfl
    · exact .keep (fun _ ↦ rfl) rfl rfl
    · exact .keep (fun _ ↦ rfl) rfl rfl
  | startCapture key record =>
    cases io <;> simp only [Task.run.eq_def, reduceCtorEq] at h <;> cases h <;>
      exact .keep (fun _ ↦ rfl) rfl rfl
  | relay key record deadline =>
    cases io <;> simp only [Task.run.eq_def, reduceCtorEq] at h
    · cases h
      exact .keep (fun _ ↦ rfl) rfl rfl
    · cases h
      exact .keep (fun _ ↦ rfl) rfl rfl
    · split at h <;> cases h <;> exact .keep (fun _ ↦ rfl) rfl rfl
    · cases h
      exact .keep (fun _ ↦ rfl) rfl rfl
  | release guards answer =>
    cases io <;> simp only [Task.run.eq_def, reduceCtorEq] at h
    cases h
    cases guards with
    | nil =>
      refine .keep (fun guard ↦ ?_) rfl rfl
      cases answer <;> rfl
    | cons guard guards =>
      cases guard with
      | tunnelPermit key => exact .dropTunnel rfl rfl
      | permit => exact .drop rfl rfl

/-! ## The counters are exact -/

/-- Both counters are what the tasks hold, and no tunnel has more than `limit` connections. -/
structure Permits (total limit : Nat) (s : State) : Prop where
  below : Below s
  limited : s.maxConnectionsPerTunnel = limit
  tunnels : Counts s.perTunnelConnections fun key ↦ s.live (.tunnelPermit key)
  bounded : ∀ key, s.live (.tunnelPermit key) ≤ limit
  slots : s.connectionSlots + s.live .permit = total

-- What the other tasks hold stays.
theorem State.apply_live {id : Nat} (hid : id < s.nextTask) (htask : s.tasks id = some task)
    (guard : Guard) :
    (s.apply id e).live guard + task.guards.count guard =
      s.live guard + (guardsOf e.task).count guard := by
  have hheld : (fun id' ↦ guardsOf ((s.apply id e).tasks id')) =
      update (fun id' ↦ guardsOf (s.tasks id')) id (guardsOf e.task) := by
    funext id'
    by_cases h : id' = id
    · rw [h, State.apply_tasks_self, update_self]
    · rw [State.apply_tasks_of_ne h, update_of_ne h]
  have htimes : timesHeld s.nextTask (update (fun id' ↦ guardsOf (s.tasks id')) id
        (guardsOf e.task)) guard + (guardsOf (s.tasks id)).count guard =
      timesHeld s.nextTask (fun id' ↦ guardsOf (s.tasks id')) guard +
        (guardsOf e.task).count guard := timesHeld_update hid
  rw [htask, ← hheld] at htimes
  exact htimes

-- A request holds no permit when it comes.
theorem State.spawn_live (hstart : s.Starts task) (guard : Guard) :
    (s.spawn task).live guard = s.live guard := by
  have hnone : guardsOf ((s.spawn task).tasks s.nextTask) = [] := by
    rw [show (s.spawn task).tasks s.nextTask = some task from update_self ..]
    cases hstart <;> rfl
  unfold live
  rw [show (s.spawn task).nextTask = s.nextTask + 1 from rfl, timesHeld_succ hnone]
  apply timesHeld_congr
  intro id hid
  rw [show (s.spawn task).tasks id = s.tasks id from update_of_ne (Nat.ne_of_lt hid) ..]

/-- The drop of a permit takes one off its count. -/
theorem counts_dropPermit {counts : AList fun _ : String ↦ Nat} {f : String → Nat} {key : String}
    (h : Counts counts f) (hpos : 1 ≤ f key) :
    Counts (dropPermit counts key) (update f key (f key - 1)) := by
  have hlookup : counts.lookup key = some (f key) := h.lookup_eq_some_iff.mpr ⟨rfl, hpos⟩
  unfold dropPermit
  rw [hlookup]
  dsimp only
  split
  · rename_i hzero
    rw [hzero]
    exact h.erase
  · rename_i hne
    exact h.insert hne

section

variable {before after : List Guard} {f f' : Guard → Nat}

/-! One step, where `f` counts what was held before it and `f'` what is held after it. -/

theorem Permitted.tunnels (h : Permitted s e before after)
    (hcount : ∀ guard, f' guard + before.count guard = f guard + after.count guard)
    (hpos : 1 ≤ s.maxConnectionsPerTunnel)
    (hcounts : Counts s.perTunnelConnections fun key ↦ f (.tunnelPermit key)) :
    Counts e.perTunnelConnections fun key ↦ f' (.tunnelPermit key) := by
  have hkey := fun key ↦ hcount (.tunnelPermit key)
  cases h with
  | keep hguards _ heq =>
    rw [heq]
    refine hcounts.congr fun key ↦ ?_
    have hsame := hguards (.tunnelPermit key)
    have := hkey key
    omega
  | full hfull _ heq =>
    rw [hcounts.getD] at hfull heq
    rw [heq]
    refine (hcounts.insert (by omega)).congr fun key ↦ ?_
    rw [update_eq_self]
    exact (hkey key).symm
  | @acquire key _ _ heq =>
    rw [heq, hcounts.getD]
    refine (hcounts.insert (Nat.succ_ne_zero _)).congr fun key' ↦ ?_
    have := hkey key'
    by_cases hne : key' = key
    · subst hne
      rw [update_self]
      simpa using this.symm
    · rw [update_of_ne hne]
      simpa [Ne.symm hne] using this.symm
  | @tryAcquire key _ _ heq =>
    rw [heq]
    refine hcounts.congr fun key' ↦ ?_
    have := hkey key'
    simp only [List.count_cons, List.count_nil, reduceCtorEq, beq_iff_eq, if_false] at this
    omega
  | @dropTunnel key guards _ heq =>
    have hself := hkey key
    rw [List.count_cons_self] at hself
    rw [heq]
    refine (counts_dropPermit hcounts (by omega)).congr fun key' ↦ ?_
    by_cases hne : key' = key
    · subst hne
      rw [update_self]
      omega
    · have := hkey key'
      rw [List.count_cons_of_ne (by simpa using Ne.symm hne)] at this
      rw [update_of_ne hne]
      omega
  | @drop guards _ heq =>
    rw [heq]
    refine hcounts.congr fun key ↦ ?_
    have := hkey key
    rw [List.count_cons_of_ne (by simp)] at this
    omega

theorem Permitted.bounded (h : Permitted s e before after)
    (hcount : ∀ guard, f' guard + before.count guard = f guard + after.count guard)
    (hcounts : Counts s.perTunnelConnections fun key ↦ f (.tunnelPermit key))
    (hbounded : ∀ key, f (.tunnelPermit key) ≤ s.maxConnectionsPerTunnel) (key : String) :
    f' (.tunnelPermit key) ≤ s.maxConnectionsPerTunnel := by
  have hkey := hcount (.tunnelPermit key)
  have hold := hbounded key
  cases h with
  | keep hguards _ _ =>
    rw [hguards] at hkey
    omega
  | full _ _ _ => omega
  | @acquire key' hlt _ _ =>
    rw [hcounts.getD] at hlt
    by_cases hne : key' = key
    · subst hne
      simp only [List.count_nil, List.count_singleton_self] at hkey
      omega
    · rw [List.count_nil, List.count_cons_of_ne (by simpa using hne), List.count_nil] at hkey
      omega
  | tryAcquire _ _ _ =>
    simp only [List.count_cons, List.count_nil, reduceCtorEq, beq_iff_eq, if_false] at hkey
    omega
  | dropTunnel _ _ =>
    rw [List.count_cons] at hkey
    omega
  | drop _ _ =>
    rw [List.count_cons] at hkey
    omega

theorem Permitted.slots (h : Permitted s e before after)
    (hcount : ∀ guard, f' guard + before.count guard = f guard + after.count guard)
    (hslots : s.connectionSlots + f .permit = total) :
    e.connectionSlots + f' .permit = total := by
  have hpermit := hcount .permit
  cases h with
  | keep hguards heq _ =>
    rw [hguards] at hpermit
    omega
  | full _ heq _ => omega
  | acquire _ heq _ =>
    rw [List.count_cons_of_ne (by simp)] at hpermit
    omega
  | tryAcquire hfree heq _ =>
    simp only [List.count_cons, List.count_nil, reduceCtorEq, beq_iff_eq, if_false, if_true]
      at hpermit
    omega
  | dropTunnel heq _ =>
    rw [List.count_cons_of_ne (by simp)] at hpermit
    omega
  | drop heq _ =>
    rw [List.count_cons_self] at hpermit
    omega

end

theorem Permits.step (h : Permits total limit s) (hpos : 1 ≤ limit) (hstart : a.isStart = false)
    (hnext : next json stateFile s a = some (o, t)) : Permits total limit t := by
  have hbelow : Below t := h.below.step hnext
  cases next_moved hnext with
  | tick _ => exact ⟨hbelow, h.limited, h.tunnels, h.bounded, h.slots⟩
  | reject => exact h
  | answer => exact h
  | spawn _ _ hstarts =>
    have hlive := State.spawn_live hstarts
    refine ⟨hbelow, h.limited, h.tunnels.congr fun key ↦ (hlive _).symm, fun key ↦ ?_, ?_⟩
    · rw [hlive]
      exact h.bounded key
    · rw [hlive]
      exact h.slots
  | @run id io task e htask hrun =>
    have hlive := State.apply_live (e := e) (h.below.lt htask) htask
    have hpermitted := run_permitted hrun
    have hlimited := h.limited
    have hbounded := h.bounded
    rw [← hlimited] at hpos hbounded
    refine ⟨hbelow, hlimited, hpermitted.tunnels hlive hpos h.tunnels, ?_,
      hpermitted.slots hlive h.slots⟩
    rw [← hlimited]
    exact hpermitted.bounded hlive h.tunnels hbounded
  | start _ => cases hstart

-- A new process has all its permits.
theorem Permits.of_launch {config : Config} {now : UInt64} {files : Fs FilePath} {nextTask : Nat}
    (hs : launch json stateFile config now files nextTask = some s) :
    Permits (max config.maxConnections 1) (max config.maxConnectionsPerTunnel 1) s := by
  have htasks := (launch_eq hs).2.2.1
  have hlive : ∀ guard, s.live guard = 0 := by
    intro guard
    apply timesHeld_of_none
    intro id
    rw [htasks]
    rfl
  simp only [launch, Option.ite_none_right_eq_some] at hs
  obtain ⟨-, hs⟩ := hs
  cases hs
  refine ⟨.of_no_tasks htasks, rfl, Counts.empty.congr fun key ↦ (hlive _).symm, fun key ↦ ?_, ?_⟩
  · rw [hlive]
    exact Nat.zero_le _
  · rw [hlive, Nat.add_zero]

theorem permits {config : Config} {now : UInt64} {files : Fs FilePath} {nextTask : Nat}
    (hs : launch json stateFile config now files nextTask = some s)
    (h : Run (next json stateFile) s tr t) (hstart : ∀ e ∈ tr, e.act.isStart = false) :
    Permits (max config.maxConnections 1) (max config.maxConnectionsPerTunnel 1) t := by
  refine h.invariant (I := Permits (max config.maxConnections 1)
    (max config.maxConnectionsPerTunnel 1)) (C := fun e ↦ e.act.isStart = false)
    (.of_launch hs) ?_ hstart
  intro v a o w hv hact hnext
  exact hv.step (Nat.le_max_right _ _) hact hnext

/-- The number of tasks that there have been does not matter for what they hold. -/
theorem Below.live_eq (hs : Below s) {n : Nat} (hn : s.nextTask ≤ n) (guard : Guard) :
    timesHeld n (fun id ↦ guardsOf (s.tasks id)) guard = s.live guard := by
  apply timesHeld_of_le hn
  intro id hid
  rw [hs id hid]
  rfl

-- Tasks that hold the same leave the counters the same.
theorem Permits.counters_eq {u : State} (h : Permits total limit t) (hu : Permits total limit u)
    (hsame : ∀ id, guardsOf (t.tasks id) = guardsOf (u.tasks id)) :
    (∀ key, t.perTunnelConnections.lookup key = u.perTunnelConnections.lookup key) ∧
      t.connectionSlots = u.connectionSlots := by
  have hlive : ∀ guard, t.live guard = u.live guard := by
    intro guard
    rw [← h.below.live_eq (Nat.le_max_left t.nextTask u.nextTask),
      ← hu.below.live_eq (Nat.le_max_right t.nextTask u.nextTask)]
    exact timesHeld_congr fun id _ ↦ hsame id
  constructor
  · intro key
    rw [h.tunnels key, hu.tunnels key]
    simp only [hlive]
  · have ht := h.slots
    have hu := hu.slots
    rw [hlive] at ht
    omega

/-- At every moment the map has an entry for the tunnels with a live permit and no others, with
the number of them, which is at most the limit; the free and the held permits of the gateway are
all there are; and where a request has come and been answered while the others kept what they
held, both counters are what they were before it. -/
theorem connection_limits_exact {config : Config} {now : UInt64} {files : Fs FilePath}
    {nextTask : Nat} (hs : launch json stateFile config now files nextTask = some s)
    (h : Run (next json stateFile) s tr t) (hstart : ∀ e ∈ tr, e.act.isStart = false) :
    (∀ key count, t.perTunnelConnections.lookup key = some count ↔
      count = t.live (.tunnelPermit key) ∧ 1 ≤ count) ∧
    (∀ key, t.live (.tunnelPermit key) ≤ max config.maxConnectionsPerTunnel 1) ∧
    t.connectionSlots + t.live .permit = max config.maxConnections 1 ∧
    ∀ tr₁ tr₂ u id status reply, tr = tr₁ ++ tr₂ → Run (next json stateFile) s tr₁ u →
      guardsOf (u.tasks id) = [] → t.tasks id = some (.respond status reply) →
      (∀ id', id' ≠ id → guardsOf (t.tasks id') = guardsOf (u.tasks id')) →
      (∀ key, t.perTunnelConnections.lookup key = u.perTunnelConnections.lookup key) ∧
        t.connectionSlots = u.connectionSlots := by
  have ht := permits hs h hstart
  refine ⟨fun key count ↦ ht.tunnels.lookup_eq_some_iff, ht.bounded, ht.slots, ?_⟩
  rintro tr₁ tr₂ u id status reply rfl hu hnone hrespond hothers
  refine ht.counters_eq (permits hs hu fun e he ↦ hstart e (List.mem_append_left _ he)) ?_
  intro id'
  by_cases hid : id' = id
  · rw [hid, hnone, hrespond]
    rfl
  · exact hothers id' hid

/-- A request to the tunnel until it has its connection, as the task of that number. -/
def sampleTraffic (id : Nat) : List Action :=
  [.processTraffic sampleKey, .run id .done, .run id .done, .run id .done, .run id .done,
    .run id .done, .run id .done]

-- The tunnel takes two connections and turns a third one down.
theorem connection_limits_exact_sample : ∃ s tr₁ e tr₂ t,
    launch JsonText.compact none sampleConfig 0 Fs.empty 0 = some s ∧
    Run (next JsonText.compact none) s (tr₁ ++ e :: tr₂) t ∧
    e.act = .processTraffic sampleKey ∧
    t.tasks 3 = some (.respond .tooManyRequests (.text "tunnel connection limit reached")) ∧
    t.perTunnelConnections.lookup sampleKey = some 2 ∧
    (∀ key, t.perTunnelConnections.lookup key = e.pre.perTunnelConnections.lookup key) ∧
    t.connectionSlots = e.pre.connectionSlots := by
  obtain ⟨s, hs⟩ : ∃ s, launch JsonText.compact none sampleConfig 0 Fs.empty 0 = some s :=
    Option.isSome_iff_exists.mp (by decide)
  obtain ⟨tr₁, e, tr₂, t, hrun, hact, hp⟩ := exists_run_at (next JsonText.compact none) s
    ([samplePost none, .run 0 .done, .run 0 .done] ++ sampleTraffic 1 ++ sampleTraffic 2)
    (.processTraffic sampleKey) [.run 3 .done, .run 3 .done, .run 3 .done]
    (fun tr₁ e tr₂ t ↦ (tr₁ ++ e :: tr₂).all (!·.act.isStart) && e.pre.nextTask = 3 &&
      t.nextTask = 4 && (List.range 3).all (fun id ↦ t.tasks id = e.pre.tasks id) &&
      t.tasks 3 = some (.respond .tooManyRequests (.text "tunnel connection limit reached")) &&
      t.perTunnelConnections.lookup sampleKey = some 2)
    (by cases hs; decide +kernel)
  simp only [Bool.and_eq_true, List.all_eq_true, decide_eq_true_eq, Bool.not_eq_true',
    List.mem_range] at hp
  obtain ⟨⟨⟨⟨⟨hstart, hbefore⟩, hafter⟩, hsame⟩, hrespond⟩, hcount⟩ := hp
  obtain ⟨u, hu, -, -⟩ := hrun.cut
  have hpre : Below e.pre :=
    (permits hs hu fun e' he' ↦ hstart e' (List.mem_append_left _ he')).below
  have hpost : Below t := (permits hs hrun hstart).below
  have hcounters := (connection_limits_exact hs hrun hstart).2.2.2 tr₁ (e :: tr₂) e.pre 3 _ _ rfl
    hu (by rw [hpre 3 (by omega)]; rfl) hrespond
  refine ⟨s, tr₁, e, tr₂, t, hs, hrun, hact, hrespond, hcount, hcounters ?_⟩
  intro id hid
  by_cases hlt : id < 3
  · rw [hsame id hlt]
  · rw [hpre id (by omega), hpost id (by omega)]

end LabStreamGate.Gateway
