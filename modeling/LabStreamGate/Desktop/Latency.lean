import LabStreamGate.Desktop.Instances

/-!
# Where latencies go

The worker pings the instances one after the other and writes each result to the first instance
with the remote of the one that was pinged, though instances of several scopes may share a remote.
-/

namespace LabStreamGate.Desktop

variable {toml : TomlText} {s t u : State} {task : Task} {io : Io} {e : Effect} {a : Action}
  {o : Out} {id : Nat} {tr tr₁ tr₂ : List (Event State Action Out)} {rows₀ : List (String × Int)}

/-- The remote, by which a latency is written, and the latency. -/
def InstanceData.row (data : InstanceData) : String × Int := (data.remote, data.latency)

def State.rows (s : State) : List (String × Int) := s.instances.map fun i ↦ i.data.row

/-- The instance and the result of the call of `update_instance_state` that the task makes. -/
def updateCall (id : Nat) (e : Event State Action Out) :
    Option (InstanceData × Except LatencyError Int) :=
  match e.act, e.pre.tasks id with
  | .run id' .done, some (.updateInstanceState data result _) =>
    if id' = id then some (data, result) else none
  | _, _ => none

/-- The pings of the task, in their order. -/
def pings (id : Nat) (tr : List (Event State Action Out)) :
    List (InstanceData × Except LatencyError Int) := tr.filterMap (updateCall id)

def resultRow (ping : InstanceData × Except LatencyError Int) : String × Int :=
  (ping.1.remote, elapsed ping.2)

/-- The instances that a pass has still to ping. -/
def remaining : Option Task → Option (List InstanceData)
  | none => some []
  | some (.ping data (some rest)) => some (data :: rest)
  | some (.updateInstanceState data _ (some rest)) => some (data :: rest)
  | some (.pingfall _ _ rest) => some rest
  | _ => none

/-- No instance is removed by the pass, and none is added, removed or measured beside it. -/
structure Undisturbed (toml : TomlText) (id : Nat) (e : Event State Action Out) : Prop where
  kept : ∀ io, e.act = .run id io → ∀ data error rest,
    e.pre.tasks id = some (.pingfall data error rest) →
      pingfallRemoves e.pre.scopes data error = false
  others : (∀ io, e.act ≠ .run id io) → ∀ o u, next toml e.pre e.act = some (o, u) →
    u.rows = e.pre.rows

/-! ## One step of the pass -/

theorem rows_measure {instances : List ProxyInstance} {remote : String} {latency : Int} :
    (measure instances remote latency).map (fun i ↦ i.data.row) =
      writeRow (instances.map fun i ↦ i.data.row) (remote, latency) := by
  refine map_updateFirst_of (fun _ ↦ rfl) fun i hi ↦ ?_
  rw [← beq_iff_eq.mp hi]
  rfl

theorem remaining_pingNext {rest : List InstanceData} : remaining (pingNext rest) = some rest := by
  cases rest <;> rfl

/-- The next step of a pass makes a call, or leaves what there is to ping. -/
theorem run_left {rest : List InstanceData} (hrun : task.run toml s io = some e)
    (hleft : remaining (some task) = some rest)
    (hkept : ∀ data error rest, task = .pingfall data error rest →
      pingfallRemoves s.scopes data error = false) :
    (remaining e.task = some rest ∧ e.instances = s.instances ∧
        ∀ data result more, task ≠ .updateInstanceState data result more) ∨
      ∃ data result more rest', task = .updateInstanceState data result more ∧ io = .done ∧
        rest = data :: rest' ∧ remaining e.task = some rest' ∧
        e.instances = measure s.instances data.remote (elapsed result) := by
  cases task with
  | ping data more =>
    cases io <;> simp only [Task.run, reduceCtorEq] at hrun
    cases hrun
    cases more with
    | none => cases hleft
    | some more => exact .inl ⟨hleft, rfl, by simp⟩
  | updateInstanceState data result more =>
    cases io <;> simp only [Task.run, reduceCtorEq] at hrun
    cases hrun
    cases more with
    | none => cases hleft
    | some more =>
      cases hleft
      refine .inr ⟨data, result, some more, more, rfl, rfl, rfl, ?_, rfl⟩
      cases result with
      | ok latency => exact remaining_pingNext
      | error error => rfl
  | pingfall data error more =>
    cases io <;> simp only [Task.run, hkept data error more rfl, reduceCtorEq] at hrun
    cases hrun
    cases hleft
    exact .inl ⟨remaining_pingNext, rfl, by simp⟩
  | _ => cases hleft

/-- How far a pass is that started with the rows. -/
structure Passing (id : Nat) (rows₀ : List (String × Int)) (tr : List (Event State Action Out))
    (s : State) : Prop where
  below : s.Below
  lt : id < s.nextTask
  written : s.rows = writeRows rows₀ ((pings id tr).map resultRow)
  left : (s.tasks id = some .latencySnapshot ∧ pings id tr = []) ∨
    ∃ rest, remaining (s.tasks id) = some rest ∧
      ((pings id tr).map Prod.fst ++ rest).map InstanceData.row = rows₀

theorem pings_snoc {e : Event State Action Out} :
    pings id (tr ++ [e]) = pings id tr ++ (updateCall id e).toList := by
  rw [pings, List.filterMap_append]
  cases h : updateCall id e <;> simp [pings, h]

theorem updateCall_of_other {e : Event State Action Out} (h : ∀ io, e.act ≠ .run id io) :
    updateCall id e = none := by
  unfold updateCall
  split
  · rename_i id' _ _ _ hact _
    rw [if_neg fun heq ↦ h _ (heq ▸ hact)]
  · rfl

theorem pings_snoc_of_none {e : Event State Action Out} (h : updateCall id e = none) :
    pings id (tr ++ [e]) = pings id tr := by
  rw [pings_snoc, h]
  exact List.append_nil _

theorem updateCall_of_quiet {e : Event State Action Out} (htask : e.pre.tasks id = some task)
    (hquiet : ∀ data result more, task ≠ .updateInstanceState data result more) :
    updateCall id e = none := by
  unfold updateCall
  split
  · rename_i hupdate
    rw [htask] at hupdate
    cases hupdate
    exact absurd rfl (hquiet _ _ _)
  · rfl

/-- A step of the pass itself. -/
theorem Passing.run (h : Passing id rows₀ tr s) (htask : s.tasks id = some task)
    (hrun : task.run toml s io = some e)
    (hkept : ∀ data error rest, task = .pingfall data error rest →
      pingfallRemoves s.scopes data error = false) :
    Passing id rows₀ (tr ++ [⟨s, .run id io, o⟩]) (s.apply id e) := by
  have hself : (s.apply id e).tasks id = e.task := h.below.apply_tasks_self htask
  have hrows : (s.apply id e).rows = e.instances.map fun i ↦ i.data.row := by
    rw [State.rows, State.apply_instances]
  have hlt : id < (s.apply id e).nextTask := Nat.lt_of_lt_of_le h.lt State.le_apply_nextTask
  have hquiet (hcall : ∀ data result more, task ≠ .updateInstanceState data result more) :
      pings id (tr ++ [⟨s, .run id io, o⟩]) = pings id tr :=
    pings_snoc_of_none (updateCall_of_quiet htask hcall)
  rcases h.left with ⟨hsnapshot, hnil⟩ | ⟨rest, hrest, hdone⟩
  · rw [htask] at hsnapshot
    cases hsnapshot
    cases io <;> simp only [Task.run, reduceCtorEq] at hrun
    cases hrun
    have hwritten := h.written
    rw [hnil] at hwritten
    have hsame := hquiet (by simp)
    refine ⟨h.below.apply htask, hlt, ?_, .inr ⟨s.instances.map ProxyInstance.data, ?_, ?_⟩⟩
    · rw [hsame, hrows]
      exact h.written
    · rw [hself]
      exact remaining_pingNext
    · rw [hsame, hnil, List.map_nil, List.nil_append, List.map_map]
      exact hwritten
  · rw [htask] at hrest
    rcases run_left hrun hrest hkept with
      ⟨hleft, hinstances, hcall⟩ | ⟨data, result, more, rest', rfl, rfl, rfl, hleft, hinstances⟩
    · refine ⟨h.below.apply htask, hlt, ?_, .inr ⟨rest, hself ▸ hleft, ?_⟩⟩
      · rw [hquiet hcall, hrows, hinstances]
        exact h.written
      · rw [hquiet hcall]
        exact hdone
    · have hcall : pings id (tr ++ [⟨s, .run id .done, o⟩]) = pings id tr ++ [(data, result)] := by
        rw [pings_snoc]
        simp [updateCall, htask]
      refine ⟨h.below.apply htask, hlt, ?_, .inr ⟨rest', hself ▸ hleft, ?_⟩⟩
      · rw [hcall, hrows, hinstances, rows_measure, List.map_append, List.map_singleton,
          writeRows_concat, ← h.written]
        rfl
      · have hlist : (pings id tr ++ [(data, result)]).map Prod.fst ++ rest' =
            (pings id tr).map Prod.fst ++ data :: rest' := by simp
        rw [hcall, hlist]
        exact hdone

theorem Passing.step (h : Passing id rows₀ tr s) (hundisturbed : Undisturbed toml id ⟨s, a, o⟩)
    (hnext : next toml s a = some (o, t)) : Passing id rows₀ (tr ++ [⟨s, a, o⟩]) t := by
  by_cases hother : ∀ io, a ≠ .run id io
  · have hm := next_moved hnext
    have hpings : pings id (tr ++ [⟨s, a, o⟩]) = pings id tr :=
      pings_snoc_of_none (updateCall_of_other hother)
    obtain ⟨htask, hle⟩ := hm.tasks_of_other h.lt hother
    refine ⟨h.below.step hm, Nat.lt_of_lt_of_le h.lt hle, ?_, ?_⟩
    · rw [hpings, hundisturbed.others hother o t hnext]
      exact h.written
    · rw [hpings, htask]
      exact h.left
  · obtain ⟨io, rfl⟩ := not_forall_not.mp hother
    simp only [next, Option.bind_eq_some_iff, Option.map_eq_some_iff, Prod.mk.injEq] at hnext
    obtain ⟨task, htask, e, hrun, -, rfl⟩ := hnext
    exact h.run htask hrun fun data error more heq ↦
      hundisturbed.kept io rfl data error more (heq ▸ htask)

theorem passing (h : Run (next toml) s tr t) (hbelow : s.Below)
    (hstart : s.tasks id = some .latencySnapshot) (hundisturbed : ∀ e ∈ tr, Undisturbed toml id e) :
    Passing id s.rows tr t :=
  h.history (C := Undisturbed toml id) ⟨hbelow, hbelow.lt hstart, rfl, .inl ⟨hstart, rfl⟩⟩
    (fun _ _ _ _ _ hp hundisturbed hnext ↦ hp.step hundisturbed hnext) hundisturbed

/-! ## One call -/

/-- Whether two places of a list of instances are the same shows in their rows after a call. -/
theorem measure_place_iff {instances : List ProxyInstance} {remote : String} {latency : Int}
    (i : Nat) : (measure instances remote latency)[i]? = instances[i]? ↔
      ((measure instances remote latency).map fun i ↦ i.data.row)[i]? =
        (instances.map fun i ↦ i.data.row)[i]? := by
  rw [List.getElem?_map, List.getElem?_map, measure, getElem?_updateFirst]
  split
  · cases hi : instances[i]? with
    | none => simp
    | some instance' =>
      obtain ⟨⟨label, remote', localAddr, latency', scopeHost⟩, tunnel⟩ := instance'
      simp [InstanceData.row]
  · simp

/-- The call that an event of the trace makes, with what it found and what it left. -/
theorem updateCall_next {e : Event State Action Out} {ping : InstanceData × Except LatencyError Int}
    (hcall : updateCall id e = some ping) (hnext : next toml e.pre e.act = some (o, u)) :
    u.instances = measure e.pre.instances ping.1.remote (elapsed ping.2) := by
  obtain ⟨pre, act, out⟩ := e
  unfold updateCall at hcall
  split at hcall
  · rename_i id' _ data result more hact htask
    split at hcall
    · rename_i heq
      subst heq
      change act = _ at hact
      change pre.tasks _ = _ at htask
      subst hact
      cases hcall
      simp only [next, htask, Option.bind_some, Option.map_eq_some_iff, Prod.mk.injEq] at hnext
      obtain ⟨e, hrun, -, rfl⟩ := hnext
      rw [State.apply_instances]
      cases hrun
      rfl
    · cases hcall
  · cases hcall

/-! ## The pass -/

/-- Every instance has the result of its own ping after the pass. -/
def OwnResults (id : Nat) (tr : List (Event State Action Out)) (t : State) : Prop :=
  t.instances.map (fun i ↦ i.data.latency) = (pings id tr).map fun ping ↦ elapsed ping.2

/-- The call for the `k`-th instance leaves all others as they are. -/
def OwnOnly (toml : TomlText) (id : Nat) (tr : List (Event State Action Out)) : Prop :=
  ∀ tr₁ e tr₂ o u, tr = tr₁ ++ e :: tr₂ → (updateCall id e).isSome = true →
    next toml e.pre e.act = some (o, u) → ∀ i, i ≠ (pings id tr₁).length →
      u.instances[i]? = e.pre.instances[i]?

/-- Pings of one remote had one result, which all instances but the first had as their latency. -/
def SameResults (pings : List (InstanceData × Except LatencyError Int)) : Prop :=
  pings.Pairwise fun a b ↦ a.1.remote = b.1.remote →
    elapsed a.2 = elapsed b.2 ∧ b.1.latency = elapsed b.2

theorem pings_append {e : Event State Action Out} {ping : InstanceData × Except LatencyError Int}
    (hcall : updateCall id e = some ping) :
    pings id (tr₁ ++ e :: tr₂) = pings id tr₁ ++ ping :: pings id tr₂ := by
  simp [pings, hcall]

/-- The event that makes the `k`-th call. -/
theorem exists_call {k : Nat} (hk : k < (pings id tr).length) : ∃ tr₁ e tr₂ ping,
    tr = tr₁ ++ e :: tr₂ ∧ (pings id tr₁).length = k ∧ updateCall id e = some ping := by
  have hsplit : pings id tr = (pings id tr).take k ++ (pings id tr)[k] :: (pings id tr).drop (k + 1) := by
    rw [← List.drop_eq_getElem_cons hk, List.take_append_drop]
  obtain ⟨front, back, rfl, hfront, hback⟩ := List.filterMap_eq_append_iff.mp hsplit
  obtain ⟨quiet, e, tr₂, rfl, hquiet, hcall, -⟩ := List.filterMap_eq_cons_iff.mp hback
  refine ⟨front ++ quiet, e, tr₂, _, by rw [List.append_assoc], ?_, hcall⟩
  have hnone : quiet.filterMap (updateCall id) = [] := List.filterMap_eq_nil_iff.mpr hquiet
  rw [pings, List.filterMap_append, hnone, List.append_nil, hfront, List.length_take]
  exact Nat.min_eq_left (Nat.le_of_lt hk)

theorem resultRow_eq_iff {a b : InstanceData × Except LatencyError Int}
    (h : a.1.remote = b.1.remote) : resultRow a = resultRow b ↔ elapsed a.2 = elapsed b.2 := by
  simp [resultRow, h]

theorem row_eq_resultRow_iff {ping : InstanceData × Except LatencyError Int} :
    ping.1.row = resultRow ping ↔ ping.1.latency = elapsed ping.2 := by
  simp [InstanceData.row, resultRow]

theorem sameResults_iff (hrows : (pings id tr).map (fun ping ↦ ping.1.row) = s.rows) :
    (∀ j, j < ((pings id tr).map resultRow).length → ∀ i, i < j →
      (((pings id tr).map resultRow).map Prod.fst)[i]? =
          (((pings id tr).map resultRow).map Prod.fst)[j]? →
        ((pings id tr).map resultRow)[i]? = ((pings id tr).map resultRow)[j]? ∧
          s.rows[j]? = ((pings id tr).map resultRow)[j]?) ↔ SameResults (pings id tr) := by
  rw [SameResults, List.pairwise_iff_getElem, ← hrows]
  simp only [List.length_map, List.getElem?_map]
  constructor
  · intro h i j hi hj hij hremote
    have hpair := h j hj i hij
    simp only [List.getElem?_eq_getElem hi, List.getElem?_eq_getElem hj, Option.map_some,
      Option.some.injEq, row_eq_resultRow_iff, resultRow_eq_iff hremote] at hpair
    exact hpair hremote
  · intro h j hj i hij
    have hi := Nat.lt_trans hij hj
    simp only [List.getElem?_eq_getElem hi, List.getElem?_eq_getElem hj, Option.map_some,
      Option.some.injEq, row_eq_resultRow_iff]
    intro hremote
    rw [resultRow_eq_iff hremote]
    exact h i j hi hj hij hremote

/-- A pass that is over has pinged all instances in their order. -/
theorem Passing.all_pinged (h : Passing id rows₀ tr s) (hend : s.tasks id = none) :
    (pings id tr).map (fun ping ↦ ping.1.row) = rows₀ := by
  rcases h.left with ⟨hsnapshot, -⟩ | ⟨rest, hrest, hdone⟩
  · rw [hend] at hsnapshot
    cases hsnapshot
  · rw [hend] at hrest
    cases hrest
    rwa [List.append_nil, List.map_map] at hdone

section

variable (h : Run (next toml) s tr t) (hbelow : s.Below)
  (hstart : s.tasks id = some .latencySnapshot) (hundisturbed : ∀ e ∈ tr, Undisturbed toml id e)

include h hbelow hstart hundisturbed

/-- The rows before a call are those that the calls so far have written. -/
theorem rows_before_call {e : Event State Action Out} (htr : tr = tr₁ ++ e :: tr₂) :
    e.pre.rows = writeRows s.rows (((pings id tr).map resultRow).take (pings id tr₁).length) := by
  subst htr
  obtain ⟨u, hrun, -, -⟩ := h.cut
  have hsofar := passing hrun hbelow hstart fun e he ↦ hundisturbed e (by simp [he])
  rw [hsofar.written, ← List.map_take]
  simp [pings]

theorem rows_after_call {e : Event State Action Out} {ping : InstanceData × Except LatencyError Int}
    (htr : tr = tr₁ ++ e :: tr₂) (hcall : updateCall id e = some ping)
    (hnext : next toml e.pre e.act = some (o, u)) :
    u.rows =
      writeRows s.rows (((pings id tr).map resultRow).take ((pings id tr₁).length + 1)) := by
  have hbefore := rows_before_call h hbelow hstart hundisturbed htr
  rw [State.rows, updateCall_next hcall hnext, rows_measure, ← State.rows, hbefore, htr,
    ← List.map_take, ← List.map_take, pings_append hcall, List.take_left,
    List.take_length_add_append, List.take_succ_cons, List.take_zero, List.map_append,
    List.map_singleton, writeRows_concat]
  rfl

/-- Whether a call changes other instances shows in the rows. -/
theorem ownOnly_iff : OwnOnly toml id tr ↔
    ∀ k, k < ((pings id tr).map resultRow).length → ∀ i, i ≠ k →
      (writeRows s.rows (((pings id tr).map resultRow).take (k + 1)))[i]? =
        (writeRows s.rows (((pings id tr).map resultRow).take k))[i]? := by
  rw [List.length_map]
  constructor
  · intro honly k hk i hi
    obtain ⟨tr₁, e, tr₂, ping, htr, rfl, hcall⟩ := exists_call hk
    obtain ⟨u, -, hnext, -⟩ := (htr ▸ h).cut
    have hsame := honly tr₁ e tr₂ e.out u htr (by rw [hcall]; rfl) hnext i hi
    rw [← rows_after_call h hbelow hstart hundisturbed htr hcall hnext,
      ← rows_before_call h hbelow hstart hundisturbed htr, State.rows, State.rows,
      List.getElem?_map, List.getElem?_map, hsame]
  · intro hrow tr₁ e tr₂ o u htr hsome hnext i hi
    obtain ⟨ping, hcall⟩ := Option.isSome_iff_exists.mp hsome
    have hk : (pings id tr₁).length < (pings id tr).length := by
      rw [htr, pings_append hcall, List.length_append, List.length_cons]
      omega
    have hsame := hrow _ hk i hi
    rw [← rows_after_call h hbelow hstart hundisturbed htr hcall hnext,
      ← rows_before_call h hbelow hstart hundisturbed htr, State.rows, State.rows,
      updateCall_next hcall hnext] at hsame
    rw [updateCall_next hcall hnext]
    exact (measure_place_iff i).mpr hsame

end

/-- After a pass all instances have been pinged in their order, and each has the result of its own
ping, with no call changing another one, if and only if pings of one remote had one result and the
instances with that remote, but for the first, had it as their latency already. -/
theorem latency_own_iff (h : Run (next toml) s tr t) (hbelow : s.Below)
    (hstart : s.tasks id = some .latencySnapshot) (hend : t.tasks id = none)
    (hundisturbed : ∀ e ∈ tr, Undisturbed toml id e) :
    (pings id tr).map (fun ping ↦ ping.1.row) = s.rows ∧
      (OwnResults id tr t ∧ OwnOnly toml id tr ↔ SameResults (pings id tr)) := by
  have hpassing := passing h hbelow hstart hundisturbed
  have hrows := hpassing.all_pinged hend
  refine ⟨hrows, ?_⟩
  have hkeys : ((pings id tr).map resultRow).map Prod.fst = s.rows.map Prod.fst := by
    rw [← hrows, List.map_map, List.map_map]
    rfl
  have hown : OwnResults id tr t ↔
      writeRows s.rows ((pings id tr).map resultRow) = (pings id tr).map resultRow := by
    rw [rows_eq_iff (keys_writeRows.trans hkeys.symm), ← hpassing.written]
    simp only [OwnResults, State.rows, List.map_map]
    rfl
  rw [hown, ownOnly_iff h hbelow hstart hundisturbed, writeRows_own_iff hkeys]
  exact sameResults_iff hrows

/-! ## Two instances on one remote -/

/-- The step is one of the pass, and does not come to a removal. -/
def isPassStep (id : Nat) (e : Event State Action Out) : Bool :=
  match e.act, e.pre.tasks id with
  | .run id' _, some (.pingfall data error _) =>
    id' == id && !pingfallRemoves e.pre.scopes data error
  | .run id' _, _ => id' == id
  | _, _ => false

theorem undisturbed_of_isPassStep {e : Event State Action Out} (h : isPassStep id e = true) :
    Undisturbed toml id e := by
  unfold isPassStep at h
  split at h
  · rename_i id' io data error rest hact htask
    rw [Bool.and_eq_true, beq_iff_eq, Bool.not_eq_true'] at h
    obtain ⟨rfl, hkept⟩ := h
    refine ⟨fun _ _ data' error' rest' htask' ↦ ?_, fun hother ↦ absurd hact (hother io)⟩
    rw [htask] at htask'
    cases htask'
    exact hkept
  · rename_i id' io hact hnot
    obtain rfl := beq_iff_eq.mp h
    exact ⟨fun _ _ data error rest htask ↦ (hnot data error rest htask).elim,
      fun hother ↦ absurd hact (hother io)⟩
  · cases h

/-- A website and the user each launch an instance on one remote. -/
def sampleShared : List Action :=
  [sampleLaunch, .run 0 (.bound "127.0.0.1:4000"), .run 0 .done,
    .launch 1 "ws://lab:80" "127.0.0.1:0", .run 2 (.bound "127.0.0.1:4001"), .run 2 .done]

/-- A pass after that, with given answers. -/
theorem exists_pass (answers : List Action) (p : List (Event State Action Out) → State → Bool)
    (h : ((exec (next .compact) (State.spawnBackground Fs.empty) sampleShared).bind fun q₁ ↦
      (next .compact q₁.2 .latencyLoop).bind fun r ↦
        (exec (next .compact) r.2 answers).map fun q₂ ↦ (q₂.1.all (isPassStep 4) &&
          (q₁.2.nextTask == 4 && (q₂.2.tasks 4).isNone)) && p q₂.1 q₂.2) = some true) :
    ∃ tr₀ s tr t, Run (next .compact) (State.spawnBackground Fs.empty) tr₀ s ∧
      Run (next .compact) s tr t ∧ s.tasks 4 = some .latencySnapshot ∧ t.tasks 4 = none ∧
      (∀ e ∈ tr, Undisturbed .compact 4 e) ∧ p tr t = true := by
  obtain ⟨tr₁, e, tr₂, t, hrun, hact, hp⟩ := exists_run_at (next .compact)
    (State.spawnBackground Fs.empty) sampleShared .latencyLoop answers
    (fun _ e tr t ↦ (tr.all (isPassStep 4) && (e.pre.nextTask == 4 && (t.tasks 4).isNone)) && p tr t) h
  simp only [Bool.and_eq_true, List.all_eq_true, beq_iff_eq, Option.isNone_iff_eq_none] at hp
  obtain ⟨⟨hsteps, hnext, hidle⟩, hp⟩ := hp
  obtain ⟨u, hbefore, hstep, hpass⟩ := hrun.cut
  have hspawn : u = e.pre.spawn .latencySnapshot := by
    rw [hact] at hstep
    exact (Prod.mk.inj (Option.some.inj hstep)).2.symm
  refine ⟨_, u, tr₂, t, hbefore.snoc hstep, hpass, ?_, hidle,
    fun e he ↦ undisturbed_of_isPassStep (hsteps e he), hp⟩
  rw [hspawn, ← hnext]
  exact Function.update_self ..

-- Neither ping gets an answer, and neither instance has been measured before.
theorem latency_own_iff_sample : ∃ toml s tr t, Run (next toml) s tr t ∧
    (pings 4 tr).length = 2 ∧ OwnResults 4 tr t ∧ OwnOnly toml 4 tr := by
  obtain ⟨tr₀, s, tr, t, hbefore, hrun, hstart, hend, hundisturbed, hp⟩ := exists_pass
    [.run 4 .done, .run 4 (.pinged (.error .request)), .run 4 .done, .run 4 .done,
      .run 4 (.pinged (.error .request)), .run 4 .done, .run 4 .done]
    (fun tr _ ↦ (pings 4 tr).map (fun ping ↦ (ping.1.row, elapsed ping.2)) ==
      [(("ws://lab:80", -1), -1), (("ws://lab:80", -1), -1)]) (by decide +kernel)
  have hpings := beq_iff_eq.mp hp
  have hpairs : ((pings 4 tr).map fun ping ↦ (ping.1.row, elapsed ping.2)).Pairwise
      fun a b ↦ a.1.1 = b.1.1 → a.2 = b.2 ∧ b.1.2 = b.2 := by
    rw [hpings]
    decide
  have hsame : SameResults (pings 4 tr) := List.pairwise_map.mp hpairs
  obtain ⟨hown, honly⟩ :=
    (latency_own_iff hrun (below hbefore) hstart hend hundisturbed).2.mpr hsame
  exact ⟨_, s, tr, t, hrun, by simpa using congrArg List.length hpings, hown, honly⟩

/-- The result of the second ping goes to the first instance. -/
theorem latency_of_other : ¬ ∀ toml files tr₀ s tr t id,
    Run (next toml) (State.spawnBackground files) tr₀ s → Run (next toml) s tr t →
    s.tasks id = some .latencySnapshot → t.tasks id = none →
    (∀ e ∈ tr, Undisturbed toml id e) → OwnResults id tr t := by
  intro hall
  obtain ⟨tr₀, s, tr, t, hbefore, hrun, hstart, hend, hundisturbed, hp⟩ := exists_pass
    [.run 4 .done, .run 4 (.pinged (.ok 20)), .run 4 .done, .run 4 (.pinged (.ok 30)), .run 4 .done]
    (fun tr t ↦ t.instances.map (fun i ↦ i.data.latency) == [30, -1] &&
      (pings 4 tr).map (fun ping ↦ elapsed ping.2) == [20, 30]) (by decide +kernel)
  rw [Bool.and_eq_true, beq_iff_eq, beq_iff_eq] at hp
  have hown := hall _ _ tr₀ s tr t 4 hbefore hrun hstart hend hundisturbed
  rw [OwnResults, hp.1, hp.2] at hown
  exact absurd hown (by decide)

end LabStreamGate.Desktop
