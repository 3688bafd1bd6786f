import LabStreamGate.Client.Step

/-!
# What the daemon answers

A delete takes out what is on the address, and a launch or a listing answers with what is in the
pool, at the moment at which the task of the request looks.  The task is followed from the request
to its response.
-/

namespace LabStreamGate.Client

open Function
open Desktop (InstanceData ProxyInstance Reply)

abbrev Trace := List (Event State Action Desktop.Out)

/-! ## What the daemon does, and what arrives of it -/

/-- An instance of the scope is launched on the address. -/
def launches (scope localAddr : String) (e : Event State Action Desktop.Out) : Bool :=
  match e.out with
  | .added made => made.data.localAddr == localAddr && made.data.scopeHost == scope
  | _ => false

/-- The task `id` takes out what is on the address. -/
def takesOut (localAddr : String) (id : Nat) (e : Event State Action Desktop.Out) : Bool :=
  match e.act, e.pre.daemon.tasks id with
  | .daemon (.run id' .done), some (.removeInstance localAddr' _) =>
    id' == id && localAddr' == localAddr
  | _, _ => false

/-- The task `id` looks the instances up that its response will show. -/
def handles (id : Nat) (e : Event State Action Desktop.Out) : Bool :=
  match e.act, e.pre.daemon.tasks id with
  | .daemon (.run id' .done), some (.getInstances _) => id' == id
  | .daemon (.run id' .done), some (.launchInstance _ _ _) => id' == id
  | _, _ => false

/-- It arrives that the task `id` has deleted what was on the address. -/
def acknowledges (localAddr : String) (id : Nat) (e : Event State Action Desktop.Out) : Bool :=
  match e.act with
  | .arrive c => (e.pre.calls c).any fun call ↦
      call.request == .delete localAddr && call.task == some id &&
        call.answer.any fun answer ↦ answer.1 == .ok
  | _ => false

/-- What was on the address has been taken out, and nothing has been launched there since. -/
def Gone (scope localAddr : String) (tr : Trace) : Prop :=
  ∃ id, Once (fun e ↦ takesOut localAddr id e = true)
    (fun later ↦ ∀ e ∈ later, launches scope localAddr e = false) tr

/-- The delete of what was on the address has been acknowledged, and nothing has been launched
there since it was taken out. -/
def Dead (scope localAddr : String) (tr : Trace) : Prop :=
  ∃ id, Once (fun e ↦ takesOut localAddr id e = true)
    (fun later ↦ (∃ e ∈ later, acknowledges localAddr id e = true) ∧
      ∀ e ∈ later, launches scope localAddr e = false) tr

/-- After the task `id` had looked the instances up, the one on the address was taken out, and that
has been acknowledged. -/
def Crossed (scope localAddr : String) (id : Nat) (tr : Trace) : Prop :=
  Once (fun e ↦ handles id e = true) (Dead scope localAddr) tr

/-- When the task `id` looked the instances up there was one on the address. -/
def Seen (scope localAddr : String) (id : Nat) (tr : Trace) : Prop :=
  ∃ tr₁ e tr₂, tr = tr₁ ++ e :: tr₂ ∧ handles id e = true ∧ ¬ Gone scope localAddr (tr₁ ++ [e])

section

variable {scope localAddr : String} {id : Nat} {tr tr₁ tr₂ : Trace}
  {e : Event State Action Desktop.Out}

theorem Gone.snoc (h : Gone scope localAddr (tr ++ [e])) :
    (∃ id, takesOut localAddr id e = true) ∨
      Gone scope localAddr tr ∧ launches scope localAddr e = false := by
  obtain ⟨id, hid⟩ := h
  rcases Once.snoc_iff.mp hid with htakes | ⟨honce, hlaunches⟩
  · exact .inl ⟨id, htakes⟩
  · exact .inr ⟨⟨id, honce⟩, hlaunches⟩

-- What is dead at last was so before, if the last step acknowledges nothing.
theorem Dead.of_snoc (h : Dead scope localAddr (tr ++ [e]))
    (hack : ∀ id, acknowledges localAddr id e = false) : Dead scope localAddr tr := by
  obtain ⟨id, h⟩ := h
  rcases Once.append_singleton_iff.mp h with ⟨-, ⟨x, hx, -⟩, -⟩ | h
  · cases hx
  · refine ⟨id, h.mono ?_⟩
    rintro l ⟨⟨x, hx, hacknowledges⟩, hlaunches⟩
    rw [List.forall_mem_append] at hlaunches
    refine ⟨⟨x, ?_, hacknowledges⟩, hlaunches.1⟩
    rcases List.mem_append.mp hx with hx | hx
    · exact hx
    · rw [List.mem_singleton.mp hx, hack id] at hacknowledges
      cases hacknowledges

theorem Dead.snoc (h : Dead scope localAddr tr) (hlaunches : launches scope localAddr e = false) :
    Dead scope localAddr (tr ++ [e]) := by
  obtain ⟨id, honce⟩ := h
  refine ⟨id, honce.snoc ?_⟩
  rintro l ⟨⟨x, hx, hack⟩, hnone⟩
  refine ⟨⟨x, List.mem_append_left _ hx, hack⟩, ?_⟩
  rw [List.forall_mem_append]
  exact ⟨hnone, by simpa using hlaunches⟩

/-- What was so of the later steps is so of all. -/
theorem Dead.of_suffix (h : Dead scope localAddr tr₂) : Dead scope localAddr (tr₁ ++ tr₂) := by
  obtain ⟨id, u₁, e, u₂, rfl, htakes, hlater⟩ := h
  exact ⟨id, tr₁ ++ u₁, e, u₂, (List.append_assoc ..).symm, htakes, hlater⟩

theorem Crossed.dead (h : Crossed scope localAddr id tr) : Dead scope localAddr tr := by
  obtain ⟨tr₁, e, tr₂, rfl, -, hdead⟩ := h
  rw [List.append_cons]
  exact hdead.of_suffix

/-- An instance that was there, and is dead now, was taken out in between. -/
theorem Seen.crossed (h : Seen scope localAddr id tr) (hdead : Dead scope localAddr tr) :
    Crossed scope localAddr id tr := by
  obtain ⟨tr₁, e, tr₂, rfl, hhandles, hthere⟩ := h
  obtain ⟨id', u₁, x, u₂, htr, htakes, hack, hlaunches⟩ := hdead
  rw [List.append_cons] at htr
  rcases List.append_eq_append_iff.mp htr with ⟨w, rfl, hw⟩ | ⟨w, hw, hu⟩
  · exact ⟨tr₁, e, tr₂, rfl, hhandles, id', w, x, u₂, hw, htakes, hack, hlaunches⟩
  · -- taken out before it was seen, and not launched in between
    cases w with
    | nil =>
      rw [List.nil_append] at hu
      exact ⟨tr₁, e, tr₂, rfl, hhandles, id', [], x, u₂, hu.symm, htakes, hack, hlaunches⟩
    | cons x' w =>
      obtain ⟨rfl, rfl⟩ := List.cons.inj hu
      refine absurd ⟨id', u₁, x, w, hw, htakes, fun y hy ↦ ?_⟩ hthere
      exact hlaunches y (List.mem_append_left _ hy)

theorem Seen.snoc (h : Seen scope localAddr id tr) : Seen scope localAddr id (tr ++ [e]) := by
  obtain ⟨tr₁, e', tr₂, rfl, hhandles, hthere⟩ := h
  exact ⟨tr₁, e', tr₂ ++ [e], by simp, hhandles, hthere⟩

theorem Seen.last (hhandles : handles id e = true) (hthere : ¬ Gone scope localAddr (tr ++ [e])) :
    Seen scope localAddr id (tr ++ [e]) := ⟨tr, e, [], rfl, hhandles, hthere⟩

end

/-! ## What an answer says of the past -/

/-- What the daemon has said with an answer of its task `id`. -/
def Answers (scope : String) (tr : Trace) (id : Nat) : Request → Reply → Prop
  | .add _ _, .instance data => Seen scope data.localAddr id tr
  | .sync, .instances list =>
    (list.map (·.localAddr)).Nodup ∧ ∀ r ∈ list, Seen scope r.localAddr id tr
  | .delete localAddr, _ => ∃ e ∈ tr, takesOut localAddr id e = true
  | _, _ => True

/-- The task `id` of the daemon works on the request. -/
inductive Serves (scope : String) (tr : Trace) (id : Nat) : Request → Desktop.Task → Prop
  | createListener {inst : WsrxInstance} {random : UInt32} {data : InstanceData} :
      data.scopeHost = scope →
      Serves scope tr id (.add inst random) (.createListener data .http)
  | launchInstance {inst : WsrxInstance} {random : UInt32} {data : InstanceData}
      {localAddr : String} : data.scopeHost = scope →
      Serves scope tr id (.add inst random) (.launchInstance data localAddr .http)
  | closeInstance {localAddr : String} :
      Serves scope tr id (.delete localAddr) (.closeInstance localAddr scope)
  | removeInstance {localAddr : String} :
      Serves scope tr id (.delete localAddr) (.removeInstance localAddr .http)
  | getInstances : Serves scope tr id .sync (.getInstances scope)
  | respond {request : Request} {status : StatusCode} {reply : Reply} :
      (status = .ok → Answers scope tr id request reply) →
      Serves scope tr id request (.respond status reply)

section

variable {toml : TomlText} {scope localAddr : String} {id : Nat} {tr : Trace} {s : State}
  {request : Request} {reply : Reply} {task : Desktop.Task} {io : Desktop.Io}
  {effect : Desktop.Effect} {e : Event State Action Desktop.Out}

theorem Answers.snoc (h : Answers scope tr id request reply) :
    Answers scope (tr ++ [e]) id request reply := by
  cases request with
  | add inst random =>
    cases reply with
    | «instance» data => exact Seen.snoc h
    | _ => trivial
  | delete localAddr =>
    obtain ⟨e', he', htakes⟩ := h
    exact ⟨e', List.mem_append_left _ he', htakes⟩
  | sync =>
    cases reply with
    | instances list => exact ⟨h.1, fun r hr ↦ (h.2 r hr).snoc⟩
    | _ => trivial

theorem Serves.snoc (h : Serves scope tr id request task) :
    Serves scope (tr ++ [e]) id request task := by
  cases h with
  | createListener hscope => exact .createListener hscope
  | launchInstance hscope => exact .launchInstance hscope
  | closeInstance => exact .closeInstance
  | removeInstance => exact .removeInstance
  | getInstances => exact .getInstances
  | respond hanswers => exact .respond fun hok ↦ (hanswers hok).snoc

theorem toPool_serves (h : request.toPool.task scope = some task) :
    Serves scope tr id request task := by
  cases request with
  | add inst random =>
    obtain ⟨data, -, rfl⟩ := Option.map_eq_some_iff.mp h
    exact .createListener rfl
  | delete localAddr =>
    have htask : some (Desktop.Task.closeInstance localAddr scope) = some task := h
    cases htask
    exact .closeInstance
  | sync =>
    cases h
    exact .getInstances

/-- A step of the task of a request: it goes on with it, or answers with what is so then. -/
theorem Serves.run (h : Serves scope tr id request task) (htask : s.daemon.tasks id = some task)
    (hrun : task.run toml s.daemon io = some effect)
    (he : e = ⟨s, .daemon (.run id io), effect.out⟩)
    (hthere : ∀ i ∈ effect.instances, i.data.scopeHost = scope →
      ¬ Gone scope i.data.localAddr (tr ++ [e]))
    (hnodup : (s.daemon.instances.map fun i ↦ i.data.localAddr).Nodup) :
    (∀ t ∈ effect.task, Serves scope (tr ++ [e]) id request t) ∧
      ∀ reply, effect.out = .responded .ok reply →
        Answers scope (tr ++ [e]) id request reply := by
  have hgoes : ∀ {t : Desktop.Task}, effect.out = .silent → effect.task = some t →
      Serves scope (tr ++ [e]) id request t →
      (∀ t ∈ effect.task, Serves scope (tr ++ [e]) id request t) ∧
        ∀ reply, effect.out = .responded .ok reply →
          Answers scope (tr ++ [e]) id request reply := by
    intro t hout hafter hserves
    rw [hout, hafter]
    refine ⟨fun t' ht' ↦ ?_, fun _ hout' ↦ by cases hout'⟩
    cases ht'
    exact hserves
  cases h with
  | createListener hscope =>
    cases io <;> cases hrun
    · exact hgoes rfl rfl (.launchInstance hscope)
    · exact hgoes rfl rfl (.respond fun _ ↦ trivial)
  | @launchInstance inst random data localAddr hscope =>
    cases io <;> cases hrun
    obtain ⟨status, reply, hresume, hok⟩ :=
      @Desktop.launchInstance_resume s.daemon data localAddr .http
    refine ⟨fun t ht ↦ ?_, fun reply' hout ↦ absurd hout Desktop.launchInstance_out⟩
    rw [hresume] at ht
    cases ht
    refine .respond fun hstatus ↦ ?_
    obtain ⟨i, hi, hiscope, d, rfl, haddr⟩ := hok hstatus
    show Seen scope d.localAddr id (tr ++ [e])
    rw [haddr]
    exact .last (by simp [he, handles, htask]) (hthere i hi (hiscope.trans hscope))
  | @closeInstance localAddr =>
    cases io <;> cases hrun
    rcases Desktop.closeInstance_keep with ⟨text, hclose⟩ | hclose
    · rw [hclose] at hgoes ⊢
      exact hgoes rfl rfl (.respond nofun)
    · rw [hclose] at hgoes ⊢
      exact hgoes rfl rfl .removeInstance
  | @removeInstance localAddr =>
    cases io <;> cases hrun
    refine hgoes rfl rfl (.respond fun _ ↦
      ⟨e, List.mem_append_right _ (List.mem_singleton_self _), ?_⟩)
    simp [he, takesOut, htask]
  | getInstances =>
    cases io <;> cases hrun
    refine ⟨fun t ht ↦ (by cases ht), fun reply hout ↦ ?_⟩
    cases hout
    refine ⟨?_, fun r hr ↦ ?_⟩
    · rw [List.map_map]
      exact hnodup.sublist (List.filter_sublist.map _)
    · obtain ⟨i, hi, rfl⟩ := List.mem_map.mp hr
      rw [List.mem_filter, beq_iff_eq] at hi
      exact .last (by simp [he, handles, htask]) (hthere i hi.1 hi.2)
  | respond hanswers =>
    cases io <;> cases hrun
    refine ⟨fun t ht ↦ (by cases ht), fun reply hout ↦ ?_⟩
    cases hout
    exact (hanswers rfl).snoc

end

/-! ## What is so along a run -/

/-- The task of the call, if it goes on, works on its request, and its response tells the truth. -/
structure Traced (scope : String) (tr : Trace) (daemon : Desktop.State) (call : Call) : Prop where
  task : ∀ id, call.task = some id → id < daemon.nextTask ∧
    ∀ t, daemon.tasks id = some t → Serves scope tr id call.request t
  answer : ∀ reply, call.answer = some (.ok, reply) →
    ∃ id, call.task = some id ∧ Answers scope tr id call.request reply

structure Tracked (scope : String) (tr : Trace) (s : State) : Prop where
  below : s.daemon.Below
  registered : Desktop.Registered s.daemon
  gone : ∀ i ∈ s.daemon.instances, i.data.scopeHost = scope → ¬ Gone scope i.data.localAddr tr
  calls : ∀ c call, s.calls c = some call → Traced scope tr s.daemon call

section

variable {toml : TomlText} {header : Option HeaderValue} {scope localAddr : String} {id : Nat}
  {tr : Trace} {s t : State} {a : Action} {o : Desktop.Out} {call : Call}
  {daemon daemon' : Desktop.State} {e : Event State Action Desktop.Out}

theorem takesOut_iff : takesOut localAddr id e = true ↔
    ∃ caller, e.act = .daemon (.run id .done) ∧
      e.pre.daemon.tasks id = some (.removeInstance localAddr caller) := by
  unfold takesOut
  constructor
  · split
    · rename_i hact htask
      intro h
      rw [Bool.and_eq_true, beq_iff_eq, beq_iff_eq] at h
      obtain ⟨rfl, rfl⟩ := h
      exact ⟨_, hact, htask⟩
    · exact nofun
  · rintro ⟨caller, hact, htask⟩
    rw [hact, htask]
    simp

theorem takesOut_mem (hm : Moved toml header s a o t)
    (h : takesOut localAddr id ⟨s, a, o⟩ = true) {i : ProxyInstance}
    (hi : i ∈ t.daemon.instances) : i.data.localAddr ≠ localAddr := by
  obtain ⟨caller, hact, htask⟩ := takesOut_iff.mp h
  cases hact
  cases hm with
  | daemon hm =>
    cases hm with
    | reject hidle =>
      have hnone : s.daemon.tasks id = none := hidle
      rw [hnone] at htask
      cases htask
    | spawn _ htask' => cases htask'
    | run htask' hrun =>
      rw [htask] at htask'
      cases htask'
      cases hrun
      rw [Desktop.State.apply_instances] at hi
      exact bne_iff_ne.mp (List.mem_filter.mp hi).2

/-- What is gone is not in the pool: nothing comes there that is not launched. -/
theorem gone_step (h : ∀ i ∈ s.daemon.instances, i.data.scopeHost = scope →
      ¬ Gone scope i.data.localAddr tr) (hm : Moved toml header s a o t) :
    ∀ i ∈ t.daemon.instances, i.data.scopeHost = scope →
      ¬ Gone scope i.data.localAddr (tr ++ [⟨s, a, o⟩]) := by
  intro i hi hscope hgone
  rcases hgone.snoc with ⟨id, htakes⟩ | ⟨hgone, hlaunches⟩
  · exact takesOut_mem hm htakes hi rfl
  · have hthere : o = .added i ∨ ∃ j ∈ s.daemon.instances, j.key = i.key := by
      rcases hm.daemon_moved with ⟨-, hdaemon⟩ | ⟨a', hm⟩
      · exact .inr ⟨i, hdaemon ▸ hi, rfl⟩
      · exact hm.mem_instances hi
    rcases hthere with rfl | ⟨j, hj, hkey⟩
    · simp [launches, hscope] at hlaunches
    · have haddr : j.data.localAddr = i.data.localAddr := congrArg Prod.fst hkey
      have hscope' : j.data.scopeHost = i.data.scopeHost := congrArg (fun k ↦ k.2.1.2) hkey
      refine h j hj (hscope'.trans hscope) ?_
      rw [haddr]
      exact hgone

-- A step that leaves the task of a call where it is.
theorem Traced.snoc (h : Traced scope tr daemon call)
    (hother : ∀ id, call.task = some id →
      daemon'.tasks id = daemon.tasks id ∧ daemon.nextTask ≤ daemon'.nextTask) :
    Traced scope (tr ++ [e]) daemon' call := by
  refine ⟨fun id hid ↦ ?_, fun reply hreply ↦ ?_⟩
  · obtain ⟨hlt, hserves⟩ := h.task id hid
    obtain ⟨htasks, hle⟩ := hother id hid
    refine ⟨Nat.lt_of_lt_of_le hlt hle, fun t ht ↦ ?_⟩
    rw [htasks] at ht
    exact (hserves t ht).snoc
  · obtain ⟨id, hid, hanswers⟩ := h.answer reply hreply
    exact ⟨id, hid, hanswers.snoc⟩

theorem Traced.hear {a' : Desktop.Action} (h : Traced scope tr s.daemon call)
    (hb : s.daemon.Below) (hregistered : Desktop.Registered s.daemon)
    (hm : Desktop.Moved toml s.daemon a' o daemon')
    (hthere : ∀ i ∈ daemon'.instances, i.data.scopeHost = scope →
      ¬ Gone scope i.data.localAddr (tr ++ [⟨s, .daemon a', o⟩])) :
    Traced scope (tr ++ [⟨s, .daemon a', o⟩]) daemon' (call.hear a' o) := by
  by_cases hself : ∃ id io, call.task = some id ∧ a' = .run id io
  · obtain ⟨id, io, hid, rfl⟩ := hself
    cases hm with
    | reject => exact h.snoc fun _ _ ↦ ⟨rfl, Nat.le_refl _⟩
    | spawn _ htask => cases htask
    | run htask hrun =>
      obtain ⟨hlt, hserves⟩ := h.task id hid
      rw [Desktop.State.apply_instances] at hthere
      obtain ⟨hgoes, hanswers⟩ :=
        (hserves _ htask).run htask hrun rfl hthere hregistered.localAddrs
      refine ⟨fun id' hid' ↦ ?_, fun reply hreply ↦ ?_⟩
      · rw [Call.hear_task, hid] at hid'
        cases hid'
        refine ⟨Nat.lt_of_lt_of_le hlt Desktop.State.le_apply_nextTask, fun t ht ↦ ?_⟩
        rw [hb.apply_tasks_self htask] at ht
        rw [Call.hear_request]
        exact hgoes t ht
      · rw [Call.hear_task, Call.hear_request]
        rcases Call.hear_answer hreply with hold | ⟨-, -, -, -, hout⟩
        · obtain ⟨id', hid', hanswers'⟩ := h.answer reply hold
          exact ⟨id', hid', hanswers'.snoc⟩
        · exact ⟨id, hid, hanswers reply hout⟩
  · have hother : ∀ id io, call.task = some id → a' ≠ .run id io :=
      fun id io hid hact ↦ hself ⟨id, io, hid, hact⟩
    rw [Call.hear_of_other hother]
    exact h.snoc fun id hid ↦ hm.tasks_of_other (h.task id hid).1 fun io ↦ hother id io hid

theorem Sent.traced {request : Request} (h : Sent header daemon request o call daemon') :
    Traced (Desktop.origin header) tr daemon' call := by
  cases h with
  | rejected => exact ⟨nofun, nofun⟩
  | accepted htask =>
    refine ⟨fun id hid ↦ ?_, nofun⟩
    cases hid
    refine ⟨Nat.lt_succ_self _, fun t ht ↦ ?_⟩
    have hspawn : update daemon.tasks daemon.nextTask _ daemon.nextTask = some t := ht
    rw [update_self] at hspawn
    cases hspawn
    exact toPool_serves htask

theorem Sent.others {request : Request} {call' : Call}
    (h : Sent header daemon request o call' daemon') (hcall : Traced scope tr daemon call) :
    Traced scope (tr ++ [e]) daemon' call :=
  hcall.snoc fun id hid ↦ h.tasks_of_lt (hcall.task id hid).1

theorem Tracked.step (h : Tracked (Desktop.origin header) tr s)
    (hm : Moved toml header s a o t) :
    Tracked (Desktop.origin header) (tr ++ [⟨s, a, o⟩]) t := by
  have hgone := gone_step h.gone hm
  have hdaemon : t.daemon.Below ∧ Desktop.Registered t.daemon := by
    rcases hm.daemon_moved with ⟨-, hdaemon⟩ | ⟨a', hm⟩
    · rw [hdaemon]
      exact ⟨h.below, h.registered⟩
    · exact ⟨h.below.step hm, h.registered.step hm⟩
  refine ⟨hdaemon.1, hdaemon.2, hgone, ?_⟩
  have hkept : ∀ c call, s.calls c = some call → Traced (Desktop.origin header)
      (tr ++ [⟨s, a, o⟩]) s.daemon call :=
    fun c call hc ↦ (h.calls c call hc).snoc fun _ _ ↦ ⟨rfl, Nat.le_refl _⟩
  cases hm with
  | known => exact hkept
  | call hsent =>
    intro c call hc
    rcases tasks_of_update hc with ⟨-, hmade⟩ | ⟨-, hold⟩
    · cases hmade
      exact hsent.traced
    · exact hsent.others (h.calls c call hold)
  | retry _ hsent =>
    intro c call hc
    rcases tasks_of_update hc with ⟨-, hmade⟩ | ⟨-, hold⟩
    · cases hmade
      exact hsent.traced
    · exact hsent.others (h.calls c call hold)
  | fail =>
    intro c call hc
    rcases tasks_of_update hc with ⟨-, hmade⟩ | ⟨-, hold⟩
    · cases hmade
    · exact hkept c call hold
  | arrive =>
    intro c call hc
    rcases tasks_of_update hc with ⟨-, hmade⟩ | ⟨-, hold⟩
    · cases hmade
    · exact hkept c call hold
  | daemon hm =>
    intro c call hc
    obtain ⟨call', hcall, rfl⟩ := Option.map_eq_some_iff.mp hc
    exact (h.calls c call' hcall).hear h.below h.registered hm hgone

theorem tracked {files : Fs String} {tr₀ : List (Event Desktop.State Desktop.Action Desktop.Out)}
    (hd : Run (Desktop.next toml) (.spawnBackground files) tr₀ daemon)
    (h : Run (next toml header) (.start daemon) tr s) : Tracked (Desktop.origin header) tr s := by
  refine h.history (C := fun _ ↦ True) ⟨Desktop.below hd, Desktop.registered hd, ?_, ?_⟩
    (fun _ _ _ _ _ ht _ hnext ↦ ht.step (next_moved hnext)) fun _ _ ↦ trivial
  · rintro i - - ⟨id, tr₁, e, tr₂, htr, -⟩
    exact List.append_ne_nil_of_right_ne_nil tr₁ (List.cons_ne_nil e tr₂) htr.symm
  · intro c call hc
    cases hc

end

end LabStreamGate.Client
