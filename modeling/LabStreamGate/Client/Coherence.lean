import LabStreamGate.Client.Tracking

/-!
# The array of the client against the pool of the daemon

What the daemon has answered need not be so any more when the response arrives, and the client does
not look at what has come in between.
-/

namespace LabStreamGate.Client

open Function
open Desktop (InstanceData Reply)

/-! ## The array -/

/-- What a response adds to the array or puts in its place. -/
def Request.brings : Request → StatusCode × Reply → List WsrxInstance
  | .add _ _, (.ok, .instance data) => [.ofData data]
  | .sync, (.ok, .instances list) => list.map .ofResponse
  | _, _ => []

/-- No two instances have one address, and none is there after its delete. -/
def Coherent (scope : String) (tr : Trace) (instances : List WsrxInstance) : Prop :=
  (instances.map (·.localAddr)).Nodup ∧ ∀ i ∈ instances, ¬ Dead scope i.localAddr tr

/-- A response that arrives brings nothing of which the delete has overtaken it, and the one to an
`add` nothing that is in the array already. -/
def InOrder (scope : String) (tr : Trace) (e : Event State Action Desktop.Out) : Prop :=
  ∀ c call answer, e.act = .arrive c → e.pre.calls c = some call → call.answer = some answer →
    ∀ i ∈ call.request.brings answer,
      (call.request ≠ .sync → ∀ j ∈ e.pre.instances, j.localAddr ≠ i.localAddr) ∧
      ∀ id, call.task = some id → ¬ Crossed scope i.localAddr id tr

/-- What a response does to the array. -/
inductive Settled (instances : List WsrxInstance) : Request → StatusCode × Reply →
    List WsrxInstance → List WsrxInstance → Prop
  | add {inst : WsrxInstance} {random : UInt32} {data : InstanceData} :
      Settled instances (.add inst random) (.ok, .instance data) [.ofData data]
        (instances ++ [.ofData data])
  | delete {localAddr : String} {reply : Reply} :
      Settled instances (.delete localAddr) (.ok, reply) []
        (instances.filter fun i ↦ i.localAddr != localAddr)
  | sync {list : List Desktop.InstanceResponse} :
      Settled instances .sync (.ok, .instances list) (list.map .ofResponse)
        (list.map .ofResponse)
  | keep {request : Request} {answer : StatusCode × Reply} :
      (∀ localAddr, request = .delete localAddr → answer.1 ≠ .ok) →
      Settled instances request answer [] instances

section

variable {toml : TomlText} {header : Option HeaderValue} {scope localAddr : String} {id c : Nat}
  {tr : Trace} {s t : State} {a : Action} {o : Desktop.Out} {call : Call} {request : Request}
  {instances : List WsrxInstance} {answer : StatusCode × Reply}
  {e : Event State Action Desktop.Out}

theorem settle_settled :
    Settled instances request answer (request.brings answer)
      (request.settle instances answer) := by
  obtain ⟨status, reply⟩ := answer
  by_cases hok : status = .ok
  · subst hok
    cases request with
    | add inst random =>
      cases reply with
      | «instance» data => exact .add
      | _ => exact .keep nofun
    | delete localAddr => exact .delete
    | sync =>
      cases reply with
      | instances list => exact .sync
      | _ => exact .keep nofun
  · have hkeep : Settled instances request (status, reply) [] instances :=
      .keep fun _ _ ↦ hok
    cases status <;> cases request <;> first | exact absurd rfl hok | exact hkeep

theorem acknowledges_iff : acknowledges localAddr id e = true ↔
    ∃ c call answer, e.act = .arrive c ∧ e.pre.calls c = some call ∧
      call.answer = some answer ∧ call.request = .delete localAddr ∧ call.task = some id ∧
      answer.1 = .ok := by
  unfold acknowledges
  constructor
  · split
    · rename_i c hact
      intro h
      simp only [Option.any_eq_true, Bool.and_eq_true, beq_iff_eq] at h
      obtain ⟨call, hcall, ⟨hrequest, htask⟩, answer, hanswer, hok⟩ := h
      exact ⟨c, call, answer, hact, hcall, hanswer, hrequest, htask, hok⟩
    · exact nofun
  · rintro ⟨c, call, answer, hact, hcall, hanswer, hrequest, htask, hok⟩
    rw [hact]
    simp [hcall, hanswer, hrequest, htask, hok]

/-- Only the step in which its response arrives acknowledges a delete. -/
theorem Dead.of_arrive {i : WsrxInstance}
    (h : Dead scope i.localAddr (tr ++ [⟨s, .arrive c, o⟩])) (hcall : s.calls c = some call)
    (hanswer : call.answer = some answer)
    (hother : call.request = .delete i.localAddr → answer.1 ≠ .ok) :
    Dead scope i.localAddr tr := by
  refine h.of_snoc fun id ↦ ?_
  rw [Bool.eq_false_iff, Ne, acknowledges_iff]
  rintro ⟨c', call', answer', hact, hcall', hanswer', hrequest, -, hok⟩
  cases hact
  rw [hcall] at hcall'
  cases hcall'
  rw [hanswer] at hanswer'
  cases hanswer'
  exact hother hrequest hok

/-- What a response brings was there when its task looked. -/
theorem Traced.seen {daemon : Desktop.State} {i : WsrxInstance}
    (h : Traced scope tr daemon call) (hanswer : call.answer = some answer)
    (hi : i ∈ call.request.brings answer) :
    ∃ id, call.task = some id ∧ Seen scope i.localAddr id tr := by
  obtain ⟨request, task, _⟩ := call
  have hsettled : Settled [] request answer (request.brings answer) (request.settle [] answer) :=
    settle_settled
  generalize request.settle [] answer = after at hsettled
  generalize request.brings answer = brought at hi hsettled
  cases hsettled with
  | add =>
    obtain ⟨id, hid, hseen⟩ := h.answer _ hanswer
    rw [List.mem_singleton.mp hi]
    exact ⟨id, hid, hseen⟩
  | sync =>
    obtain ⟨id, hid, -, hseen⟩ := h.answer _ hanswer
    obtain ⟨r, hr, rfl⟩ := List.mem_map.mp hi
    exact ⟨id, hid, hseen r hr⟩
  | delete => cases hi
  | keep => cases hi

theorem Traced.nodup {daemon : Desktop.State} (h : Traced scope tr daemon call)
    (hanswer : call.answer = some answer) (hsync : call.request = .sync) :
    ((call.request.brings answer).map (·.localAddr)).Nodup := by
  obtain ⟨status, reply⟩ := answer
  rw [hsync]
  unfold Request.brings
  split
  · exact List.nodup_singleton _
  · rename_i hreply
    cases hreply
    obtain ⟨id, -, hanswers⟩ := h.answer _ hanswer
    rw [hsync] at hanswers
    rw [List.map_map]
    exact hanswers.1
  · exact List.nodup_nil

/-- The array stays coherent if and only if nothing is brought into it that is there or is dead. -/
theorem Settled.coherent_iff {tr' : Trace} {brought after : List WsrxInstance}
    (h : Settled instances request answer brought after) (hbefore : Coherent scope tr instances)
    (hsync : request = .sync → (brought.map (·.localAddr)).Nodup)
    (hold : ∀ i : WsrxInstance, Dead scope i.localAddr tr' →
      (request = .delete i.localAddr → answer.1 ≠ .ok) → Dead scope i.localAddr tr)
    (hnew : ∀ localAddr, Dead scope localAddr tr → Dead scope localAddr tr') :
    Coherent scope tr' after ↔ ∀ i ∈ brought,
      (request ≠ .sync → ∀ j ∈ instances, j.localAddr ≠ i.localAddr) ∧
        ¬ Dead scope i.localAddr tr := by
  cases h with
  | @add inst random data =>
    have hnodup : ((instances ++ [WsrxInstance.ofData data]).map (·.localAddr)).Nodup ↔
        ∀ j ∈ instances, j.localAddr ≠ data.localAddr := by
      rw [List.map_append, List.nodup_append]
      refine ⟨fun h j hj ↦ h.2.2 _ (List.mem_map_of_mem hj) _ (List.mem_singleton_self _),
        fun h ↦ ⟨hbefore.1, List.nodup_singleton _, fun x hx y hy ↦ ?_⟩⟩
      obtain ⟨j, hj, rfl⟩ := List.mem_map.mp hx
      rw [List.map_singleton, List.mem_singleton] at hy
      rw [hy]
      exact h j hj
    constructor
    · rintro ⟨hnd, hdead⟩ i hi
      have hmem := List.mem_append_right instances hi
      rw [List.mem_singleton.mp hi] at hmem ⊢
      exact ⟨fun _ ↦ hnodup.mp hnd, fun hd ↦ hdead _ hmem (hnew _ hd)⟩
    · intro hin
      obtain ⟨hother, hlive⟩ := hin _ (List.mem_singleton_self _)
      refine ⟨hnodup.mpr (hother nofun), fun i hi hd ↦ ?_⟩
      have hd := hold i hd nofun
      rcases List.mem_append.mp hi with hi | hi
      · exact hbefore.2 i hi hd
      · rw [List.mem_singleton.mp hi] at hd
        exact hlive hd
  | @delete localAddr =>
    refine iff_of_true ⟨hbefore.1.sublist (List.filter_sublist.map _), fun i hi hd ↦ ?_⟩ nofun
    rw [List.mem_filter, bne_iff_ne] at hi
    refine hbefore.2 i hi.1 (hold i hd fun hrequest ↦ ?_)
    cases hrequest
    exact absurd rfl hi.2
  | sync =>
    constructor
    · exact fun hafter i hi ↦
        ⟨fun hne ↦ absurd rfl hne, fun hd ↦ hafter.2 i hi (hnew _ hd)⟩
    · exact fun hin ↦ ⟨hsync rfl, fun i hi hd ↦ (hin i hi).2 (hold i hd nofun)⟩
  | keep hkeep =>
    exact iff_of_true ⟨hbefore.1, fun i hi hd ↦ hbefore.2 i hi (hold i hd (hkeep _))⟩ nofun

theorem coherent_arrive (htraced : Traced scope tr s.daemon call)
    (h : Coherent scope tr s.instances) (hcall : s.calls c = some call)
    (hanswer : call.answer = some answer) :
    Coherent scope (tr ++ [⟨s, .arrive c, .silent⟩])
        (call.request.settle s.instances answer) ↔
      InOrder scope tr ⟨s, .arrive c, .silent⟩ := by
  rw [settle_settled.coherent_iff h (htraced.nodup hanswer)
    (fun i hd hother ↦ hd.of_arrive hcall hanswer hother) fun _ hd ↦ hd.snoc rfl]
  constructor
  · intro hin c' call' answer' hact hcall' hanswer' i hi
    cases hact
    have hsame : some call' = some call := hcall'.symm.trans hcall
    cases hsame
    have hsame : some answer' = some answer := hanswer'.symm.trans hanswer
    cases hsame
    exact ⟨(hin i hi).1, fun _ _ hcrossed ↦ (hin i hi).2 hcrossed.dead⟩
  · intro hin i hi
    obtain ⟨hother, hcrossed⟩ := hin c call answer rfl hcall hanswer i hi
    refine ⟨hother, fun hd ↦ ?_⟩
    obtain ⟨id, hid, hseen⟩ := htraced.seen hanswer hi
    exact hcrossed id hid (hseen.crossed hd)

/-- One step: only the arrival of a response can bring something in that must not be there. -/
theorem coherent_step (htracked : Tracked scope tr s) (h : Coherent scope tr s.instances)
    (hm : Moved toml header s a o t) :
    Coherent scope (tr ++ [⟨s, a, o⟩]) t.instances ↔ InOrder scope tr ⟨s, a, o⟩ := by
  have hquiet : (∀ c, a ≠ .arrive c) → (Coherent scope (tr ++ [⟨s, a, o⟩]) s.instances ↔
      InOrder scope tr ⟨s, a, o⟩) := by
    intro ha
    refine iff_of_true ⟨h.1, fun i hi hd ↦ h.2 i hi (hd.of_snoc fun id ↦ ?_)⟩
      fun c _ _ hact ↦ absurd hact (ha c)
    rw [Bool.eq_false_iff, Ne, acknowledges_iff]
    rintro ⟨c, -, -, hact, -⟩
    exact ha c hact
  cases hm with
  | arrive hcall hanswer => exact coherent_arrive (htracked.calls _ _ hcall) h hcall hanswer
  | _ => exact hquiet nofun

end

/-! ## Whole runs -/

section

variable {toml : TomlText} {header : Option HeaderValue} {files : Fs String}
  {tr₀ : List (Event Desktop.State Desktop.Action Desktop.Out)} {daemon : Desktop.State}
  {tr : Trace} {s : State}

/-- The daemon works on nothing but what this client has asked for. -/
def isOwn (e : Event State Action Desktop.Out) : Bool :=
  match e.act with
  | .daemon (.run _ _) => true
  | .daemon _ => false
  | _ => true

/-- No call is in flight where none of those made is. -/
theorem all_returned (h : Run (next toml header) (.start daemon) tr s)
    (hreturned : ∀ c ∈ List.range s.nextCall, (s.calls c).isNone = true) (c : Nat) :
    s.calls c = none :=
  (numbered h).all_none (List.all_eq_true.mpr hreturned) c

/-- What is acknowledged has been taken out by the task of the delete. -/
theorem acknowledged_takenOut {localAddr : String} {id : Nat}
    {e : Event State Action Desktop.Out}
    (hd : Run (Desktop.next toml) (.spawnBackground files) tr₀ daemon)
    (h : Run (next toml header) (.start daemon) (tr ++ [e]) s)
    (hack : acknowledges localAddr id e = true) : ∃ x ∈ tr, takesOut localAddr id x = true := by
  obtain ⟨c, call, ⟨status, reply⟩, -, hcall, hanswer, hrequest, htask, hok⟩ :=
    acknowledges_iff.mp hack
  cases hok
  have htraced := (tracked hd h.snoc_inv.1).calls c call hcall
  obtain ⟨id', htask', htakes⟩ := htraced.answer reply hanswer
  rw [htask] at htask'
  cases htask'
  rw [hrequest] at htakes
  exact htakes

/-- Whatever the daemon has done before, and whatever else it does: along a run the array never has
an address twice, nor an instance after its delete has been acknowledged, if and only if every
response arrives in order. -/
theorem list_coherent (hd : Run (Desktop.next toml) (.spawnBackground files) tr₀ daemon)
    (h : Run (next toml header) (.start daemon) tr s) :
    (∀ tr₁ tr₂ u, tr = tr₁ ++ tr₂ → Run (next toml header) (.start daemon) tr₁ u →
      Coherent (Desktop.origin header) tr₁ u.instances) ↔
    ∀ tr₁ e tr₂, tr = tr₁ ++ e :: tr₂ → InOrder (Desktop.origin header) tr₁ e :=
  h.forall_prefix_iff ⟨List.nodup_nil, nofun⟩ fun _ _ _ _ _ hrun hbefore hnext ↦
    coherent_step (tracked hd hrun) hbefore (next_moved hnext)

end

def sampleRequest : Request := .add ⟨none, "ws://lab:80", "127.0.0.1:0", none⟩ 0

/-- A launch to its response. -/
def sampleAdd : List Action :=
  [.call sampleRequest, .daemon (.run 0 (.bound "127.0.0.1:4000")), .daemon (.run 0 .done),
    .daemon (.run 0 .done), .arrive 0]

/-- A launch, and its delete when the response has arrived. -/
theorem list_coherent_sample : ∃ toml header files tr₀ daemon tr s,
    Run (Desktop.next toml) (.spawnBackground files) tr₀ daemon ∧
      Run (next toml header) (.start daemon) tr s ∧ s.instances = [] ∧
      ((∀ tr₁ tr₂ u, tr = tr₁ ++ tr₂ → Run (next toml header) (.start daemon) tr₁ u →
          Coherent (Desktop.origin header) tr₁ u.instances) ↔
        ∀ tr₁ e tr₂, tr = tr₁ ++ e :: tr₂ → InOrder (Desktop.origin header) tr₁ e) := by
  obtain ⟨tr, s, hrun, hp⟩ := exists_run (next .compact (some Desktop.sampleOrigin))
    (.start (.spawnBackground Fs.empty))
    (sampleAdd ++ [.call (.delete "127.0.0.1:4000"), .daemon (.run 2 .done),
      .daemon (.run 2 .done), .daemon (.run 2 .done), .arrive 1])
    (fun tr s ↦ tr.any (acknowledges "127.0.0.1:4000" 2) && s.instances == [])
    (by decide +kernel)
  rw [Bool.and_eq_true, beq_iff_eq] at hp
  exact ⟨_, _, _, _, _, tr, s, .nil, hrun, hp.2, list_coherent .nil hrun⟩

/-- Two launches of one remote overlap, and both responses bring the one instance; a listing is
overtaken by a delete, and brings back what was deleted. -/
theorem list_incoherent :
    (∃ toml header files tr s, Run (next toml header) (.start (.spawnBackground files)) tr s ∧
      (∀ e ∈ tr, isOwn e = true) ∧ (∀ c, s.calls c = none) ∧
      ¬ (s.instances.map (·.localAddr)).Nodup) ∧
    ∃ toml header files tr s, Run (next toml header) (.start (.spawnBackground files)) tr s ∧
      (∀ e ∈ tr, isOwn e = true) ∧ (∀ c, s.calls c = none) ∧
      ∃ i ∈ s.instances, Dead (Desktop.origin header) i.localAddr tr := by
  constructor
  · obtain ⟨tr, s, hrun, hp⟩ := exists_run (next .compact (some Desktop.sampleOrigin))
      (.start (.spawnBackground Fs.empty))
      [.call sampleRequest, .call sampleRequest, .daemon (.run 0 (.bound "127.0.0.1:4000")),
        .daemon (.run 0 .done), .daemon (.run 0 .done),
        .daemon (.run 1 (.bound "127.0.0.1:4001")), .daemon (.run 1 .done),
        .daemon (.run 1 .done), .arrive 0, .arrive 1]
      (fun tr s ↦ tr.all isOwn && (List.range s.nextCall).all (fun c ↦ (s.calls c).isNone) &&
        !decide (s.instances.map WsrxInstance.localAddr).Nodup) (by decide +kernel)
    simp only [Bool.and_eq_true, List.all_eq_true, Bool.not_eq_true',
      decide_eq_false_iff_not] at hp
    exact ⟨_, _, _, tr, s, hrun, hp.1.1, all_returned hrun hp.1.2, hp.2⟩
  · obtain ⟨tr₁, e, tr₂, s, hrun, -, hp⟩ := exists_run_at
      (next .compact (some Desktop.sampleOrigin)) (.start (.spawnBackground Fs.empty))
      (sampleAdd ++ [.call .sync, .daemon (.run 2 .done), .call (.delete "127.0.0.1:4000"),
        .daemon (.run 3 .done)])
      (.daemon (.run 3 .done)) [.daemon (.run 3 .done), .arrive 2, .arrive 1]
      (fun tr₁ e tr₂ s ↦ (tr₁ ++ e :: tr₂).all isOwn &&
        (List.range s.nextCall).all (fun c ↦ (s.calls c).isNone) &&
        s.instances.map WsrxInstance.localAddr == ["127.0.0.1:4000"] &&
        takesOut "127.0.0.1:4000" 3 e && tr₂.any (acknowledges "127.0.0.1:4000" 3) &&
        tr₂.all fun e ↦ !launches (Desktop.origin (some Desktop.sampleOrigin)) "127.0.0.1:4000" e)
      (by decide +kernel)
    simp only [Bool.and_eq_true, List.all_eq_true, beq_iff_eq, List.any_eq_true,
      Bool.not_eq_true'] at hp
    obtain ⟨⟨⟨⟨⟨hown, hreturned⟩, hlist⟩, htakes⟩, hack⟩, hlaunches⟩ := hp
    have hmem : "127.0.0.1:4000" ∈ s.instances.map WsrxInstance.localAddr := by simp [hlist]
    obtain ⟨i, hi, haddr⟩ := List.mem_map.mp hmem
    refine ⟨_, _, _, _, s, hrun, hown, all_returned hrun hreturned, i, hi, 3, ?_⟩
    rw [haddr]
    exact ⟨tr₁, e, tr₂, rfl, htakes, hack, hlaunches⟩

end LabStreamGate.Client
