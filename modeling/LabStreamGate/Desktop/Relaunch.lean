import LabStreamGate.Desktop.Instances
import LabStreamGate.Library.SocketText

/-!
# Launching what is running already

`launch_instance` binds a listener before it looks whether the scope has an instance for the remote.
The instance is found again only where that listener can be bound, which the own address of the
instance never can.
-/

namespace LabStreamGate.Desktop

open Function

variable {toml : TomlText} {files : Fs String} {s t : State} {id : Nat} {caller : Caller}
  {tr : List (Event State Action Out)} {i : ProxyInstance} {data : InstanceData}

/-! ## Listeners -/

section

variable (resolve : String → Option (List SocketAddr)) (bind : SocketAddr → Except String SocketAddr)

/-- `create_tcp_listener`, down to the address of the listener. -/
def createTcpListener (localAddr : String) : Except Refusal String :=
  match resolve localAddr with
  | none => .error (.badRequest, "failed to parse from address")
  | some [] => .error (.badRequest, "failed to get socket addr")
  | some (addr :: _) =>
    match bind addr with
    | .error err =>
      .error (.internalServerError,
        "failed to bind tcp address " ++ addr.toString ++ ": " ++ err)
    | .ok bound => .ok bound.toString

/-- What a launch is told of its listener. -/
def listenerIo (localAddr : String) : Io :=
  match createTcpListener resolve bind localAddr with
  | .error (status, text) => .refused status text
  | .ok bound => .bound bound

end

/-- A live listener holds the address: that of an instance, that of a launch under way, or one of
another program. -/
def State.Listens (s : State) (foreign : String → Prop) (localAddr : String) : Prop :=
  isTaken s.instances localAddr = true ∨
    (∃ id data caller, s.tasks id = some (.launchInstance data localAddr caller)) ∨
    foreign localAddr

/-- Binding fails exactly where a live listener has the address, and what is bound is held by no
other one. -/
structure Exclusive (listens : String → Prop) (bind : SocketAddr → Except String SocketAddr) :
    Prop where
  fails : ∀ addr, (∃ err, bind addr = .error err) ↔ listens addr.toString
  free : ∀ addr bound, bind addr = .ok bound → ¬ listens bound.toString

/-! ## The second launch -/

def ProxyInstance.relabel (i : ProxyInstance) (label : String) : ProxyInstance :=
  { i with data := { i.data with label := label } }

/-- The launch answers with the instance under its new label, and nothing else has changed. -/
def Reuses (toml : TomlText) (s : State) (id : Nat) (caller : Caller) (io : Io) (i : ProxyInstance)
    (label : String) : Prop :=
  (exec (next toml) s [.run id io, .run id .done]).map Prod.snd = some
    { s with
      tasks := update s.tasks id (caller.resume .ok (.instance (i.relabel label).data))
      instances := s.instances.map fun j ↦ if j = i then i.relabel label else j }

/-- A scope has one instance for a remote. -/
theorem Registered.eq_of_same (h : Registered s) {j : ProxyInstance} (hi : i ∈ s.instances)
    (hj : j ∈ s.instances) (hremote : j.data.remote = i.data.remote)
    (hscope : j.data.scopeHost = i.data.scopeHost) : j = i :=
  List.inj_on_of_nodup_map h.remotes hj hi (Prod.ext hremote hscope)

/-- With a listener on an address that no instance has, the launch finds the instance. -/
theorem launchInstance_reuse {localAddr : String} (h : Registered s) (hi : i ∈ s.instances)
    (hremote : data.remote = i.data.remote) (hscope : data.scopeHost = i.data.scopeHost)
    (htaken : isTaken s.instances localAddr = false) :
    launchInstance s data localAddr caller =
      { s.keep .silent (caller.resume .ok (.instance (i.relabel data.label).data)) with
        instances := s.instances.map fun j ↦ if j = i then i.relabel data.label else j } := by
  have hsame : ∀ j ∈ s.instances,
      (j.data.remote == data.remote && j.data.scopeHost == data.scopeHost) = true → j = i := by
    intro j hj hp
    rw [Bool.and_eq_true, beq_iff_eq, beq_iff_eq] at hp
    exact h.eq_of_same hi hj (hp.1.trans hremote) (hp.2.trans hscope)
  have hself : (i.data.remote == data.remote && i.data.scopeHost == data.scopeHost) = true := by
    rw [hremote, hscope, beq_self_eq_true, beq_self_eq_true]
    rfl
  have hupdate := @updateFirst_eq_map ProxyInstance _ (fun j ↦ j.relabel data.label) _ _ _
    (List.Nodup.of_map _ h.tunnels) hi hself hsame
  unfold launchInstance
  split
  · rename_i hany
    exact absurd hany (Bool.eq_false_iff.mp htaken)
  · dsimp only
    split
    · rename_i found hfound
      have hp := List.find?_some hfound
      obtain rfl := hsame found (List.mem_of_find?_eq_some hfound) hp
      rw [← hupdate]
      rfl
    · rename_i hnone
      exact absurd hself (List.find?_eq_none.mp hnone i hi)

theorem exec_two {a b : Action} {o o' : Out} {u : State} (hfirst : next toml s a = some (o, t))
    (hsecond : next toml t b = some (o', u)) :
    (exec (next toml) s [a, b]).map Prod.snd = some u := by
  simp [exec, hfirst, hsecond]

theorem next_run {task : Task} {io : Io} {e : Effect} (htask : s.tasks id = some task)
    (hrun : task.run toml s io = some e) :
    next toml s (.run id io) = some (e.out, s.apply id e) := by
  rw [next, htask, Option.bind_some, hrun, Option.map_some]

/-- With its listener a launch reuses the instance. -/
theorem reuses_of_bound {localAddr : String} (h : Registered s) (hi : i ∈ s.instances)
    (htask : s.tasks id = some (.createListener data caller))
    (hremote : data.remote = i.data.remote) (hscope : data.scopeHost = i.data.scopeHost)
    (htaken : isTaken s.instances localAddr = false) :
    Reuses toml s id caller (.bound localAddr) i data.label := by
  have hbind : Task.run toml s (.createListener data caller) (.bound localAddr) =
      some (s.keep .silent (some (.launchInstance data localAddr caller))) := rfl
  have hfirst := next_run htask hbind
  generalize hbound : s.apply id (s.keep .silent (some (.launchInstance data localAddr caller))) =
    bound at hfirst
  have htask' : bound.tasks id = some (.launchInstance data localAddr caller) := by
    rw [← hbound]
    exact update_self ..
  have hreg : Registered bound := by
    rw [← hbound]
    exact ⟨h.localAddrs, h.remotes, h.tunnels, h.below⟩
  have hmem : i ∈ bound.instances := by
    rw [← hbound]
    exact hi
  have hfree : isTaken bound.instances localAddr = false := by
    rw [← hbound]
    exact htaken
  have hlaunch : Task.run toml bound (.launchInstance data localAddr caller) .done =
      some (launchInstance bound data localAddr caller) := rfl
  rw [launchInstance_reuse hreg hmem hremote hscope hfree] at hlaunch
  refine (exec_two hfirst (next_run htask' hlaunch)).trans (congrArg some ?_)
  rw [← hbound]
  change State.mk _ _ _ _ _ (update (update s.tasks id _) id _) _ = _
  rw [update_idem]
  rfl

/-- Without a listener no launch reuses anything. -/
theorem not_reuses_of_refused {status : StatusCode} {text : String}
    (htask : s.tasks id = some (.createListener data caller)) :
    ¬ Reuses toml s id caller (.refused status text) i data.label := by
  have hrun : Task.run toml s (.createListener data caller) (.refused status text) =
      some (s.keep .silent (caller.resume status (.text text))) := rfl
  have hfirst := next_run htask hrun
  generalize hrefused : s.apply id (s.keep .silent (caller.resume status (.text text))) = refused
    at hfirst
  have htask' : refused.tasks id = caller.resume status (.text text) := by
    rw [← hrefused]
    exact update_self ..
  intro hreuses
  cases caller with
  | http =>
    have hrespond : Task.run toml refused (.respond status (.text text)) .done =
        some (refused.keep (.responded status (.text text)) none) := rfl
    have hexec := (exec_two hfirst (next_run htask' hrespond)).symm.trans hreuses
    have htasks := congrFun (congrArg State.tasks (Option.some.inj hexec)) id
    have hnone : (refused.apply id (refused.keep (.responded status (.text text)) none)).tasks id =
        none := update_self ..
    have hsome := htasks.symm.trans hnone
    change update s.tasks id _ id = none at hsome
    rw [update_self] at hsome
    cases hsome
  | ui =>
    have hstuck : next toml refused (.run id .done) = none := by
      rw [next, htask']
      rfl
    rw [Reuses, exec, hfirst, Option.bind_some, exec, hstuck] at hreuses
    cases hreuses

section

variable {resolve : String → Option (List SocketAddr)} {bind : SocketAddr → Except String SocketAddr}
  {addr : SocketAddr} {more : List SocketAddr} {localAddr : String}

theorem listenerIo_of_error {err : String} (hresolve : resolve localAddr = some (addr :: more))
    (hbind : bind addr = .error err) : listenerIo resolve bind localAddr =
      .refused .internalServerError
        ("failed to bind tcp address " ++ addr.toString ++ ": " ++ err) := by
  rw [listenerIo, createTcpListener, hresolve]
  dsimp only
  rw [hbind]

theorem listenerIo_of_ok {bound : SocketAddr} (hresolve : resolve localAddr = some (addr :: more))
    (hbind : bind addr = .ok bound) :
    listenerIo resolve bind localAddr = .bound bound.toString := by
  rw [listenerIo, createTcpListener, hresolve]
  dsimp only
  rw [hbind]

/-- Where the scope has an instance for the remote, a launch with any address that can be resolved
answers with the instance and changes nothing but its label, if and only if no live listener has
the address. -/
theorem launch_reuses_iff {foreign : String → Prop}
    (h : Run (next toml) (State.spawnBackground files) tr s) (hi : i ∈ s.instances)
    (htask : s.tasks id = some (.createListener data caller))
    (hremote : data.remote = i.data.remote) (hscope : data.scopeHost = i.data.scopeHost)
    (hbind : Exclusive (s.Listens foreign) bind)
    (hresolve : resolve data.localAddr = some (addr :: more)) :
    Reuses toml s id caller (listenerIo resolve bind data.localAddr) i data.label ↔
      ¬ s.Listens foreign addr.toString := by
  rw [← hbind.fails addr]
  cases hbound : bind addr with
  | error err =>
    rw [listenerIo_of_error hresolve hbound]
    exact iff_of_false (not_reuses_of_refused htask) (not_not_intro ⟨err, rfl⟩)
  | ok bound =>
    have hfree : isTaken s.instances bound.toString = false :=
      Bool.eq_false_iff.mpr fun htaken ↦ hbind.free addr bound hbound (.inl htaken)
    rw [listenerIo_of_ok hresolve hbound]
    exact iff_of_true (reuses_of_bound (registered h) hi htask hremote hscope hfree)
      (fun hfails ↦ by cases hfails.choose_spec)

end

/-! ## The own address of an instance -/

/-- The address that the first listener gets. -/
def sampleAddr : SocketAddr := ⟨.v4 ⟨127, 0, 0, 1⟩, 4000⟩

/-- Another address with any free port. -/
def sampleAnyPort : SocketAddr := ⟨.v4 ⟨127, 0, 0, 1⟩, 0⟩

/-- The operating system while one listener is live. -/
def sampleBind (addr : SocketAddr) : Except String SocketAddr :=
  if addr.toString = sampleAddr.toString then .error "Address already in use (os error 98)"
  else if addr = sampleAnyPort then .ok { addr with port := 4001 }
  else .ok addr

/-- The only live listener is that of the sample, and its website is about to launch the instance
again. -/
def isRelaunch (localAddr : String) (s : State) : Bool :=
  (match s.instances, s.tasks 2 with
    | [i], some (.createListener data .http) =>
      i.data.localAddr == sampleAddr.toString && data.remote == i.data.remote &&
        data.scopeHost == i.data.scopeHost && data.localAddr == localAddr
    | _, _ => false) &&
  (List.range s.nextTask).all fun id ↦ match s.tasks id with
    | some (.launchInstance _ _ _) => false
    | _ => true

theorem relaunch_of_isRelaunch {localAddr : String} (hp : isRelaunch localAddr s = true) :
    ∃ i data, s.instances = [i] ∧ s.tasks 2 = some (.createListener data .http) ∧
      i.data.localAddr = sampleAddr.toString ∧ data.remote = i.data.remote ∧
      data.scopeHost = i.data.scopeHost ∧ data.localAddr = localAddr := by
  unfold isRelaunch at hp
  rw [Bool.and_eq_true] at hp
  obtain ⟨hp, -⟩ := hp
  split at hp
  · rename_i i data hi hdata
    simp only [Bool.and_eq_true, beq_iff_eq] at hp
    exact ⟨i, data, hi, hdata, hp.1.1.1, hp.1.1.2, hp.1.2, hp.2⟩
  · cases hp

theorem listens_of_isRelaunch {localAddr : String} (hb : s.Below)
    (hp : isRelaunch localAddr s = true)
    (text : String) : s.Listens (fun _ ↦ False) text ↔ text = sampleAddr.toString := by
  obtain ⟨i, data, hinstances, -, haddr, -⟩ := relaunch_of_isRelaunch hp
  unfold isRelaunch at hp
  rw [Bool.and_eq_true, List.all_eq_true] at hp
  constructor
  · rintro (htaken | ⟨id, data, caller, htask⟩ | hfalse)
    · rw [isTaken, hinstances] at htaken
      simp only [List.any_cons, List.any_nil, Bool.or_false, beq_iff_eq] at htaken
      exact htaken.symm.trans haddr
    · have hid := hp.2 id (List.mem_range.mpr (hb.lt htask))
      rw [htask] at hid
      cases hid
    · exact hfalse.elim
  · rintro rfl
    refine .inl ?_
    rw [isTaken, hinstances]
    simp [haddr]

theorem exclusive_sampleBind {listens : String → Prop}
    (h : ∀ text, listens text ↔ text = sampleAddr.toString) : Exclusive listens sampleBind := by
  constructor
  · intro addr
    rw [h]
    unfold sampleBind
    split
    · rename_i hheld
      exact iff_of_true ⟨_, rfl⟩ hheld
    · rename_i hfree
      refine iff_of_false ?_ hfree
      rintro ⟨err, herr⟩
      split at herr <;> cases herr
  · intro addr bound hbound
    rw [h]
    unfold sampleBind at hbound
    split at hbound
    · cases hbound
    · rename_i hfree
      split at hbound
      · rename_i hany
        cases hbound
        subst hany
        decide
      · cases hbound
        exact hfree

/-- Addresses without names. -/
def sampleResolve (text : String) : Option (List SocketAddr) :=
  (SocketAddr.fromStr text).map fun addr ↦ [addr]

theorem launch_reuses_iff_sample : ∃ toml files tr s i, ∃ data : InstanceData,
    Run (next toml) (State.spawnBackground files) tr s ∧ s.instances = [i] ∧
      data.localAddr = "127.0.0.1:0" ∧
      Reuses toml s 2 .http (listenerIo sampleResolve sampleBind data.localAddr) i data.label := by
  obtain ⟨tr, s, hrun, hp⟩ := exists_run (next .compact) (State.spawnBackground Fs.empty)
    [sampleLaunch, .run 0 (.bound "127.0.0.1:4000"), .run 0 .done, sampleLaunch]
    (fun _ s ↦ isRelaunch "127.0.0.1:0" s) (by decide +kernel)
  obtain ⟨i, data, hinstances, htask, haddr, hremote, hscope, hlocal⟩ := relaunch_of_isRelaunch hp
  have hlistens := listens_of_isRelaunch (below hrun) hp
  have hi : i ∈ s.instances := hinstances ▸ List.mem_singleton_self i
  have hresolve : sampleResolve data.localAddr = some [sampleAnyPort] := by
    rw [hlocal]
    decide
  refine ⟨_, _, tr, s, i, data, hrun, hinstances, hlocal, ?_⟩
  refine (launch_reuses_iff hrun hi htask hremote hscope (exclusive_sampleBind hlistens)
    hresolve).mpr ?_
  rw [hlistens]
  decide

/-- A launch with the fixed address of the instance is refused. -/
theorem launch_own_address_refused : ¬ ∀ toml files tr s i id data caller foreign resolve bind addr
      more,
    Run (next toml) (State.spawnBackground files) tr s → i ∈ s.instances →
    s.tasks id = some (.createListener data caller) → data.remote = i.data.remote →
    data.scopeHost = i.data.scopeHost → Exclusive (s.Listens foreign) bind →
    resolve data.localAddr = some (addr :: more) →
    Reuses toml s id caller (listenerIo resolve bind data.localAddr) i data.label := by
  intro hall
  obtain ⟨tr, s, hrun, hp⟩ := exists_run (next .compact) (State.spawnBackground Fs.empty)
    [sampleLaunch, .run 0 (.bound "127.0.0.1:4000"), .run 0 .done,
      .pool (some sampleOrigin) (.post 0 (some
        (.obj [("remote", .str "ws://lab:80"), ("local", .str "127.0.0.1:4000")])))]
    (fun _ s ↦ isRelaunch "127.0.0.1:4000" s) (by decide +kernel)
  obtain ⟨i, data, hinstances, htask, haddr, hremote, hscope, hlocal⟩ := relaunch_of_isRelaunch hp
  have hi : i ∈ s.instances := hinstances ▸ List.mem_singleton_self i
  have hresolve : sampleResolve data.localAddr = some [sampleAddr] := by
    rw [hlocal]
    decide
  have hreuses := hall _ _ tr s i 2 data .http (fun _ ↦ False) sampleResolve sampleBind _ _ hrun hi
    htask hremote hscope (exclusive_sampleBind (listens_of_isRelaunch (below hrun) hp)) hresolve
  rw [listenerIo_of_error hresolve (if_pos rfl)] at hreuses
  exact not_reuses_of_refused htask hreuses

end LabStreamGate.Desktop
