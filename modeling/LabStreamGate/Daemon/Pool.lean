import LabStreamGate.Daemon.Tunnels

/-!
# The pool and the listeners

What the pool lists, what still listens and what is cancelled, however requests, accept loops and
connections come between one another.
-/

namespace LabStreamGate.Daemon.Pool

open Function

variable {s t : State} {a : Action} {o : Out} {tr : List (Event State Action Out)} {n n' i : Nat}
  {tunnel tunnel' : Tunnel} {link : Link} {key : String} {addr : SocketAddr} {req : TunnelConfig}

/-! ## The invariant of the pool -/

/-- The tunnel holds its listener. -/
def Tunnel.Listens (tunnel : Tunnel) : Prop := tunnel.loop ≠ .ended

/-- The pool has the tunnel `n` under its own address. -/
def State.Lists (s : State) (n : Nat) (tunnel : Tunnel) : Prop :=
  s.connections.lookup tunnel.config.localAddr = some n

structure State.Sound (s : State) : Prop where
  below : TasksBelow s.nextTunnel s.tunnels
  listed : ∀ key n, s.connections.lookup key = some n →
    ∃ tunnel, s.tunnels n = some tunnel ∧ tunnel.config.localAddr = key
  own : ∀ n tunnel, s.tunnels n = some tunnel → tunnel.config.localAddr = tunnel.addr.toString
  kept : ∀ n tunnel, s.tunnels n = some tunnel → s.Lists n tunnel →
    tunnel.aborted = false ∧ (tunnel.cancelled = true → tunnel.loop = .ended)
  dropped : ∀ n tunnel, s.tunnels n = some tunnel → ¬ s.Lists n tunnel →
    tunnel.aborted = true ∧ tunnel.cancelled = true
  apart : TasksApart (fun tunnel tunnel' ↦ tunnel.Listens → tunnel'.Listens →
    tunnel.addr ≠ tunnel'.addr) s.tunnels

/-- A step of the tunnel `n` that takes it no listener it has not. -/
structure Tunnel.Moves (listed : Prop) (tunnel tunnel' : Tunnel) : Prop where
  config : tunnel'.config = tunnel.config
  addr : tunnel'.addr = tunnel.addr
  listens : tunnel'.Listens → tunnel.Listens
  aborted : tunnel'.aborted = tunnel.aborted
  stays : tunnel.cancelled = true → tunnel'.cancelled = true
  cancelled : listed → tunnel'.cancelled = true → tunnel'.loop = .ended

theorem State.Sound.setTunnel (h : s.Sound) (htunnel : s.tunnels n = some tunnel)
    (hmoves : tunnel.Moves (s.Lists n tunnel) tunnel') : (s.setTunnel n tunnel').Sound := by
  have hlists : ∀ n₀ tunnel₀, (s.setTunnel n tunnel').Lists n₀ tunnel₀ ↔ s.Lists n₀ tunnel₀ :=
    fun _ _ ↦ Iff.rfl
  have hsame : s.Lists n tunnel' ↔ s.Lists n tunnel := by
    rw [Lists, hmoves.config, Lists]
  refine ⟨h.below.step (h.below.lt htunnel), fun key n₀ hlook ↦ ?_, fun n₀ tunnel₀ ht ↦ ?_,
    fun n₀ tunnel₀ ht hl ↦ ?_, fun n₀ tunnel₀ ht hl ↦ ?_, h.apart.update ?_ ?_⟩
  · obtain ⟨tunnel₀, ht, hkey⟩ := h.listed key n₀ hlook
    by_cases hn : n₀ = n
    · subst hn
      rw [htunnel] at ht
      cases ht
      exact ⟨tunnel', update_self .., by rw [hmoves.config, hkey]⟩
    · exact ⟨tunnel₀, (update_of_ne hn ..).trans ht, hkey⟩
  · rcases tasks_of_update ht with ⟨-, hnew⟩ | ⟨-, hold⟩
    · cases hnew
      rw [hmoves.config, hmoves.addr]
      exact h.own n tunnel htunnel
    · exact h.own n₀ tunnel₀ hold
  · rw [hlists] at hl
    rcases tasks_of_update ht with ⟨rfl, hnew⟩ | ⟨-, hold⟩
    · cases hnew
      rw [hsame] at hl
      rw [hmoves.aborted]
      exact ⟨(h.kept n₀ tunnel htunnel hl).1, hmoves.cancelled hl⟩
    · exact h.kept n₀ tunnel₀ hold hl
  · rw [hlists] at hl
    rcases tasks_of_update ht with ⟨rfl, hnew⟩ | ⟨-, hold⟩
    · cases hnew
      rw [hsame] at hl
      have hdropped := h.dropped n₀ tunnel htunnel hl
      rw [hmoves.aborted]
      exact ⟨hdropped.1, hmoves.stays hdropped.2⟩
    · exact h.dropped n₀ tunnel₀ hold hl
  · exact fun _ _ _ _ _ _ _ happart ↦ happart
  · intro tunnel₀ n' tunnel'' hnew hne hother
    cases hnew
    refine ⟨fun hl hl' ↦ ?_, fun hl hl' ↦ ?_⟩
    · rw [hmoves.addr]
      exact h.apart n n' tunnel tunnel'' hne.symm htunnel hother (hmoves.listens hl) hl'
    · rw [hmoves.addr]
      exact h.apart n' n tunnel'' tunnel hne hother htunnel hl (hmoves.listens hl')

/-! ## Taking out and putting in -/

/-- The pool without what it has under the key. -/
def State.without (s : State) (key : String) : State :=
  { s.dropKey key with connections := s.connections.erase key }

theorem State.Sound.dropKey_eq (h : s.Sound) (hlook : s.connections.lookup key = some n) :
    ∃ tunnel, s.tunnels n = some tunnel ∧ tunnel.config.localAddr = key ∧
      s.dropKey key = s.setTunnel n tunnel.drop := by
  obtain ⟨tunnel, htunnel, hkey⟩ := h.listed key n hlook
  refine ⟨tunnel, htunnel, hkey, ?_⟩
  unfold dropKey
  rw [hlook]
  dsimp only
  rw [htunnel]

theorem State.dropKey_of_none (hlook : s.connections.lookup key = none) : s.dropKey key = s := by
  unfold dropKey
  rw [hlook]

-- Only the tunnel that is dropped changes, and only in its token and its handle.
theorem State.Sound.without_tunnels (h : s.Sound) (key : String) (n : Nat) :
    ((s.without key).tunnels n = s.tunnels n ∧ s.connections.lookup key ≠ some n) ∨
      ∃ tunnel, s.tunnels n = some tunnel ∧ tunnel.config.localAddr = key ∧
        s.connections.lookup key = some n ∧ (s.without key).tunnels n = some tunnel.drop := by
  cases hlook : s.connections.lookup key with
  | none =>
    refine .inl ⟨?_, by simp⟩
    show (s.dropKey key).tunnels n = _
    rw [dropKey_of_none hlook]
  | some n₀ =>
    obtain ⟨tunnel, htunnel, hkey, hdrop⟩ := h.dropKey_eq hlook
    by_cases hn : n = n₀
    · subst hn
      refine .inr ⟨tunnel, htunnel, hkey, rfl, ?_⟩
      show (s.dropKey key).tunnels n = _
      rw [hdrop]
      exact update_self ..
    · refine .inl ⟨?_, fun heq ↦ hn (Option.some.inj heq).symm⟩
      show (s.dropKey key).tunnels n = _
      rw [hdrop]
      exact update_of_ne hn ..

theorem State.Sound.without_some (h : s.Sound) (ht : (s.without key).tunnels n = some tunnel') :
    ∃ tunnel, s.tunnels n = some tunnel ∧ tunnel'.config = tunnel.config ∧
      tunnel'.addr = tunnel.addr ∧ tunnel'.loop = tunnel.loop ∧
      (tunnel' = tunnel ∧ s.connections.lookup key ≠ some n ∨
        tunnel' = tunnel.drop ∧ tunnel.config.localAddr = key) := by
  rcases h.without_tunnels key n with ⟨hsame, hne⟩ | ⟨tunnel, htunnel, hkey, -, hdrop⟩
  · rw [hsame] at ht
    exact ⟨tunnel', ht, rfl, rfl, rfl, .inl ⟨rfl, hne⟩⟩
  · rw [hdrop] at ht
    cases ht
    exact ⟨tunnel, htunnel, rfl, rfl, rfl, .inr ⟨rfl, hkey⟩⟩

theorem State.dropKey_nextTunnel : (s.dropKey key).nextTunnel = s.nextTunnel := by
  unfold dropKey
  split
  · rfl
  · split <;> rfl

theorem State.Sound.without (h : s.Sound) : (s.without key).Sound := by
  have hlook : ∀ key', (s.without key).connections.lookup key' =
      if key' = key then none else s.connections.lookup key' := by
    intro key'
    show (s.connections.erase key).lookup key' = _
    split
    · rename_i hkey
      rw [hkey, AList.lookup_erase]
    · rename_i hkey
      rw [AList.lookup_erase_ne hkey]
  refine ⟨fun n hn ↦ ?_, fun key' n hl ↦ ?_, fun n tunnel' ht ↦ ?_, fun n tunnel' ht hl ↦ ?_,
    fun n tunnel' ht hl ↦ ?_, fun n n' tunnel₁ tunnel₂ hne h₁ h₂ ↦ ?_⟩
  · have hn' : s.nextTunnel ≤ n := by
      have heq : (s.without key).nextTunnel = s.nextTunnel := dropKey_nextTunnel
      rwa [heq] at hn
    cases ht : (s.without key).tunnels n with
    | none => rfl
    | some tunnel' =>
      obtain ⟨tunnel, htunnel, -⟩ := h.without_some ht
      rw [h.below n hn'] at htunnel
      cases htunnel
  · rw [hlook, Option.ite_none_left_eq_some] at hl
    obtain ⟨hkey, hl⟩ := hl
    obtain ⟨tunnel, htunnel, hown⟩ := h.listed key' n hl
    rcases h.without_tunnels key n with ⟨hsame, -⟩ | ⟨tunnel₀, ht₀, hown₀, -, -⟩
    · exact ⟨tunnel, hsame.trans htunnel, hown⟩
    · rw [htunnel] at ht₀
      cases ht₀
      exact absurd (hown.symm.trans hown₀) hkey
  · obtain ⟨tunnel, htunnel, hconfig, haddr, -⟩ := h.without_some ht
    rw [hconfig, haddr]
    exact h.own n tunnel htunnel
  · obtain ⟨tunnel, htunnel, hconfig, -, hloop, hcase⟩ := h.without_some ht
    rw [Lists, hlook, Option.ite_none_left_eq_some, hconfig] at hl
    rcases hcase with ⟨rfl, -⟩ | ⟨-, hkey⟩
    · exact h.kept n _ htunnel hl.2
    · exact absurd hkey hl.1
  · obtain ⟨tunnel, htunnel, hconfig, -, -, hcase⟩ := h.without_some ht
    rcases hcase with ⟨rfl, hne⟩ | ⟨rfl, -⟩
    · refine h.dropped n _ htunnel fun hlists ↦ hl ?_
      rw [Lists, hlook, if_neg]
      · exact hlists
      · intro hkey
        rw [Lists, hkey] at hlists
        exact hne hlists
    · exact ⟨rfl, rfl⟩
  · obtain ⟨tunnel₁', ht₁, -, haddr₁, hloop₁, -⟩ := h.without_some h₁
    obtain ⟨tunnel₂', ht₂, -, haddr₂, hloop₂, -⟩ := h.without_some h₂
    rw [haddr₁, haddr₂, Tunnel.Listens, Tunnel.Listens, hloop₁, hloop₂]
    exact h.apart n n' tunnel₁' tunnel₂' hne ht₁ ht₂

theorem State.Sound.of_free (h : s.Sound) (hfree : s.free addr = true)
    (htunnel : s.tunnels n = some tunnel) (hlistens : tunnel.Listens) : tunnel.addr ≠ addr := by
  have hmem := List.mem_range.mpr (h.below.lt htunnel)
  have hone := List.all_eq_true.mp hfree n hmem
  rw [htunnel, Option.all_some, Bool.or_eq_true, decide_eq_true_eq, decide_eq_true_eq] at hone
  exact hone.resolve_left hlistens

theorem State.insertTunnel_lookup {remote : String} {key' : String} :
    (s.insertTunnel remote addr).connections.lookup key' =
      if key' = addr.toString then some s.nextTunnel
      else (s.without addr.toString).connections.lookup key' := by
  show (s.connections.insert addr.toString s.nextTunnel).lookup key' =
    if _ then _ else (s.connections.erase addr.toString).lookup key'
  split
  · rename_i hkey
    rw [hkey, AList.lookup_insert]
  · rename_i hkey
    rw [AList.lookup_insert_ne hkey, AList.lookup_erase_ne hkey]

-- What was not under the key is still where it was.
theorem State.insertTunnel_lists {remote : String} (hne : n ≠ s.nextTunnel) :
    (s.insertTunnel remote addr).Lists n tunnel ↔ (s.without addr.toString).Lists n tunnel := by
  rw [Lists, insertTunnel_lookup, Lists]
  split
  · rename_i hkey
    rw [hkey]
    constructor
    · intro heq
      exact absurd (Option.some.inj heq).symm hne
    · intro heq
      rw [show (s.without addr.toString).connections.lookup addr.toString = none from
        AList.lookup_erase ..] at heq
      cases heq
  · exact Iff.rfl

/-- A tunnel that is new, and nothing else on its address. -/
theorem State.Sound.insertTunnel (h : s.Sound) (hfree : s.free addr = true) (remote : String) :
    (s.insertTunnel remote addr).Sound := by
  have hw : (s.without addr.toString).Sound := h.without
  have hnext : (s.without addr.toString).nextTunnel = s.nextTunnel := dropKey_nextTunnel
  have htunnels : (s.insertTunnel remote addr).tunnels =
      update (s.without addr.toString).tunnels s.nextTunnel (some (.new remote addr)) := rfl
  have hold : ∀ {n tunnel}, (s.without addr.toString).tunnels n = some tunnel → n ≠ s.nextTunnel :=
    fun ht ↦ Nat.ne_of_lt (hnext ▸ hw.below.lt ht)
  -- the others do not listen on the address
  have hapart : ∀ {n tunnel}, (s.without addr.toString).tunnels n = some tunnel →
      tunnel.Listens → tunnel.addr ≠ addr := by
    intro n tunnel ht hlistens
    obtain ⟨tunnel₀, ht₀, -, haddr, hloop, -⟩ := h.without_some ht
    rw [haddr]
    rw [Tunnel.Listens, hloop] at hlistens
    exact h.of_free hfree ht₀ hlistens
  have hnew : (s.insertTunnel remote addr).Lists s.nextTunnel (.new remote addr) := by
    rw [Lists, insertTunnel_lookup]
    exact if_pos rfl
  refine ⟨?_, fun key' n hl ↦ ?_, fun n tunnel ht ↦ ?_, fun n tunnel ht hl ↦ ?_,
    fun n tunnel ht hl ↦ ?_, ?_⟩
  · show TasksBelow (s.nextTunnel + 1) _
    rw [htunnels]
    exact TasksBelow.spawn (hnext ▸ hw.below)
  · rw [insertTunnel_lookup] at hl
    split at hl
    · rename_i hkey
      cases hl
      exact ⟨.new remote addr, update_self .., hkey.symm⟩
    · obtain ⟨tunnel, ht, hkey⟩ := hw.listed key' n hl
      exact ⟨tunnel, (update_of_ne (hold ht) ..).trans ht, hkey⟩
  · rcases tasks_of_update ht with ⟨-, heq⟩ | ⟨-, ht⟩
    · cases heq
      rfl
    · exact hw.own n tunnel ht
  · rcases tasks_of_update ht with ⟨-, heq⟩ | ⟨-, ht⟩
    · cases heq
      exact ⟨rfl, fun hcancelled ↦ by cases hcancelled⟩
    · exact hw.kept n tunnel ht ((insertTunnel_lists (hold ht)).mp hl)
  · rcases tasks_of_update ht with ⟨rfl, heq⟩ | ⟨-, ht⟩
    · cases heq
      exact absurd hnew hl
    · exact hw.dropped n tunnel ht fun hl' ↦ hl ((insertTunnel_lists (hold ht)).mpr hl')
  · rw [htunnels]
    refine TasksApart.update hw.apart (fun _ _ _ _ _ _ _ happart ↦ happart) ?_
    intro tunnel₀ n' tunnel' heq hne ht
    cases heq
    exact ⟨fun _ hl ↦ (hapart ht hl).symm, fun hl _ ↦ hapart ht hl⟩

/-! ## Every step -/

-- The case analysis over the steps of an accept loop, made once.
theorem Loop.Steps.moves {loop : Loop} {listed : Prop} (h : loop.Steps tunnel a n)
    (hlisted : listed → tunnel.aborted = false ∧ (tunnel.cancelled = true → tunnel.loop = .ended)) :
    tunnel.Moves listed { tunnel with loop := loop } := by
  have hlistens : ({ tunnel with loop := loop } : Tunnel).Listens → tunnel.Listens := by
    intro _ hended
    cases h with
    | accepted hloop => rw [hloop] at hended; cases hended
    | panic hloop => rw [hloop] at hended; cases hended
    | stopped hloop _ => rw [hloop] at hended; cases hended
    | linking hloop _ => rw [hloop] at hended; cases hended
    | aborted hloop _ => rw [hloop] at hended; cases hended
  refine ⟨rfl, rfl, hlistens, rfl, fun hcancelled ↦ hcancelled, fun hl hcancelled ↦ ?_⟩
  have hended := (hlisted hl).2 hcancelled
  cases h with
  | accepted hloop => rw [hloop] at hended; cases hended
  | panic hloop => rfl
  | stopped hloop _ => rfl
  | linking hloop _ => rw [hloop] at hended; cases hended
  | aborted hloop _ => rfl

theorem State.Sound.keep (h : s.Sound) (hconn : t.connections = s.connections)
    (htunnels : t.tunnels = s.tunnels) (hnext : t.nextTunnel = s.nextTunnel) : t.Sound := by
  obtain ⟨below, listed, own, kept, dropped, apart⟩ := h
  unfold Lists at kept dropped
  rw [← hconn] at listed
  rw [← hconn, ← htunnels] at kept dropped
  rw [← htunnels] at listed own apart
  rw [← htunnels, ← hnext] at below
  exact ⟨below, listed, own, kept, dropped, apart⟩

theorem State.Sound.step (h : s.Sound) (hm : Moved s a o t) : t.Sound := by
  cases hm with
  | rejected _ _ => exact h
  | hold _ _ => exact h.keep rfl rfl rfl
  | give => exact h.keep rfl rfl rfl
  | insert _ _ hfree => exact h.insertTunnel hfree _
  | listed _ => exact h
  | unread _ _ => exact h
  | notFound _ _ _ => exact h
  | close _ _ _ => exact h.without
  | loop htunnel hsteps => exact h.setTunnel htunnel (hsteps.moves (h.kept _ _ htunnel))
  | refused htunnel hloop =>
    refine h.setTunnel htunnel ⟨rfl, rfl, fun hlistens ↦ absurd rfl hlistens, rfl, fun _ ↦ rfl,
      fun _ _ ↦ rfl⟩
  | @spawn n tunnel htunnel hloop =>
    have hmoves : tunnel.Moves (s.Lists n tunnel) { tunnel with loop := .accepting } := by
      refine ⟨rfl, rfl, fun _ hended ↦ ?_, rfl, fun hcancelled ↦ hcancelled, fun hl hcancelled ↦ ?_⟩
      · rw [hloop] at hended
        cases hended
      · have hended := (h.kept n tunnel htunnel hl).2 hcancelled
        rw [hloop] at hended
        cases hended
    exact (h.setTunnel htunnel hmoves).keep rfl rfl rfl
  | dial _ _ => exact h.keep rfl rfl rfl
  | relay _ _ _ _ => exact h.keep rfl rfl rfl

theorem sound_empty : State.empty.Sound where
  below := .of_none
  listed := fun _ _ hl ↦ by cases hl
  own := fun _ _ ht ↦ by cases ht
  kept := fun _ _ ht ↦ by cases ht
  dropped := fun _ _ ht ↦ by cases ht
  apart := fun _ _ _ _ _ ht ↦ by cases ht

theorem sound (h : Run next .empty tr s) : s.Sound :=
  h.invariant (C := fun _ ↦ True) sound_empty
    (fun _ _ _ _ hi _ hnext ↦ hi.step (next_moved hnext)) fun _ _ ↦ trivial

/-! ## One tunnel over a run -/

/-- What a step does to the tunnel `n`. -/
inductive Stepped (s : State) (n : Nat) (tunnel : Tunnel) : Action → Out → Tunnel → Prop
  | same {a : Action} {o : Out} : o ≠ .linked n → Stepped s n tunnel a o tunnel
  | closed {body : Option Json} {o : Out} :
      body.bind CloseTunnelRequest.ofJson = some tunnel.config.localAddr → o ≠ .linked n →
      Stepped s n tunnel (.closeTunnel body) o tunnel.drop
  | replaced {addr : SocketAddr} {o : Out} : s.free addr = true →
      tunnel.config.localAddr = addr.toString → o ≠ .linked n →
      Stepped s n tunnel (.bound addr) o tunnel.drop
  | loop {a : Action} {loop : Loop} : loop.Steps tunnel a n →
      Stepped s n tunnel a .silent { tunnel with loop := loop }
  | refused : tunnel.loop = .accepting → Stepped s n tunnel (.accept n false) .silent
      { tunnel with cancelled := true, loop := .ended }
  | spawn : tunnel.loop = .linking →
      Stepped s n tunnel (.spawn n) (.linked n) { tunnel with loop := .accepting }

theorem Moved.stepped (h : s.Sound) (hm : Moved s a o t) (ht : s.tunnels n = some tunnel) :
    ∃ tunnel', t.tunnels n = some tunnel' ∧ Stepped s n tunnel a o tunnel' := by
  cases hm with
  | rejected _ _ => exact ⟨tunnel, ht, .same (by simp)⟩
  | hold _ _ => exact ⟨tunnel, ht, .same (by simp)⟩
  | give => exact ⟨tunnel, ht, .same (by simp)⟩
  | @insert req addr _ _ hfree =>
    have hne : n ≠ s.nextTunnel := Nat.ne_of_lt (h.below.lt ht)
    have hother : (s.insertTunnel req.remote addr).tunnels n =
        (s.without addr.toString).tunnels n := update_of_ne hne ..
    rw [hother]
    rcases h.without_tunnels addr.toString n with
      ⟨hsame, -⟩ | ⟨tunnel₀, ht₀, hkey, -, hdrop⟩
    · exact ⟨tunnel, hsame.trans ht, .same (by simp)⟩
    · rw [ht] at ht₀
      cases ht₀
      exact ⟨tunnel.drop, hdrop, .replaced hfree hkey (by simp)⟩
  | listed _ => exact ⟨tunnel, ht, .same (by simp)⟩
  | unread _ _ => exact ⟨tunnel, ht, .same (by simp)⟩
  | notFound _ _ _ => exact ⟨tunnel, ht, .same (by simp)⟩
  | @close body key n₀ _ hbody _ =>
    show ∃ tunnel', (s.without key).tunnels n = some tunnel' ∧ _
    rcases h.without_tunnels key n with ⟨hsame, -⟩ | ⟨tunnel₀, ht₀, hkey, -, hdrop⟩
    · exact ⟨tunnel, hsame.trans ht, .same (by simp)⟩
    · rw [ht] at ht₀
      cases ht₀
      exact ⟨tunnel.drop, hdrop, .closed (hkey ▸ hbody) (by simp)⟩
  | @loop _ n₀ tunnel₀ loop ht₀ hsteps =>
    by_cases hn : n = n₀
    · subst hn
      rw [ht] at ht₀
      cases ht₀
      exact ⟨_, update_self .., .loop hsteps⟩
    · exact ⟨tunnel, (update_of_ne hn ..).trans ht, .same (by simp)⟩
  | @refused n₀ tunnel₀ ht₀ hloop =>
    by_cases hn : n = n₀
    · subst hn
      rw [ht] at ht₀
      cases ht₀
      exact ⟨_, update_self .., .refused hloop⟩
    · exact ⟨tunnel, (update_of_ne hn ..).trans ht, .same (by simp)⟩
  | @spawn n₀ tunnel₀ ht₀ hloop =>
    by_cases hn : n = n₀
    · subst hn
      rw [ht] at ht₀
      cases ht₀
      exact ⟨_, update_self .., .spawn hloop⟩
    · refine ⟨tunnel, (update_of_ne hn ..).trans ht, .same fun heq ↦ hn ?_⟩
      cases heq
      rfl
  | dial _ _ => exact ⟨tunnel, ht, .same (by simp)⟩
  | relay _ _ _ _ => exact ⟨tunnel, ht, .same (by simp)⟩

/-- What a step does to a key of the pool. -/
theorem Moved.lookup (hm : Moved s a o t) (key : String) :
    t.connections.lookup key = s.connections.lookup key ∨
    (∃ body, a = .closeTunnel body ∧ body.bind CloseTunnelRequest.ofJson = some key ∧
      t.connections.lookup key = none) ∨
    ∃ addr, a = .bound addr ∧ s.free addr = true ∧ key = addr.toString ∧
      t.connections.lookup key = some s.nextTunnel := by
  cases hm with
  | @insert req addr _ _ hfree =>
    by_cases hkey : key = addr.toString
    · exact .inr (.inr ⟨addr, rfl, hfree, hkey, hkey ▸ AList.lookup_insert ..⟩)
    · exact .inl (AList.lookup_insert_ne hkey)
  | @close body key' n _ hbody _ =>
    by_cases hkey : key = key'
    · exact .inr (.inl ⟨body, rfl, hkey ▸ hbody, hkey ▸ AList.lookup_erase ..⟩)
    · exact .inl (AList.lookup_erase_ne hkey)
  | _ => exact .inl rfl

section

def sampleAddr : SocketAddr := ⟨.v4 ⟨127, 0, 0, 1⟩, 4000⟩

def sampleKey : String := sampleAddr.toString

def sampleConfig : TunnelConfig := ⟨"127.0.0.1:0", "ws://host/traffic"⟩

def sampleLaunch : List Action := [.launch (some sampleConfig.toJson), .bound sampleAddr]

def sampleClose : Option Json := some (.obj [("key", .str sampleKey)])

end

-- What is listed are keys of the pool, so no key is listed twice.
theorem State.entries_nodup : (s.entries.map Prod.fst).Nodup := by
  have hsub : (s.entries.map Prod.fst).Sublist (s.connections.entries.map Sigma.fst) := by
    unfold State.entries
    generalize s.connections.entries = l
    induction l with
    | nil => exact List.Sublist.refl _
    | cons e l ih =>
      rw [List.filterMap_cons]
      cases s.tunnels e.2 with
      | none => exact ih.cons _
      | some tunnel => exact ih.cons_cons _
  exact hsub.nodup s.connections.nodupKeys

theorem State.mem_entries {config : TunnelConfig} : (key, config) ∈ s.entries ↔
    ∃ n tunnel, s.connections.lookup key = some n ∧ s.tunnels n = some tunnel ∧
      tunnel.config = config := by
  simp only [State.entries, List.mem_filterMap, Option.map_eq_some_iff, Prod.mk.injEq]
  constructor
  · rintro ⟨⟨key', n⟩, hmem, tunnel, ht, rfl, rfl⟩
    exact ⟨n, tunnel, AList.mem_lookup_iff.mpr hmem, ht, rfl⟩
  · rintro ⟨n, tunnel, hl, ht, rfl⟩
    exact ⟨⟨key, n⟩, AList.mem_lookup_iff.mp hl, tunnel, ht, rfl, rfl⟩

/-- The pool has exactly the tunnels that were launched and not dropped, each under the address it
was bound to; no two tunnels listen on one address, and what listens but is not in the pool has been
cancelled. -/
theorem pool_matches_listeners (h : Run next .empty tr s) :
    (∀ key n, s.connections.lookup key = some n → ∃ tunnel, s.tunnels n = some tunnel ∧
      tunnel.config.localAddr = key ∧ SocketAddr.fromStr key = some tunnel.addr ∧
      (tunnel.Listens → tunnel.cancelled = false)) ∧
    (∀ n n' tunnel tunnel', n ≠ n' → s.tunnels n = some tunnel → s.tunnels n' = some tunnel' →
      tunnel.Listens → tunnel'.Listens → tunnel.addr ≠ tunnel'.addr) ∧
    (∀ n tunnel, s.tunnels n = some tunnel →
      s.connections.lookup tunnel.config.localAddr = some n ∨
        tunnel.aborted = true ∧ tunnel.cancelled = true) ∧
    (s.entries.map Prod.fst).Nodup ∧
    ∀ key config, (key, config) ∈ s.entries ↔
      ∃ n tunnel, s.connections.lookup key = some n ∧ s.tunnels n = some tunnel ∧
        tunnel.config = config := by
  have hsound := sound h
  refine ⟨fun key n hl ↦ ?_, hsound.apart, fun n tunnel ht ↦ ?_, State.entries_nodup,
    fun _ _ ↦ State.mem_entries⟩
  · obtain ⟨tunnel, ht, hkey⟩ := hsound.listed key n hl
    have haddr : key = tunnel.addr.toString := hkey.symm.trans (hsound.own n tunnel ht)
    refine ⟨tunnel, ht, hkey, ?_, fun hlistens ↦ Bool.eq_false_iff.mpr fun hcancelled ↦ ?_⟩
    · rw [haddr]
      exact SocketAddr.fromStr_toString _
    · have hlists : s.Lists n tunnel := by rw [State.Lists, hkey]; exact hl
      exact hlistens ((hsound.kept n tunnel ht hlists).2 hcancelled)
  · by_cases hlists : s.Lists n tunnel
    · exact .inl hlists
    · exact .inr (hsound.dropped n tunnel ht hlists)

-- A tunnel is launched and closed, and another one is launched on its address.
theorem pool_matches_listeners_sample : ∃ tr s closed tunnel, Run next .empty tr s ∧
    s.tunnels 0 = some closed ∧ closed.config.localAddr = sampleKey ∧ closed.aborted = true ∧
    closed.cancelled = true ∧ s.connections.lookup sampleKey = some 1 ∧
    s.tunnels 1 = some tunnel ∧ SocketAddr.fromStr sampleKey = some tunnel.addr ∧
    (sampleKey, tunnel.config) ∈ s.entries := by
  obtain ⟨tr, s, hrun, hp⟩ := exists_run next .empty
    (sampleLaunch ++ [.closeTunnel sampleClose, .abort 0] ++ sampleLaunch)
    (fun _ s ↦ s.connections.lookup sampleKey = some 1 &&
      (s.tunnels 0).any fun tunnel ↦ tunnel.config.localAddr = sampleKey) (by decide +kernel)
  rw [Bool.and_eq_true, decide_eq_true_eq, Option.any_eq_true] at hp
  obtain ⟨hlook, closed, hclosed, hkey⟩ := hp
  rw [decide_eq_true_eq] at hkey
  obtain ⟨hlisted, -, hdropped, -, hentries⟩ := pool_matches_listeners hrun
  obtain ⟨tunnel, ht, -, haddr, -⟩ := hlisted _ _ hlook
  have hnot : s.connections.lookup closed.config.localAddr ≠ some 0 := by
    rw [hkey, hlook]
    decide
  obtain ⟨haborted, hcancelled⟩ := (hdropped 0 closed hclosed).resolve_left hnot
  exact ⟨tr, s, closed, tunnel, hrun, hclosed, hkey, haborted, hcancelled, hlook, ht, haddr,
    (hentries _ _).mpr ⟨1, tunnel, hlook, ht, rfl⟩⟩

/-- The tunnel `n` is under its key and has the listener that `tunnel` had. -/
structure State.Keeps (s : State) (n : Nat) (tunnel : Tunnel) : Prop where
  sound : s.Sound
  listed : s.Lists n tunnel
  there : ∃ tunnel', s.tunnels n = some tunnel' ∧ tunnel'.config = tunnel.config ∧
    tunnel'.addr = tunnel.addr ∧ tunnel'.Listens

-- A listener that is bound is not on the address of one that is there.
theorem State.Sound.bound_apart (h : s.Sound) (ht : s.tunnels n = some tunnel)
    (hlistens : tunnel.Listens) (hfree : s.free addr = true) :
    tunnel.config.localAddr ≠ addr.toString := by
  intro heq
  have hown := h.own n tunnel ht
  rw [heq] at hown
  exact h.of_free hfree ht hlistens (SocketAddr.toString_injective hown).symm

theorem State.Keeps.step (h : s.Keeps n tunnel) (hm : Moved s a o t)
    (hclose : ∀ body, a = .closeTunnel body →
      body.bind CloseTunnelRequest.ofJson ≠ some tunnel.config.localAddr)
    (haccept : a ≠ .accept n false) (hpeer : a ≠ .peerAddr n false) : t.Keeps n tunnel := by
  obtain ⟨tunnel₁, ht₁, hconfig, haddr, hlistens⟩ := h.there
  have hlists : s.Lists n tunnel₁ := by rw [State.Lists, hconfig]; exact h.listed
  obtain ⟨haborted, hcancelled⟩ := h.sound.kept n tunnel₁ ht₁ hlists
  have hbound : ∀ {addr}, s.free addr = true → tunnel.config.localAddr ≠ addr.toString := by
    intro addr hfree
    rw [← hconfig]
    exact h.sound.bound_apart ht₁ hlistens hfree
  obtain ⟨tunnel₂, ht₂, hstep⟩ := hm.stepped h.sound ht₁
  refine ⟨h.sound.step hm, ?_, tunnel₂, ht₂, ?_⟩
  · rcases hm.lookup tunnel.config.localAddr with
      hsame | ⟨body, rfl, hbody, -⟩ | ⟨addr, -, hfree, heq, -⟩
    · rw [State.Lists, hsame]
      exact h.listed
    · exact absurd hbody (hclose body rfl)
    · exact absurd heq (hbound hfree)
  · cases hstep with
    | same _ => exact ⟨hconfig, haddr, hlistens⟩
    | closed hbody _ =>
      rw [hconfig] at hbody
      exact absurd hbody (hclose _ rfl)
    | replaced hfree heq _ =>
      rw [hconfig] at heq
      exact absurd heq (hbound hfree)
    | loop hsteps =>
      refine ⟨hconfig, haddr, fun hended ↦ ?_⟩
      cases hsteps with
      | accepted _ => cases hended
      | panic _ => exact hpeer rfl
      | stopped _ hc => exact hlistens (hcancelled hc)
      | linking _ _ => cases hended
      | aborted _ ha => rw [haborted] at ha; cases ha
    | refused _ => exact absurd rfl haccept
    | spawn _ => exact ⟨hconfig, haddr, fun hended ↦ by cases hended⟩

/-- A tunnel that is in the pool and listens goes on to do so, whatever else is launched or closed,
until its own key is closed or its listener fails. -/
theorem listening_stays (h : Run next .empty tr s) (hl : s.connections.lookup key = some n)
    (ht : s.tunnels n = some tunnel) (hlistens : tunnel.Listens)
    {tr' : List (Event State Action Out)} (h' : Run next s tr' t)
    (hclose : ∀ e ∈ tr', ∀ body, e.act = .closeTunnel body →
      body.bind CloseTunnelRequest.ofJson ≠ some key)
    (hfail : ∀ e ∈ tr', e.act ≠ .accept n false ∧ e.act ≠ .peerAddr n false) :
    t.connections.lookup key = some n ∧ ∃ tunnel', t.tunnels n = some tunnel' ∧
      tunnel'.config = tunnel.config ∧ tunnel'.Listens ∧ tunnel'.cancelled = false := by
  have hkey : tunnel.config.localAddr = key := by
    obtain ⟨tunnel₀, ht₀, hkey⟩ := (sound h).listed key n hl
    rw [ht] at ht₀
    cases ht₀
    exact hkey
  obtain rfl := hkey
  have hkeeps : t.Keeps n tunnel := by
    refine h'.invariant (I := fun v ↦ v.Keeps n tunnel)
      (C := fun e ↦ (∀ body, e.act = .closeTunnel body →
        body.bind CloseTunnelRequest.ofJson ≠ some tunnel.config.localAddr) ∧
        e.act ≠ .accept n false ∧ e.act ≠ .peerAddr n false)
      ⟨sound h, hl, tunnel, ht, rfl, rfl, hlistens⟩ ?_ fun e he ↦ ⟨hclose e he, hfail e he⟩
    intro v a o w hv ⟨hnot, haccept, hpeer⟩ hnext
    exact hv.step (next_moved hnext) hnot haccept hpeer
  obtain ⟨tunnel', ht', hconfig, -, hlistens'⟩ := hkeeps.there
  refine ⟨hkeeps.listed, tunnel', ht', hconfig, hlistens',
    Bool.eq_false_iff.mpr fun hcancelled ↦ ?_⟩
  have hlists : t.Lists n tunnel' := by rw [State.Lists, hconfig]; exact hkeeps.listed
  exact hlistens' ((hkeeps.sound.kept n tunnel' ht' hlists).2 hcancelled)

-- Another tunnel is launched and closed beside the first one.
theorem listening_stays_sample : ∃ tr t tunnel', Run next .empty tr t ∧
    t.connections.lookup sampleKey = some 0 ∧ t.tunnels 0 = some tunnel' ∧ tunnel'.Listens ∧
    tunnel'.cancelled = false := by
  let otherAddr : SocketAddr := ⟨.v4 ⟨127, 0, 0, 1⟩, 4001⟩
  obtain ⟨tr₁, e, tr₂, t, hrun, -, hp⟩ := exists_run_at next .empty sampleLaunch
    (.launch (some sampleConfig.toJson))
    [.bound otherAddr, .closeTunnel (some (.obj [("key", .str otherAddr.toString)]))]
    (fun _ e tr₂ _ ↦ e.pre.connections.lookup sampleKey = some 0 &&
      (e.pre.tunnels 0).any (fun tunnel ↦ tunnel.loop ≠ .ended) &&
      (e :: tr₂).all fun e ↦ match e.act with
        | .closeTunnel body => body.bind CloseTunnelRequest.ofJson ≠ some sampleKey
        | .accept _ _ | .peerAddr _ _ => false
        | _ => true) (by decide +kernel)
  rw [Bool.and_eq_true, Bool.and_eq_true, decide_eq_true_eq, Option.any_eq_true,
    List.all_eq_true] at hp
  obtain ⟨⟨hlook, tunnel, htunnel, hlistens⟩, hacts⟩ := hp
  have hloop : tunnel.loop ≠ .ended := of_decide_eq_true hlistens
  obtain ⟨u, h₁, hstep, h₂⟩ := hrun.cut
  obtain ⟨hlook', tunnel', htunnel', -, hlistens', hlive⟩ := listening_stays h₁ hlook htunnel
    hloop ((Run.single hstep).append h₂)
    (fun e he body hact hbody ↦ by
      have hall := hacts e he
      rw [hact] at hall
      exact of_decide_eq_true hall hbody)
    (fun e he ↦ ⟨fun hact ↦ by simpa [hact] using hacts e he,
      fun hact ↦ by simpa [hact] using hacts e he⟩)
  exact ⟨_, t, tunnel', hrun, hlook', htunnel', hlistens', hlive⟩

/-- Whether a step links a connection of the tunnel. -/
def links (n : Nat) (e : Event State Action Out) : Bool :=
  match e.out with
  | .linked n' => n' == n
  | _ => false

/-- How many connections a loop that is told to stop may still link. -/
def Tunnel.linksLeft (tunnel : Tunnel) : Nat := if tunnel.loop = .linking then 1 else 0

/-- The tunnel `n` is out of the pool and has not linked more than `most` connections, the one it
is about to link among them. -/
structure State.Spent (s : State) (n most : Nat) (tr : List (Event State Action Out)) : Prop where
  sound : s.Sound
  gone : ∀ key, s.connections.lookup key ≠ some n
  there : ∃ tunnel, s.tunnels n = some tunnel ∧ tunnel.cancelled = true ∧
    tr.countP (Pool.links n) + tunnel.linksLeft ≤ most

theorem countP_links_of_ne (hne : o ≠ .linked n) :
    (tr ++ [(⟨s, a, o⟩ : Event State Action Out)]).countP (links n) = tr.countP (links n) := by
  rw [List.countP_append, List.countP_singleton, if_neg, Nat.add_zero]
  unfold links
  split
  · rename_i n' hout
    intro heq
    exact hne (hout.trans (by rw [beq_iff_eq.mp heq]))
  · exact Bool.false_ne_true

theorem countP_links_linked :
    (tr ++ [(⟨s, a, .linked n⟩ : Event State Action Out)]).countP (links n) =
      tr.countP (links n) + 1 := by
  have hone : links n ⟨s, a, .linked n⟩ = true := beq_self_eq_true n
  rw [List.countP_append, List.countP_singleton, if_pos hone]

theorem State.Spent.step {most : Nat} (h : s.Spent n most tr) (hm : Moved s a o t) :
    t.Spent n most (tr ++ [⟨s, a, o⟩]) := by
  obtain ⟨tunnel₁, ht₁, hcancelled, hcount⟩ := h.there
  obtain ⟨tunnel₂, ht₂, hstep⟩ := hm.stepped h.sound ht₁
  -- a loop that does not link has at most what it had left
  have hless : tr.countP (Pool.links n) + 0 ≤ most :=
    Nat.le_trans (Nat.add_le_add_left (Nat.zero_le _) _) hcount
  refine ⟨h.sound.step hm, fun key' ↦ ?_, tunnel₂, ht₂, ?_⟩
  · rcases hm.lookup key' with hsame | ⟨-, -, -, hnew⟩ | ⟨-, -, -, -, hnew⟩
    · rw [hsame]
      exact h.gone key'
    · rw [hnew]
      simp
    · rw [hnew]
      exact fun heq ↦ Nat.ne_of_gt (h.sound.below.lt ht₁) (Option.some.inj heq)
  · cases hstep with
    | same hne => exact ⟨hcancelled, (countP_links_of_ne hne).symm ▸ hcount⟩
    | closed _ hne => exact ⟨rfl, (countP_links_of_ne hne).symm ▸ hcount⟩
    | replaced _ _ hne => exact ⟨rfl, (countP_links_of_ne hne).symm ▸ hcount⟩
    | loop hsteps =>
      refine ⟨hcancelled, ?_⟩
      rw [countP_links_of_ne (by simp)]
      cases hsteps with
      | linking _ hc =>
        rw [hcancelled] at hc
        cases hc
      | _ => exact hless
    | refused _ =>
      refine ⟨rfl, ?_⟩
      rw [countP_links_of_ne (by simp)]
      exact hless
    | spawn hloop =>
      refine ⟨hcancelled, ?_⟩
      rw [countP_links_linked]
      rw [Tunnel.linksLeft, if_pos hloop] at hcount
      exact hcount

/-- A request to close what the pool has is answered, and the tunnel is out of the pool. -/
theorem State.Sound.close_tunnel {body : Option Json} {u : State} (h : s.Sound)
    (hbody : body.bind CloseTunnelRequest.ofJson = some key)
    (hl : s.connections.lookup key = some n) (ht : s.tunnels n = some tunnel)
    (hm : Moved s (.closeTunnel body) o u) :
    o = .responded .ok .empty ∧ u.tunnels n = some tunnel.drop ∧
      ∀ key', u.connections.lookup key' ≠ some n := by
  have hu : u.Sound := h.step hm
  obtain ⟨rfl, rfl⟩ : o = .responded .ok .empty ∧ u = s.without key := by
    cases hm with
    | unread _ hnone =>
      rw [hbody] at hnone
      cases hnone
    | notFound _ hbody' hnone =>
      cases hbody.symm.trans hbody'
      rw [hl] at hnone
      cases hnone
    | close _ hbody' _ =>
      cases hbody.symm.trans hbody'
      exact ⟨rfl, rfl⟩
    | loop _ hsteps => cases hsteps
  obtain ⟨tunnel₀, ht₀, hkey⟩ := h.listed key n hl
  rw [ht] at ht₀
  cases ht₀
  have hdropped : (s.without key).tunnels n = some tunnel.drop := by
    rcases h.without_tunnels key n with ⟨-, hne⟩ | ⟨tunnel₀, ht₀, -, -, hdrop⟩
    · exact absurd hl hne
    · rw [ht] at ht₀
      cases ht₀
      exact hdrop
  refine ⟨rfl, hdropped, fun key' hl' ↦ ?_⟩
  obtain ⟨tunnel₀, ht₀, hkey'⟩ := hu.listed key' n hl'
  rw [hdropped] at ht₀
  cases ht₀
  rw [show key' = key from hkey'.symm.trans hkey] at hl'
  rw [show (s.without key).connections.lookup key = none from AList.lookup_erase ..] at hl'
  cases hl'

/-- Once it has been closed, a tunnel links at most the one connection it was already about to
link, and it never comes back into the pool. -/
theorem closed_links_at_most_once {body : Option Json} {u : State} (h : Run next .empty tr s)
    (hbody : body.bind CloseTunnelRequest.ofJson = some key)
    (hl : s.connections.lookup key = some n) (ht : s.tunnels n = some tunnel)
    (hclose : next s (.closeTunnel body) = some (o, u)) {tr' : List (Event State Action Out)}
    (h' : Run next u tr' t) :
    o = .responded .ok .empty ∧ tr'.countP (links n) ≤ (if tunnel.loop = .linking then 1 else 0) ∧
      ∀ key', t.connections.lookup key' ≠ some n := by
  have hm := next_moved hclose
  obtain ⟨hout, hdropped, hgone⟩ := (sound h).close_tunnel hbody hl ht hm
  have hstart : u.Spent n tunnel.linksLeft [] := by
    refine ⟨(sound h).step hm, hgone, tunnel.drop, hdropped, rfl, ?_⟩
    rw [List.countP_nil, Nat.zero_add]
    exact Nat.le_refl _
  have hspent : t.Spent n tunnel.linksLeft tr' := by
    refine h'.history (P := fun l v ↦ v.Spent n tunnel.linksLeft l) (C := fun _ ↦ True)
      hstart ?_ fun _ _ ↦ trivial
    intro l v a o w hv _ hnext
    exact hv.step (next_moved hnext)
  obtain ⟨tunnel', -, -, hcount⟩ := hspent.there
  exact ⟨hout, Nat.le_trans (Nat.le_add_right _ _) hcount, hspent.gone⟩

-- The loop was about to link a connection when the tunnel was closed.
theorem closed_links_at_most_once_sample : ∃ tr t, Run next .empty tr t ∧
    tr.countP (links 0) ≤ 1 ∧ ∀ key, t.connections.lookup key ≠ some 0 := by
  obtain ⟨tr₁, e, tr₂, t, hrun, hact, hp⟩ := exists_run_at next .empty
    (sampleLaunch ++ [.accept 0 true, .peerAddr 0 true]) (.closeTunnel sampleClose)
    [.spawn 0, .abort 0]
    (fun tr₁ e _ _ ↦ tr₁.countP (links 0) = 0 && !links 0 e &&
      e.pre.connections.lookup sampleKey = some 0 &&
      (e.pre.tunnels 0).any (fun tunnel ↦ tunnel.loop = .linking)) (by decide +kernel)
  simp only [Bool.and_eq_true, Bool.not_eq_true', decide_eq_true_eq, Option.any_eq_true] at hp
  obtain ⟨⟨⟨hnone, hquiet⟩, hlook⟩, tunnel, htunnel, hloop⟩ := hp
  obtain ⟨u, h₁, hstep, h₂⟩ := hrun.cut
  rw [hact] at hstep
  have hbody : sampleClose.bind CloseTunnelRequest.ofJson = some sampleKey := by decide +kernel
  obtain ⟨-, hcount, hgone⟩ := closed_links_at_most_once h₁ hbody hlook htunnel hstep h₂
  refine ⟨_, t, hrun, ?_, hgone⟩
  rw [List.countP_append, List.countP_cons, hnone, hquiet, if_neg Bool.false_ne_true]
  rw [if_pos hloop] at hcount
  omega

end LabStreamGate.Daemon.Pool
