import LabStreamGate.Daemon.Pool

/-!
# The connections of the daemon

Each connection relays by itself: what the others do, what is launched and what is closed does not
reach it, but for the token of its own tunnel.
-/

namespace LabStreamGate.Daemon.Pool

open Function
open Relay (Half endpoints proxyObserved accounts carries)

variable {s t : State} {a : Action} {o : Out} {tr : List (Event State Action Out)} {i n : Nat}
  {tunnel : Tunnel} {link : Link} {relay : Relay.State Half} {e : Event State Action Out}

/-! ## What a connection has done by itself -/

def Phase.relayState : Phase → Option (Relay.State Half)
  | .relaying relay => some relay
  | _ => none

theorem Phase.relayState_eq {phase : Phase} (h : phase.relayState = some relay) :
    phase = .relaying relay := by
  cases phase <;> cases h
  rfl

def State.relayState (s : State) (i : Nat) : Option (Relay.State Half) :=
  (s.links i).bind fun link ↦ link.phase.relayState

abbrev RelayEvent := Event (Relay.State Half) (Relay.Action Relay.Io) Relay.Out

/-- The step as the relay of the connection sees it. -/
def own (i : Nat) (e : Event State Action Out) : Option RelayEvent :=
  match e.act with
  | .relay i' a =>
    match e.out with
    | .relayed _ out =>
      if i' = i then (e.pre.relayState i).map fun relay ↦ ⟨relay, a, out⟩ else none
    | _ => none
  | _ => none

/-- The connection is where the steps of its own relay have brought it. -/
def State.Follows (s : State) (tr : List (Event State Action Out)) (i : Nat) : Prop :=
  match s.relayState i with
  | some relay => Run (Relay.next endpoints) proxyObserved (tr.filterMap (own i)) relay
  | none => tr.filterMap (own i) = []

theorem State.Follows.of_relay (h : s.Follows tr i) (hrelay : s.relayState i = some relay) :
    Run (Relay.next endpoints) proxyObserved (tr.filterMap (own i)) relay := by
  rw [Follows, hrelay] at h
  exact h

-- A step that the connection has no part in.
theorem State.Follows.keep (h : s.Follows tr i) (hown : own i e = none)
    (hsame : t.relayState i = s.relayState i) : t.Follows (tr ++ [e]) i := by
  have hnone : [e].filterMap (own i) = [] := by rw [List.filterMap_cons, hown, List.filterMap_nil]
  rw [Follows, List.filterMap_append, hnone, List.append_nil, hsame]
  exact h

theorem State.setPhase_relayState_self (phase : Phase) :
    (s.setPhase i link phase).relayState i = phase.relayState := by
  unfold relayState setPhase
  dsimp only
  rw [update_self]
  rfl

theorem State.setPhase_relayState_of_ne {i' : Nat} (hne : i' ≠ i) (phase : Phase) :
    (s.setPhase i link phase).relayState i' = s.relayState i' := by
  unfold relayState setPhase
  dsimp only
  rw [update_of_ne hne]

/-- The connections are numbered, and each has the remote of its tunnel. -/
structure State.Linked (s : State) : Prop where
  below : TasksBelow s.nextLink s.links
  remote : ∀ i link, s.links i = some link → ∃ tunnel, s.tunnels link.tunnel = some tunnel ∧
    link.remote = tunnel.config.remote

theorem State.dropKey_links {key : String} :
    (s.dropKey key).links = s.links ∧ (s.dropKey key).nextLink = s.nextLink := by
  unfold dropKey
  split
  · exact ⟨rfl, rfl⟩
  · split <;> exact ⟨rfl, rfl⟩

/-- What a step does to the connections. -/
inductive Relinked (s : State) : Event State Action Out → State → Prop
  | same {e : Event State Action Out} {t : State} : t.links = s.links → t.nextLink = s.nextLink →
      (∀ i, own i e = none) → (∀ i remote, e.out ≠ .dialed i remote) → Relinked s e t
  | spawn {n : Nat} {tunnel : Tunnel} : s.tunnels n = some tunnel →
      Relinked s ⟨s, .spawn n, .linked n⟩ (s.spawnLink n tunnel)
  | dial {i : Nat} {connected : Bool} {link : Link} : s.links i = some link →
      link.phase = .connecting →
      Relinked s ⟨s, .connectAsync i connected, .dialed i link.remote⟩
        (s.setPhase i link (if connected then .relaying proxyObserved else .failed))
  | relay {i : Nat} {a : Relay.Action Relay.Io} {link : Link} {relay relay' : Relay.State Half}
      {out : Relay.Out} : s.links i = some link → link.phase = .relaying relay →
      Relay.next endpoints relay a = some (out, relay') →
      Relinked s ⟨s, .relay i a, .relayed i out⟩ (s.setPhase i link (.relaying relay'))

theorem Moved.relinked (hm : Moved s a o t) : Relinked s ⟨s, a, o⟩ t := by
  cases hm with
  | insert _ _ _ => exact .same State.dropKey_links.1 State.dropKey_links.2 (fun _ ↦ rfl) (by simp)
  | close _ _ _ => exact .same State.dropKey_links.1 State.dropKey_links.2 (fun _ ↦ rfl) (by simp)
  | loop _ hsteps => exact .same rfl rfl (fun _ ↦ by cases hsteps <;> rfl) (by simp)
  | spawn htunnel _ => exact .spawn htunnel
  | dial hlink hphase => exact .dial hlink hphase
  | relay hlink hphase hnext _ => exact .relay hlink hphase hnext
  | _ => exact .same rfl rfl (fun _ ↦ rfl) (by simp)

-- By cases on whether the connection is the one that steps.
theorem State.Follows.step (h : ∀ i, s.Follows tr i) (hlinked : s.Linked)
    (hr : Relinked s e t) (i : Nat) : t.Follows (tr ++ [e]) i := by
  cases hr with
  | same hlinks _ hown _ =>
    refine (h i).keep (hown i) ?_
    unfold relayState
    rw [hlinks]
  | @spawn n tunnel _ =>
    refine (h i).keep rfl ?_
    by_cases hi : i = s.nextLink
    · subst hi
      have hnone : s.relayState s.nextLink = none := by
        unfold relayState
        rw [hlinked.below _ (Nat.le_refl _)]
        rfl
      rw [hnone]
      unfold relayState spawnLink
      dsimp only
      rw [update_self]
      rfl
    · unfold relayState spawnLink
      dsimp only
      rw [update_of_ne hi]
  | @dial i' connected link hlink hphase =>
    by_cases hi : i = i'
    · subst hi
      have hnone : s.relayState i = none := by
        unfold relayState
        rw [hlink, Option.bind_some, hphase]
        rfl
      have hbefore : tr.filterMap (own i) = [] := by
        have hi := h i
        rw [Follows, hnone] at hi
        exact hi
      rw [Follows, setPhase_relayState_self, List.filterMap_append, hbefore]
      cases connected with
      | true => exact Run.nil
      | false => rfl
    · exact (h i).keep rfl (setPhase_relayState_of_ne hi _)
  | @relay i' a link relay relay' out hlink hphase hnext =>
    have hrelay : s.relayState i' = some relay := by
      unfold relayState
      rw [hlink, Option.bind_some, hphase]
      rfl
    by_cases hi : i = i'
    · subst hi
      have hown : own i ⟨s, .relay i a, .relayed i out⟩ = some ⟨relay, a, out⟩ := by
        unfold own
        dsimp only
        rw [if_pos rfl, hrelay]
        rfl
      rw [Follows, setPhase_relayState_self, List.filterMap_append, List.filterMap_cons, hown,
        List.filterMap_nil]
      exact ((h i).of_relay hrelay).snoc hnext
    · refine (h i).keep ?_ (setPhase_relayState_of_ne hi _)
      unfold own
      dsimp only
      exact if_neg (Ne.symm hi)


/-! ## Where a connection belongs -/

theorem Relinked.earlier (hr : Relinked s e t) (ht : t.links i = some link) :
    (∃ link₀, s.links i = some link₀ ∧ link.tunnel = link₀.tunnel ∧ link.remote = link₀.remote) ∨
      ∃ tunnel, s.tunnels link.tunnel = some tunnel ∧ t.tunnels = (s.setLoop link.tunnel tunnel
        .accepting).tunnels ∧ i = s.nextLink ∧ link.remote = tunnel.config.remote := by
  have hphase : ∀ {i' link' phase}, s.links i' = some link' →
      (s.setPhase i' link' phase).links i = some link →
      ∃ link₀, s.links i = some link₀ ∧ link.tunnel = link₀.tunnel ∧
        link.remote = link₀.remote := by
    intro i' link' phase hlink hset
    rcases tasks_of_update hset with ⟨rfl, heq⟩ | ⟨-, hold⟩
    · cases heq
      exact ⟨link', hlink, rfl, rfl⟩
    · exact ⟨link, hold, rfl, rfl⟩
  cases hr with
  | same hlinks _ _ _ =>
    rw [hlinks] at ht
    exact .inl ⟨link, ht, rfl, rfl⟩
  | @spawn n tunnel htunnel =>
    rcases tasks_of_update ht with ⟨rfl, heq⟩ | ⟨-, hold⟩
    · cases heq
      exact .inr ⟨tunnel, htunnel, rfl, rfl, rfl⟩
    · exact .inl ⟨link, hold, rfl, rfl⟩
  | dial hlink _ => exact .inl (hphase hlink ht)
  | relay hlink _ _ => exact .inl (hphase hlink ht)

theorem Stepped.config {tunnel' : Tunnel} (h : Stepped s n tunnel a o tunnel') :
    tunnel'.config = tunnel.config := by
  cases h <;> rfl

theorem State.Linked.step (h : s.Linked) (hs : s.Sound) (hm : Moved s a o t) : t.Linked := by
  have hr := hm.relinked
  refine ⟨?_, fun i link ht ↦ ?_⟩
  · cases hr with
    | same hlinks hnext _ _ =>
      rw [hlinks, hnext]
      exact h.below
    | spawn _ => exact h.below.spawn
    | dial hlink _ => exact h.below.step (h.below.lt hlink)
    | relay hlink _ _ => exact h.below.step (h.below.lt hlink)
  · rcases hr.earlier ht with ⟨link₀, hlink, htunnel, hremote⟩ | ⟨tunnel, -, htunnels, -, hremote⟩
    · obtain ⟨tunnel, hold, hsame⟩ := h.remote i link₀ hlink
      obtain ⟨tunnel', hnew, hstep⟩ := hm.stepped hs hold
      rw [htunnel, hremote, hsame, ← hstep.config]
      exact ⟨tunnel', hnew, rfl⟩
    · rw [htunnels]
      exact ⟨{ tunnel with loop := .accepting }, update_self .., hremote⟩

-- A connection stays, with the tunnel and the remote it has.
theorem Relinked.stays (hr : Relinked s e t) (hlinked : s.Linked) (hs : s.links i = some link) :
    ∃ link', t.links i = some link' ∧ link'.tunnel = link.tunnel ∧ link'.remote = link.remote := by
  have hphase : ∀ {i' link' phase}, s.links i' = some link' →
      ∃ link₀, (s.setPhase i' link' phase).links i = some link₀ ∧ link₀.tunnel = link.tunnel ∧
        link₀.remote = link.remote := by
    intro i' link' phase hlink
    by_cases hi : i = i'
    · subst hi
      rw [hs] at hlink
      cases hlink
      exact ⟨_, update_self .., rfl, rfl⟩
    · exact ⟨link, (update_of_ne hi ..).trans hs, rfl, rfl⟩
  cases hr with
  | same hlinks _ _ _ => exact ⟨link, hlinks ▸ hs, rfl, rfl⟩
  | spawn _ => exact ⟨link, hlinked.below.spawn_of_some hs, rfl, rfl⟩
  | dial hlink _ => exact hphase hlink
  | relay hlink _ _ => exact hphase hlink

theorem linked_empty : State.empty.Linked := ⟨.of_none, fun _ _ hl ↦ by cases hl⟩

theorem linked (h : Run next .empty tr s) : s.Linked := by
  refine (h.invariant (I := fun v ↦ v.Sound ∧ v.Linked) (C := fun _ ↦ True)
    ⟨sound_empty, linked_empty⟩ ?_ fun _ _ ↦ trivial).2
  rintro v a o w ⟨hs, hl⟩ - hnext
  exact ⟨hs.step (next_moved hnext), hl.step hs (next_moved hnext)⟩

/-- The remote that a connection dialed is the one it has. -/
def State.Dialed (s : State) (tr : List (Event State Action Out)) : Prop :=
  ∀ e ∈ tr, ∀ i remote, e.out = .dialed i remote →
    ∃ link, s.links i = some link ∧ link.remote = remote

theorem State.Dialed.step (h : s.Dialed tr) (hlinked : s.Linked) (hr : Relinked s e t) :
    t.Dialed (tr ++ [e]) := by
  have hkeep : ∀ {i link}, s.links i = some link →
      ∃ link', t.links i = some link' ∧ link'.remote = link.remote := by
    intro i link hlink
    obtain ⟨link', hlink', -, hremote⟩ := hr.stays hlinked hlink
    exact ⟨link', hlink', hremote⟩
  intro e' he' i remote hout
  rcases List.mem_append.mp he' with he' | he'
  · obtain ⟨link, hlink, rfl⟩ := h e' he' i remote hout
    exact hkeep hlink
  · rw [List.mem_singleton] at he'
    subst he'
    cases hr with
    | same _ _ _ hquiet => exact absurd hout (hquiet i remote)
    | spawn _ => cases hout
    | dial hlink _ =>
      cases hout
      exact hkeep hlink
    | relay _ _ _ => cases hout

/-- A connection is dialed to the remote of the tunnel that accepted it, and its relay is where its
own steps alone have brought it, so that each way it gives out a prefix of what it has taken in. -/
theorem links_isolated (h : Run next .empty tr s) (hlink : s.links i = some link) :
    (∃ tunnel, s.tunnels link.tunnel = some tunnel ∧ link.remote = tunnel.config.remote) ∧
    (∀ e ∈ tr, ∀ remote, e.out = .dialed i remote → remote = link.remote) ∧
    ∀ relay, link.phase = .relaying relay →
      Run (Relay.next endpoints) proxyObserved (tr.filterMap (own i)) relay ∧
      relay.tcp.written <+: relay.ws.received.flatMap Relay.WsItem.payload ∧
      relay.ws.handed.flatten <+: relay.tcp.received := by
  have hend : (s.Sound ∧ s.Linked) ∧ (∀ i, s.Follows tr i) ∧ s.Dialed tr := by
    refine h.history (P := fun l v ↦ (v.Sound ∧ v.Linked) ∧ (∀ i, v.Follows l i) ∧ v.Dialed l)
      (C := fun _ ↦ True) ⟨⟨sound_empty, linked_empty⟩, fun _ ↦ rfl, fun _ he ↦ by cases he⟩ ?_
      fun _ _ ↦ trivial
    rintro l v a o w ⟨⟨hs, hl⟩, hfollows, hdialed⟩ - hnext
    have hm := next_moved hnext
    exact ⟨⟨hs.step hm, hl.step hs hm⟩, State.Follows.step hfollows hl hm.relinked,
      hdialed.step hl hm.relinked⟩
  obtain ⟨⟨-, hlinked⟩, hfollows, hdialed⟩ := hend
  refine ⟨hlinked.remote i link hlink, fun e he remote hout ↦ ?_, fun relay hphase ↦ ?_⟩
  · obtain ⟨link', hlink', hremote⟩ := hdialed e he i remote hout
    rw [hlink] at hlink'
    cases hlink'
    exact hremote.symm
  · have hrelay : s.relayState i = some relay := by
      unfold State.relayState
      rw [hlink, Option.bind_some, hphase]
      rfl
    have hrun := (hfollows i).of_relay hrelay
    have hconserves := Relay.conserves carries Relay.proxyObserved_conserves hrun
    exact ⟨hrun, (hconserves .clientToTarget).tcp_written, (hconserves .targetToClient).ws_handed⟩

/-- Two connections of one tunnel; the first reads three bytes and hands them on. -/
def sampleLinks : List Action :=
  sampleLaunch ++ [.accept 0 true, .peerAddr 0 true, .spawn 0, .accept 0 true, .peerAddr 0 true,
    .spawn 0, .connectAsync 1 true, .connectAsync 0 true,
    .relay 0 (.poll .targetToClient (.read [1, 2, 3])),
    .relay 1 (.poll .targetToClient (.read [4])), .relay 0 (.poll .targetToClient .pending),
    .relay 0 (.poll .targetToClient .done)]

-- The first connection hands on what it has read and nothing of the other one.
theorem links_isolated_sample : ∃ tr s relay, Run next .empty tr s ∧
    s.relayState 0 = some relay ∧ relay.ws.handed = [[1, 2, 3]] ∧
    relay.ws.handed.flatten <+: relay.tcp.received := by
  obtain ⟨tr, s, hrun, hp⟩ := exists_run next .empty sampleLinks
    (fun _ s ↦ (s.relayState 0).any fun relay ↦ relay.ws.handed = [[1, 2, 3]]) (by decide +kernel)
  obtain ⟨relay, hrelay, hhanded⟩ := (Option.any_eq_true ..).mp hp
  obtain ⟨link, hlink, hphase⟩ := Option.bind_eq_some_iff.mp hrelay
  obtain ⟨-, -, hfidelity⟩ := links_isolated hrun hlink
  exact ⟨tr, s, relay, hrun, hrelay, of_decide_eq_true hhanded,
    (hfidelity relay (Phase.relayState_eq hphase)).2.2⟩

/-! ## What stops a connection -/

theorem Stepped.cancelled {tunnel' : Tunnel} (h : Stepped s n tunnel a o tunnel')
    (hcancelled : tunnel.cancelled = true) : tunnel'.cancelled = true := by
  cases h with
  | closed _ _ => rfl
  | replaced _ _ _ => rfl
  | refused _ => rfl
  | _ => exact hcancelled

theorem Stepped.stop {tunnel' : Tunnel} (h : Stepped s n tunnel a o tunnel')
    (hcancelled : tunnel'.cancelled = true) :
    tunnel.cancelled = true ∧ tunnel'.aborted = tunnel.aborted ∨ tunnel'.aborted = true ∨
      a = .accept n false := by
  cases h with
  | closed _ _ => exact .inr (.inl rfl)
  | replaced _ _ _ => exact .inr (.inl rfl)
  | refused _ => exact .inr (.inr rfl)
  | _ => exact .inl ⟨hcancelled, rfl⟩

-- A tunnel is new only where it is inserted.
theorem Moved.origin (hs : s.Sound) (hm : Moved s a o t) (ht : t.tunnels n = some tunnel) :
    (∃ tunnel₀, s.tunnels n = some tunnel₀) ∨ tunnel.cancelled = false := by
  have hset : ∀ {n₀ tunnel₀ tunnel₁}, s.tunnels n₀ = some tunnel₀ →
      update s.tunnels n₀ (some tunnel₁) n = some tunnel →
      ∃ tunnel₀, s.tunnels n = some tunnel₀ := by
    intro n₀ tunnel₀ tunnel₁ h₀ hupdate
    rcases tasks_of_update hupdate with ⟨rfl, -⟩ | ⟨-, hold⟩
    · exact ⟨tunnel₀, h₀⟩
    · exact ⟨tunnel, hold⟩
  cases hm with
  | @insert req addr _ _ _ =>
    rcases tasks_of_update ht with ⟨-, heq⟩ | ⟨-, hold⟩
    · cases heq
      exact .inr rfl
    · have hwithout : (s.without addr.toString).tunnels n = some tunnel := hold
      obtain ⟨tunnel₀, h₀, -⟩ := hs.without_some hwithout
      exact .inl ⟨tunnel₀, h₀⟩
  | @close body key _ _ _ _ =>
    have hwithout : (s.without key).tunnels n = some tunnel := ht
    obtain ⟨tunnel₀, h₀, -⟩ := hs.without_some hwithout
    exact .inl ⟨tunnel₀, h₀⟩
  | loop h₀ _ => exact .inl (hset h₀ ht)
  | refused h₀ _ => exact .inl (hset h₀ ht)
  | spawn h₀ _ => exact .inl (hset h₀ ht)
  | _ => exact .inl ⟨tunnel, ht⟩

/-- The listener of the tunnel has failed in the trace. -/
def Fails (n : Nat) (tr : List (Event State Action Out)) : Prop :=
  ∃ e ∈ tr, e.act = .accept n false

theorem fails_snoc : Fails n (tr ++ [e]) ↔ Fails n tr ∨ e.act = .accept n false := by
  unfold Fails
  simp only [List.mem_append, List.mem_singleton, or_and_right, exists_or, exists_eq_left]

-- What fails is cancelled at once and stays so.
theorem fails_cancelled (h : Run next .empty tr s) (hfails : Fails n tr) :
    ∃ tunnel, s.tunnels n = some tunnel ∧ tunnel.cancelled = true := by
  refine (h.history (P := fun l v ↦ v.Sound ∧ (Fails n l →
    ∃ tunnel, v.tunnels n = some tunnel ∧ tunnel.cancelled = true)) (C := fun _ ↦ True)
    ⟨sound_empty, fun ⟨_, he, _⟩ ↦ by cases he⟩ ?_ fun _ _ ↦ trivial).2 hfails
  rintro l v a o w ⟨hs, hbefore⟩ - hnext
  have hm := next_moved hnext
  refine ⟨hs.step hm, fun hl ↦ ?_⟩
  rcases fails_snoc.mp hl with hl | hact
  · obtain ⟨tunnel, ht, hcancelled⟩ := hbefore hl
    obtain ⟨tunnel', ht', hstep⟩ := hm.stepped hs ht
    exact ⟨tunnel', ht', hstep.cancelled hcancelled⟩
  · dsimp only at hact
    subst hact
    cases hm with
    | loop _ hsteps => cases hsteps
    | refused _ _ => exact ⟨_, update_self .., rfl⟩

-- What is cancelled has failed or is aborted.
theorem cancelled_why (h : Run next .empty tr s) (ht : s.tunnels n = some tunnel)
    (hcancelled : tunnel.cancelled = true) : tunnel.aborted = true ∨ Fails n tr := by
  have hend : s.Sound ∧ ∀ tunnel, s.tunnels n = some tunnel → tunnel.cancelled = true →
      tunnel.aborted = true ∨ Fails n tr := by
    refine h.history (P := fun l v ↦ v.Sound ∧ ∀ tunnel, v.tunnels n = some tunnel →
      tunnel.cancelled = true → tunnel.aborted = true ∨ Fails n l) (C := fun _ ↦ True)
      ⟨sound_empty, fun _ ht ↦ by cases ht⟩ ?_ fun _ _ ↦ trivial
    rintro l v a o w ⟨hs, hbefore⟩ - hnext
    have hm := next_moved hnext
    refine ⟨hs.step hm, fun tunnel' ht' hcancelled' ↦ ?_⟩
    rw [fails_snoc]
    rcases hm.origin hs ht' with ⟨tunnel₀, h₀⟩ | hnew
    · obtain ⟨tunnel₁, h₁, hstep⟩ := hm.stepped hs h₀
      rw [ht'] at h₁
      cases h₁
      rcases hstep.stop hcancelled' with ⟨hold, haborted⟩ | haborted | hact
      · rw [haborted]
        exact (hbefore tunnel₀ h₀ hold).imp_right Or.inl
      · exact .inl haborted
      · exact .inr (.inr hact)
    · rw [hcancelled'] at hnew
      cases hnew
  exact hend.2 tunnel ht hcancelled

/-- A token is cancelled by what takes its tunnel out of the pool and by a listener that fails, and
by nothing else. -/
theorem cancelled_iff (h : Run next .empty tr s) (ht : s.tunnels n = some tunnel) :
    tunnel.cancelled = true ↔ ¬ s.Lists n tunnel ∨ Fails n tr := by
  have hs := sound h
  constructor
  · intro hcancelled
    refine (cancelled_why h ht hcancelled).imp_left fun haborted hlists ↦ ?_
    rw [(hs.kept n tunnel ht hlists).1] at haborted
    cases haborted
  · rintro (hnot | hfails)
    · exact (hs.dropped n tunnel ht hnot).2
    · obtain ⟨tunnel', ht', hcancelled⟩ := fails_cancelled h hfails
      rw [ht] at ht'
      cases ht'
      exact hcancelled

/-- The daemon can stop a connection that relays if and only if its own tunnel is out of the pool or
its listener has failed; the connection then returns without an error, and nothing else is
changed. -/
theorem stopped_with_its_tunnel (h : Run next .empty tr s) (hlink : s.links i = some link)
    (hphase : link.phase = .relaying relay) (hrunning : relay.result = none)
    (ht : s.tunnels link.tunnel = some tunnel) :
    ((next s (.relay i .cancelled)).isSome = true ↔
      s.connections.lookup tunnel.config.localAddr ≠ some link.tunnel ∨ Fails link.tunnel tr) ∧
    ∀ o t, next s (.relay i .cancelled) = some (o, t) →
      o = .relayed i (.returned none (.ok ())) ∧
      t = s.setPhase i link (.relaying { relay with result := some (.ok ()) }) := by
  have hcancelled : s.isCancelled link = tunnel.cancelled := by
    unfold State.isCancelled
    rw [ht, Option.any_some]
  have hstop : Relay.next endpoints relay .cancelled =
      some (.returned none (.ok ()), { relay with result := some (.ok ()) }) := by
    unfold Relay.next
    rw [hrunning]
    rfl
  have hnext : next s (.relay i .cancelled) =
      if s.isCancelled link then
        some (.relayed i (.returned none (.ok ())),
          s.setPhase i link (.relaying { relay with result := some (.ok ()) }))
      else none := by
    simp only [next, hlink, Option.bind_some, hphase, relayNext, hstop, Option.map_some]
  refine ⟨?_, fun o t hstep ↦ ?_⟩
  · show _ ↔ ¬ s.Lists link.tunnel tunnel ∨ _
    rw [hnext, ← cancelled_iff h ht, ← hcancelled]
    cases s.isCancelled link <;> simp
  · rw [hnext, Option.ite_none_right_eq_some, Option.some.injEq, Prod.mk.injEq] at hstep
    exact ⟨hstep.2.1.symm, hstep.2.2.symm⟩


-- After its tunnel has been closed a connection can be stopped.
theorem stopped_with_its_tunnel_sample : ∃ tr s, Run next .empty tr s ∧
    s.connections.lookup sampleKey ≠ some 0 ∧ (next s (.relay 0 .cancelled)).isSome = true := by
  obtain ⟨tr, s, hrun, hp⟩ := exists_run next .empty (sampleLinks ++ [.closeTunnel sampleClose])
    (fun _ s ↦ s.connections.lookup sampleKey = none && (s.tunnels 0).any fun tunnel ↦
      tunnel.config.localAddr = sampleKey && (s.links 0).any fun link ↦
        link.tunnel = 0 && link.phase.relayState.any fun relay ↦ relay.result.isNone)
    (by decide +kernel)
  simp only [Bool.and_eq_true, decide_eq_true_eq, Option.any_eq_true] at hp
  obtain ⟨hnone, tunnel, ht, hkey, link, hlink, hown, relay, hphase, hrunning⟩ := hp
  have hgone : s.connections.lookup sampleKey ≠ some 0 := by
    rw [hnone]
    exact fun h ↦ by cases h
  rw [← hown] at ht
  refine ⟨tr, s, hrun, hgone, (stopped_with_its_tunnel hrun hlink
    (Phase.relayState_eq hphase) (Option.isNone_iff_eq_none.mp hrunning) ht).1.mpr (.inl ?_)⟩
  rw [hkey, hown]
  exact hgone

end LabStreamGate.Daemon.Pool
