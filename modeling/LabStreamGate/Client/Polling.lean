import LabStreamGate.Client.Session
import LabStreamGate.Library.Counting
import Mathlib.Data.List.Chain

/-!
# What the client polls and tells

However calls of `connect` and ticks overlap: the interval that runs, what the callbacks of the
state hear, and which ticks sync.
-/

namespace LabStreamGate.Client.Session

open Function

variable {js : Coercion} {s t : State} {a : Action} {o : Out} {tr : List (Event State Action Out)}
  {id : Nat} {state : WsrxState}

/-! ## Intervals -/

/-- Only the interval that the client has last started is running. -/
def State.One (s : State) : Prop :=
  ∀ id, s.running id = true → s.interval = some id

theorem State.One.clear (h : s.One) (id : Nat) : s.clear.running id = false := by
  unfold State.clear
  cases hinterval : s.interval with
  | none =>
    refine Bool.eq_false_iff.mpr fun hrunning ↦ ?_
    rw [h id hrunning] at hinterval
    cases hinterval
  | some last =>
    dsimp only
    by_cases hid : id = last
    · rw [hid, update_self]
    · rw [update_of_ne hid]
      refine Bool.eq_false_iff.mpr fun hrunning ↦ hid ?_
      rw [h id hrunning] at hinterval
      exact Option.some.inj hinterval

theorem State.One.tick (h : s.One) (id : Nat) :
    s.tick.running id = true ↔ id = s.nextInterval := by
  unfold State.tick
  dsimp only
  by_cases hid : id = s.nextInterval
  · rw [hid, update_self]
    exact iff_of_true rfl rfl
  · rw [update_of_ne hid, h.clear id]
    exact iff_of_false Bool.false_ne_true hid

/-- Whether a step starts the interval `id`, and whether it ends the one there is. -/
def startsInterval (id : Nat) (e : Event State Action Out) : Prop := e.out.did = .started id

def EndsInterval (e : Event State Action Out) : Prop :=
  e.out.did = .cleared ∨ ∃ id, e.out.did = .started id

theorem Advances.did {a : Action} {c : Nat} {did : Did} {connecting : Option Connecting}
    (h : Advances js s a c did state connecting) :
    did ≠ .cleared ∧ did ≠ .syncs ∧ did ≠ .ticked ∧ (∀ id, did ≠ .started id) ∧
      ∀ id, did ≠ .registered id := by
  cases h <;> simp

/-- What a step does to the intervals. -/
theorem Moved.intervals (hm : Moved js s a o t) (h : s.One) : t.One ∧
    ((t.running = s.running ∧ o.did ≠ .cleared ∧ ∀ id, o.did ≠ .started id) ∨
      (o.did = .cleared ∧ ∀ id, t.running id = false) ∨
      ∃ id, o.did = .started id ∧ ∀ id', t.running id' = true ↔ id' = id) := by
  cases hm with
  | connect hadvances =>
    obtain ⟨hcleared, -, -, hstarted, -⟩ := hadvances.did
    exact ⟨h, .inl ⟨rfl, hcleared, hstarted⟩⟩
  | started _ =>
    refine ⟨fun id hrunning ↦ ?_, .inr (.inr ⟨s.nextInterval, rfl, fun id ↦ h.tick id⟩)⟩
    rw [(h.tick id).mp hrunning]
    rfl
  | cleared _ _ =>
    refine ⟨fun id hrunning ↦ ?_, .inr (.inl ⟨rfl, fun id ↦ h.clear id⟩)⟩
    exact absurd hrunning (Bool.eq_false_iff.mp (h.clear id))
  | _ => exact ⟨h, .inl ⟨rfl, by simp, by simp⟩⟩

/-- However calls of `connect` overlap, at most one interval runs at a time, and an interval runs if
and only if it was started, none was started after it and no callback has found the client invalid
since. -/
theorem one_interval (h : Run (next js) start tr s) :
    (∀ id id', s.running id = true → s.running id' = true → id = id') ∧
    ∀ id, s.running id = true ↔
      Once (startsInterval id) (fun later ↦ ∀ e ∈ later, ¬ EndsInterval e) tr := by
  have hend : s.One ∧ ∀ id, s.running id = true ↔
      Once (startsInterval id) (fun later ↦ ∀ e ∈ later, ¬ EndsInterval e) tr := by
    refine h.history (P := fun l v ↦ v.One ∧ ∀ id, v.running id = true ↔
      Once (startsInterval id) (fun later ↦ ∀ e ∈ later, ¬ EndsInterval e) l) (C := fun _ ↦ True)
      ⟨fun _ hrunning ↦ absurd hrunning Bool.false_ne_true, fun id ↦ ?_⟩ ?_ fun _ _ ↦ trivial
    · refine iff_of_false Bool.false_ne_true ?_
      rintro ⟨l₁, e, l₂, hnil, -⟩
      cases l₁ <;> cases hnil
    rintro l v a o w ⟨hone, hbefore⟩ - hnext
    obtain ⟨hone', hcases⟩ := (next_moved hnext).intervals hone
    refine ⟨hone', fun id ↦ ?_⟩
    rw [Once.snoc_iff, startsInterval, EndsInterval]
    rcases hcases with ⟨hsame, hcleared, hstarted⟩ | ⟨hcleared, hnone⟩ | ⟨id', hstarted, hrunning⟩
    · have hquiet : ¬ (o.did = .cleared ∨ ∃ id, o.did = .started id) := by
        rintro (hc | ⟨id', hs⟩)
        · exact hcleared hc
        · exact hstarted id' hs
      rw [hsame, hbefore id]
      exact ⟨fun hb ↦ .inr ⟨hb, hquiet⟩, fun hafter ↦ (hafter.resolve_left (hstarted id)).1⟩
    · refine iff_of_false (Bool.eq_false_iff.mp (hnone id)) ?_
      rintro (hs | ⟨-, hquiet⟩)
      · rw [hcleared] at hs
        cases hs
      · exact hquiet (.inl hcleared)
    · rw [hrunning id, hstarted]
      constructor
      · intro hid
        exact .inl (congrArg Did.started hid.symm)
      · rintro (hs | ⟨-, hquiet⟩)
        · exact (Did.started.inj hs).symm
        · exact absurd (.inr ⟨id', rfl⟩) hquiet
  refine ⟨fun id id' hid hid' ↦ ?_, hend.2⟩
  exact Option.some.inj ((hend.1 id hid).symm.trans (hend.1 id' hid'))

-- The second call clears the interval of the first one.
theorem one_interval_sample : ∃ tr s, Run (next sampleJs) start tr s ∧ s.running 1 = true ∧
    Once (startsInterval 1) (fun later ↦ ∀ e ∈ later, ¬ EndsInterval e) tr := by
  obtain ⟨tr, s, hrun, hp⟩ := exists_run (next sampleJs) start (sampleConnect 0 ++ sampleConnect 1)
    (fun _ s ↦ s.running 1) (by decide)
  exact ⟨tr, s, hrun, hp, ((one_interval hrun).2 1).mp hp⟩

/-! ## Callbacks of the state -/

/-- What a callback is told in a step. -/
def Out.heard (id : Nat) (o : Out) : List WsrxState := (o.told.filter (·.1 = id)).map Prod.snd

/-- What a callback is told in a trace, in order. -/
def heard (id : Nat) (tr : List (Event State Action Out)) : List WsrxState :=
  tr.flatMap fun e ↦ e.out.heard id

theorem heard_snoc {e : Event State Action Out} : heard id (tr ++ [e]) =
    heard id tr ++ e.out.heard id := by
  unfold heard
  rw [List.flatMap_append, List.flatMap_singleton]

/-- The numbers of the callbacks. -/
structure State.Named (s : State) : Prop where
  nodup : s.onStateChangeCallbacks.Nodup
  lt : ∀ id ∈ s.onStateChangeCallbacks, id < s.nextCallback

theorem State.Named.heard_told (h : s.Named) (id : Nat) (state : WsrxState) (did : Did) :
    Out.heard id ⟨s.told state, did⟩ =
      if s.state ≠ state ∧ id ∈ s.onStateChangeCallbacks then [state] else [] := by
  unfold Out.heard State.told
  dsimp only
  by_cases hstate : s.state = state
  · rw [if_pos hstate, if_neg fun hne ↦ hne.1 hstate]
    rfl
  · have hone : s.onStateChangeCallbacks.filter (fun i ↦ decide (i = id)) =
        if id ∈ s.onStateChangeCallbacks then [id] else [] := by
      rw [List.filter_eq, h.nodup.count]
      split <;> rfl
    rw [if_neg hstate, List.filter_map, List.map_map]
    show (s.onStateChangeCallbacks.filter fun i ↦ decide (i = id)).map (fun _ ↦ state) = _
    rw [hone]
    by_cases hid : id ∈ s.onStateChangeCallbacks
    · rw [if_pos hid, if_pos ⟨hstate, hid⟩]
      rfl
    · rw [if_neg hid, if_neg fun hne ↦ hid hne.2]
      rfl


/-- What a step does to the callbacks there are. -/
theorem Moved.registers (hm : Moved js s a o t) :
    (a = .onStateChange ∧ o.did = .registered s.nextCallback ∧ t.state = s.state ∧
      t.nextCallback = s.nextCallback + 1 ∧
      t.onStateChangeCallbacks = s.onStateChangeCallbacks ++ [s.nextCallback]) ∨
    ((∀ id, o.did ≠ .registered id) ∧ t.nextCallback = s.nextCallback ∧
      (t.onStateChangeCallbacks = s.onStateChangeCallbacks ∧ (∀ id, a ≠ .offStateChange id) ∨
        ∃ id, a = .offStateChange id ∧
          t.onStateChangeCallbacks = s.onStateChangeCallbacks.filter (· ≠ id))) := by
  cases hm with
  | register => exact .inl ⟨rfl, rfl, rfl, rfl, rfl⟩
  | unregister => exact .inr ⟨by simp, rfl, .inr ⟨_, rfl, rfl⟩⟩
  | connect hadvances =>
    refine .inr ⟨hadvances.did.2.2.2.2, rfl, .inl ⟨rfl, fun id ↦ ?_⟩⟩
    cases hadvances <;> simp
  | started _ =>
    refine .inr ⟨by simp, ?_, .inl ⟨?_, by simp⟩⟩ <;> rw [State.tick_eq] <;> rfl
  | cleared _ _ =>
    refine .inr ⟨by simp, ?_, .inl ⟨?_, by simp⟩⟩ <;> rw [State.clear_eq] <;> rfl
  | _ => exact .inr ⟨by simp, rfl, .inl ⟨rfl, by simp⟩⟩

theorem Moved.nextCallback_le (hm : Moved js s a o t) : s.nextCallback ≤ t.nextCallback := by
  rcases hm.registers with ⟨-, -, -, hn, -⟩ | ⟨-, hn, -⟩ <;> omega

theorem Moved.named (hm : Moved js s a o t) (h : s.Named) : t.Named := by
  rcases hm.registers with ⟨-, -, -, hnext, hcallbacks⟩ | ⟨-, hnext, ⟨hsame, -⟩ | ⟨id, -, hfilter⟩⟩
  · refine ⟨?_, fun id hid ↦ ?_⟩
    · rw [hcallbacks, ← List.concat_eq_append]
      exact h.nodup.concat fun hmem ↦ Nat.lt_irrefl _ (h.lt _ hmem)
    · rw [hcallbacks, List.mem_append, List.mem_singleton] at hid
      rw [hnext]
      rcases hid with hid | rfl
      · exact Nat.lt_succ_of_lt (h.lt id hid)
      · exact Nat.lt_succ_self _
  · refine ⟨hsame ▸ h.nodup, fun id hid ↦ ?_⟩
    rw [hsame] at hid
    exact hnext ▸ h.lt id hid
  · refine ⟨hfilter ▸ h.nodup.filter _, fun id' hid ↦ ?_⟩
    rw [hfilter] at hid
    exact hnext ▸ h.lt id' (List.mem_of_mem_filter hid)

/-- Exactly the callbacks that are registered hear of a change, and only of a change. -/
theorem Moved.hears (hm : Moved js s a o t) (h : s.Named) (id : Nat) :
    o.heard id = if s.state ≠ t.state ∧ id ∈ s.onStateChangeCallbacks then [t.state] else [] := by
  have hquiet : ∀ {did} {t : State}, t.state = s.state → Out.heard id ⟨[], did⟩ =
      if s.state ≠ t.state ∧ id ∈ s.onStateChangeCallbacks then [t.state] else [] := by
    intro did t hstate
    rw [if_neg fun hne ↦ hne.1 hstate.symm]
    rfl
  cases hm with
  | connect _ => exact h.heard_told id _ _
  | tickChecked _ => exact h.heard_told id _ _
  | started _ => exact hquiet (by rw [State.tick_eq]; rfl)
  | cleared _ _ => exact hquiet (by rw [State.clear_eq]; rfl)
  | _ => exact hquiet rfl

theorem named_start : start.Named := ⟨List.nodup_nil, fun _ hid ↦ by cases hid⟩

theorem named (h : Run (next js) start tr s) : s.Named :=
  h.invariant (C := fun _ ↦ True) named_start
    (fun _ _ _ _ hi _ hnext ↦ (next_moved hnext).named hi) fun _ _ ↦ trivial

-- The number of a callback is not used before the callback is registered.
theorem heard_before (h : Run (next js) start tr s) (hid : s.nextCallback ≤ id) :
    heard id tr = [] := by
  refine (h.history (P := fun l v ↦ v.Named ∧ ∀ id, v.nextCallback ≤ id → heard id l = [])
    (C := fun _ ↦ True) ⟨named_start, fun _ _ ↦ rfl⟩ ?_ fun _ _ ↦ trivial).2 id hid
  rintro l v a o w ⟨hv, hbefore⟩ - hnext
  have hm := next_moved hnext
  refine ⟨hm.named hv, fun id hid ↦ ?_⟩
  have hle : v.nextCallback ≤ id := by
    rcases hm.registers with ⟨-, -, -, hn, -⟩ | ⟨-, hn, -⟩ <;> omega
  have hnot : id ∉ v.onStateChangeCallbacks := fun hmem ↦ Nat.not_lt.mpr hle (hv.lt id hmem)
  rw [heard_snoc, hbefore id hle, hm.hears hv, if_neg fun hne ↦ hnot hne.2]
  rfl

-- While it is registered a callback is up to date.
theorem heard_while (h : Run (next js) s tr t) (hs : s.Named)
    (hid : id ∈ s.onStateChangeCallbacks) (hstays : ∀ e ∈ tr, e.act ≠ .offStateChange id) :
    List.IsChain (· ≠ ·) (s.state :: heard id tr) ∧
      (s.state :: heard id tr).getLast? = some t.state := by
  refine (h.history (P := fun l v ↦ (v.Named ∧ id ∈ v.onStateChangeCallbacks) ∧
    List.IsChain (· ≠ ·) (s.state :: heard id l) ∧
      (s.state :: heard id l).getLast? = some v.state) (C := fun e ↦ e.act ≠ .offStateChange id)
    ⟨⟨hs, hid⟩, List.IsChain.singleton _, rfl⟩ ?_ hstays).2
  rintro l v a o w ⟨⟨hv, hmem⟩, hchain, hlast⟩ hnot hnext
  have hm := next_moved hnext
  have hmem' : id ∈ w.onStateChangeCallbacks := by
    rcases hm.registers with ⟨-, -, -, -, hcallbacks⟩ | ⟨-, -, ⟨hsame, -⟩ | ⟨id', rfl, hfilter⟩⟩
    · rw [hcallbacks]
      exact List.mem_append_left _ hmem
    · exact hsame ▸ hmem
    · rw [hfilter, List.mem_filter, decide_eq_true_eq]
      exact ⟨hmem, fun heq ↦ hnot (congrArg Action.offStateChange heq.symm)⟩
  refine ⟨⟨hm.named hv, hmem'⟩, ?_⟩
  rw [heard_snoc, hm.hears hv, ← List.cons_append]
  by_cases hstate : v.state = w.state
  · rw [if_neg fun hne ↦ hne.1 hstate, List.append_nil, ← hstate]
    exact ⟨hchain, hlast⟩
  · rw [if_pos ⟨hstate, hmem⟩]
    refine ⟨?_, List.getLast?_concat ..⟩
    rw [List.isChain_append]
    refine ⟨hchain, List.IsChain.singleton _, fun x hx y hy ↦ ?_⟩
    rw [hlast] at hx
    cases hx
    cases hy
    exact hstate

-- A callback that has been taken out hears nothing any more.
theorem heard_after (h : Run (next js) s tr t) (hs : s.Named)
    (hid : id ∉ s.onStateChangeCallbacks) (hlt : id < s.nextCallback) : heard id tr = [] := by
  refine (h.history (P := fun l v ↦ (v.Named ∧ id ∉ v.onStateChangeCallbacks ∧
    id < v.nextCallback) ∧ heard id l = []) (C := fun _ ↦ True) ⟨⟨hs, hid, hlt⟩, rfl⟩ ?_
    fun _ _ ↦ trivial).2
  rintro l v a o w ⟨⟨hv, hnot, hlt⟩, hbefore⟩ - hnext
  have hm := next_moved hnext
  refine ⟨⟨hm.named hv, ?_⟩, ?_⟩
  · rcases hm.registers with ⟨-, -, -, hn, hcallbacks⟩ | ⟨-, hn, ⟨hsame, -⟩ | ⟨id', -, hfilter⟩⟩
    · rw [hcallbacks, hn, List.mem_append, List.mem_singleton]
      exact ⟨fun hmem ↦ hmem.elim hnot fun heq ↦ Nat.ne_of_lt hlt heq, Nat.lt_succ_of_lt hlt⟩
    · exact ⟨hsame ▸ hnot, hn ▸ hlt⟩
    · rw [hfilter]
      exact ⟨fun hmem ↦ hnot (List.mem_of_mem_filter hmem), hn ▸ hlt⟩
  · rw [heard_snoc, hbefore, hm.hears hv, if_neg fun hne ↦ hnot hne.2]
    rfl


/-- From the moment at which it is registered a callback hears every change of the state and nothing
else, so that what it has heard last is the state of the client, whatever calls and ticks overlap;
before that, and once it has been taken out, it hears nothing. -/
theorem callbacks_hear_changes {tr₁ tr₂ : List (Event State Action Out)}
    {e : Event State Action Out} (h : Run (next js) start (tr₁ ++ e :: tr₂) s)
    (hregistered : e.out.did = .registered id) :
    heard id tr₁ = [] ∧
    ((∀ x ∈ tr₂, x.act ≠ .offStateChange id) →
      List.IsChain (· ≠ ·) (e.pre.state :: heard id tr₂) ∧
      (e.pre.state :: heard id tr₂).getLast? = some s.state) ∧
    ∀ l₁ x l₂, tr₂ = l₁ ++ x :: l₂ → x.act = .offStateChange id → heard id l₂ = [] := by
  obtain ⟨u, h₁, hnext, h₂⟩ := h.cut
  have hm := next_moved hnext
  have hu : u.Named := hm.named (named h₁)
  obtain ⟨hid, hstate, hcallbacks⟩ : id = e.pre.nextCallback ∧ u.state = e.pre.state ∧
      u.onStateChangeCallbacks = e.pre.onStateChangeCallbacks ++ [e.pre.nextCallback] := by
    rcases hm.registers with ⟨-, hdid, hstate, -, hcallbacks⟩ | ⟨hnone, -⟩
    · rw [hregistered] at hdid
      exact ⟨Did.registered.inj hdid, hstate, hcallbacks⟩
    · exact absurd hregistered (hnone id)
  have hmem : id ∈ u.onStateChangeCallbacks := by
    rw [hcallbacks, hid]
    exact List.mem_append_right _ (List.mem_singleton_self _)
  refine ⟨heard_before h₁ (Nat.le_of_eq hid.symm), fun hstays ↦ ?_, fun l₁ x l₂ htr hoff ↦ ?_⟩
  · rw [← hstate]
    exact heard_while h₂ hu hmem hstays
  · rw [htr] at h₂
    obtain ⟨w, h₃, hnext', h₄⟩ := h₂.cut
    obtain ⟨hx, hlt⟩ : x.pre.Named ∧ id < x.pre.nextCallback := by
      refine h₃.invariant (I := fun v ↦ v.Named ∧ id < v.nextCallback) (C := fun _ ↦ True)
        ⟨hu, hu.lt id hmem⟩ (fun v _ _ w ⟨hv, hlt⟩ _ hn ↦ ?_) fun _ _ ↦ trivial
      exact ⟨(next_moved hn).named hv, Nat.lt_of_lt_of_le hlt (next_moved hn).nextCallback_le⟩
    have hm' := next_moved hnext'
    refine heard_after h₄ (hm'.named hx) ?_ (Nat.lt_of_lt_of_le hlt hm'.nextCallback_le)
    rcases hm'.registers with ⟨hact, -⟩ | ⟨-, -, ⟨-, hnot⟩ | ⟨id', hact, hfilter⟩⟩
    · rw [hoff] at hact
      cases hact
    · exact absurd hoff (hnot id)
    · rw [hoff] at hact
      cases hact
      rw [hfilter, List.mem_filter, decide_eq_true_eq]
      exact fun hmem' ↦ hmem'.2 rfl


-- The client is connected, and then its daemon is gone.
theorem callbacks_hear_changes_sample : ∃ (tr₂ : List (Event State Action Out)) (s : State),
    heard 0 tr₂ = [.usable, .invalid] ∧
    List.IsChain (· ≠ ·) (.invalid :: heard 0 tr₂) ∧
    (WsrxState.invalid :: heard 0 tr₂).getLast? = some s.state := by
  obtain ⟨tr₁, e, tr₂, s, hrun, -, hp⟩ := exists_run_at (next sampleJs) start [] .onStateChange
    (sampleConnect 0 ++ sampleTick 0 0 (.error .other))
    (fun _ e tr₂ _ ↦ e.out.did = .registered 0 && e.pre.state = .invalid &&
      heard 0 tr₂ = [.usable, .invalid] && tr₂.all fun x ↦ match x.act with
        | .offStateChange _ => false
        | _ => true) (by decide)
  simp only [Bool.and_eq_true, decide_eq_true_eq, List.all_eq_true] at hp
  obtain ⟨⟨⟨hregistered, hstate⟩, hheard⟩, hstays⟩ := hp
  obtain ⟨-, hchanges, -⟩ := callbacks_hear_changes hrun hregistered
  rw [hstate] at hchanges
  obtain ⟨hchain, hlast⟩ := hchanges fun x hx hact ↦ by simpa [hact] using hstays x hx
  exact ⟨tr₂, s, hheard, hchain, hlast⟩

/-! ## The counter of the ticks -/

def ticked (e : Event State Action Out) : Bool := e.out.did = .ticked

def syncs (e : Event State Action Out) : Bool := e.out.did = .syncs

/-- A callback of the interval goes on and finds the client usable. -/
def findsUsable (e : Event State Action Out) : Bool :=
  match e.act with
  | .tickResume _ => e.pre.state = .usable
  | _ => false

/-- No callback is under way when the next one comes. -/
def Apart (e : Event State Action Out) : Prop :=
  ∀ interval, e.act = .fire interval → ∀ k, e.pre.ticks k = none

def Ticking.syncing : Option Ticking → Nat
  | some .sync => 1
  | _ => 0

def State.syncing (s : State) : Nat := totalHeld s.nextTick Ticking.syncing s.ticks

/-- What a step does to the ticks. -/
inductive Timed (s : State) : Event State Action Out → State → Prop
  | quiet {e : Event State Action Out} {t : State} : ticked e = false → syncs e = false →
      findsUsable e = false → (∀ id, e.act ≠ .fire id) → t.tickCounter = s.tickCounter →
      t.nextTick = s.nextTick → t.ticks = s.ticks → Timed s e t
  | fire {id : Nat} : Timed s ⟨s, .fire id, ⟨[], .silent⟩⟩ { s with
      ticks := update s.ticks s.nextTick (some .check)
      nextTick := s.nextTick + 1 }
  | moves {e : Event State Action Out} {k : Nat} {ticking : Ticking} {after : Option Ticking}
      {t : State} : s.ticks k = some ticking → ticking ≠ .sync → after ≠ some .sync →
      ticked e = false → syncs e = false → findsUsable e = false → (∀ id, e.act ≠ .fire id) →
      t.tickCounter = s.tickCounter → t.nextTick = s.nextTick →
      t.ticks = update s.ticks k after → Timed s e t
  | syncs {k : Nat} : s.ticks k = some .checked → s.state = .usable → s.tickCounter % 5 = 0 →
      Timed s ⟨s, .tickResume k, ⟨[], .syncs⟩⟩ (s.setTick k (some .sync))
  | skips {k : Nat} : s.ticks k = some .checked → s.state = .usable → s.tickCounter % 5 ≠ 0 →
      Timed s ⟨s, .tickResume k, ⟨[], .ticked⟩⟩ (s.count.setTick k none)
  | synced {k : Nat} : s.ticks k = some .sync →
      Timed s ⟨s, .synced k, ⟨[], .ticked⟩⟩ (s.count.setTick k none)

theorem Moved.timed (hm : Moved js s a o t) : Timed s ⟨s, a, o⟩ t := by
  cases hm with
  | connect hadvances =>
    obtain ⟨-, hsyncs, hticked, -, -⟩ := hadvances.did
    refine .quiet (decide_eq_false hticked) (decide_eq_false hsyncs) ?_ ?_ rfl rfl rfl
    · cases hadvances <;> rfl
    · intro id
      cases hadvances <;> simp
  | started _ =>
    refine .quiet rfl rfl rfl (by simp) ?_ ?_ ?_ <;> rw [State.tick_eq] <;> rfl
  | fire _ => exact .fire
  | tickChecked hk => exact .moves hk (by simp) (by simp) rfl rfl rfl (by simp) rfl rfl rfl
  | @cleared k hk hstate =>
    have husable : decide (s.state = .usable) = false := decide_eq_false (by rw [hstate]; simp)
    have hnone : none ≠ some Ticking.sync := nofun
    refine .moves (k := k) hk (by simp) hnone rfl rfl husable (by simp) ?_ ?_ ?_
      <;> rw [State.clear_eq] <;> rfl
  | waits hk hstate =>
    have husable : decide (s.state = .usable) = false := decide_eq_false (by rw [hstate]; simp)
    exact .moves hk (by simp) (by simp) rfl rfl husable (by simp) rfl rfl rfl
  | syncs hk hstate hcount => exact .syncs hk hstate hcount
  | skips hk hstate hcount => exact .skips hk hstate hcount
  | synced hk => exact .synced hk
  | _ => exact .quiet rfl rfl rfl (by simp) rfl rfl rfl

/-- The counter, and the syncs for the ticks there have been. -/
structure State.Counted (s : State) (tr : List (Event State Action Out)) : Prop where
  below : TasksBelow s.nextTick s.ticks
  counter : s.tickCounter = tr.countP ticked % 5
  enough : (tr.countP ticked + 4) / 5 + s.syncing ≤ tr.countP syncs

theorem Ticking.syncing_eq_zero {ticking : Option Ticking} (h : ticking ≠ some .sync) :
    Ticking.syncing ticking = 0 := by
  cases ticking with
  | none => rfl
  | some ticking => cases ticking <;> first | rfl | exact absurd rfl h

/-- The callback `k` goes from `ticking` to `after`. -/
theorem State.Counted.syncing_update {k : Nat} {ticking after : Option Ticking}
    (h : s.Counted tr) (hk : s.ticks k = ticking) (hsome : ticking ≠ none)
    (hnext : t.nextTick = s.nextTick) (hticks : t.ticks = update s.ticks k after) :
    t.syncing + Ticking.syncing ticking = s.syncing + Ticking.syncing after := by
  have hlt : k < s.nextTick := by
    obtain ⟨x, hx⟩ := Option.ne_none_iff_exists'.mp hsome
    exact h.below.lt (hk.trans hx)
  unfold State.syncing
  rw [hnext, hticks, ← hk]
  exact totalHeld_update hlt


theorem State.Counted.step {e : Event State Action Out} (h : s.Counted tr) (ht : Timed s e t) :
    t.Counted (tr ++ [e]) := by
  obtain ⟨hbelow, hcounter, henough⟩ := id h
  have hpos : ∀ {k ticking}, s.ticks k = some ticking → k < s.nextTick := hbelow.lt
  cases ht with
  | quiet hticked hsyncs _ _ hcount hnext hticks =>
    have hsyncing : t.syncing = s.syncing := by
      unfold syncing
      rw [hnext, hticks]
    refine ⟨hnext ▸ hticks ▸ hbelow, ?_, ?_⟩
    · simpa [hticked, hcount] using hcounter
    · simpa [hticked, hsyncs, hsyncing] using henough
  | fire =>
    refine ⟨hbelow.spawn, ?_, ?_⟩
    · simpa [ticked] using hcounter
    · have hspawn : totalHeld (s.nextTick + 1) Ticking.syncing
          (update s.ticks s.nextTick (some .check)) = s.syncing + 0 := totalHeld_spawn
      simpa [ticked, Session.syncs, syncing, hspawn] using henough
  | @moves _ k ticking after _ hk hne hafter hticked hsyncs _ _ hcount hnext hticks =>
    have hupdate := h.syncing_update hk (by simp) hnext hticks
    rw [Ticking.syncing_eq_zero (by simpa using hne), Ticking.syncing_eq_zero hafter] at hupdate
    refine ⟨hnext ▸ hticks ▸ hbelow.step (hpos hk), ?_, ?_⟩
    · simpa [hticked, hcount] using hcounter
    · simp only [List.countP_append, List.countP_singleton, hticked, hsyncs]
      simp only [Bool.false_eq_true, if_false]
      omega
  | @syncs k hk _ _ =>
    have hupdate := h.syncing_update (t := s.setTick k (some .sync)) hk (by simp) rfl rfl
    refine ⟨hbelow.step (hpos hk), ?_, ?_⟩
    · simpa [ticked, State.setTick] using hcounter
    · simp only [Ticking.syncing] at hupdate
      simp [ticked, Session.syncs]
      omega
  | @skips k hk _ hcount =>
    have hupdate := h.syncing_update (t := s.count.setTick k none) hk (by simp) rfl rfl
    refine ⟨hbelow.step (hpos hk), ?_, ?_⟩
    · simp [ticked, State.count, State.setTick]
      omega
    · simp only [Ticking.syncing] at hupdate
      simp [ticked, Session.syncs]
      omega
  | @synced k hk =>
    have hupdate := h.syncing_update (t := s.count.setTick k none) hk (by simp) rfl rfl
    refine ⟨hbelow.step (hpos hk), ?_, ?_⟩
    · simp [ticked, State.count, State.setTick]
      omega
    · simp only [Ticking.syncing] at hupdate
      simp [ticked, Session.syncs]
      omega


/-- Where the callbacks come one after the other. -/
structure State.Alone (s : State) (tr : List (Event State Action Out)) : Prop where
  one : ∀ k k', s.ticks k ≠ none → s.ticks k' ≠ none → k = k'
  usable : tr.countP findsUsable = tr.countP ticked + s.syncing
  exact : tr.countP syncs = (tr.countP findsUsable + 4) / 5

-- A step of the callback there is leaves it the only one.
theorem State.Alone.update {k : Nat} {ticking : Ticking} {after : Option Ticking}
    (h : s.Alone tr) (hk : s.ticks k = some ticking) (hticks : t.ticks = update s.ticks k after) :
    ∀ k₁ k₂, t.ticks k₁ ≠ none → t.ticks k₂ ≠ none → k₁ = k₂ := by
  have hone : ∀ k₁, t.ticks k₁ ≠ none → k₁ = k := by
    intro k₁ h₁
    by_contra hne
    rw [hticks, update_of_ne hne] at h₁
    exact hne (h.one k₁ k h₁ (by rw [hk]; simp))
  exact fun k₁ k₂ h₁ h₂ ↦ (hone k₁ h₁).trans (hone k₂ h₂).symm

-- The callback that goes on is the only one, so that none syncs.
theorem State.Alone.syncing_eq_zero {k : Nat} (h : s.Alone tr) (hk : s.ticks k = some .checked) :
    s.syncing = 0 := by
  refine totalHeld_eq_zero fun k' ↦ ?_
  by_cases hne : s.ticks k' = none
  · rw [hne]
    rfl
  · rw [h.one k' k hne (by rw [hk]; simp), hk]
    rfl

theorem State.Alone.step {e : Event State Action Out} (h : s.Alone tr) (hcounted : s.Counted tr)
    (he : e.pre = s) (hapart : Apart e) (ht : Timed s e t) : t.Alone (tr ++ [e]) := by
  obtain ⟨hone, husable, hexact⟩ := id h
  have hcounter := hcounted.counter
  cases ht with
  | quiet hticked hsyncs hfinds _ _ hnext hticks =>
    have hsyncing : t.syncing = s.syncing := by
      unfold syncing
      rw [hnext, hticks]
    refine ⟨hticks ▸ hone, ?_, ?_⟩
    · simpa [hticked, hfinds, hsyncing] using husable
    · simpa [hfinds, hsyncs] using hexact
  | @fire id =>
    have hnone : ∀ k, s.ticks k = none := hapart id rfl
    have hspawn : totalHeld (s.nextTick + 1) Ticking.syncing
        (Function.update s.ticks s.nextTick (some .check)) = s.syncing + 0 := totalHeld_spawn
    refine ⟨?_, ?_, ?_⟩
    · have hnew : ∀ k, Function.update s.ticks s.nextTick (some .check) k ≠ none →
          k = s.nextTick := by
        intro k hk
        by_contra hne
        rw [update_of_ne hne] at hk
        exact hk (hnone k)
      exact fun k k' hk hk' ↦ (hnew k hk).trans (hnew k' hk').symm
    · simpa [ticked, findsUsable, syncing, hspawn] using husable
    · simpa [findsUsable, Session.syncs] using hexact
  | @moves _ k ticking after _ hk hne hafter hticked hsyncs hfinds _ _ hnext hticks =>
    have hupdate := hcounted.syncing_update hk (by simp) hnext hticks
    rw [Ticking.syncing_eq_zero (by simpa using hne), Ticking.syncing_eq_zero hafter,
      Nat.add_zero, Nat.add_zero] at hupdate
    refine ⟨h.update hk hticks, ?_, ?_⟩
    · simpa [hticked, hfinds, hupdate] using husable
    · simpa [hfinds, hsyncs] using hexact
  | @syncs k hk hstate hcount =>
    have hupdate := hcounted.syncing_update (t := s.setTick k (some .sync)) hk (by simp) rfl rfl
    have hzero := h.syncing_eq_zero hk
    simp only [Ticking.syncing] at hupdate
    refine ⟨h.update hk rfl, ?_, ?_⟩
    · simp [ticked, findsUsable, hstate]
      omega
    · simp [findsUsable, Session.syncs, hstate]
      omega
  | @skips k hk hstate hcount =>
    have hupdate := hcounted.syncing_update (t := s.count.setTick k none) hk (by simp) rfl rfl
    have hzero := h.syncing_eq_zero hk
    simp only [Ticking.syncing] at hupdate
    have hsame : (s.count.setTick k none).syncing = 0 := by
      have hold : s.syncing = 0 := hzero
      omega
    refine ⟨h.update hk rfl, ?_, ?_⟩
    · simp [ticked, findsUsable, hstate, hsame]
      omega
    · simp [findsUsable, Session.syncs, hstate]
      omega
  | @synced k hk =>
    have hupdate := hcounted.syncing_update (t := s.count.setTick k none) hk (by simp) rfl rfl
    simp only [Ticking.syncing] at hupdate
    refine ⟨h.update hk rfl, ?_, ?_⟩
    · simp [ticked, findsUsable]
      omega
    · simpa [findsUsable, Session.syncs] using hexact

theorem counted_start : start.Counted [] := ⟨.of_none, rfl, Nat.le_refl _⟩

theorem counted (h : Run (next js) start tr s) : s.Counted tr :=
  h.history (P := fun l v ↦ v.Counted l) (C := fun _ ↦ True) counted_start
    (fun _ _ _ _ _ hv _ hnext ↦ hv.step (next_moved hnext).timed) fun _ _ ↦ trivial

/-- A callback that finds the client usable syncs if and only if the number of those that have
finished is a multiple of five; there is never less than one sync for five of them, and where no
callback comes while another one is under way there is exactly one, the first of the five. -/
theorem syncs_every_fifth (h : Run (next js) start tr s) :
    (∀ tr₁ e tr₂, tr = tr₁ ++ e :: tr₂ → findsUsable e = true →
      (e.out.did = .syncs ↔ 5 ∣ tr₁.countP ticked)) ∧
    (tr.countP ticked + 4) / 5 ≤ tr.countP syncs ∧
    ((∀ e ∈ tr, Apart e) → tr.countP syncs = (tr.countP findsUsable + 4) / 5) := by
  refine ⟨?_, ?_, fun hapart ↦ ?_⟩
  · rintro tr₁ ⟨v, a, o⟩ tr₂ htr hfinds
    rw [htr] at h
    obtain ⟨u, hrun, hnext, -⟩ := h.cut
    have hcounter : v.tickCounter = tr₁.countP ticked % 5 := (counted hrun).counter
    cases (next_moved hnext).timed with
    | quiet _ _ hnot _ _ _ _ =>
      rw [hfinds] at hnot
      cases hnot
    | fire => cases hfinds
    | moves _ _ _ _ _ hnot _ _ _ _ =>
      rw [hfinds] at hnot
      cases hnot
    | syncs _ _ hzero =>
      dsimp only at hzero
      rw [hcounter, Nat.mod_mod] at hzero
      exact iff_of_true rfl (Nat.dvd_of_mod_eq_zero hzero)
    | skips _ _ hzero =>
      dsimp only at hzero
      rw [hcounter, Nat.mod_mod] at hzero
      exact iff_of_false (by simp) fun hdvd ↦ hzero (Nat.mod_eq_zero_of_dvd hdvd)
    | synced _ => cases hfinds
  · have henough := (counted h).enough
    omega
  · have hend : s.Counted tr ∧ s.Alone tr := by
      refine h.history (P := fun l v ↦ v.Counted l ∧ v.Alone l) (C := Apart)
        ⟨counted_start, fun k _ hk ↦ absurd rfl hk, rfl, rfl⟩ ?_ hapart
      rintro l v a o w ⟨hcounted, halone⟩ hapart hnext
      have ht := (next_moved hnext).timed
      exact ⟨hcounted.step ht, halone.step hcounted rfl hapart ht⟩
    exact hend.2.exact

/-- A tick that syncs. -/
def sampleSync (k : Nat) : List Action := sampleTick 0 k (.ok 202) ++ [.synced k]

-- Six ticks, of which the first and the last one sync.
theorem syncs_every_fifth_sample : ∃ tr s, Run (next sampleJs) start tr s ∧
    tr.countP findsUsable = 6 ∧ tr.countP syncs = 2 := by
  obtain ⟨tr, s, hrun, hp⟩ := exists_run (next sampleJs) start
    (sampleConnect 0 ++ sampleSync 0 ++ sampleTick 0 1 (.ok 202) ++ sampleTick 0 2 (.ok 202) ++
      sampleTick 0 3 (.ok 202) ++ sampleTick 0 4 (.ok 202) ++ sampleSync 5)
    (fun tr _ ↦ tr.countP findsUsable = 6 && tr.all fun e ↦ match e.act with
      | .fire _ => (List.range e.pre.nextTick).all fun k ↦ (e.pre.ticks k).isNone
      | _ => true) (by decide)
  rw [Bool.and_eq_true, decide_eq_true_eq, List.all_eq_true] at hp
  obtain ⟨husable, hapart⟩ := hp
  have hall : ∀ e ∈ tr, Apart e := by
    intro e he interval hact
    have hnone := hapart e he
    rw [hact] at hnone
    obtain ⟨tr₁, tr₂, rfl⟩ := List.append_of_mem he
    obtain ⟨-, hbefore, -⟩ := hrun.cut
    exact (counted hbefore).below.all_none hnone
  have hsyncs := (syncs_every_fifth hrun).2.2 hall
  rw [husable] at hsyncs
  exact ⟨tr, s, hrun, husable, hsyncs⟩

end LabStreamGate.Client.Session
