import LabStreamGate.Library.Run
import Mathlib.Algebra.Group.Int.Defs
import Mathlib.Algebra.Ring.Nat
import Mathlib.Data.List.Basic

/-!
# The heartbeat of the command-line daemon

The watchdog sleeps for the interval, looks at the time of the last heartbeat and ends the process
if that is too long ago.  The time is set when somebody looks at it first, be it the watchdog.
-/

namespace LabStreamGate.Daemon.Heartbeat

/-- Times are in nanoseconds. -/
def secondNanos : Nat := 1000000000

/-- `interval as i64`. -/
def asI64 (interval : UInt64) : Int :=
  if interval.toNat < 2 ^ 63 then interval.toNat else (interval.toNat : Int) - 2 ^ 64

/-- `num_seconds` of the time from `last` to `now`. -/
def numSeconds (now last : Nat) : Int := ((now : Int) - last).tdiv secondNanos

/-- `since` is when the watchdog went to sleep.  One clock that never goes back stands for that of
the sleep and that of `Utc::now`. -/
structure State where
  heartbeatTime : Option Nat
  since : Nat
  now : Nat
  exited : Bool
  deriving DecidableEq, Repr

def launch (now : Nat) : State := ⟨none, now, now, false⟩

inductive Action
  | pass (time : Nat)
  | updateHeartbeat
  | wake
  deriving DecidableEq, Repr

section

variable (interval : UInt64)

/-- The sleep is over. -/
def State.isDue (s : State) : Bool := s.since + interval.toNat * secondNanos ≤ s.now

/-- The time of the last heartbeat, which is set where it is not. -/
def State.lastHeartbeat (s : State) : Nat := s.heartbeatTime.getD s.now

def State.timedOut (s : State) : Bool := asI64 interval < numSeconds s.now s.lastHeartbeat

def next (s : State) : Action → Option (Unit × State)
  | .pass time => if s.exited then none else some ((), { s with now := s.now + time })
  | .updateHeartbeat =>
    if s.exited then none else some ((), { s with heartbeatTime := some s.now })
  | .wake =>
    if s.exited || !s.isDue interval then none
    else
      some ((), { s with
        heartbeatTime := some s.lastHeartbeat
        since := s.now
        exited := s.timedOut interval })

end

/-! ## One step -/

abbrev Step := Event State Action Unit

variable {interval : UInt64} {s t : State} {a : Action} {e : Step} {tr : List Step}

/-- What an action can come to. -/
inductive Moved (interval : UInt64) (s : State) : Action → State → Prop
  | pass {time : Nat} : s.exited = false → Moved interval s (.pass time)
      { s with now := s.now + time }
  | beat : s.exited = false →
      Moved interval s .updateHeartbeat { s with heartbeatTime := some s.now }
  | wake : s.exited = false → s.since + interval.toNat * secondNanos ≤ s.now →
      Moved interval s .wake { s with
        heartbeatTime := some s.lastHeartbeat
        since := s.now
        exited := s.timedOut interval }

theorem next_moved {o : Unit} (h : next interval s a = some (o, t)) : Moved interval s a t := by
  cases a with
  | pass time =>
    simp only [next, Option.ite_none_left_eq_some, Bool.not_eq_true] at h
    obtain ⟨halive, h⟩ := h
    cases h
    exact .pass halive
  | updateHeartbeat =>
    simp only [next, Option.ite_none_left_eq_some, Bool.not_eq_true] at h
    obtain ⟨halive, h⟩ := h
    cases h
    exact .beat halive
  | wake =>
    simp only [next] at h
    rw [Option.ite_none_left_eq_some, Bool.not_eq_true, Bool.or_eq_false_iff,
      Bool.not_eq_false'] at h
    obtain ⟨⟨halive, hdue⟩, h⟩ := h
    cases h
    rw [State.isDue, decide_eq_true_eq] at hdue
    exact .wake halive hdue

/-! ## What a wake finds -/

/-- The step sets the time or looks at it. -/
def Touches (e : Step) : Prop := e.act = .updateHeartbeat ∨ e.act = .wake

/-- The time is that of the last heartbeat. -/
def Beaten (tr : List Step) (last : Nat) : Prop :=
  (∃ x ∈ tr, x.act = .updateHeartbeat ∧ x.pre.now = last) ∧
    ∀ x ∈ tr, x.act = .updateHeartbeat → x.pre.now ≤ last

/-- There has been no heartbeat, and the time is that of the first wake. -/
def Unbeaten (tr : List Step) (last : Nat) : Prop :=
  (∀ x ∈ tr, x.act ≠ .updateHeartbeat) ∧ (∃ x ∈ tr, x.act = .wake ∧ x.pre.now = last) ∧
    ∀ x ∈ tr, x.act = .wake → last ≤ x.pre.now

/-- What the time stands for. -/
structure Tracked (tr : List Step) (s : State) : Prop where
  past : ∀ x ∈ tr, x.pre.now ≤ s.now
  since : s.since ≤ s.now
  unset : s.heartbeatTime = none → ∀ x ∈ tr, ¬ Touches x
  last : ∀ last, s.heartbeatTime = some last → last ≤ s.now ∧ (Beaten tr last ∨ Unbeaten tr last)

theorem Beaten.snoc {last : Nat} (h : Beaten tr last) (he : e.act ≠ .updateHeartbeat) :
    Beaten (tr ++ [e]) last := by
  obtain ⟨⟨x, hx, hact, hnow⟩, hall⟩ := h
  refine ⟨⟨x, List.mem_append_left _ hx, hact, hnow⟩, fun y hy hact ↦ ?_⟩
  rcases List.mem_append.mp hy with hy | hy
  · exact hall y hy hact
  · rw [List.mem_singleton.mp hy] at hact
    exact absurd hact he

theorem Unbeaten.snoc {last : Nat} (h : Unbeaten tr last) (he : e.act ≠ .updateHeartbeat)
    (hnow : last ≤ e.pre.now) : Unbeaten (tr ++ [e]) last := by
  obtain ⟨hnone, ⟨x, hx, hwake⟩, hall⟩ := h
  refine ⟨fun y hy ↦ ?_, ⟨x, List.mem_append_left _ hx, hwake⟩, fun y hy hact ↦ ?_⟩
  · rcases List.mem_append.mp hy with hy | hy
    · exact hnone y hy
    · rw [List.mem_singleton.mp hy]
      exact he
  · rcases List.mem_append.mp hy with hy | hy
    · exact hall y hy hact
    · rw [List.mem_singleton.mp hy]
      exact hnow

theorem Tracked.past_snoc (h : Tracked tr s) (hpre : e.pre = s) :
    ∀ x ∈ tr ++ [e], x.pre.now ≤ s.now := by
  intro x hx
  rcases List.mem_append.mp hx with hx | hx
  · exact h.past x hx
  · have hnow : x.pre.now = s.now := by rw [List.mem_singleton.mp hx, hpre]
    exact Nat.le_of_eq hnow

-- By cases on the step: it lets time pass, sets the time, or looks at it.
theorem Tracked.step (h : Tracked tr s) (hm : Moved interval s a t) :
    Tracked (tr ++ [⟨s, a, ()⟩]) t := by
  have hpast := h.past_snoc (e := ⟨s, a, ()⟩) rfl
  have hmem : (⟨s, a, ()⟩ : Step) ∈ tr ++ [⟨s, a, ()⟩] :=
    List.mem_append_right _ (List.mem_singleton_self _)
  -- the time that is there stays what it was
  have hkeep : a ≠ .updateHeartbeat → ∀ last, s.heartbeatTime = some last →
      last ≤ s.now ∧ (Beaten (tr ++ [⟨s, a, ()⟩]) last ∨ Unbeaten (tr ++ [⟨s, a, ()⟩]) last) := by
    intro ha last hlast
    obtain ⟨hle, hcase⟩ := h.last last hlast
    exact ⟨hle, hcase.imp (fun hb ↦ hb.snoc ha) fun hu ↦ hu.snoc ha hle⟩
  cases hm with
  | @pass time _ =>
    refine ⟨fun x hx ↦ Nat.le_trans (hpast x hx) (Nat.le_add_right _ _),
      Nat.le_trans h.since (Nat.le_add_right _ _), fun hnone x hx ↦ ?_, fun last hlast ↦ ?_⟩
    · rcases List.mem_append.mp hx with hx | hx
      · exact h.unset hnone x hx
      · rw [List.mem_singleton.mp hx]
        rintro (hact | hact) <;> cases hact
    · obtain ⟨hle, hcase⟩ := hkeep (by simp) last hlast
      exact ⟨Nat.le_trans hle (Nat.le_add_right _ _), hcase⟩
  | beat _ =>
    refine ⟨hpast, h.since, fun hnone ↦ (by cases hnone), fun last hlast ↦ ?_⟩
    cases hlast
    exact ⟨Nat.le_refl _, .inl ⟨⟨_, hmem, rfl, rfl⟩, fun x hx _ ↦ hpast x hx⟩⟩
  | wake _ _ =>
    refine ⟨hpast, Nat.le_refl _, fun hnone ↦ (by cases hnone), fun last hlast ↦ ?_⟩
    cases hlast
    unfold State.lastHeartbeat
    cases htime : s.heartbeatTime with
    | some last => exact hkeep (by simp) last htime
    | none =>
      have hnone := h.unset htime
      refine ⟨Nat.le_refl _, .inr ⟨fun x hx hact ↦ ?_, ⟨_, hmem, rfl, rfl⟩, fun x hx hact ↦ ?_⟩⟩
      · rcases List.mem_append.mp hx with hx | hx
        · exact hnone x hx (.inl hact)
        · rw [List.mem_singleton.mp hx] at hact
          cases hact
      · rcases List.mem_append.mp hx with hx | hx
        · exact absurd (.inr hact) (hnone x hx)
        · rw [List.mem_singleton.mp hx]
          exact Nat.le_refl _

theorem tracked {now : Nat} (h : Run (next interval) (launch now) tr s) : Tracked tr s :=
  h.history (P := Tracked) (C := fun _ ↦ True)
    ⟨fun x hx ↦ (by cases hx), Nat.le_refl _, fun _ x hx ↦ (by cases hx),
      fun last hlast ↦ (by cases hlast)⟩
    (fun _ _ _ _ _ hv _ hnext ↦ hv.step (next_moved hnext)) fun _ _ ↦ trivial

theorem Tracked.lastHeartbeat_le (h : Tracked tr s) : s.lastHeartbeat ≤ s.now := by
  unfold State.lastHeartbeat
  cases htime : s.heartbeatTime with
  | none => exact Nat.le_refl _
  | some last => exact (h.last last htime).1

theorem numSeconds_eq {now last : Nat} (h : last ≤ now) :
    numSeconds now last = ((now - last) / secondNanos : Nat) := by
  unfold numSeconds
  rw [← Int.ofNat_sub h]
  exact (Int.ofNat_tdiv _ _).symm

theorem timedOut_iff (hsmall : interval.toNat < 2 ^ 63) (hle : s.lastHeartbeat ≤ s.now) :
    s.timedOut interval = true ↔ s.lastHeartbeat + (interval.toNat + 1) * secondNanos ≤ s.now := by
  unfold State.timedOut asI64
  rw [if_pos hsmall, decide_eq_true_eq, numSeconds_eq hle, Int.ofNat_lt, Nat.lt_iff_add_one_le,
    Nat.le_div_iff_mul_le (by decide)]
  omega

theorem eq_of_exited (h : Run (next interval) s tr t) (hexited : s.exited = true) :
    tr = [] ∧ t = s := by
  have hstuck : ∀ a, next interval s a = none := by
    intro a
    cases a <;> simp [next, hexited]
  have ht := h.eq_of_stuck hstuck
  cases tr with
  | nil => exact ⟨rfl, ht⟩
  | cons e tr =>
    rw [← List.nil_append (e :: tr)] at h
    obtain ⟨u, hrun, hnext, -⟩ := h.cut
    rw [hrun.nil_inv, hstuck] at hnext
    cases hnext

/-- The watchdog ends the process at a wake if and only if every heartbeat there has been is more
than the interval, and a full second, ago, and somebody has looked at the time that long ago; the
run then ends. -/
theorem exits_when_stale {now : Nat} {tr₁ tr₂ : List Step} (hsmall : interval.toNat < 2 ^ 63)
    (h : Run (next interval) (launch now) (tr₁ ++ e :: tr₂) s) (hwake : e.act = .wake) :
    (s.exited = true ∧ tr₂ = []) ↔
      (∀ x ∈ tr₁, x.act = .updateHeartbeat →
        x.pre.now + (interval.toNat + 1) * secondNanos ≤ e.pre.now) ∧
      ∃ x ∈ tr₁, Touches x ∧ x.pre.now + (interval.toNat + 1) * secondNanos ≤ e.pre.now := by
  obtain ⟨u, h₁, hnext, h₂⟩ := h.cut
  obtain ⟨v, a, o⟩ := e
  dsimp only at hwake h₁ hnext ⊢
  subst hwake
  have htracked := tracked h₁
  have hexited : u.exited = v.timedOut interval := by
    cases next_moved hnext
    rfl
  have hends : (s.exited = true ∧ tr₂ = []) ↔ v.timedOut interval = true := by
    rw [← hexited]
    constructor
    · rintro ⟨hs, rfl⟩
      rw [← h₂.nil_inv]
      exact hs
    · intro hu
      obtain ⟨hnil, hsame⟩ := eq_of_exited h₂ hu
      exact ⟨hsame ▸ hu, hnil⟩
  rw [hends, timedOut_iff hsmall htracked.lastHeartbeat_le]
  unfold State.lastHeartbeat
  cases htime : v.heartbeatTime with
  | none =>
    refine iff_of_false ?_ fun ⟨_, x, hx, htouches, _⟩ ↦ htracked.unset htime x hx htouches
    have hpos : 0 < secondNanos := by decide
    rw [Option.getD_none, Nat.add_mul]
    omega
  | some last =>
    rw [Option.getD_some]
    obtain ⟨-, ⟨⟨x, hx, hact, hnow⟩, hbeats⟩ | ⟨hnone, ⟨x, hx, hact, hnow⟩, hfirst⟩⟩ :=
      htracked.last last htime
    · constructor
      · intro hle
        exact ⟨fun y hy hy' ↦ Nat.le_trans (Nat.add_le_add_right (hbeats y hy hy') _) hle, x, hx,
          .inl hact, hnow.symm ▸ hle⟩
      · intro hold
        exact hnow ▸ hold.1 x hx hact
    · constructor
      · intro hle
        exact ⟨fun y hy hy' ↦ absurd hy' (hnone y hy), x, hx, .inr hact, hnow.symm ▸ hle⟩
      · rintro ⟨-, y, hy, htouches, hold⟩
        have hle := hfirst y hy (htouches.resolve_left (hnone y hy))
        exact Nat.le_trans (Nat.add_le_add_right hle _) hold

-- Nobody has looked at the time for more than two seconds.
theorem exits_when_stale_sample : ∃ (tr : List Step) (s : State), s.exited = true ∧
    ∀ x ∈ tr, x.act = .updateHeartbeat → x.pre.now + 2 * secondNanos ≤ s.now := by
  obtain ⟨tr₁, e, tr₂, s, hrun, hact, hp⟩ := exists_run_at (next 1) (launch 0)
    [.updateHeartbeat, .pass (3 * secondNanos)] .wake []
    (fun tr₁ e tr₂ s ↦ s.exited && tr₂.isEmpty && e.pre.now = s.now) (by decide)
  simp only [Bool.and_eq_true, decide_eq_true_eq, List.isEmpty_iff] at hp
  obtain ⟨⟨hexited, hnil⟩, hnow⟩ := hp
  obtain ⟨hbeats, -⟩ := (exits_when_stale (by decide) hrun hact).mp ⟨hexited, hnil⟩
  exact ⟨tr₁, s, hexited, hnow ▸ hbeats⟩

/-! ## Without heartbeats -/

def isWake (e : Step) : Bool := e.act = .wake

/-- Where the watchdog stands after a number of wakes without a heartbeat between them. -/
def Waits (interval : UInt64) : Nat → State → Prop
  | 0, _ => True
  | 1, s => s.exited = false → ∃ last, s.heartbeatTime = some last ∧ last ≤ s.since
  | 2, s => s.exited = false → ∃ last, s.heartbeatTime = some last ∧
      last + interval.toNat * secondNanos ≤ s.since
  | 3, s => s.exited = true
  | _, _ => False

theorem Waits.pass {wakes time : Nat} (h : Waits interval wakes s) :
    Waits interval wakes { s with now := s.now + time } := by
  match wakes with
  | 0 => exact trivial
  | 1 => exact h
  | 2 => exact h
  | 3 => exact h
  | wakes + 4 => exact h

-- An interval that is negative as an `i64` is over at once.
theorem timedOut_of_le {last : Nat} (htime : s.heartbeatTime = some last)
    (hinterval : 0 < interval.toNat)
    (hle : last + 2 * (interval.toNat * secondNanos) ≤ s.now) : s.timedOut interval = true := by
  have hlast : s.lastHeartbeat = last := by rw [State.lastHeartbeat, htime, Option.getD_some]
  by_cases hsmall : interval.toNat < 2 ^ 63
  · rw [timedOut_iff hsmall (by omega), hlast, Nat.add_mul]
    have hone : secondNanos ≤ interval.toNat * secondNanos := Nat.le_mul_of_pos_left _ hinterval
    omega
  · have hlt := interval.toNat_lt
    unfold State.timedOut asI64
    rw [if_neg hsmall, decide_eq_true_eq, numSeconds_eq (by omega)]
    generalize (s.now - s.lastHeartbeat) / secondNanos = seconds
    omega

theorem Waits.wake {wakes : Nat} (h : Waits interval wakes s) (halive : s.exited = false)
    (hdue : s.since + interval.toNat * secondNanos ≤ s.now) (hinterval : 0 < interval.toNat)
    (hle : s.lastHeartbeat ≤ s.now) (hm : Moved interval s .wake t) :
    Waits interval (wakes + 1) t := by
  cases hm with
  | wake _ _ =>
    match wakes with
    | 0 => exact fun _ ↦ ⟨_, rfl, hle⟩
    | 1 =>
      obtain ⟨last, htime, hlast⟩ := h halive
      refine fun _ ↦ ⟨last, ?_, ?_⟩
      · show some s.lastHeartbeat = some last
        rw [State.lastHeartbeat, htime, Option.getD_some]
      · show last + interval.toNat * secondNanos ≤ s.now
        omega
    | 2 =>
      obtain ⟨last, htime, hlast⟩ := h halive
      exact timedOut_of_le htime hinterval (by omega)
    | 3 =>
      rw [h] at halive
      cases halive
    | wakes + 4 => exact h

/-- Without a heartbeat the watchdog wakes at most three times, and the third wake ends the process,
from whatever the daemon has come to before. -/
theorem exits_by_third_wake {now : Nat} {tr₁ tr₂ : List Step} (hinterval : 0 < interval.toNat)
    (h : Run (next interval) (launch now) (tr₁ ++ tr₂) s)
    (hquiet : ∀ x ∈ tr₂, x.act ≠ .updateHeartbeat) :
    tr₂.countP isWake ≤ 3 ∧ (tr₂.countP isWake = 3 → s.exited = true) := by
  obtain ⟨u, h₁, h₂⟩ := h.split
  have hend : Tracked (tr₁ ++ tr₂) s ∧ Waits interval (tr₂.countP isWake) s := by
    refine h₂.history (P := fun l v ↦ Tracked (tr₁ ++ l) v ∧ Waits interval (l.countP isWake) v)
      (C := fun x ↦ x.act ≠ .updateHeartbeat) ?_ ?_ hquiet
    · rw [List.append_nil]
      exact ⟨tracked h₁, trivial⟩
    · rintro l v a o w ⟨htracked, hwaits⟩ hbeat hnext
      have hm := next_moved hnext
      rw [← List.append_assoc]
      refine ⟨htracked.step hm, ?_⟩
      rw [List.countP_append, List.countP_singleton]
      cases a with
      | pass time =>
        cases hm with
        | pass _ => exact hwaits.pass
      | updateHeartbeat => exact absurd rfl hbeat
      | wake =>
        cases id hm with
        | wake halive hdue =>
          exact hwaits.wake halive hdue hinterval htracked.lastHeartbeat_le hm
  generalize tr₂.countP isWake = wakes at hend
  obtain ⟨-, hwaits⟩ := hend
  match wakes with
  | 0 | 1 | 2 => exact ⟨by omega, fun heq ↦ by omega⟩
  | 3 => exact ⟨Nat.le_refl _, fun _ ↦ hwaits⟩
  | wakes + 4 => exact hwaits.elim

-- The first wake sets the time, the second one comes too early, and the third one ends the process.
theorem exits_by_third_wake_sample : ∃ tr s, Run (next 1) (launch 0) tr s ∧ s.exited = true := by
  obtain ⟨tr, s, hrun, hp⟩ := exists_run (next 1) (launch 0)
    [.pass secondNanos, .wake, .pass secondNanos, .wake, .pass secondNanos, .wake]
    (fun tr _ ↦ tr.countP isWake = 3 && tr.all fun x ↦ x.act ≠ .updateHeartbeat) (by decide)
  simp only [Bool.and_eq_true, decide_eq_true_eq, List.all_eq_true] at hp
  have hstart : Run (next 1) (launch 0) ([] ++ tr) s := hrun
  exact ⟨tr, s, hrun, (exits_by_third_wake (by decide) hstart hp.2).2 hp.1⟩

end LabStreamGate.Daemon.Heartbeat
