import LabStreamGate.Library.Http
import LabStreamGate.Library.Run
import Mathlib.Data.List.Nodup

/-!
# The origin lists of the command-line daemon

A website asks to use the daemon and is put on the pending list; the user's answer moves it to the
allowed list or takes it off both.  Every handler holds the locks of the lists it uses to its end,
so that each request is one step.
-/

namespace LabStreamGate.Daemon

/-- `ALLOWED_ORIGINS` and `PENDING_ORIGINS`. -/
structure Origins where
  allowed : List String
  pending : List String
  deriving DecidableEq, Repr

def Origins.empty : Origins := ⟨[], []⟩

inductive OriginRequest
  | getOrigins
  | addAllowedOrigin (req : String)
  | removeAllowedOrigin (req : String)
  | getCorsStatus (origin : Option HeaderValue)
  | addPendingOrigin (req : String)
  deriving DecidableEq, Repr

inductive OriginAnswer
  | status (code : StatusCode)
  | originResponse (allowed pending : List String)
  deriving DecidableEq, Repr

/-- Pushes without looking, so that an origin may be on the list more than once. -/
def addAllowedOrigin (s : Origins) (req : String) : StatusCode × Origins :=
  let waitlist := if s.pending.contains req then s.pending.filter (· != req) else s.pending
  (.ok, ⟨s.allowed ++ [req], waitlist⟩)

def removeAllowedOrigin (s : Origins) (req : String) : StatusCode × Origins :=
  let waitlist := if s.pending.contains req then s.pending.filter (· != req) else s.pending
  (.ok, ⟨s.allowed.filter (· != req), waitlist⟩)

def addPendingOrigin (s : Origins) (req : String) : StatusCode × Origins :=
  if s.allowed.contains req then (.accepted, s)
  else if s.pending.contains req then (.created, s)
  else (.created, { s with pending := s.pending ++ [req] })

/-- The text of an `Origin` header, empty where it is not text. -/
def originText (value : HeaderValue) : String := value.toStr.getD ""

def getCorsStatus (s : Origins) (origin : Option HeaderValue) : StatusCode :=
  match origin.map originText with
  | some origin =>
    if s.allowed.contains origin then .accepted
    else if s.pending.contains origin then .created
    else .forbidden
  | none => .accepted

def next (s : Origins) : OriginRequest → Option (OriginAnswer × Origins)
  | .getOrigins => some (.originResponse s.allowed s.pending, s)
  | .addAllowedOrigin req => some (.status (addAllowedOrigin s req).1, (addAllowedOrigin s req).2)
  | .removeAllowedOrigin req => some (.status (removeAllowedOrigin s req).1, (removeAllowedOrigin s req).2)
  | .getCorsStatus origin => some (.status (getCorsStatus s origin), s)
  | .addPendingOrigin req => some (.status (addPendingOrigin s req).1, (addPendingOrigin s req).2)

variable {s t : Origins} {a : OriginRequest} {out : OriginAnswer} {o : String}
  {tr : List (Event Origins OriginRequest OriginAnswer)}

/-! ## What one request does to one origin -/

theorem mem_waitlist {waitlist : List String} {req : String} :
    o ∈ (if waitlist.contains req then waitlist.filter (· != req) else waitlist) ↔
      o ∈ waitlist ∧ o ≠ req := by
  split
  case isTrue => simp
  case isFalse habsent =>
    rw [List.contains_iff_mem] at habsent
    exact ⟨fun ho ↦ ⟨ho, fun heq ↦ habsent (heq ▸ ho)⟩, And.left⟩

theorem addPendingOrigin_allowed {req : String} :
    (addPendingOrigin s req).2.allowed = s.allowed := by
  unfold addPendingOrigin
  split_ifs <;> rfl

theorem mem_addPendingOrigin {req : String} : o ∈ (addPendingOrigin s req).2.pending ↔
    (req = o ∧ o ∉ s.allowed) ∨ o ∈ s.pending := by
  unfold addPendingOrigin
  split_ifs with hallowed hpending
  · rw [List.contains_iff_mem] at hallowed
    exact ⟨.inr, fun h ↦ h.elim (fun h ↦ absurd (h.1 ▸ hallowed) h.2) (fun h ↦ h)⟩
  · rw [List.contains_iff_mem] at hpending
    exact ⟨.inr, fun h ↦ h.elim (fun h ↦ h.1 ▸ hpending) (fun h ↦ h)⟩
  · rw [List.contains_iff_mem] at hallowed
    rw [List.mem_append, List.mem_singleton, or_comm]
    exact or_congr_left ⟨fun h ↦ ⟨h.symm, h ▸ hallowed⟩, fun h ↦ h.1.symm⟩

/-- Only `removeAllowedOrigin` takes an allowed origin off, and it takes all copies. -/
theorem mem_allowed_next (h : next s a = some (out, t)) : o ∈ t.allowed ↔
    a = .addAllowedOrigin o ∨ o ∈ s.allowed ∧ a ≠ .removeAllowedOrigin o := by
  cases a with
  | addAllowedOrigin req =>
    cases h
    show o ∈ s.allowed ++ [req] ↔ _
    simp [or_comm, eq_comm]
  | removeAllowedOrigin req =>
    cases h
    show o ∈ s.allowed.filter (· != req) ↔ _
    simp [@eq_comm _ o req]
  | addPendingOrigin req =>
    cases h
    rw [addPendingOrigin_allowed]
    simp
  | _ =>
    cases h
    simp

/-- An origin is put on the pending list only where it is not allowed. -/
theorem mem_pending_next (h : next s a = some (out, t)) : o ∈ t.pending ↔
    (a = .addPendingOrigin o ∧ o ∉ s.allowed) ∨
      o ∈ s.pending ∧ a ≠ .addAllowedOrigin o ∧ a ≠ .removeAllowedOrigin o := by
  cases a with
  | addAllowedOrigin req =>
    cases h
    show o ∈ (if _ then _ else _) ↔ _
    rw [mem_waitlist]
    simp [eq_comm]
  | removeAllowedOrigin req =>
    cases h
    show o ∈ (if _ then _ else _) ↔ _
    rw [mem_waitlist]
    simp [eq_comm]
  | addPendingOrigin req =>
    cases h
    show o ∈ (addPendingOrigin s req).2.pending ↔ _
    rw [mem_addPendingOrigin]
    simp
  | _ =>
    cases h
    simp

/-! ## Invariants -/

structure Separate (s : Origins) : Prop where
  disjoint : ∀ o ∈ s.allowed, o ∉ s.pending
  nodup : s.pending.Nodup

theorem Separate.step (h : Separate s) (hnext : next s a = some (out, t)) : Separate t := by
  constructor
  · intro o hallowed hpending
    rw [mem_allowed_next hnext] at hallowed
    rcases (mem_pending_next hnext).mp hpending with ⟨rfl, hnot⟩ | ⟨hpending, hadd, -⟩
    · rcases hallowed with heq | ⟨hallowed, -⟩
      · cases heq
      · exact hnot hallowed
    · exact hallowed.elim hadd fun hallowed ↦ h.disjoint o hallowed.1 hpending
  · have hwaitlist : ∀ req, (if s.pending.contains req then s.pending.filter (· != req)
        else s.pending).Nodup := by
      intro req
      split_ifs
      · exact h.nodup.filter _
      · exact h.nodup
    cases a with
    | addAllowedOrigin req =>
      cases hnext
      exact hwaitlist req
    | removeAllowedOrigin req =>
      cases hnext
      exact hwaitlist req
    | addPendingOrigin req =>
      cases hnext
      show (addPendingOrigin s req).2.pending.Nodup
      unfold addPendingOrigin
      split_ifs with hallowed hpending
      · exact h.nodup
      · exact h.nodup
      · rw [List.contains_iff_mem] at hpending
        exact List.nodup_append.mpr ⟨h.nodup, List.nodup_singleton _,
          fun o ho o' ho' heq ↦ hpending (List.mem_singleton.mp ho' ▸ heq ▸ ho)⟩
    | _ =>
      cases hnext
      exact h.nodup

theorem separate (h : Run next Origins.empty tr s) : Separate s :=
  h.invariant (C := fun _ ↦ True) ⟨fun _ ho ↦ absurd ho List.not_mem_nil, List.nodup_nil⟩
    (fun _ _ _ _ hi _ hnext ↦ hi.step hnext) (fun _ _ ↦ trivial)

/-! ## The lists and the history -/

/-- The origin was allowed and has not been removed since. -/
def WasAllowed (o : String) : List (Event Origins OriginRequest OriginAnswer) → Prop :=
  Once (fun e ↦ e.act = .addAllowedOrigin o)
    (fun later ↦ ∀ e ∈ later, e.act ≠ .removeAllowedOrigin o)

/-- The origin asked while it was not allowed and has not been answered since. -/
def IsWaiting (o : String) : List (Event Origins OriginRequest OriginAnswer) → Prop :=
  Once (fun e ↦ e.act = .addPendingOrigin o ∧ o ∉ e.pre.allowed)
    (fun later ↦ ∀ e ∈ later, e.act ≠ .addAllowedOrigin o ∧ e.act ≠ .removeAllowedOrigin o)

-- By induction on the run: its last request changes both sides in the same way.
theorem mem_allowed_iff (h : Run next Origins.empty tr s) : o ∈ s.allowed ↔ WasAllowed o tr := by
  induction h with
  | nil => simp [Origins.empty, WasAllowed, Once]
  | snoc _ hnext ih => rw [mem_allowed_next hnext, WasAllowed, Once.snoc_iff, ih, WasAllowed]

theorem mem_pending_iff (h : Run next Origins.empty tr s) : o ∈ s.pending ↔ IsWaiting o tr := by
  induction h with
  | nil => simp [Origins.empty, IsWaiting, Once]
  | snoc _ hnext ih => rw [mem_pending_next hnext, IsWaiting, Once.snoc_iff, ih, IsWaiting]

theorem getCorsStatus_some (value : HeaderValue) : getCorsStatus s (some value) =
    if originText value ∈ s.allowed then .accepted
    else if originText value ∈ s.pending then .created
    else .forbidden := by
  simp only [getCorsStatus, Option.map_some, List.contains_iff_mem]

/-- Of every origin the lists say what its own requests came to, and so does the status. -/
theorem origin_automaton (h : Run next Origins.empty tr s) :
    (∀ o, (o ∈ s.allowed ↔ WasAllowed o tr) ∧ (o ∈ s.pending ↔ IsWaiting o tr)) ∧
      (∀ o ∈ s.allowed, o ∉ s.pending) ∧ s.pending.Nodup ∧
      ∀ value,
        (getCorsStatus s (some value) = .accepted ↔ WasAllowed (originText value) tr) ∧
        (getCorsStatus s (some value) = .created ↔ IsWaiting (originText value) tr) ∧
        (getCorsStatus s (some value) = .forbidden ↔
          ¬ WasAllowed (originText value) tr ∧ ¬ IsWaiting (originText value) tr) := by
  have hseparate := separate h
  refine ⟨fun o ↦ ⟨mem_allowed_iff h, mem_pending_iff h⟩, hseparate.disjoint, hseparate.nodup,
    fun value ↦ ?_⟩
  rw [← mem_allowed_iff h, ← mem_pending_iff h, getCorsStatus_some]
  have hdisjoint := hseparate.disjoint (originText value)
  split_ifs with hallowed hpending <;> simp_all

-- An origin allowed twice is gone after one removal, and may then wait again.
theorem origin_automaton_sample : ∃ tr s, Run next Origins.empty tr s ∧
    s.allowed = ["https://b.example"] ∧ IsWaiting "https://a.example" tr := by
  obtain ⟨tr, s, hrun, hp⟩ := exists_run next Origins.empty
    [.addPendingOrigin "https://a.example", .addAllowedOrigin "https://a.example",
      .addAllowedOrigin "https://b.example", .addAllowedOrigin "https://a.example",
      .addPendingOrigin "https://a.example", .removeAllowedOrigin "https://a.example",
      .addPendingOrigin "https://a.example"]
    (fun _ s ↦ s.allowed = ["https://b.example"] ∧ s.pending = ["https://a.example"])
    (by decide +kernel)
  rw [decide_eq_true_eq] at hp
  refine ⟨tr, s, hrun, hp.1, ((origin_automaton hrun).1 _).2.mp ?_⟩
  rw [hp.2]
  exact List.mem_singleton_self _

end LabStreamGate.Daemon
