import LabStreamGate.Gateway.Atomic

/-!
# What an acknowledged launch stands for

A look-up that has found an expired record takes down what its key stands for by then, which may be
a record launched since.  A launch that no such look-up overlaps is found by all that is asked after
its answer, until its record expires or somebody launches or closes under its key again.
-/

namespace LabStreamGate.Gateway.Atomic

open Function

variable {s t : State} {a : Action} {o : List Seen} {tr : List (Event State Action (List Seen))}

/-! ## Requests under way -/

/-- The number that something seen is about. -/
def Seen.number : Seen → Option Nat
  | .asked id _ => some id
  | .answered id _ _ => some id
  | .dialed id _ => some id
  | _ => none

/-- The request has been asked, and neither answered nor dialed since by the process it was asked
of. -/
def Pending (l : List Seen) (id : Nat) (request : Request) : Prop :=
  ∃ l₁ l₂, l = l₁ ++ .asked id request :: l₂ ∧
    ∀ x ∈ l₂, x.number ≠ some id ∧ ∀ table, x ≠ .started table

theorem Pending.append {l l' : List Seen} {id : Nat} {request : Request} (h : Pending l id request)
    (hl' : ∀ x ∈ l', x.number ≠ some id ∧ ∀ table, x ≠ .started table) :
    Pending (l ++ l') id request := by
  obtain ⟨l₁, l₂, rfl, hsince⟩ := h
  refine ⟨l₁, l₂ ++ l', by simp, fun x hx ↦ ?_⟩
  exact (List.mem_append.mp hx).elim (hsince x) (hl' x)

-- A call that is there is under way.
theorem pending_step {l : List Seen} (h : ∀ id c, s.calls id = some c → Pending l id c.request)
    (hm : Moved s a o t) (id : Nat) (c : Call) (hc : t.calls id = some c) :
    Pending (l ++ o) id c.request := by
  have hother : ∀ {x : Seen} {id' : Nat}, x.number = some id' → id ≠ id' → s.calls id = some c →
      Pending (l ++ [x]) id c.request := by
    intro x id' hnumber hne hold
    refine (h id c hold).append (List.forall_mem_singleton.mpr ⟨?_, ?_⟩)
    · rw [hnumber]
      exact fun heq ↦ hne (Option.some.inj heq).symm
    · rintro table rfl
      cases hnumber
  cases hm with
  | tick _ =>
    exact (h id c hc).append (List.forall_mem_singleton.mpr ⟨by simp [Seen.number], by simp⟩)
  | @ask id' request _ =>
    rcases tasks_of_update hc with ⟨rfl, hnew⟩ | ⟨hne, hold⟩
    · cases hnew
      exact ⟨l, [], rfl, List.forall_mem_nil _⟩
    · exact hother rfl hne hold
  | @settle id' request hcall =>
    rw [List.append_nil]
    rcases tasks_of_update hc with ⟨rfl, hnew⟩ | ⟨-, hold⟩
    · cases hnew
      rw [Call.request, Request.request_outcome]
      exact h id _ hcall
    · exact h id c hold
  | @answer id' outcome status reply _ _ =>
    rcases tasks_of_update hc with ⟨-, hnone⟩ | ⟨hne, hold⟩
    · cases hnone
    · exact hother rfl hne hold
  | @dial id' outcome target _ _ =>
    rcases tasks_of_update hc with ⟨-, hnone⟩ | ⟨hne, hold⟩
    · cases hnone
    · exact hother rfl hne hold
  | expire _ =>
    rw [List.append_nil]
    exact h id c hc
  | evict _ _ =>
    rw [List.append_nil]
    exact h id c hc
  | start => cases hc

theorem pending {now : UInt64} {table : Table} {n : Nat} (h : Run next (fresh now table n) tr t) :
    ∀ id c, t.calls id = some c → Pending (seen see tr) id c.request := by
  refine h.history (P := fun tr t ↦ ∀ id c, t.calls id = some c →
    Pending (seen see tr) id c.request) (C := fun _ ↦ True) ?_ ?_ fun _ _ ↦ trivial
  · exact fun _ _ hc ↦ by cases hc
  · intro l v a o w hl _ hnext
    rw [seen_append, seen_singleton]
    exact pending_step hl (next_moved hnext)

/-! ## Calls that leave the record alone -/

/-- How a look-up is answered where the record is there. -/
def served : Use → List StatusCode
  | .ping => [.ok]
  | .processTraffic => [.tooManyRequests, .serviceUnavailable]

section

variable {id : Nat} {key : String} {record : TunnelRecord} {l l₁ l₂ : List Seen}

/-- The call does not change what the key stands for, and has found nothing but the record
there. -/
def Call.Spares (key : String) (record : TunnelRecord) (c : Call) : Prop :=
  (∀ record', c.request ≠ .launch key record') ∧ c.request ≠ .close key ∧
    ∀ use record' moment, c = .settled (.found key use record' moment) → record' = record

theorem Call.Spares.of_request {c : Call} {request : Request} (h : c.Spares key record)
    (hrequest : c = .asked request) :
    (∀ record', request ≠ .launch key record') ∧ request ≠ .close key := by
  subst hrequest
  exact ⟨h.1, h.2.1⟩

theorem Request.apply_spares {table : Table} {request : Request}
    (hlaunch : ∀ record', request ≠ .launch key record') (hclose : request ≠ .close key) :
    request.apply table key = table key := by
  cases request with
  | launch key' record' =>
    refine update_of_ne (fun hk ↦ ?_) ..
    exact hlaunch record' (by rw [hk])
  | close key' =>
    refine update_of_ne (fun hk ↦ ?_) ..
    exact hclose (by rw [hk])
  | find key' use => rfl
  | list => rfl

-- An expired record cannot be the one that has not expired.
theorem expired_ne {c : Call} {outcome : Outcome} {key' : String} (hc : c.Spares key record)
    (hsettled : c = .settled outcome) (hexp : outcome.expired s.now = some key')
    (hlive : record.isExpired s.now = false) : key ≠ key' := by
  rintro rfl
  cases outcome with
  | found key'' use record' moment =>
    simp only [Outcome.expired, Option.ite_none_right_eq_some, Option.some.injEq] at hexp
    obtain ⟨hexp, rfl⟩ := hexp
    rw [hc.2.2 use record' moment hsettled, hlive] at hexp
    cases hexp
  | _ => cases hexp

theorem filter_live {horizon : UInt64} {now : UInt64} (hle : horizon ≤ now)
    (hlive : record.isExpired now = false) :
    (some record).filter (fun record ↦ !record.isExpired horizon) = some record := by
  have hlive' : record.isExpired horizon = false := by
    rw [Bool.eq_false_iff]
    intro hexp
    rw [TunnelRecord.isExpired_mono hexp hle] at hlive
    cases hlive
  rw [Option.filter_some, hlive']
  rfl

theorem update_none_some {calls : Nat → Option Call} {id id' : Nat} {c : Call}
    (h : update calls id none id' = some c) : calls id' = some c := by
  rcases tasks_of_update h with ⟨-, hnone⟩ | ⟨-, hold⟩
  · cases hnone
  · exact hold

/-! ## Until the launch is answered -/

/-- Nothing but the launch `id` is asked that would change what the key stands for. -/
def Seen.Calm (id : Nat) (key : String) (record : TunnelRecord) : Seen → Prop
  | .asked id' request =>
    if id' = id then request = .launch key record
    else (∀ record', request ≠ .launch key record') ∧ request ≠ .close key
  | .started _ => False
  | _ => True

/-- The request has to do with the key. -/
def Request.About (key : String) : Request → Prop
  | .launch key' _ | .close key' | .find key' _ => key' = key
  | .list => False

/-- Nothing is asked that has to do with the key, and no process is started. -/
def Seen.Elsewhere (key : String) : Seen → Prop
  | .asked _ request => ¬ request.About key
  | .started _ => False
  | _ => True

/-- No look-up that has found an older record can undo the launch: nothing else that has to do with
the key is under way beside it, or there has been no such record. -/
inductive Undisturbed (table : Table) (id : Nat) (key : String) (record : TunnelRecord)
    (l₀ l₁ : List Seen) : Prop
  | alone : (∀ id' request, Pending l₀ id' request → ¬ request.About key) →
      (∀ x ∈ l₁, x.Elsewhere key) → Undisturbed table id key record l₀ l₁
  | new : table key = none → (∀ x ∈ l₀ ++ l₁, x.Calm id key record) →
      Undisturbed table id key record l₀ l₁

/-- While nothing else that has to do with the key is under way. -/
structure Alone (id : Nat) (key : String) (record : TunnelRecord) (s : State) : Prop where
  below : id < s.fresh
  others : ∀ id' c, s.calls id' = some c → id' ≠ id → ¬ c.request.About key
  own : ∀ c, s.calls id = some c → c.request = .launch key record
  launched : ∀ outcome, s.calls id = some (.settled outcome) → s.table key = some record

theorem Request.apply_elsewhere {table : Table} {request : Request} (h : ¬ request.About key) :
    request.apply table key = table key := by
  refine apply_spares (fun record' heq ↦ h ?_) fun heq ↦ h ?_
  · rw [heq]
    exact rfl
  · rw [heq]
    exact rfl

theorem Alone.drop (h : Alone id key record s) (id' : Nat) :
    Alone id key record { s with calls := update s.calls id' none } :=
  ⟨h.below, fun id'' c hc ↦ h.others id'' c (update_none_some hc),
    fun c hc ↦ h.own c (update_none_some hc),
    fun outcome hc ↦ h.launched outcome (update_none_some hc)⟩

theorem Alone.settle {id' : Nat} {request : Request} (h : Alone id key record s)
    (hcall : s.calls id' = some (.asked request)) :
    Alone id key record
      { s with
        table := request.apply s.table
        calls := update s.calls id' (some (.settled (request.outcome s.table s.now))) } := by
  refine ⟨h.below, fun id'' c hc hid ↦ ?_, fun c hc ↦ ?_, fun outcome hc ↦ ?_⟩
  · rcases tasks_of_update hc with ⟨rfl, hnew⟩ | ⟨-, hold⟩
    · cases hnew
      rw [Call.request, Request.request_outcome]
      exact h.others id'' _ hcall hid
    · exact h.others id'' c hold hid
  · rcases tasks_of_update hc with ⟨rfl, hnew⟩ | ⟨-, hold⟩
    · cases hnew
      rw [Call.request, Request.request_outcome]
      exact h.own _ hcall
    · exact h.own c hold
  · show request.apply s.table key = some record
    rcases tasks_of_update hc with ⟨rfl, -⟩ | ⟨hne, hold⟩
    · have hrequest : request = .launch key record := h.own _ hcall
      rw [hrequest]
      exact update_self ..
    · have hother : ¬ request.About key := h.others id' _ hcall (Ne.symm hne)
      rw [Request.apply_elsewhere hother]
      exact h.launched outcome hold

theorem Alone.step (h : Alone id key record s) (helse : ∀ x ∈ o, x.Elsewhere key)
    (hlive : record.isExpired s.now = false) (hm : Moved s a o t) : Alone id key record t := by
  cases hm with
  | tick _ => exact ⟨h.below, h.others, h.own, h.launched⟩
  | @ask id' request hfresh =>
    have hne : id ≠ id' := Nat.ne_of_lt (Nat.lt_of_lt_of_le h.below hfresh)
    have hold : ∀ {c}, update s.calls id' (some (.asked request)) id = some c →
        s.calls id = some c := by
      intro c hc
      rwa [update_of_ne hne] at hc
    refine ⟨Nat.lt_succ_of_lt (Nat.lt_of_lt_of_le h.below hfresh), fun id'' c hc hid ↦ ?_,
      fun c hc ↦ h.own c (hold hc), fun outcome hc ↦ h.launched outcome (hold hc)⟩
    rcases tasks_of_update hc with ⟨rfl, hnew⟩ | ⟨-, hcall⟩
    · cases hnew
      exact helse _ (List.mem_singleton_self _)
    · exact h.others id'' c hcall hid
  | settle hcall => exact h.settle hcall
  | @answer id' outcome status reply hcall _ => exact h.drop id'
  | @dial id' outcome target hcall _ => exact h.drop id'
  | @expire horizon hle =>
    refine ⟨h.below, h.others, h.own, fun outcome hc ↦ ?_⟩
    show (s.table key).filter _ = some record
    rw [h.launched outcome hc]
    exact filter_live hle hlive
  | @evict id' outcome key' hcall hkey =>
    have hne : key ≠ key' := by
      cases outcome with
      | found key'' use record' moment =>
        simp only [Outcome.expired, Option.ite_none_right_eq_some, Option.some.injEq] at hkey
        obtain ⟨-, rfl⟩ := hkey
        rintro rfl
        by_cases hid : id' = id
        · subst hid
          cases h.own _ hcall
        · exact h.others id' _ hcall hid rfl
      | _ => cases hkey
    refine ⟨h.below, h.others, h.own, fun outcome' hc ↦ ?_⟩
    exact (update_of_ne hne ..).trans (h.launched outcome' hc)
  | start => exact absurd (helse _ (List.mem_singleton_self _)) (fun hfalse ↦ hfalse)

/-- Until the launch `id` is answered. -/
structure Launching (id : Nat) (key : String) (record : TunnelRecord) (s : State) : Prop where
  calls : ∀ id' c, s.calls id' = some c → id' ≠ id → c.Spares key record
  own : ∀ c, s.calls id = some c → c.request = .launch key record
  table : s.table key = none ∨ s.table key = some record
  launched : ∀ outcome, s.calls id = some (.settled outcome) → s.table key = some record

-- A call that has been served is no more.
theorem Launching.drop (h : Launching id key record s) (id' : Nat) :
    Launching id key record { s with calls := update s.calls id' none } :=
  ⟨fun id'' c hc ↦ h.calls id'' c (update_none_some hc), fun c hc ↦ h.own c (update_none_some hc),
    h.table, fun outcome hc ↦ h.launched outcome (update_none_some hc)⟩

-- Where nothing or the record is found under the key, no other record is.
theorem found_eq {table : Table} {now moment : UInt64} {request : Request} {use : Use}
    {record' : TunnelRecord} (htable : table key = none ∨ table key = some record)
    (h : request.outcome table now = .found key use record' moment) : record' = record := by
  cases request with
  | find key' use' =>
    rw [Request.outcome] at h
    cases hlook : table key' with
    | none =>
      rw [hlook] at h
      cases h
    | some found =>
      rw [hlook] at h
      cases h
      rcases htable with hnone | hsome
      · rw [hnone] at hlook
        cases hlook
      · exact Option.some.inj (hlook.symm.trans hsome)
  | close key' =>
    rw [Request.outcome] at h
    split at h <;> cases h
  | launch key' record'' => cases h
  | list => cases h

/-- A call that comes to its outcome spares what it has spared before. -/
theorem Call.Spares.settled {request : Request} {table : Table} {now : UInt64}
    (h : (Call.asked request).Spares key record)
    (htable : table key = none ∨ table key = some record) :
    (Call.settled (request.outcome table now)).Spares key record := by
  refine ⟨?_, ?_, fun use record' moment hfound ↦ ?_⟩
  · rw [Call.request, Request.request_outcome]
    exact h.1
  · rw [Call.request, Request.request_outcome]
    exact h.2.1
  · exact found_eq htable (Call.settled.inj hfound)

-- No call but the launch itself has to do with the key.
theorem Launching.spares {id' : Nat} {c : Call} (h : Launching id key record s)
    (hc : s.calls id' = some c) : c.request = .launch key record ∨ c.Spares key record := by
  by_cases hid : id' = id
  · subst hid
    exact .inl (h.own c hc)
  · exact .inr (h.calls id' c hc hid)

theorem Launching.settle {id' : Nat} {request : Request} (h : Launching id key record s)
    (hcall : s.calls id' = some (.asked request)) :
    Launching id key record
      { s with
        table := request.apply s.table
        calls := update s.calls id' (some (.settled (request.outcome s.table s.now))) } := by
  have htable : request.apply s.table key = s.table key ∨
      request.apply s.table key = some record := by
    rcases h.spares hcall with hown | hother
    · have hrequest : request = .launch key record := hown
      rw [hrequest]
      exact .inr (update_self ..)
    · obtain ⟨hlaunch, hclose⟩ := hother.of_request rfl
      exact .inl (Request.apply_spares hlaunch hclose)
  refine ⟨fun id'' c hc hid ↦ ?_, fun c hc ↦ ?_, ?_, fun outcome hc ↦ ?_⟩
  · rcases tasks_of_update hc with ⟨rfl, hnew⟩ | ⟨-, hold⟩
    · cases hnew
      exact (h.calls id'' _ hcall hid).settled h.table
    · exact h.calls id'' c hold hid
  · rcases tasks_of_update hc with ⟨rfl, hnew⟩ | ⟨-, hold⟩
    · cases hnew
      rw [Call.request, Request.request_outcome]
      exact h.own _ hcall
    · exact h.own c hold
  · show request.apply s.table key = none ∨ request.apply s.table key = some record
    rcases htable with hkeep | hnew
    · rw [hkeep]
      exact h.table
    · exact .inr hnew
  · rcases tasks_of_update hc with ⟨rfl, -⟩ | ⟨-, hold⟩
    · have hrequest : request = .launch key record := h.own _ hcall
      show request.apply s.table key = some record
      rw [hrequest]
      exact update_self ..
    · rcases htable with hkeep | hnew
      · exact hkeep.trans (h.launched outcome hold)
      · exact hnew

theorem Launching.step (h : Launching id key record s) (hcalm : ∀ x ∈ o, x.Calm id key record)
    (hlive : record.isExpired s.now = false) (hm : Moved s a o t) :
    Launching id key record t := by
  cases hm with
  | tick _ => exact ⟨h.calls, h.own, h.table, h.launched⟩
  | @ask id' request _ =>
    have hx := hcalm _ (List.mem_singleton_self _)
    rw [Seen.Calm] at hx
    refine ⟨fun id'' c hc hid ↦ ?_, fun c hc ↦ ?_, h.table, fun outcome hc ↦ ?_⟩
    · rcases tasks_of_update hc with ⟨rfl, hnew⟩ | ⟨-, hold⟩
      · cases hnew
        rw [if_neg hid] at hx
        exact ⟨hx.1, hx.2, fun _ _ _ hc ↦ by cases hc⟩
      · exact h.calls id'' c hold hid
    · rcases tasks_of_update hc with ⟨rfl, hnew⟩ | ⟨-, hold⟩
      · cases hnew
        rwa [if_pos rfl] at hx
      · exact h.own c hold
    · rcases tasks_of_update hc with ⟨-, hnew⟩ | ⟨-, hold⟩
      · cases hnew
      · exact h.launched outcome hold
  | settle hcall => exact h.settle hcall
  | @answer id' outcome status reply hcall _ => exact h.drop id'
  | @dial id' outcome target hcall _ => exact h.drop id'
  | @expire horizon hle =>
    have hkeep : s.table key = some record →
        (s.table key).filter (fun record ↦ !record.isExpired horizon) = some record := by
      intro hsome
      rw [hsome]
      exact filter_live hle hlive
    refine ⟨h.calls, h.own, ?_, fun outcome hc ↦ hkeep (h.launched outcome hc)⟩
    rcases h.table with hnone | hsome
    · refine .inl ?_
      show (s.table key).filter _ = none
      rw [hnone]
      rfl
    · exact .inr (hkeep hsome)
  | @evict id' outcome key' hcall hkey =>
    have hne : key ≠ key' := by
      rcases h.spares hcall with hown | hother
      · -- a launch finds no record
        cases outcome with
        | found key'' use record' moment => cases hown
        | _ => cases hkey
      · exact expired_ne hother rfl hkey hlive
    have hkeep : update s.table key' none key = s.table key := update_of_ne hne ..
    refine ⟨h.calls, h.own, ?_, fun outcome hc ↦ hkeep.trans (h.launched outcome hc)⟩
    show update s.table key' none key = none ∨ update s.table key' none key = some record
    rw [hkeep]
    exact h.table
  | start => exact absurd (hcalm _ (List.mem_singleton_self _)) (fun hfalse ↦ hfalse)

/-! ## From the answer of the launch on -/

/-- What holds then; `l` is what has been seen since. -/
structure Standing (id : Nat) (key : String) (record : TunnelRecord) (l : List Seen)
    (s : State) : Prop where
  below : id < s.fresh
  table : s.table key = some record
  calls : ∀ id' c, s.calls id' = some c → id' < s.fresh ∧ c.Spares key record
  seenBelow : ∀ x ∈ l, ∀ id', x.number = some id' → id' < s.fresh
  found : ∀ id' use c, .asked id' (.find key use) ∈ l → s.calls id' = some c →
    c = .asked (.find key use) ∨ ∃ moment, c = .settled (.found key use record moment)
  answered : ∀ id' use status reply, .asked id' (.find key use) ∈ l →
    .answered id' status reply ∈ l → status ∈ served use
  dialed : ∀ id' use target, .asked id' (.find key use) ∈ l → .dialed id' target ∈ l →
    target = record.target

-- The answers to a look-up that has found a record which has not expired.
theorem Outcome.Allows.served {now moment : UInt64} {use : Use} {status : StatusCode}
    {reply : Reply} (h : (Outcome.found key use record moment).Allows now status reply)
    (hlive : record.isExpired now = false) : status ∈ Atomic.served use := by
  cases h with
  | live _ => exact List.mem_singleton_self _
  | gone hexp _ =>
    rw [hexp] at hlive
    cases hlive
  | tunnelBusy _ => simp [Atomic.served]
  | gatewayBusy _ => simp [Atomic.served]

/-- Nothing new is seen, and the calls are those from before. -/
theorem Standing.quiet (h : Standing id key record l s) (hfresh : t.fresh = s.fresh)
    (htable : t.table key = some record) (hcalls : ∀ id' c, t.calls id' = some c →
      s.calls id' = some c) : Standing id key record l t where
  below := hfresh ▸ h.below
  table := htable
  calls := fun id' c hc ↦ hfresh ▸ h.calls id' c (hcalls id' c hc)
  seenBelow := fun x hx id' hid ↦ hfresh ▸ h.seenBelow x hx id' hid
  found := fun id' use c hmem hc ↦ h.found id' use c hmem (hcalls id' c hc)
  answered := h.answered
  dialed := h.dialed

/-- Something is seen that is no request; it fits what has been found. -/
theorem Standing.snoc {x : Seen} (h : Standing id key record l s)
    (hask : ∀ id' request, x ≠ .asked id' request) (hbelow : ∀ id', x.number = some id' →
      id' < s.fresh)
    (hanswered : ∀ id' use status reply, .asked id' (.find key use) ∈ l →
      x = .answered id' status reply → status ∈ served use)
    (hdialed : ∀ id' use target, .asked id' (.find key use) ∈ l → x = .dialed id' target →
      target = record.target) : Standing id key record (l ++ [x]) s := by
  have hold : ∀ {id' request}, Seen.asked id' request ∈ l ++ [x] → .asked id' request ∈ l := by
    intro id' request hmem
    rcases List.mem_append.mp hmem with hmem | hmem
    · exact hmem
    · exact absurd (List.mem_singleton.mp hmem).symm (hask id' request)
  refine ⟨h.below, h.table, h.calls, fun y hy ↦ ?_, fun id' use c hmem ↦ h.found id' use c
    (hold hmem), fun id' use status reply hmem hans ↦ ?_, fun id' use target hmem hdial ↦ ?_⟩
  · rcases List.mem_append.mp hy with hy | hy
    · exact h.seenBelow y hy
    · cases List.mem_singleton.mp hy
      exact hbelow
  · rcases List.mem_append.mp hans with hans | hans
    · exact h.answered id' use status reply (hold hmem) hans
    · exact hanswered id' use status reply (hold hmem) (List.mem_singleton.mp hans).symm
  · rcases List.mem_append.mp hdial with hdial | hdial
    · exact h.dialed id' use target (hold hmem) hdial
    · exact hdialed id' use target (hold hmem) (List.mem_singleton.mp hdial).symm

theorem Standing.ask {id' : Nat} {request : Request} (h : Standing id key record l s)
    (hx : (Seen.asked id' request).Calm id key record) (hfresh : s.fresh ≤ id') :
    Standing id key record (l ++ [.asked id' request])
      { s with calls := update s.calls id' (some (.asked request)), fresh := id' + 1 } := by
  have hne : id' ≠ id := fun hid ↦ by
    have := h.below
    omega
  rw [Seen.Calm, if_neg hne] at hx
  -- the number is new, so nothing has been seen of it
  have hnew : ∀ x ∈ l, x.number ≠ some id' := fun x hx hnumber ↦
    Nat.lt_irrefl _ (Nat.lt_of_lt_of_le (h.seenBelow x hx id' hnumber) hfresh)
  have hlt : ∀ {n}, n < s.fresh → n < id' + 1 := fun hn ↦
    Nat.lt_succ_of_lt (Nat.lt_of_lt_of_le hn hfresh)
  refine ⟨hlt h.below, h.table, fun id'' c hc ↦ ?_, fun x hmem id'' hnumber ↦ ?_,
    fun id'' use c hmem hc ↦ ?_, fun id'' use status reply hmem hans ↦ ?_,
    fun id'' use target hmem hdial ↦ ?_⟩
  · rcases tasks_of_update hc with ⟨rfl, hcall⟩ | ⟨-, hold⟩
    · cases hcall
      exact ⟨Nat.lt_succ_self _, hx.1, hx.2, fun _ _ _ hfound ↦ by cases hfound⟩
    · exact ⟨hlt (h.calls id'' c hold).1, (h.calls id'' c hold).2⟩
  · rcases List.mem_append.mp hmem with hmem | hmem
    · exact hlt (h.seenBelow x hmem id'' hnumber)
    · cases List.mem_singleton.mp hmem
      cases hnumber
      exact Nat.lt_succ_self _
  · rcases tasks_of_update hc with ⟨rfl, hcall⟩ | ⟨hid, hold⟩
    · cases hcall
      rcases List.mem_append.mp hmem with hmem | hmem
      · exact (hnew _ hmem rfl).elim
      · cases List.mem_singleton.mp hmem
        exact .inl rfl
    · rcases List.mem_append.mp hmem with hmem | hmem
      · exact h.found id'' use c hmem hold
      · cases List.mem_singleton.mp hmem
        exact absurd rfl hid
  · rcases List.mem_append.mp hans with hbefore | hlast
    · rcases List.mem_append.mp hmem with hmem | hmem
      · exact h.answered id'' use status reply hmem hbefore
      · cases List.mem_singleton.mp hmem
        exact absurd rfl (hnew _ hbefore)
    · cases List.mem_singleton.mp hlast
  · rcases List.mem_append.mp hdial with hbefore | hlast
    · rcases List.mem_append.mp hmem with hmem | hmem
      · exact h.dialed id'' use target hmem hbefore
      · cases List.mem_singleton.mp hmem
        exact absurd rfl (hnew _ hbefore)
    · cases List.mem_singleton.mp hlast

-- A look-up that comes to its outcome finds the record.
theorem Standing.settle {id' : Nat} {request : Request} (h : Standing id key record l s)
    (hcall : s.calls id' = some (.asked request)) :
    Standing id key record l
      { s with
        table := request.apply s.table
        calls := update s.calls id' (some (.settled (request.outcome s.table s.now))) } := by
  obtain ⟨hbelow, hspares⟩ := h.calls id' _ hcall
  obtain ⟨hlaunch, hclose⟩ := hspares.of_request rfl
  have hkeep : request.apply s.table key = some record :=
    (Request.apply_spares hlaunch hclose).trans h.table
  refine ⟨h.below, hkeep, fun id'' c hc ↦ ?_, h.seenBelow, fun id'' use c hmem hc ↦ ?_,
    h.answered, h.dialed⟩
  · rcases tasks_of_update hc with ⟨rfl, hnew⟩ | ⟨-, hold⟩
    · cases hnew
      exact ⟨hbelow, hspares.settled (.inr h.table)⟩
    · exact h.calls id'' c hold
  · rcases tasks_of_update hc with ⟨rfl, hnew⟩ | ⟨-, hold⟩
    · cases hnew
      rcases h.found id'' use _ hmem hcall with hasked | ⟨moment, hsettled⟩
      · cases hasked
        refine .inr ⟨s.now, ?_⟩
        rw [Request.outcome, h.table]
      · cases hsettled
    · exact h.found id'' use c hmem hold

theorem Standing.step (h : Standing id key record l s) (hcalm : ∀ x ∈ o, x.Calm id key record)
    (hlive : record.isExpired s.now = false) (hm : Moved s a o t) :
    Standing id key record (l ++ o) t := by
  cases hm with
  | tick _ =>
    exact (h.snoc (by simp) (by simp [Seen.number]) (by simp) (by simp)).quiet rfl h.table
      fun _ _ hc ↦ hc
  | ask hfresh => exact h.ask (hcalm _ (List.mem_singleton_self _)) hfresh
  | settle hcall =>
    rw [List.append_nil]
    exact h.settle hcall
  | @answer id' outcome status reply hcall hallows =>
    refine (h.snoc (by simp) ?_ ?_ (by simp)).quiet rfl h.table fun _ _ ↦ update_none_some
    · rintro id'' hid
      cases hid
      exact (h.calls id' _ hcall).1
    · rintro id'' use status' reply' hmem heq
      cases heq
      rcases h.found id' use _ hmem hcall with hasked | ⟨moment, hsettled⟩
      · cases hasked
      · cases hsettled
        exact hallows.served hlive
  | @dial id' outcome target hcall htarget =>
    refine (h.snoc (by simp) ?_ (by simp) ?_).quiet rfl h.table fun _ _ ↦ update_none_some
    · rintro id'' hid
      cases hid
      exact (h.calls id' _ hcall).1
    · rintro id'' use target' hmem heq
      cases heq
      rcases h.found id' use _ hmem hcall with hasked | ⟨moment, hsettled⟩
      · cases hasked
      · cases hsettled
        cases use with
        | ping => cases htarget
        | processTraffic =>
          simp only [Outcome.target, Option.ite_none_left_eq_some, Option.some.injEq] at htarget
          exact htarget.2.symm
  | @expire horizon hle =>
    rw [List.append_nil]
    refine h.quiet rfl ?_ fun _ _ hc ↦ hc
    show (s.table key).filter _ = some record
    rw [h.table]
    exact filter_live hle hlive
  | @evict id' outcome key' hcall hkey =>
    rw [List.append_nil]
    have hne := expired_ne (h.calls id' _ hcall).2 rfl hkey hlive
    exact h.quiet rfl ((update_of_ne hne ..).trans h.table) fun _ _ hc ↦ hc
  | start => exact absurd (hcalm _ (List.mem_singleton_self _)) (fun hfalse ↦ hfalse)

-- The answer ends the launch; what the key stands for is the record from then on.
theorem standing_of_answer {status : StatusCode} {reply : Reply}
    (hothers : ∀ id' c, s.calls id' = some c → id' ≠ id → c.Spares key record)
    (hlaunched : ∀ outcome, s.calls id = some (.settled outcome) → s.table key = some record)
    (htold : Told l s) (hm : Moved s a [.answered id status reply] t) :
    Standing id key record [] t := by
  cases hm with
  | @answer _ outcome _ _ hcall _ =>
    have hbelow : ∀ id' c, s.calls id' = some c → id' < s.fresh :=
      fun id' c hc ↦ htold.below id' _ (htold.asked id' c hc)
    refine ⟨hbelow id _ hcall, hlaunched outcome hcall, fun id' c hc ↦ ?_, by simp, by simp,
      by simp, by simp⟩
    rcases tasks_of_update hc with ⟨-, hnone⟩ | ⟨hid, hold⟩
    · cases hnone
    · exact ⟨hbelow id' c hold, hothers id' c hold hid⟩

theorem Call.Spares.of_elsewhere {c : Call} (h : ¬ c.request.About key) : c.Spares key record := by
  refine ⟨fun record' heq ↦ h ?_, fun heq ↦ h ?_, fun use record' moment heq ↦ absurd ?_ h⟩
  · rw [heq]
    exact rfl
  · rw [heq]
    exact rfl
  · rw [heq]
    exact rfl

-- What has been asked before the launch has been answered by then.
theorem alone_of_asked {l₀ : List Seen} (htold : ∀ id' c, s.calls id' = some c →
      Pending l₀ id' c.request) (hclear : ∀ id' request, Pending l₀ id' request →
      ¬ request.About key) (hm : Moved s a [.asked id (.launch key record)] t) :
    Alone id key record t := by
  cases hm with
  | ask _ =>
    refine ⟨Nat.lt_succ_self _, fun id' c hc hid ↦ ?_, fun c hc ↦ ?_, fun outcome hc ↦ ?_⟩
    · rcases tasks_of_update hc with ⟨rfl, -⟩ | ⟨-, hold⟩
      · exact absurd rfl hid
      · exact hclear id' _ (htold id' c hold)
    · rcases tasks_of_update hc with ⟨-, hnew⟩ | ⟨hne, -⟩
      · cases hnew
        rfl
      · exact absurd rfl hne
    · rcases tasks_of_update hc with ⟨-, hnew⟩ | ⟨hne, -⟩
      · cases hnew
      · exact absurd rfl hne

-- From the first step on where the key is new, and from the asking of the launch on where not.
theorem Undisturbed.standing {now : UInt64} {table : Table} {n : Nat} {l₀ : List Seen}
    {status : StatusCode} {reply : Reply} (h : Undisturbed table id key record l₀ l₁)
    (hrun : Run next (fresh now table n) tr s)
    (hseen : seen see tr = l₀ ++ .asked id (.launch key record) :: l₁)
    (hlive : ∀ e ∈ tr, record.isExpired e.pre.now = false)
    (hm : Moved s a [.answered id status reply] t) : Standing id key record [] t := by
  cases h with
  | alone hclear helse =>
    obtain ⟨tr₁, e, tr₂, rfl, rfl, he, rfl⟩ := seen_cut (length_see_le hrun) hseen
    obtain ⟨u, hrun₁, hnext, hrun₂⟩ := hrun.cut
    have hasked := next_moved hnext
    rw [show e.out = [.asked id (.launch key record)] from he] at hasked
    have halone : Alone id key record s := by
      refine hrun₂.invariant (C := fun e' ↦ e' ∈ tr₂)
        (alone_of_asked (pending hrun₁) hclear hasked) ?_ fun _ he' ↦ he'
      intro v a o w hv hmem hstep
      exact hv.step (fun x hx ↦ helse x (mem_seen.mpr ⟨_, hmem, hx⟩))
        (hlive _ (List.mem_append_right _ (List.mem_cons_of_mem _ hmem))) (next_moved hstep)
    exact standing_of_answer (fun id' c hc hid ↦ .of_elsewhere (halone.others id' c hc hid))
      halone.launched (told hrun) hm
  | new hnew hcalm =>
    have hcalm' : ∀ x ∈ seen see tr, x.Calm id key record := by
      intro x hx
      rw [hseen, List.mem_append, List.mem_cons] at hx
      rcases hx with hx | rfl | hx
      · exact hcalm x (List.mem_append_left _ hx)
      · rw [Seen.Calm, if_pos rfl]
      · exact hcalm x (List.mem_append_right _ hx)
    have hlaunching : Launching id key record s := by
      refine hrun.invariant (C := fun e' ↦ e' ∈ tr) ?_ ?_ fun _ he' ↦ he'
      · exact ⟨fun _ _ hc ↦ (by cases hc), fun _ hc ↦ (by cases hc), .inl hnew,
          fun _ hc ↦ (by cases hc)⟩
      · intro v a o w hv hmem hstep
        exact hv.step (fun x hx ↦ hcalm' x (mem_seen.mpr ⟨_, hmem, hx⟩)) (hlive _ hmem)
          (next_moved hstep)
    exact standing_of_answer hlaunching.calls hlaunching.launched (told hrun) hm

/-- A launch that has been answered is found by every look-up asked from then on, as long as no
older record was in its way, its own record has not expired and nobody else launches or closes under
its key. -/
theorem launched_is_found {now : UInt64} {table : Table} {n : Nat} {l₀ : List Seen}
    (h : Run next (fresh now table n) tr t) (hlive : record.isExpired t.now = false)
    (hseen : seen see tr = l₀ ++ .asked id (.launch key record) ::
      (l₁ ++ .answered id .created (.record record) :: l₂))
    (hlaunch : Undisturbed table id key record l₀ l₁) (hcalm : ∀ x ∈ l₂, x.Calm id key record) :
    ∀ id' use, .asked id' (.find key use) ∈ l₂ →
      (∀ status reply, .answered id' status reply ∈ l₂ → status ∈ served use) ∧
      ∀ target, .dialed id' target ∈ l₂ → target = record.target := by
  rw [← List.cons_append, ← List.append_assoc] at hseen
  obtain ⟨tr₁, e, tr₂, rfl, hbefore, he, rfl⟩ := seen_cut (length_see_le h) hseen
  have hlive' : ∀ e' ∈ tr₁ ++ e :: tr₂, record.isExpired e'.pre.now = false := by
    intro e' he'
    rw [Bool.eq_false_iff]
    intro hexp
    rw [TunnelRecord.isExpired_mono hexp (now_le_end h e' he')] at hlive
    cases hlive
  obtain ⟨u, hrun₁, hnext, hrun₂⟩ := h.cut
  have hanswer := next_moved hnext
  rw [show e.out = [.answered id .created (.record record)] from he] at hanswer
  have hstanding := hlaunch.standing hrun₁ hbefore
    (fun e' he' ↦ hlive' e' (List.mem_append_left _ he')) hanswer
  have hend : Standing id key record (seen see tr₂) t := by
    refine hrun₂.history (P := fun tr t ↦ Standing id key record (seen see tr) t)
      (C := fun e' ↦ e' ∈ tr₂) hstanding ?_ fun _ he' ↦ he'
    intro l v a o w hv hmem hstep
    rw [seen_append, seen_singleton]
    exact hv.step (fun x hx ↦ hcalm x (mem_seen.mpr ⟨_, hmem, hx⟩))
      (hlive' _ (List.mem_append_right _ (List.mem_cons_of_mem _ hmem))) (next_moved hstep)
  intro id' use hasked
  exact ⟨fun status reply ↦ hend.answered id' use status reply hasked,
    fun target ↦ hend.dialed id' use target hasked⟩

end

end LabStreamGate.Gateway.Atomic
