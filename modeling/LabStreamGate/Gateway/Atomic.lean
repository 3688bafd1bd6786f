import LabStreamGate.Library.Simulation
import LabStreamGate.Library.TaskTable
import LabStreamGate.Gateway.Step

/-!
# The registry as its clients may think of it

One map from keys to records.  A request is asked, comes to its outcome at one moment between being
asked and being answered, and is answered by what it came to then.  Nothing else happens to the map
than that records are forgotten once they have expired; an expired one may take down with it what
its key stands for by then.
-/

namespace LabStreamGate.Gateway.Atomic

open Function

/-- The map, with no order among the entries. -/
abbrev Table := String → Option TunnelRecord

inductive Request
  | launch (key : String) (record : TunnelRecord)
  | close (key : String)
  | find (key : String) (use : Use)
  | list
  deriving DecidableEq

/-- What a request came to; a record that is found is kept with the moment. -/
inductive Outcome
  | launched (key : String) (record : TunnelRecord)
  | closed (key : String)
  | notThere (key : String) (use : Option Use)
  | found (key : String) (use : Use) (record : TunnelRecord) (moment : UInt64)
  | listed (table : Table)

inductive Call
  | asked (request : Request)
  | settled (outcome : Outcome)

/-- What the clients, the targets and the clock see. -/
inductive Seen
  | ticked (now : UInt64)
  | asked (id : Nat) (request : Request)
  | answered (id : Nat) (status : StatusCode) (reply : Reply)
  | dialed (id : Nat) (target : String)
  | started (table : Table)

structure State where
  now : UInt64
  table : Table
  calls : Nat → Option Call
  fresh : Nat

inductive Action
  | tick (now : UInt64)
  | ask (id : Nat) (request : Request)
  | settle (id : Nat)
  | answer (id : Nat) (status : StatusCode) (reply : Reply)
  | dial (id : Nat)
  | expire (horizon : UInt64)
  | evict (id : Nat)
  | start (table : Table)

/-- The outcome of a request at this moment. -/
def Request.outcome (table : Table) (now : UInt64) : Request → Outcome
  | .launch key record => .launched key record
  | .close key => if (table key).isSome then .closed key else .notThere key none
  | .find key use =>
    match table key with
    | some record => .found key use record now
    | none => .notThere key (some use)
  | .list => .listed table

/-- The map after a request. -/
def Request.apply (table : Table) : Request → Table
  | .launch key record => update table key (some record)
  | .close key => update table key none
  | _ => table

/-- The answers that fit an outcome.  A launch or a close may report that the map was not saved; a
record that is found is refused only once it has expired, or for want of a permit. -/
inductive Outcome.Allows (now : UInt64) : Outcome → StatusCode → Reply → Prop
  | launched {key : String} {record : TunnelRecord} :
      Allows now (.launched key record) .created (.record record)
  | launchUnsaved {key : String} {record : TunnelRecord} {text : String} :
      Allows now (.launched key record) .internalServerError (.text text)
  | closed {key : String} : Allows now (.closed key) .noContent .empty
  | closeUnsaved {key : String} {text : String} :
      Allows now (.closed key) .internalServerError (.text text)
  | notClosed {key : String} : Allows now (.notThere key none) .notFound (.text "tunnel not found")
  | notFound {key : String} {use : Use} {reply : Reply} :
      use.refuse .notFound "tunnel not found" = .respond .notFound reply →
      Allows now (.notThere key (some use)) .notFound reply
  | live {key : String} {record : TunnelRecord} {moment : UInt64} :
      record.isExpired moment = false →
      Allows now (.found key .ping record moment) .ok .empty
  | gone {key : String} {use : Use} {record : TunnelRecord} {moment : UInt64} {reply : Reply} :
      record.isExpired now = true → use.refuse .gone "tunnel expired" = .respond .gone reply →
      Allows now (.found key use record moment) .gone reply
  | tunnelBusy {key : String} {record : TunnelRecord} {moment : UInt64} :
      record.isExpired moment = false →
      Allows now (.found key .processTraffic record moment) .tooManyRequests
        (.text "tunnel connection limit reached")
  | gatewayBusy {key : String} {record : TunnelRecord} {moment : UInt64} :
      record.isExpired moment = false →
      Allows now (.found key .processTraffic record moment) .serviceUnavailable
        (.text "gateway connection limit reached")
  | listed {table : Table} {registry : Registry} : (∀ key, registry.lookup key = table key) →
      Allows now (.listed table) .ok (.registry registry)

/-- The target of a connection, where the record it was found with had not expired. -/
def Outcome.target : Outcome → Option String
  | .found _ .processTraffic record moment =>
    if record.isExpired moment then none else some record.target
  | _ => none

/-- The key that an expired record, once found, may take down. -/
def Outcome.expired (now : UInt64) : Outcome → Option String
  | .found key _ record _ => if record.isExpired now then some key else none
  | _ => none

open Classical in
noncomputable def next (s : State) : Action → Option (List Seen × State)
  | .tick now => if s.now ≤ now then some ([.ticked now], { s with now := now }) else none
  | .ask id request =>
    if s.fresh ≤ id then
      some ([.asked id request],
        { s with calls := update s.calls id (some (.asked request)), fresh := id + 1 })
    else none
  | .settle id =>
    match s.calls id with
    | some (.asked request) =>
      some ([],
        { s with
          table := request.apply s.table
          calls := update s.calls id (some (.settled (request.outcome s.table s.now))) })
    | _ => none
  | .answer id status reply =>
    match s.calls id with
    | some (.settled outcome) =>
      if outcome.Allows s.now status reply then
        some ([.answered id status reply], { s with calls := update s.calls id none })
      else none
    | _ => none
  | .dial id =>
    match s.calls id with
    | some (.settled outcome) =>
      outcome.target.map fun target ↦
        ([.dialed id target], { s with calls := update s.calls id none })
    | _ => none
  | .expire horizon =>
    if horizon ≤ s.now then
      some ([],
        { s with table := fun key ↦ (s.table key).filter fun record ↦ !record.isExpired horizon })
    else none
  | .evict id =>
    match s.calls id with
    | some (.settled outcome) =>
      (outcome.expired s.now).map fun key ↦ ([], { s with table := update s.table key none })
    | _ => none
  | .start table => some ([.started table], { s with table := table, calls := fun _ ↦ none })

/-- A step shows what it puts out. -/
def see (e : Event State Action (List Seen)) : List Seen := e.out

/-- A registry that has been asked nothing yet. -/
def fresh (now : UInt64) (table : Table) (n : Nat) : State := ⟨now, table, fun _ ↦ none, n⟩

/-! ## One step -/

/-- What an action can come to. -/
inductive Moved (s : State) : Action → List Seen → State → Prop
  | tick {now : UInt64} : s.now ≤ now → Moved s (.tick now) [.ticked now] { s with now }
  | ask {id : Nat} {request : Request} : s.fresh ≤ id →
      Moved s (.ask id request) [.asked id request]
        { s with calls := update s.calls id (some (.asked request)), fresh := id + 1 }
  | settle {id : Nat} {request : Request} : s.calls id = some (.asked request) →
      Moved s (.settle id) []
        { s with
          table := request.apply s.table
          calls := update s.calls id (some (.settled (request.outcome s.table s.now))) }
  | answer {id : Nat} {outcome : Outcome} {status : StatusCode} {reply : Reply} :
      s.calls id = some (.settled outcome) → outcome.Allows s.now status reply →
      Moved s (.answer id status reply) [.answered id status reply]
        { s with calls := update s.calls id none }
  | dial {id : Nat} {outcome : Outcome} {target : String} : s.calls id = some (.settled outcome) →
      outcome.target = some target →
      Moved s (.dial id) [.dialed id target] { s with calls := update s.calls id none }
  | expire {horizon : UInt64} : horizon ≤ s.now →
      Moved s (.expire horizon) []
        { s with table := fun key ↦ (s.table key).filter fun record ↦ !record.isExpired horizon }
  | evict {id : Nat} {outcome : Outcome} {key : String} : s.calls id = some (.settled outcome) →
      outcome.expired s.now = some key →
      Moved s (.evict id) [] { s with table := update s.table key none }
  | start {table : Table} :
      Moved s (.start table) [.started table] { s with table := table, calls := fun _ ↦ none }

variable {s t : State} {a : Action} {o : List Seen} {tr : List (Event State Action (List Seen))}

theorem next_moved (h : next s a = some (o, t)) : Moved s a o t := by
  cases a with
  | tick now =>
    simp only [next, Option.ite_none_right_eq_some, Option.some.injEq, Prod.mk.injEq] at h
    obtain ⟨hle, rfl, rfl⟩ := h
    exact .tick hle
  | ask id request =>
    simp only [next, Option.ite_none_right_eq_some, Option.some.injEq, Prod.mk.injEq] at h
    obtain ⟨hfresh, rfl, rfl⟩ := h
    exact .ask hfresh
  | settle id =>
    simp only [next] at h
    split at h <;> cases h
    exact .settle ‹_›
  | answer id status reply =>
    simp only [next] at h
    split at h
    · rename_i outcome hcall
      simp only [Option.ite_none_right_eq_some, Option.some.injEq, Prod.mk.injEq] at h
      obtain ⟨hallows, rfl, rfl⟩ := h
      exact .answer hcall hallows
    · cases h
  | dial id =>
    simp only [next] at h
    split at h
    · rename_i outcome hcall
      simp only [Option.map_eq_some_iff, Prod.mk.injEq] at h
      obtain ⟨target, htarget, rfl, rfl⟩ := h
      exact .dial hcall htarget
    · cases h
  | expire horizon =>
    simp only [next, Option.ite_none_right_eq_some, Option.some.injEq, Prod.mk.injEq] at h
    obtain ⟨hle, rfl, rfl⟩ := h
    exact .expire hle
  | evict id =>
    simp only [next] at h
    split at h
    · rename_i outcome hcall
      simp only [Option.map_eq_some_iff, Prod.mk.injEq] at h
      obtain ⟨key, hkey, rfl, rfl⟩ := h
      exact .evict hcall hkey
    · cases h
  | start table =>
    cases h
    exact .start

theorem Moved.length_le (h : Moved s a o t) : o.length ≤ 1 := by
  cases h <;> simp

theorem length_see_le (h : Run next s tr t) : ∀ e ∈ tr, (see e).length ≤ 1 := by
  intro e he
  obtain ⟨tr₁, tr₂, rfl⟩ := List.append_of_mem he
  obtain ⟨u, -, hnext, -⟩ := h.cut
  exact (next_moved hnext).length_le

theorem now_le (h : Run next s tr t) : s.now ≤ t.now := by
  induction h with
  | nil => exact UInt64.le_refl _
  | snoc _ hnext ih =>
    cases next_moved hnext with
    | tick hle => exact UInt64.le_trans ih hle
    | _ => exact ih

-- No step of a run is made later than its end.
theorem now_le_end (h : Run next s tr t) : ∀ e ∈ tr, e.pre.now ≤ t.now := by
  intro e he
  obtain ⟨tr₁, tr₂, rfl⟩ := List.append_of_mem he
  obtain ⟨u, -, hnext, hrest⟩ := h.cut
  exact now_le ((Run.single hnext).append hrest)

/-! ## Calls and what has been seen of them -/

/-- The request that an outcome is of. -/
def Outcome.request : Outcome → Request
  | .launched key record => .launch key record
  | .closed key => .close key
  | .notThere key none => .close key
  | .notThere key (some use) => .find key use
  | .found key use _ _ => .find key use
  | .listed _ => .list

def Call.request : Call → Request
  | .asked request => request
  | .settled outcome => outcome.request

@[simp] theorem Request.request_outcome (request : Request) {table : Table} {now : UInt64} :
    (request.outcome table now).request = request := by
  cases request with
  | launch key record => rfl
  | close key =>
    rw [outcome]
    split <;> rfl
  | find key use =>
    rw [outcome]
    cases table key <;> rfl
  | list => rfl

/-- Every call has been asked, under a number of its own. -/
structure Told (l : List Seen) (t : State) : Prop where
  asked : ∀ id c, t.calls id = some c → .asked id c.request ∈ l
  below : ∀ id request, .asked id request ∈ l → id < t.fresh
  unique : ∀ id request request', .asked id request ∈ l → .asked id request' ∈ l →
    request = request'

theorem Told.step {l : List Seen} (h : Told l s) (hm : Moved s a o t) : Told (l ++ o) t := by
  have hsame : ∀ {l' : List Seen}, (∀ id request, .asked id request ∉ l') →
      (∀ id request, Seen.asked id request ∈ l ++ l' ↔ .asked id request ∈ l) := by
    intro l' hl' id request
    rw [List.mem_append]
    exact ⟨fun hmem ↦ hmem.elim (fun hmem ↦ hmem) fun hmem ↦ absurd hmem (hl' id request), .inl⟩
  have hquiet : ∀ {l' : List Seen} {t : State}, (∀ id request, .asked id request ∉ l') →
      t.fresh = s.fresh → (∀ id c, t.calls id = some c → .asked id c.request ∈ l) →
      Told (l ++ l') t := by
    intro l' t hl' hfresh hcalls
    refine ⟨fun id c hc ↦ List.mem_append_left _ (hcalls id c hc), ?_, ?_⟩
    · intro id request hmem
      rw [hfresh]
      exact h.below id request ((hsame hl' id request).mp hmem)
    · intro id request request' hmem hmem'
      exact h.unique id request request' ((hsame hl' _ _).mp hmem) ((hsame hl' _ _).mp hmem')
  have hdrop : ∀ id id' c, update s.calls id none id' = some c → .asked id' c.request ∈ l := by
    intro id id' c hc
    rcases tasks_of_update hc with ⟨-, hnone⟩ | ⟨-, hold⟩
    · cases hnone
    · exact h.asked id' c hold
  cases hm with
  | tick _ => exact hquiet (by simp) rfl h.asked
  | expire _ => exact hquiet (by simp) rfl h.asked
  | evict _ _ => exact hquiet (by simp) rfl h.asked
  | answer _ _ => exact hquiet (by simp) rfl (hdrop _)
  | dial _ _ => exact hquiet (by simp) rfl (hdrop _)
  | start =>
    refine hquiet (by simp) rfl fun id c hc ↦ ?_
    cases hc
  | @settle id request hcall =>
    refine hquiet (by simp) rfl fun id' c hc ↦ ?_
    rcases tasks_of_update hc with ⟨rfl, hnew⟩ | ⟨-, hold⟩
    · cases hnew
      rw [Call.request, Request.request_outcome]
      exact h.asked id' _ hcall
    · exact h.asked id' c hold
  | @ask id request hfresh =>
    refine ⟨fun id' c hc ↦ ?_, fun id' request' hmem ↦ ?_, fun id' r r' hmem hmem' ↦ ?_⟩
    · rcases tasks_of_update hc with ⟨rfl, hnew⟩ | ⟨-, hold⟩
      · cases hnew
        exact List.mem_append_right _ (List.mem_singleton_self _)
      · exact List.mem_append_left _ (h.asked id' c hold)
    · rcases List.mem_append.mp hmem with hold | hnew
      · exact Nat.lt_succ_of_lt (Nat.lt_of_lt_of_le (h.below id' request' hold) hfresh)
      · cases List.mem_singleton.mp hnew
        exact Nat.lt_succ_self _
    · -- the number has not been given out before
      have hnot : ∀ r, .asked id r ∉ l := fun r hr ↦
        Nat.lt_irrefl _ (Nat.lt_of_lt_of_le (h.below id r hr) hfresh)
      rcases List.mem_append.mp hmem with hold | hnew <;>
        rcases List.mem_append.mp hmem' with hold' | hnew'
      · exact h.unique id' r r' hold hold'
      · cases List.mem_singleton.mp hnew'
        exact absurd hold (hnot _)
      · cases List.mem_singleton.mp hnew
        exact absurd hold' (hnot _)
      · cases List.mem_singleton.mp hnew
        cases List.mem_singleton.mp hnew'
        rfl

theorem told {now : UInt64} {table : Table} {n : Nat} (h : Run next (fresh now table n) tr t) :
    Told (seen see tr) t := by
  refine h.history (P := fun tr t ↦ Told (seen see tr) t) (C := fun _ ↦ True) ?_ ?_
    fun _ _ ↦ trivial
  · exact ⟨fun _ _ hc ↦ (by cases hc), fun _ _ hmem ↦ (by cases hmem),
      fun _ _ _ hmem ↦ (by cases hmem)⟩
  · intro l v a o w hl _ hnext
    rw [seen_append, seen_singleton]
    exact hl.step (next_moved hnext)

end LabStreamGate.Gateway.Atomic
