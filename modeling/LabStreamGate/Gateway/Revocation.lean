import LabStreamGate.Gateway.Frame
import LabStreamGate.Library.JsonText

/-!
# What closing and expiry do to connections

A connection is admitted by a look-up in the registry and a check of the expiry; its relay is then
given a token that nothing cancels.  So a tunnel that is closed or expired lets nobody in any more,
and those inside stay until they end or find that their lifetime is over.
-/

namespace LabStreamGate.Gateway

variable {json : JsonText} {stateFile : Option FilePath} {s t : State} {a : Action} {o : Out}
  {tr tr₁ tr₂ : List (Event State Action Out)} {e : Event State Action Out} {id : Nat} {io : Io}
  {key : String} {record : TunnelRecord}

/-! ## A key that is gone -/

theorem lookup_none_step (hs : s.connections.lookup key = none) (hins : o.inserts key = false)
    (hstart : a.isStart = false) (h : next json stateFile s a = some (o, t)) :
    t.connections.lookup key = none := by
  cases next_moved h with
  | tick _ => exact hs
  | reject => exact hs
  | answer => exact hs
  | spawn _ _ _ => exact hs
  | start _ => cases hstart
  | run _ hrun =>
    rw [State.apply_connections]
    rcases Task.run_connections hrun with hsame | ⟨k, r, rfl, hout, hc⟩ | ⟨k, rfl, hout, hc⟩ |
      ⟨k, use, rfl, hc⟩ | ⟨now, listing, rfl, hc⟩
    · rw [hsame, hs]
    · have hne : key ≠ k := by
        rintro rfl
        simp [hout, Out.inserts] at hins
      rw [hc, AList.lookup_insert_ne hne, hs]
    · by_contra hsome
      obtain ⟨r, hr⟩ := Option.ne_none_iff_exists'.mp hsome
      rw [hc] at hr
      rw [Registry.lookup_of_lookup_erase hr] at hs
      cases hs
    · by_contra hsome
      obtain ⟨r, hr⟩ := Option.ne_none_iff_exists'.mp hsome
      rw [hc] at hr
      rw [Registry.lookup_of_lookup_erase hr] at hs
      cases hs
    · rw [hc, Registry.lookup_retain, hs, Option.filter_none]

-- By induction on the steps.
theorem lookup_none_run (hs : s.connections.lookup key = none)
    (hrun : Run (next json stateFile) s tr t)
    (hno : ∀ e ∈ tr, e.out.inserts key = false ∧ e.act.isStart = false) :
    t.connections.lookup key = none :=
  hrun.invariant (I := fun s ↦ s.connections.lookup key = none) hs
    (fun _ _ _ _ hv hC hstep ↦ lookup_none_step hv hC.1 hC.2 hstep) hno

-- The step that takes the key out leaves it free.
theorem lookup_none_of_removed (ho : o.removes key = true)
    (h : next json stateFile s a = some (o, t)) : t.connections.lookup key = none := by
  cases next_moved h with
  | @run _ _ _ eff _ hrun =>
    have hout := Task.run_out hrun
    cases heff : eff.out with
    | removed k =>
      rw [heff] at hout ho
      obtain rfl : k = key := by simpa [Out.removes] using ho
      rw [State.apply_connections, hout.2, AList.lookup_erase]
    | _ =>
      rw [heff] at ho
      cases ho
  | _ => cases ho

/-! ## The way into a connection -/

/-- The task finds `record` under `key`. -/
def LooksUp (id : Nat) (key : String) (record : TunnelRecord) (e : Event State Action Out) :
    Prop :=
  e.act = .run id .done ∧ e.pre.tasks id = some (.lookup key .processTraffic) ∧
    e.pre.connections.lookup key = some record

/-- The task finds `record` not expired. -/
def ChecksExpiry (id : Nat) (key : String) (record : TunnelRecord)
    (e : Event State Action Out) : Prop :=
  e.act = .run id .done ∧ e.pre.tasks id = some (.checkExpiry key record .processTraffic) ∧
    record.isExpired e.pre.now = false

/-- The task is connected to the target of `record`. -/
def Dials (id : Nat) (key : String) (record : TunnelRecord) (e : Event State Action Out) : Prop :=
  e.act = .run id .done ∧ e.pre.tasks id = some (.connect key record)

/-- The relay of the connection is started: with the connect, or after `CaptureSession::start` for a
record whose traffic is captured. -/
def StartsRelay (id : Nat) (key : String) (record : TunnelRecord) (e : Event State Action Out) :
    Prop :=
  (Dials id key record e ∧ record.capture = false) ∨
    ∃ io, e.act = .run id io ∧ e.pre.tasks id = some (.startCapture key record)

/-- Whenever the relay of the task looked at the time, it was before the deadline. -/
def InTime (id deadline : Nat) (tr : List (Event State Action Out)) : Prop :=
  ∀ x ∈ tr, x.act = .run id .pending → x.pre.now.toNat < deadline

/-- The steps a task has behind it. -/
def Reached (tr : List (Event State Action Out)) (id : Nat) : Task → Prop
  | .checkExpiry key record .processTraffic => Once (LooksUp id key record) (fun _ ↦ True) tr
  | .acquireTunnel key record | .acquireSlot key record | .upgrade key record
  | .connect key record =>
    Once (LooksUp id key record) (fun l ↦ ∃ b ∈ l, ChecksExpiry id key record b) tr
  | .startCapture key record =>
    Once (LooksUp id key record) (fun l ↦ (∃ b ∈ l, ChecksExpiry id key record b) ∧
      ∃ c ∈ l, Dials id key record c) tr
  | .relay key record deadline =>
    Once (LooksUp id key record) (fun l ↦ (∃ b ∈ l, ChecksExpiry id key record b) ∧
      (∃ c ∈ l, Dials id key record c) ∧
      Once (fun g ↦ StartsRelay id key record g ∧
        deadline = g.pre.now.toNat + g.pre.connectionTimeout) (InTime id deadline) l) tr
  | _ => True

theorem exists_mem_snoc {α : Type*} {P : α → Prop} {l : List α} {x : α} (h : ∃ b ∈ l, P b) :
    ∃ b ∈ l ++ [x], P b := by
  obtain ⟨b, hb, hP⟩ := h
  exact ⟨b, List.mem_append_left _ hb, hP⟩

theorem exists_mem_last {α : Type*} {P : α → Prop} {l : List α} {x : α} (h : P x) :
    ∃ b ∈ l ++ [x], P b :=
  ⟨x, List.mem_append_right _ (List.mem_singleton_self _), h⟩

theorem InTime.snoc {deadline : Nat} (h : InTime id deadline tr)
    (he : e.act = .run id .pending → e.pre.now.toNat < deadline) :
    InTime id deadline (tr ++ [e]) := by
  intro x hx hact
  rcases List.mem_append.mp hx with hx | hx
  · exact h x hx hact
  · cases List.mem_singleton.mp hx
    exact he hact

-- What a connection has been through stays so as the run goes on.
theorem Reached.snoc {task : Task} (h : Reached tr id task)
    (he : ∀ key record deadline, task = .relay key record deadline → e.act = .run id .pending →
      e.pre.now.toNat < deadline) : Reached (tr ++ [e]) id task := by
  cases task with
  | checkExpiry key record use =>
    cases use with
    | ping => trivial
    | processTraffic => exact Once.snoc h fun _ _ ↦ trivial
  | acquireTunnel => exact Once.snoc h fun _ ↦ exists_mem_snoc
  | acquireSlot => exact Once.snoc h fun _ ↦ exists_mem_snoc
  | upgrade => exact Once.snoc h fun _ ↦ exists_mem_snoc
  | connect => exact Once.snoc h fun _ ↦ exists_mem_snoc
  | startCapture => exact Once.snoc h fun _ hl ↦ ⟨exists_mem_snoc hl.1, exists_mem_snoc hl.2⟩
  | relay key record deadline =>
    refine Once.snoc h fun _ hl ↦ ⟨exists_mem_snoc hl.1, exists_mem_snoc hl.2.1, ?_⟩
    exact hl.2.2.snoc fun _ hin ↦ hin.snoc (he key record deadline rfl)
  | _ => trivial

-- The next stage of the connection adds its own event to what it has been through.
theorem Reached.leads {task task' : Task} (hs : Reached tr id task)
    (htask : s.tasks id = some task) (h : s.Leads io task task') :
    Reached (tr ++ [⟨s, .run id io, o⟩]) id task' := by
  cases h with
  | @checkExpiry key record use hlook =>
    cases use with
    | ping => trivial
    | processTraffic => exact Once.last ⟨rfl, htask, hlook⟩ trivial
  | evict _ => trivial
  | acquireTunnel hexp => exact Once.snoc hs fun _ _ ↦ exists_mem_last ⟨rfl, htask, hexp⟩
  | acquireSlot => exact Once.snoc hs fun _ ↦ exists_mem_snoc
  | upgrade => exact Once.snoc hs fun _ ↦ exists_mem_snoc
  | connect => exact Once.snoc hs fun _ ↦ exists_mem_snoc
  | startCapture _ =>
    exact Once.snoc hs fun _ hl ↦ ⟨exists_mem_snoc hl, exists_mem_last ⟨rfl, htask⟩⟩
  | relay hcapture =>
    refine Once.snoc hs fun _ hl ↦ ⟨exists_mem_snoc hl, exists_mem_last ⟨rfl, htask⟩,
      Once.last ⟨.inl ⟨⟨rfl, htask⟩, hcapture⟩, rfl⟩ ?_⟩
    exact fun _ hx ↦ absurd hx List.not_mem_nil
  | captured =>
    refine Once.snoc hs fun _ hl ↦
      ⟨exists_mem_snoc hl.1, exists_mem_snoc hl.2, Once.last ⟨.inr ⟨_, rfl, htask⟩, rfl⟩ ?_⟩
    exact fun _ hx ↦ absurd hx List.not_mem_nil
  | forward => exact Reached.snoc hs fun _ _ _ _ hact ↦ by cases hact
  | wait hlt =>
    refine Reached.snoc hs fun _ _ _ htask' _ ↦ ?_
    cases htask'
    exact hlt
  | tail htail => cases task' <;> trivial

-- Other tasks keep their history; the stepping one adds to it.
theorem reached_step (hs : ∀ id task, s.tasks id = some task → Reached tr id task)
    (h : next json stateFile s a = some (o, t)) (id : Nat) (task : Task)
    (htask : t.tasks id = some task) : Reached (tr ++ [⟨s, a, o⟩]) id task := by
  cases next_moved h with
  | tick _ => exact (hs id task htask).snoc fun _ _ _ _ hact ↦ by cases hact
  | reject => exact (hs id task htask).snoc fun _ _ _ _ hact ↦ by cases hact
  | answer => exact (hs id task htask).snoc fun _ _ _ _ hact ↦ by cases hact
  | spawn hno _ hstart =>
    rcases State.spawn_tasks htask with rfl | hold
    · cases hstart <;> trivial
    · exact (hs id task hold).snoc fun _ _ _ _ hact ↦ absurd hact (hno _ _)
  | start hlaunch =>
    rw [(launch_eq hlaunch).2.2.1] at htask
    cases htask
  | run hbefore hrun =>
    rcases State.apply_tasks htask with ⟨rfl, hnew⟩ | ⟨hne, hold⟩
    · exact (hs _ _ hbefore).leads hbefore (Task.run_leads hrun hnew)
    · refine (hs id task hold).snoc fun _ _ _ _ hact ↦ ?_
      cases hact
      exact absurd rfl hne

/-- A byte relayed under `key` and `record` is on a connection whose handler found `record` under
`key`, where any earlier closing of the key had been made up for by a new registration or a new
process; after that it found `record` not yet expired, connected and started a relay, and whenever
that relay has looked at the time since, its lifetime was not over. -/
theorem relayed_was_admitted {config : Config} {now : UInt64} {files : Fs FilePath}
    {nextTask : Nat} {direction : Relay.TrafficDirection} {data : Bytes}
    (hlaunch : launch json stateFile config now files nextTask = some s)
    (hrun : Run (next json stateFile) s (tr₁ ++ e :: tr₂) t) (hact : e.act = .run id io)
    (ho : e.out = .relayed key record direction data) :
    ∃ tr₀ a tr, tr₁ = tr₀ ++ a :: tr ∧ LooksUp id key record a ∧
      (∀ before d after, tr₀ = before ++ d :: after → d.out.removes key = true →
        ∃ i ∈ after, i.out.inserts key = true ∨ i.act.isStart = true) ∧
      (∃ b ∈ tr, ChecksExpiry id key record b) ∧ (∃ c ∈ tr, Dials id key record c) ∧
      ∃ before g after, tr = before ++ g :: after ∧ StartsRelay id key record g ∧
        InTime id (g.pre.now.toNat + g.pre.connectionTimeout) after := by
  obtain ⟨u, hbefore, hstep, -⟩ := hrun.cut
  have hreached := hbefore.history
    (P := fun tr s ↦ ∀ id task, s.tasks id = some task → Reached tr id task)
    (C := fun _ ↦ True)
    (by
      intro id task htask
      rw [(launch_eq hlaunch).2.2.1] at htask
      cases htask)
    (fun _ _ _ _ _ hv _ hstep ↦ reached_step hv hstep) (fun _ _ ↦ trivial)
  rw [hact] at hstep
  generalize ho' : e.out = o at hstep
  cases next_moved hstep with
  | spawn hno _ _ => exact absurd rfl (hno id io)
  | run htask hrun' =>
    have hout := Task.run_out hrun'
    rw [← ho', ho] at hout
    obtain ⟨deadline, rfl⟩ := hout
    obtain ⟨tr₀, a, tr, rfl, hlook, hcheck, hdial, hstarted⟩ := hreached id _ htask
    obtain ⟨before, g, after, hsplit, ⟨hstarts, rfl⟩, hin⟩ := hstarted
    refine ⟨tr₀, a, tr, rfl, hlook, ?_, hcheck, hdial, before, g, after, hsplit, hstarts, hin⟩
    clear hsplit hin
    intro before d after htr₀ hremoves
    by_contra hno
    have hno : ∀ i ∈ after, i.out.inserts key = false ∧ i.act.isStart = false := by
      intro i hi
      constructor
      · exact Bool.eq_false_of_not_eq_true fun h ↦ hno ⟨i, hi, .inl h⟩
      · exact Bool.eq_false_of_not_eq_true fun h ↦ hno ⟨i, hi, .inr h⟩
    obtain ⟨-, hto, -⟩ := hbefore.cut
    rw [htr₀] at hto
    obtain ⟨v, -, hremoved, hafter⟩ := hto.cut
    have hnone := lookup_none_run (lookup_none_of_removed hremoves hremoved) hafter hno
    rw [hlook.2.2] at hnone
    cases hnone

/-- A registration until time 10 and a connection to it. -/
def sampleConnect : List Action :=
  [samplePost (some 10), .run 0 .done, .processTraffic sampleKey, .run 1 .done, .run 1 .done,
    .run 1 .done, .run 1 .done, .run 1 .done, .run 1 .done]

/-- `sampleRecord`, with its traffic captured. -/
def capturedRecord : TunnelRecord := { sampleRecord none with capture := true }

def sampleCaptured : List Action :=
  [.pool (some ⟨utf8 sampleSecret⟩) (.post (some (.obj [("key", .str sampleKey),
      ("target", .str "lab:80"), ("capture", .bool true)]))), .run 0 .done,
    .processTraffic sampleKey, .run 1 .done, .run 1 .done, .run 1 .done, .run 1 .done, .run 1 .done,
    .run 1 .done, .tick 5, .run 1 .done, .tick 64, .run 1 .pending]

-- The capture is started at time 5, so the byte is relayed more than a lifetime after the connect.
theorem relayed_was_admitted_sample : ∃ s tr₁ e tr₂ t,
    Run (next JsonText.compact none) s (tr₁ ++ e :: tr₂) t ∧
    ∃ tr₀ a tr, tr₁ = tr₀ ++ a :: tr ∧ LooksUp 1 sampleKey capturedRecord a ∧
      (∀ before d after, tr₀ = before ++ d :: after → d.out.removes sampleKey = true →
        ∃ i ∈ after, i.out.inserts sampleKey = true ∨ i.act.isStart = true) ∧
      (∃ b ∈ tr, ChecksExpiry 1 sampleKey capturedRecord b) ∧
      (∃ c ∈ tr, Dials 1 sampleKey capturedRecord c) ∧
      ∃ before g after, tr = before ++ g :: after ∧ StartsRelay 1 sampleKey capturedRecord g ∧
        InTime 1 (g.pre.now.toNat + g.pre.connectionTimeout) after := by
  obtain ⟨s, hs⟩ : ∃ s, launch JsonText.compact none sampleConfig 0 Fs.empty 0 = some s :=
    Option.isSome_iff_exists.mp (by decide)
  obtain ⟨tr₁, e, tr₂, t, hrun, hact, hp⟩ := exists_run_at (next JsonText.compact none) s
    sampleCaptured (.run 1 (.forwarded .clientToTarget [1])) []
    (fun _ e _ _ ↦ e.out = .relayed sampleKey capturedRecord .clientToTarget [1])
    (by cases hs; decide)
  rw [decide_eq_true_eq] at hp
  exact ⟨s, tr₁, e, tr₂, t, hrun, relayed_was_admitted hs hrun hact hp⟩

/-- A connection goes on relaying after the closing of its tunnel was answered, and past the time
of its record. -/
theorem closed_tunnel_relays :
    (¬ ∀ s tr₁ e tr₂ t id io key record direction data,
      launch JsonText.compact none sampleConfig 0 Fs.empty 0 = some s →
      Run (next JsonText.compact none) s (tr₁ ++ e :: tr₂) t → e.act = .run id io →
      e.out = .relayed key record direction data →
      ∀ before c after, tr₁ = before ++ c :: after →
        (∃ deadline, c.pre.tasks id = some (.relay key record deadline)) →
        c.out.removes key = true → ∀ d ∈ after, d.out ≠ .responded .noContent .empty) ∧
    ¬ ∀ s tr₁ e tr₂ t id io key record direction data,
      launch JsonText.compact none sampleConfig 0 Fs.empty 0 = some s →
      Run (next JsonText.compact none) s (tr₁ ++ e :: tr₂) t → e.act = .run id io →
      e.out = .relayed key record direction data →
      ∀ expiry, record.expiresAt = some expiry → e.pre.now ≤ expiry := by
  obtain ⟨s, hs⟩ : ∃ s, launch JsonText.compact none sampleConfig 0 Fs.empty 0 = some s :=
    Option.isSome_iff_exists.mp (by decide)
  constructor
  · intro hclaim
    obtain ⟨tr₁, e, tr₂, t, hrun, hact, hp⟩ := exists_run_at (next JsonText.compact none) s
      (sampleConnect ++ [sampleDelete, .run 2 .done, .run 2 .done])
      (.run 1 (.forwarded .clientToTarget [1])) []
      (fun tr₁ e _ _ ↦
        e.out = .relayed sampleKey (sampleRecord (some 10)) .clientToTarget [1] &&
          match tr₁.drop 10 with
          | c :: after =>
            c.pre.tasks 1 = some (.relay sampleKey (sampleRecord (some 10)) 60) &&
              c.out.removes sampleKey && after.any (·.out = .responded .noContent .empty)
          | [] => false)
      (by cases hs; decide)
    rw [Bool.and_eq_true, decide_eq_true_eq] at hp
    obtain ⟨ho, hp⟩ := hp
    split at hp
    · rename_i c after hdrop
      simp only [Bool.and_eq_true, decide_eq_true_eq, List.any_eq_true] at hp
      obtain ⟨⟨hrelay, hremoves⟩, d, hd, hanswer⟩ := hp
      exact hclaim s tr₁ e tr₂ t 1 _ _ _ _ _ hs hrun hact ho (tr₁.take 10) c after
        (by rw [← hdrop, List.take_append_drop]) ⟨60, hrelay⟩ hremoves d hd hanswer
    · cases hp
  · intro hclaim
    obtain ⟨tr₁, e, tr₂, t, hrun, hact, hp⟩ := exists_run_at (next JsonText.compact none) s
      (sampleConnect ++ [.tick 20]) (.run 1 (.forwarded .clientToTarget [1])) []
      (fun _ e _ _ ↦
        e.out = .relayed sampleKey (sampleRecord (some 10)) .clientToTarget [1] &&
          e.pre.now = 20)
      (by cases hs; decide)
    simp only [Bool.and_eq_true, decide_eq_true_eq] at hp
    have hle := hclaim s tr₁ e tr₂ t 1 _ _ _ _ _ hs hrun hact hp.1 10 rfl
    rw [hp.2] at hle
    exact absurd hle (by decide)

end LabStreamGate.Gateway
