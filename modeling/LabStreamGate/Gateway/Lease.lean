import LabStreamGate.Gateway.Frame
import LabStreamGate.Library.JsonText

/-!
# How long a registration lasts

`active_record` looks at a copy of the record and removes by key later on, so what it removes may
be a newer record than the one that had expired.  As long as that does not happen, a record stays
until it is replaced, closed or expired.
-/

namespace LabStreamGate.Gateway

variable {json : JsonText} {stateFile : Option FilePath} {s t : State} {a : Action} {o : Out}
  {tr tr₁ tr₂ : List (Event State Action Out)} {e : Event State Action Out} {key : String}
  {record : TunnelRecord}

/-- A call that is to remove what has expired took its time in the past. -/
def RetainPast (s : State) : Prop :=
  ∀ id now listing, s.tasks id = some (.retain now listing) → now ≤ s.now

theorem RetainPast.of_no_tasks (h : s.tasks = fun _ ↦ none) : RetainPast s := by
  intro id now listing htask
  rw [h] at htask
  cases htask

-- A clean-up keeps the time at which it was asked for, and the clock only goes on.
theorem RetainPast.step (hs : RetainPast s) (h : next json stateFile s a = some (o, t)) :
    RetainPast t := by
  cases next_moved h with
  | tick hle => exact fun id now listing htask ↦ UInt64.le_trans (hs id now listing htask) hle
  | reject => exact hs
  | answer => exact hs
  | spawn _ _ hstart =>
    intro id now listing htask
    rcases State.spawn_tasks htask with heq | hold
    · cases hstart <;> cases heq
      exact UInt64.le_refl _
    · exact hs id now listing hold
  | run _ hrun =>
    intro id now listing htask
    rcases State.apply_tasks htask with ⟨-, hnew⟩ | ⟨-, hold⟩
    · cases Task.run_leads hrun hnew with
      | tail htail => cases htail
    · exact hs id now listing hold
  | start hlaunch => exact .of_no_tasks (launch_eq hlaunch).2.2.1

theorem RetainPast.run (hs : RetainPast s) (h : Run (next json stateFile) s tr t) :
    RetainPast t :=
  h.invariant (C := fun _ ↦ True) hs (fun _ _ _ _ hv _ hstep ↦ hv.step hstep)
    fun _ _ ↦ trivial

/-- `active_record` removes a record of `key` that is still valid. -/
def evictsValid (key : String) (e : Event State Action Out) : Bool :=
  match e.pre.stepping e.act with
  | some (.evict key' _) =>
    key' == key && (e.pre.connections.lookup key).any fun record ↦ !record.isExpired e.pre.now
  | _ => false

/-- The step neither registers `key` nor closes it, in the same process. -/
def leaves (key : String) (e : Event State Action Out) : Bool :=
  !e.out.inserts key && !e.out.removes key && !e.act.isStart

/-- The registry has `record` under `key`, or its time is up. -/
def Kept (key : String) (record : TunnelRecord) (s : State) : Prop :=
  s.connections.lookup key = some record ∨ record.isExpired s.now = true

-- The record can only be taken out by one of the steps that the conclusion names.
theorem Kept.step (hs : RetainPast s) (hk : Kept key record s)
    (hleaves : leaves key ⟨s, a, o⟩ = true) (hevict : evictsValid key ⟨s, a, o⟩ = false)
    (h : next json stateFile s a = some (o, t)) : Kept key record t := by
  simp only [leaves, Bool.and_eq_true, Bool.not_eq_true'] at hleaves
  obtain ⟨⟨hins, hrem⟩, hstart⟩ := hleaves
  cases next_moved h with
  | tick hle => exact hk.imp id (TunnelRecord.isExpired_mono · hle)
  | reject => exact hk
  | answer => exact hk
  | spawn _ _ _ => exact hk
  | start hlaunch => cases hstart
  | @run i io task eff htask hrun =>
    rcases hk with hlook | hexp
    swap
    · exact .inr hexp
    show eff.connections.lookup key = some record ∨ record.isExpired s.now = true
    -- only the steps that change the registry matter; each changes one key, or drops what expired
    rcases Task.run_connections hrun with hsame | ⟨k, r, rfl, hout, hc⟩ | ⟨k, rfl, hout, hc⟩ |
      ⟨k, use, rfl, hc⟩ | ⟨now, listing, rfl, hc⟩
    · rw [hsame]
      exact .inl hlook
    · have hne : key ≠ k := by
        rintro rfl
        simp [hout, Out.inserts] at hins
      rw [hc, AList.lookup_insert_ne hne]
      exact .inl hlook
    · have hne : key ≠ k := by
        rintro rfl
        simp [hout, Out.removes] at hrem
      rw [hc, AList.lookup_erase_ne hne]
      exact .inl hlook
    · by_cases hk : key = k
      · subst hk
        refine .inr ?_
        simpa [evictsValid, State.stepping, htask, hlook] using hevict
      · rw [hc, AList.lookup_erase_ne hk]
        exact .inl hlook
    · rw [hc, Registry.lookup_retain, hlook]
      cases hexp : record.isExpired now with
      | true => exact .inr (TunnelRecord.isExpired_mono hexp (hs i now listing htask))
      | false => exact .inl (by simp [Option.filter, hexp])

-- By induction on the steps after the insertion.
theorem Kept.run (hs : RetainPast s) (hk : Kept key record s)
    (h : Run (next json stateFile) s tr t) (hleaves : ∀ e ∈ tr, leaves key e = true)
    (hevict : ∀ e ∈ tr, evictsValid key e = false) : Kept key record t :=
  (h.invariant (I := fun s ↦ RetainPast s ∧ Kept key record s)
    (C := fun e ↦ leaves key e = true ∧ evictsValid key e = false) ⟨hs, hk⟩
    (fun _ _ _ _ hv hC hstep ↦ ⟨hv.1.step hstep, hv.2.step hv.1 hC.1 hC.2 hstep⟩)
    fun e he ↦ ⟨hleaves e he, hevict e he⟩).2

/-- What was inserted is in the registry. -/
theorem Kept.of_inserted (h : next json stateFile s a = some (.inserted key record, t)) :
    Kept key record t := by
  generalize ho : Out.inserted key record = o at h
  cases next_moved h with
  | run _ hrun =>
    have hout := Task.run_out hrun
    rw [← ho] at hout
    refine .inl ?_
    rw [State.apply_connections, hout.2, AList.lookup_insert]
  | _ => cases ho

/-- A record that was inserted stays in the registry until its key is registered anew or closed or
its time is up, in every run of one process in which `active_record` removes no record that is
still valid. -/
theorem registration_kept {config : Config} {now : UInt64} {files : Fs FilePath} {nextTask : Nat}
    (hlaunch : launch json stateFile config now files nextTask = some s)
    (hrun : Run (next json stateFile) s (tr₁ ++ e :: tr₂) t)
    (hinserted : e.out = .inserted key record) (hleaves : ∀ e' ∈ tr₂, leaves key e' = true)
    (hevict : ∀ e' ∈ tr₂, evictsValid key e' = false) :
    t.connections.lookup key = some record ∨ record.isExpired t.now = true := by
  obtain ⟨u, hbefore, hinsert, hafter⟩ := hrun.cut
  rw [hinserted] at hinsert
  have hpast : RetainPast e.pre := (RetainPast.of_no_tasks (launch_eq hlaunch).2.2.1).run hbefore
  exact (Kept.of_inserted hinsert).run (hpast.step hinsert) hafter hleaves hevict

/-- A registration that a ping and a cleanup come after. -/
theorem registration_kept_sample : ∃ s tr₁ e tr₂ t,
    launch JsonText.compact none sampleConfig 0 Fs.empty 0 = some s ∧
    Run (next JsonText.compact none) s (tr₁ ++ e :: tr₂) t ∧
    (t.connections.lookup sampleKey = some (sampleRecord (some 10)) ∨
      (sampleRecord (some 10)).isExpired t.now = true) := by
  obtain ⟨s, hs⟩ : ∃ s, launch JsonText.compact none sampleConfig 0 Fs.empty 0 = some s :=
    Option.isSome_iff_exists.mp (by decide)
  obtain ⟨tr₁, e, tr₂, t, hrun, -, hp⟩ := exists_run_at (next JsonText.compact none) s
    [samplePost (some 10)] (.run 0 .done)
    [.ping sampleKey, .run 1 .done, .tick 9, .run 1 .done, .cleanup, .run 2 .done]
    (fun _ e tr₂ _ ↦ e.out = .inserted sampleKey (sampleRecord (some 10)) &&
      tr₂.all (leaves sampleKey) && tr₂.all (!evictsValid sampleKey ·))
    (by cases hs; decide)
  simp only [Bool.and_eq_true, List.all_eq_true, Bool.not_eq_true', decide_eq_true_eq] at hp
  exact ⟨s, tr₁, e, tr₂, t, hs, hrun,
    registration_kept hs hrun hp.1.1 hp.1.2 hp.2⟩

/-- A ping finds a record expired; the key is registered anew before the ping removes it. -/
theorem renewal_lost : ¬ ∀ s tr₁ e tr₂ t key record,
    launch JsonText.compact none sampleConfig 0 Fs.empty 0 = some s →
    Run (next JsonText.compact none) s (tr₁ ++ e :: tr₂) t → e.out = .inserted key record →
    (∀ e' ∈ tr₂, leaves key e' = true) →
    t.connections.lookup key = some record ∨ record.isExpired t.now = true := by
  intro hclaim
  obtain ⟨s, hs⟩ : ∃ s, launch JsonText.compact none sampleConfig 0 Fs.empty 0 = some s :=
    Option.isSome_iff_exists.mp (by decide)
  obtain ⟨tr₁, e, tr₂, t, hrun, -, hp⟩ := exists_run_at (next JsonText.compact none) s
    [samplePost (some 10), .run 0 .done, .ping sampleKey, .run 1 .done, .tick 10, .run 1 .done,
      samplePost none]
    (.run 2 .done) [.run 1 .done]
    (fun _ e tr₂ t ↦ e.out = .inserted sampleKey (sampleRecord none) &&
      tr₂.all (leaves sampleKey) && t.connections.lookup sampleKey = none)
    (by cases hs; decide)
  simp only [Bool.and_eq_true, List.all_eq_true, decide_eq_true_eq] at hp
  rcases hclaim s tr₁ e tr₂ t sampleKey (sampleRecord none) hs hrun hp.1.1 hp.1.2 with hkept | hexp
  · rw [hp.2] at hkept
    cases hkept
  · cases hexp

end LabStreamGate.Gateway
