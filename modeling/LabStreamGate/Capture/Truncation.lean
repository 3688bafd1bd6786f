import LabStreamGate.Capture.Budget

/-!
# The truncation flag

The flag is stored wherever a call turns data down, also where there was no byte in it.
-/

namespace LabStreamGate.Capture

open Function

variable {self self' : CaptureObserver} {call : Call} {after : Option Call} {outcome : Outcome}
  {s t : State} {a : Action} {o : Unit} {tr : List (Event State Action Unit)} {maxBytes : UInt64}

/-! ## What is turned down -/

/-- The data that a step turns down, which may be an empty message. -/
def Call.turnedDown (self : CaptureObserver) : Call → Outcome → Option Bytes
  | .compareExchange _ data already, _ => if self.maxBytes ≤ already then some data else none
  | .compareLength _ data length, _ => if length < data.length then some (data.drop length) else none
  | .trySend _ data length, .refused => some (data.take length)
  | _, _ => none

def turnedDown (s : State) : Action → Option Bytes
  | .observe _ _ => none
  | .run id outcome => (s.calls id).bind fun call ↦ call.turnedDown s.observer outcome

/-- How many bytes an event brings, and how many it loses. -/
def Event.observed (e : Event State Action Unit) : Nat :=
  match e.act with
  | .observe _ data => data.length
  | .run _ _ => 0

def Event.lost (e : Event State Action Unit) : Nat := ((turnedDown e.pre e.act).getD []).length

def observedBytes (tr : List (Event State Action Unit)) : Nat := (tr.map Event.observed).sum

def lostBytes (tr : List (Event State Action Unit)) : Nat := (tr.map Event.lost).sum

theorem lostBytes_pos_iff : 0 < lostBytes tr ↔
    ∃ e ∈ tr, ∃ lost, turnedDown e.pre e.act = some lost ∧ lost ≠ [] := by
  rw [lostBytes, Nat.pos_iff_ne_zero, Ne, List.sum_eq_zero_iff]
  simp only [List.mem_map, forall_exists_index, and_imp, forall_apply_eq_imp_iff₂, not_forall]
  constructor
  · rintro ⟨e, he, hlost⟩
    refine ⟨e, he, ?_⟩
    cases hdown : turnedDown e.pre e.act with
    | none =>
      rw [Event.lost, hdown] at hlost
      exact absurd rfl hlost
    | some lost =>
      rw [Event.lost, hdown, Option.getD_some, List.length_eq_zero_iff] at hlost
      exact ⟨lost, rfl, hlost⟩
  · rintro ⟨e, he, lost, hdown, hlost⟩
    refine ⟨e, he, ?_⟩
    rwa [Event.lost, hdown, Option.getD_some, List.length_eq_zero_iff]

/-! ## No byte is forgotten -/

/-- The bytes of a call that may still be enqueued. -/
def Call.pending : Call → Nat
  | .load _ data => data.length
  | .compareExchange _ data _ => data.length
  | .compareLength _ data _ => data.length
  | .trySend _ _ length => length
  | _ => 0

def pendingOf (call : Option Call) : Nat := call.elim 0 Call.pending

theorem Ran.conserved (h : Ran self call outcome self' after) (hfits : call.Fits) :
    call.pending + self.enqueued = pendingOf after + self'.enqueued +
      ((call.turnedDown self outcome).getD []).length := by
  cases h with
  | @exhausted direction data already hexhausted =>
    simp only [Call.turnedDown, if_pos hexhausted, Option.getD_some]
    show data.length + self.enqueued = 0 + self.enqueued + data.length
    omega
  | @reserve direction data hroom =>
    simp only [Call.turnedDown, if_neg (UInt64.not_le.mpr hroom), Option.getD_none]
    rfl
  | retry hroom =>
    simp only [Call.turnedDown, if_neg (UInt64.not_le.mpr hroom), Option.getD_none]
    rfl
  | @compareLength direction data length =>
    have hle : length ≤ data.length := hfits.1
    show data.length + self.enqueued = length + self.enqueued + _
    simp only [Call.turnedDown]
    split_ifs
    · rw [Option.getD_some, List.length_drop]
      omega
    · rw [Option.getD_none, List.length_nil]
      omega
  | @accepted direction data length now =>
    have htake : (data.take length).length = length := List.length_take_of_le hfits.1
    show length + self.enqueued = 0 + ((self.sender ++ [_]).map _).sum + 0
    rw [List.map_append, List.sum_append, List.map_singleton, List.sum_singleton, htake]
    simp only [CaptureObserver.enqueued]
    omega
  | @refused direction data length =>
    have htake : (data.take length).length = length := List.length_take_of_le hfits.1
    show length + self.enqueued = 0 + self.enqueued + (data.take length).length
    omega
  | _ => rfl

/-- Every byte observed is enqueued, lost or still under way. -/
def Conserved (tr : List (Event State Action Unit)) (s : State) : Prop :=
  observedBytes tr = s.observer.enqueued + lostBytes tr + totalHeld s.nextCall pendingOf s.calls

theorem Conserved.step (h : Conserved tr s) (hacc : Accounts s) (hm : Moved s a t) :
    Conserved (tr ++ [⟨s, a, o⟩]) t := by
  unfold Conserved observedBytes lostBytes at h ⊢
  simp only [List.map_append, List.sum_append, List.map_singleton, List.sum_singleton]
  cases hm with
  | @observe direction data =>
    show _ + data.length = s.observer.enqueued + (_ + 0) + totalHeld _ _ _
    rw [totalHeld_spawn]
    show _ + data.length = s.observer.enqueued + (_ + 0) + (_ + data.length)
    omega
  | @run id call outcome self' after hcall hran =>
    have hheld := @totalHeld_update _ s.nextCall id pendingOf s.calls after (hacc.below.lt hcall)
    have hran := hran.conserved (hacc.fits id call hcall)
    have hlost : Event.lost ⟨s, .run id outcome, o⟩ =
        ((call.turnedDown s.observer outcome).getD []).length := by
      simp only [Event.lost, turnedDown, hcall, Option.bind_some]
    have hnow : pendingOf (s.calls id) = call.pending := by
      rw [hcall]
      rfl
    show _ + 0 = self'.enqueued + (_ + Event.lost _) +
      totalHeld s.nextCall pendingOf (update s.calls id after)
    omega

/-! ## The flag -/

/-- The call is about to store the flag. -/
def Call.noting : Call → Bool
  | .fetchSub _ => true
  | .storeTruncated => true
  | _ => false

theorem Ran.flag (h : Ran self call outcome self' after) :
    (self'.truncated = true ∨ ∃ call' ∈ after, call'.noting = true) ↔
      (self.truncated = true ∨ call.noting = true) ∨
        (call.turnedDown self outcome).isSome = true := by
  cases h with
  | exhausted hexhausted => simp [Call.turnedDown, hexhausted]
  | reserve hroom => simp [Call.turnedDown, Call.noting, hroom]
  | retry hroom => simp [Call.turnedDown, Call.noting, hroom]
  | @compareLength direction data length =>
    by_cases hshort : length < data.length <;> simp [Call.turnedDown, Call.noting, hshort]
  | _ => simp [Call.turnedDown, Call.noting]

/-- The flag is stored or about to be. -/
def Flagged (s : State) : Prop :=
  s.observer.truncated = true ∨ ∃ id call, s.calls id = some call ∧ call.noting = true

theorem Flagged.step_iff (hbelow : TasksBelow s.nextCall s.calls) (hm : Moved s a t) :
    Flagged t ↔ Flagged s ∨ (turnedDown s a).isSome = true := by
  cases hm with
  | observe =>
    simp only [turnedDown, Option.isSome_none, Bool.false_eq_true, or_false]
    refine or_congr Iff.rfl ⟨?_, ?_⟩
    · rintro ⟨id, call, hcall, hnoting⟩
      rcases tasks_of_update hcall with ⟨-, hcall⟩ | ⟨-, hcall⟩
      · cases hcall
        cases hnoting
      · exact ⟨id, call, hcall, hnoting⟩
    · rintro ⟨id, call, hcall, hnoting⟩
      exact ⟨id, call, hbelow.spawn_of_some hcall, hnoting⟩
  | @run id call outcome self' after hcall hran =>
    have hflag := hran.flag
    rw [show turnedDown s (.run id outcome) = call.turnedDown s.observer outcome by
      simp only [turnedDown, hcall, Option.bind_some]]
    constructor
    · rintro (htruncated | ⟨id', call', hcall', hnoting⟩)
      · exact (hflag.mp (.inl htruncated)).imp
          (.imp_right fun hnoting ↦ ⟨id, call, hcall, hnoting⟩) fun hdown ↦ hdown
      · rcases tasks_of_update hcall' with ⟨-, hcall'⟩ | ⟨-, hcall'⟩
        · exact (hflag.mp (.inr ⟨call', hcall', hnoting⟩)).imp
            (.imp_right fun hnoting ↦ ⟨id, call, hcall, hnoting⟩) fun hdown ↦ hdown
        · exact .inl (.inr ⟨id', call', hcall', hnoting⟩)
    · intro hbefore
      -- a call other than this one stays as it was
      by_cases hother : ∃ id', id' ≠ id ∧ ∃ call', s.calls id' = some call' ∧ call'.noting = true
      · obtain ⟨id', hne, call', hcall', hnoting⟩ := hother
        exact .inr ⟨id', call', (update_of_ne hne _ _).trans hcall', hnoting⟩
      have hhere : (s.observer.truncated = true ∨ call.noting = true) ∨
          (call.turnedDown s.observer outcome).isSome = true := by
        refine hbefore.imp_left (.imp_right ?_)
        rintro ⟨id', call', hcall', hnoting⟩
        by_cases hid : id' = id
        · subst hid
          rw [hcall] at hcall'
          cases hcall'
          exact hnoting
        · exact absurd ⟨id', hid, call', hcall', hnoting⟩ hother
      exact (hflag.mpr hhere).imp_right fun ⟨call', hcall', hnoting⟩ ↦
        ⟨id, call', (update_self _ _ _).trans hcall', hnoting⟩

/-! ## The two together -/

structure Recorded (tr : List (Event State Action Unit)) (s : State) : Prop where
  accounts : Accounts s
  conserved : Conserved tr s
  flagged : Flagged s ↔ ∃ e ∈ tr, (turnedDown e.pre e.act).isSome = true

theorem Recorded.step (h : Recorded tr s) (hm : Moved s a t) :
    Recorded (tr ++ [⟨s, a, o⟩]) t := by
  refine ⟨h.accounts.step hm, h.conserved.step h.accounts hm, ?_⟩
  rw [Flagged.step_iff h.accounts.below hm, h.flagged]
  simp [or_and_right, exists_or]

theorem recorded (h : Run next (State.start maxBytes) tr s) : Recorded tr s := by
  refine h.history (C := fun _ ↦ True) ⟨accounts_start, rfl, ?_⟩
    (fun _ _ _ _ _ hi _ hnext ↦ hi.step (next_moved hnext)) (fun _ _ ↦ trivial)
  simp [Flagged, State.start]

/-- Once no call is under way, the flag says that some byte was not enqueued, if and only if some
byte was not, or no empty message was turned down. -/
theorem truncated_exact (h : Run next (State.start maxBytes) tr s)
    (hidle : ∀ id, s.calls id = none) :
    s.observer.captured.toNat = s.observer.enqueued ∧
    ((s.observer.truncated = true ↔ s.observer.captured.toNat < observedBytes tr) ↔
      (∃ e ∈ tr, ∃ lost, turnedDown e.pre e.act = some lost ∧ lost ≠ []) ∨
        ∀ e ∈ tr, turnedDown e.pre e.act ≠ some []) := by
  obtain ⟨hacc, hconserved, hflagged⟩ := recorded h
  have hcaptured : s.observer.captured.toNat = s.observer.enqueued := by
    rw [hacc.balance, reserved_of_idle hidle, Nat.add_zero]
  have hpending : totalHeld s.nextCall pendingOf s.calls = 0 :=
    totalHeld_eq_zero fun id ↦ by rw [hidle id]; rfl
  have hlost : s.observer.captured.toNat < observedBytes tr ↔
      ∃ e ∈ tr, ∃ lost, turnedDown e.pre e.act = some lost ∧ lost ≠ [] := by
    rw [← lostBytes_pos_iff, hcaptured, hconserved, hpending]
    omega
  have htruncated : s.observer.truncated = true ↔
      ∃ e ∈ tr, (turnedDown e.pre e.act).isSome = true := by
    rw [← hflagged, Flagged]
    simp [hidle]
  refine ⟨hcaptured, ?_⟩
  rw [hlost, htruncated]
  constructor
  · intro hexact
    by_cases hloses : ∃ e ∈ tr, ∃ lost, turnedDown e.pre e.act = some lost ∧ lost ≠ []
    · exact .inl hloses
    · refine .inr fun e he hempty ↦ hloses (hexact.mp ⟨e, he, ?_⟩)
      rw [hempty]
      rfl
  · rintro (hloses | hnone)
    · refine ⟨fun _ ↦ hloses, fun _ ↦ ?_⟩
      obtain ⟨e, he, lost, hdown, -⟩ := hloses
      exact ⟨e, he, by rw [hdown]; rfl⟩
    · constructor
      · rintro ⟨e, he, hsome⟩
        obtain ⟨lost, hdown⟩ := Option.isSome_iff_exists.mp hsome
        exact ⟨e, he, lost, hdown, fun hempty ↦ hnone e he (hempty ▸ hdown)⟩
      · rintro ⟨e, he, lost, hdown, -⟩
        exact ⟨e, he, by rw [hdown]; rfl⟩

-- A message that is cut short and an empty one after it.
theorem truncated_exact_sample : ∃ tr s, Run next (State.start 2) tr s ∧
    s.observer.truncated = true ∧ s.observer.captured.toNat < observedBytes tr := by
  obtain ⟨tr, s, hrun, hp⟩ := exists_run next (State.start 2)
    [.observe .clientToTarget [1, 2, 3], .run 0 .done, .run 0 .done, .run 0 .done,
      .run 0 (.accepted ⟨0⟩), .observe .clientToTarget [], .run 1 .done, .run 1 .done]
    (fun tr s ↦ s.observer.truncated && tr.any (fun e ↦ turnedDown e.pre e.act == some [3]) &&
      (List.range s.nextCall).all fun id ↦ (s.calls id).isNone) (by decide +kernel)
  simp only [Bool.and_eq_true, List.any_eq_true, beq_iff_eq] at hp
  obtain ⟨⟨htruncated, e, he, hdown⟩, hnone⟩ := hp
  have hidle := (accounts hrun).below.all_none hnone
  have hexact := (truncated_exact hrun hidle).2.mpr (.inl ⟨e, he, [3], hdown, by decide⟩)
  exact ⟨tr, s, hrun, htruncated, hexact.mp htruncated⟩

/-- An empty message after the budget is used up sets the flag, though all bytes were enqueued. -/
theorem empty_message_truncates : ¬ ∀ maxBytes tr s, Run next (State.start maxBytes) tr s →
    (∀ id, s.calls id = none) →
    (s.observer.truncated = true ↔ s.observer.captured.toNat < observedBytes tr) := by
  intro hall
  obtain ⟨tr, s, hrun, hp⟩ := exists_run next (State.start 1)
    [.observe .clientToTarget [7], .run 0 .done, .run 0 .done, .run 0 .done,
      .run 0 (.accepted ⟨0⟩), .observe .clientToTarget [], .run 1 .done, .run 1 .done]
    (fun tr s ↦ (s.observer.truncated && s.observer.captured == 1 && observedBytes tr == 1) &&
      (List.range s.nextCall).all fun id ↦ (s.calls id).isNone) (by decide +kernel)
  simp only [Bool.and_eq_true, beq_iff_eq] at hp
  obtain ⟨⟨⟨htruncated, hcaptured⟩, hobserved⟩, hnone⟩ := hp
  have hlt := (hall 1 tr s hrun ((accounts hrun).below.all_none (by simpa using hnone))).mp htruncated
  rw [hcaptured, hobserved] at hlt
  exact absurd hlt (by decide)

end LabStreamGate.Capture
