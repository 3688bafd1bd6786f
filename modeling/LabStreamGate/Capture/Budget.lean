import LabStreamGate.Capture.Observer

/-!
# The budget of a capture

The counter is what the channel has taken and what the calls under way have reserved, whichever
way their steps interleave.
-/

namespace LabStreamGate.Capture

open Function
open Relay (TrafficDirection)

variable {self self' : CaptureObserver} {call : Call} {after : Option Call} {outcome : Outcome}
  {s t : State} {a : Action} {o : Unit} {tr : List (Event State Action Unit)}
  {maxBytes already : UInt64} {data : Bytes}

/-! ## Reservations -/

theorem reservation_le : reservation maxBytes already data ≤ data.length := Nat.min_le_right _ _

/-- A reservation stays below the bound, so that the sum does not wrap. -/
theorem toNat_reserve (h : already < maxBytes) :
    (already + UInt64.ofNat (reservation maxBytes already data)).toNat =
        already.toNat + reservation maxBytes already data ∧
      already.toNat + reservation maxBytes already data ≤ maxBytes.toNat := by
  have hlt := UInt64.lt_iff_toNat_lt.mp h
  have hfree : reservation maxBytes already data ≤ (maxBytes - already).toNat := Nat.min_le_left _ _
  rw [UInt64.toNat_sub_of_le _ _ (UInt64.le_of_lt h)] at hfree
  have hmax := maxBytes.toNat_lt
  constructor
  · rw [UInt64.toNat_add, UInt64.toNat_ofNat', Nat.mod_eq_of_lt (by omega), Nat.mod_eq_of_lt (by omega)]
  · omega

/-- Where there is room, only an empty message gets no byte. -/
theorem eq_nil_of_reservation (h : already < maxBytes)
    (hzero : reservation maxBytes already data = 0) : data = [] := by
  have hlt := UInt64.lt_iff_toNat_lt.mp h
  have hmin : min (maxBytes - already).toNat data.length = 0 := hzero
  rw [UInt64.toNat_sub_of_le _ _ (UInt64.le_of_lt h)] at hmin
  exact List.eq_nil_of_length_eq_zero (by omega)

/-! ## The accounts -/

/-- The bytes of the packets that the channel has taken. -/
def CaptureObserver.enqueued (self : CaptureObserver) : Nat :=
  (self.sender.map fun packet ↦ packet.data.length).sum

/-- The bytes that a call has reserved and neither sent nor given back. -/
def Call.reserved : Call → Nat
  | .compareLength _ _ length => length
  | .trySend _ _ length => length
  | .fetchSub length => length
  | _ => 0

def reservedBy (call : Option Call) : Nat := call.elim 0 Call.reserved

/-- The bytes that the calls under way have reserved. -/
def State.reserved (s : State) : Nat := totalHeld s.nextCall reservedBy s.calls

/-- A reservation is of bytes that there are, and of none only where there are none. -/
def Call.Fits : Call → Prop
  | .compareLength _ data length => length ≤ data.length ∧ (length = 0 → data = [])
  | .trySend _ data length => length ≤ data.length ∧ (length = 0 → data = [])
  | _ => True

/-- One step keeps the counter equal to what is enqueued and reserved. -/
theorem Ran.balance (h : Ran self call outcome self' after) (hfits : call.Fits)
    (hbound : self.captured.toNat ≤ self.maxBytes.toNat)
    (hheld : self.enqueued + call.reserved ≤ self.captured.toNat) :
    self'.captured.toNat ≤ self'.maxBytes.toNat ∧
      self'.captured.toNat + self.enqueued + call.reserved =
        self.captured.toNat + self'.enqueued + reservedBy after := by
  cases h with
  | reserve hroom =>
    obtain ⟨hsum, hmax⟩ := toNat_reserve hroom
    refine ⟨hsum ▸ hmax, ?_⟩
    show (self.captured + UInt64.ofNat _).toNat + self.enqueued + 0 =
      self.captured.toNat + self.enqueued + reservation _ _ _
    rw [hsum]
    omega
  | @accepted direction data length now =>
    have htake : (data.take length).length = length := List.length_take_of_le hfits.1
    refine ⟨hbound, ?_⟩
    show self.captured.toNat + self.enqueued + length =
      self.captured.toNat + ((self.sender ++ [_]).map _).sum + 0
    rw [List.map_append, List.sum_append, List.map_singleton, List.sum_singleton, htake]
    simp only [CaptureObserver.enqueued]
    omega
  | @fetchSub length =>
    have hlength : length ≤ self.captured.toNat := Nat.le_trans (Nat.le_add_left _ _) hheld
    have hlt := self.captured.toNat_lt
    have hof : (UInt64.ofNat length).toNat = length := by
      rw [UInt64.toNat_ofNat', Nat.mod_eq_of_lt (by omega)]
    have hsub : (self.captured - UInt64.ofNat length).toNat = self.captured.toNat - length := by
      rw [UInt64.toNat_sub_of_le _ _ (UInt64.le_iff_toNat_le.mpr (by omega)), hof]
    refine ⟨?_, ?_⟩
    · show (self.captured - UInt64.ofNat length).toNat ≤ self.maxBytes.toNat
      omega
    · show (self.captured - UInt64.ofNat length).toNat + self.enqueued + length =
        self.captured.toNat + self.enqueued + 0
      omega
  | _ => exact ⟨hbound, rfl⟩

theorem Ran.fits (h : Ran self call outcome self' after) (hfits : call.Fits) :
    ∀ call' ∈ after, call'.Fits := by
  intro call' hcall'
  cases h with
  | reserve hroom =>
    cases hcall'
    exact ⟨reservation_le, eq_nil_of_reservation hroom⟩
  | compareLength =>
    cases hcall'
    exact hfits
  | load | retry | refused | fetchSub =>
    cases hcall'
    trivial
  | exhausted | accepted | storeTruncated => cases hcall'

theorem Ran.maxBytes_eq (h : Ran self call outcome self' after) :
    self'.maxBytes = self.maxBytes := by
  cases h <;> rfl

structure Accounts (s : State) : Prop where
  below : TasksBelow s.nextCall s.calls
  bound : s.observer.captured.toNat ≤ s.observer.maxBytes.toNat
  balance : s.observer.captured.toNat = s.observer.enqueued + s.reserved
  fits : ∀ id call, s.calls id = some call → call.Fits

/-- What one call has reserved is part of what all have. -/
theorem Accounts.reserved_le {id : Nat} (h : Accounts s) (hcall : s.calls id = some call) :
    call.reserved ≤ s.reserved := by
  have hlast := @totalHeld_update _ s.nextCall id reservedBy s.calls none (h.below.lt hcall)
  have hnow : reservedBy (s.calls id) = call.reserved := by
    rw [hcall]
    rfl
  have hnone : reservedBy none = 0 := rfl
  simp only [State.reserved]
  omega

theorem Accounts.step (h : Accounts s) (hm : Moved s a t) : Accounts t := by
  cases hm with
  | observe =>
    refine ⟨h.below.spawn, h.bound, ?_, fun id call hcall ↦ ?_⟩
    · show s.observer.captured.toNat = s.observer.enqueued + totalHeld _ _ _
      rw [totalHeld_spawn]
      exact h.balance
    · rcases tasks_of_update hcall with ⟨-, hcall⟩ | ⟨-, hcall⟩
      · cases hcall
        trivial
      · exact h.fits id call hcall
  | @run id call outcome self' after hcall hran =>
    have hlt := h.below.lt hcall
    have hle := h.reserved_le hcall
    obtain ⟨hbound, hbalance⟩ := hran.balance (h.fits id call hcall) h.bound
      (by rw [h.balance]; omega)
    refine ⟨h.below.step hlt, hbound, ?_, fun id' call' hcall' ↦ ?_⟩
    · have hheld := @totalHeld_update _ s.nextCall id reservedBy s.calls after hlt
      have hnow : reservedBy (s.calls id) = call.reserved := by
        rw [hcall]
        rfl
      have hold := h.balance
      show self'.captured.toNat =
        self'.enqueued + totalHeld s.nextCall reservedBy (update s.calls id after)
      simp only [State.reserved] at hold
      omega
    · rcases tasks_of_update hcall' with ⟨-, hcall'⟩ | ⟨-, hcall'⟩
      · exact hran.fits (h.fits id call hcall) call' hcall'
      · exact h.fits id' call' hcall'

theorem accounts_start : Accounts (State.start maxBytes) := by
  refine ⟨TasksBelow.of_none, Nat.zero_le _, ?_, ?_⟩
  · show (0 : UInt64).toNat = 0 + totalHeld 0 _ _
    rfl
  · intro id call hcall
    cases hcall

theorem accounts (h : Run next (State.start maxBytes) tr s) : Accounts s :=
  h.invariant (C := fun _ ↦ True) accounts_start
    (fun _ _ _ _ hi _ hnext ↦ hi.step (next_moved hnext)) (fun _ _ ↦ trivial)

theorem maxBytes_eq (h : Run next (State.start maxBytes) tr s) : s.observer.maxBytes = maxBytes :=
  h.invariant (I := fun s ↦ s.observer.maxBytes = maxBytes) (C := fun _ ↦ True) rfl
    (fun _ _ _ _ hi _ hnext ↦ by
      cases next_moved hnext with
      | observe => exact hi
      | run _ hran => exact hran.maxBytes_eq.trans hi) (fun _ _ ↦ trivial)

/-- No call under way holds anything. -/
theorem reserved_of_idle (h : ∀ id, s.calls id = none) : s.reserved = 0 :=
  totalHeld_eq_zero fun id ↦ by rw [h id]; rfl

/-- The counter keeps to the budget, is given back only what it has, and is at all times what has
been enqueued and what is reserved. -/
theorem budget_kept (h : Run next (State.start maxBytes) tr s) :
    s.observer.captured.toNat ≤ maxBytes.toNat ∧
      (∀ id length, s.calls id = some (.fetchSub length) →
        length ≤ s.observer.captured.toNat) ∧
      s.observer.captured.toNat = s.observer.enqueued + s.reserved ∧
      ((∀ id, s.calls id = none) → s.observer.captured.toNat = s.observer.enqueued) := by
  have hacc := accounts h
  refine ⟨maxBytes_eq h ▸ hacc.bound, fun id length hcall ↦ ?_, hacc.balance, fun hidle ↦ ?_⟩
  · have hle : length ≤ s.reserved := hacc.reserved_le hcall
    have hbalance := hacc.balance
    omega
  · rw [hacc.balance, reserved_of_idle hidle, Nat.add_zero]

-- Two messages of three bytes race for five: the one that reserves first is refused.
theorem budget_kept_sample : ∃ tr s, Run next (State.start 5) tr s ∧
    s.observer.captured.toNat = s.observer.enqueued ∧ s.observer.enqueued = 2 := by
  obtain ⟨tr, s, hrun, hp⟩ := exists_run next (State.start 5)
    [.observe .clientToTarget [1, 2, 3], .observe .targetToClient [4, 5, 6], .run 0 .done,
      .run 1 .done, .run 0 .done, .run 1 .spurious, .run 1 .done, .run 0 .done, .run 0 .refused,
      .run 0 .done, .run 1 .done, .run 1 (.accepted ⟨0⟩), .run 0 .done]
    (fun _ s ↦ s.observer.enqueued == 2 &&
      (List.range s.nextCall).all fun id ↦ (s.calls id).isNone) (by decide +kernel)
  rw [Bool.and_eq_true, beq_iff_eq] at hp
  have hidle := (accounts hrun).below.all_none hp.2
  exact ⟨tr, s, hrun, (budget_kept hrun).2.2.2 hidle, hp.1⟩

end LabStreamGate.Capture
