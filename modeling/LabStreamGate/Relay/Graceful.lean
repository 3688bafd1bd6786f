import LabStreamGate.Relay.Fidelity

/-!
# The end of a stream

When one of the two streams ends, the loop that reads the other one is dropped.  If that loop is
just then sending a message, the message is lost.
-/

namespace LabStreamGate.Relay

/-! ## What has been sent is out -/

section

variable {σ τ ι : Type} {stream : Endpoint σ ι} {sink : Endpoint τ ι} {x : σ} {y : τ} {loop : Loop}
  {io : ι} {turn : Turn σ τ} {ay : Account τ} {sent : List Bytes} {direction : TrafficDirection}

/-- Nothing but the rest of the message that is being flushed has still to go out after the
messages `sent`. -/
def Loop.Flushed (sent : List Bytes) (out unsent : Bytes) : Loop → Prop
  | .flush message => out ++ unsent = sent.flatten ++ message.payload ∧ unsent <:+ message.payload
  | _ => out = sent.flatten ∧ unsent = []

theorem Turned.flushed (h : Turned stream sink x y loop io turn) (hy : Carries sink ay)
    (hflushes : Flushes sink ay) (hbefore : loop.Flushed sent (ay.sent y) (ay.unsent y)) :
    turn.loop.Flushed (sent ++ ((turn.progress.out direction).sentBinary direction).toList)
      (ay.sent turn.sink) (ay.unsent turn.sink) := by
  have hstart : ∀ {y' message polled}, loop = .send message →
      sink.startSend y message io = some (y', polled) →
      let given := if polled = .ready (.ok ()) then message.payload else []
      ay.sent y' ++ ay.unsent y' = sent.flatten ++ given ∧ ay.unsent y' <:+ given := by
    intro y' message polled hloop hsend
    subst hloop
    obtain ⟨hout, hunsent⟩ := hbefore
    have hcarried := (hy.startSend hsend).1
    rw [hunsent, List.append_nil, hout] at hcarried
    exact ⟨hcarried, hflushes.startSend hsend hunsent⟩
  have hflush : ∀ {y' message polled}, loop = .flush message →
      sink.pollFlush y io = some (y', polled) →
      ay.sent y' ++ ay.unsent y' = sent.flatten ++ message.payload ∧
        ay.unsent y' <:+ message.payload := by
    intro y' message polled hloop hpoll
    subst hloop
    obtain ⟨hout, hunsent⟩ := hbefore
    exact ⟨(hy.pollFlush hpoll).1.trans hout, (hflushes.pollFlush hpoll).1.trans hunsent⟩
  have hnone : ∀ {out unsent : Bytes}, out ++ unsent = sent.flatten ++ [] ∧ unsent <:+ [] →
      out = sent.flatten ∧ unsent = [] := by
    rintro out unsent ⟨hout, hunsent⟩
    obtain rfl := List.suffix_nil.mp hunsent
    rw [List.append_nil, List.append_nil] at hout
    exact ⟨hout, rfl⟩
  have hsame : sent ++ (none : Option Bytes).toList = sent := List.append_nil sent
  cases h with
  | wait _ => exact hsame.symm ▸ hbefore
  | ended _ => exact hsame.symm ▸ hbefore
  | pull _ => exact hsame.symm ▸ hbefore
  | broken _ => exact hsame.symm ▸ hbefore
  | unready hsend => exact hsame.symm ▸ hnone (hstart rfl hsend)
  | refused hsend => exact hsame.symm ▸ hnone (hstart rfl hsend)
  | start hsend => exact hsame.symm ▸ hstart rfl hsend
  | flushing hpoll => exact hsame.symm ▸ hflush rfl hpoll
  | lost hpoll => exact hsame.symm ▸ hflush rfl hpoll
  | @sent _ _ message hpoll =>
    have hunsent := (hflushes.pollFlush hpoll).2 rfl
    have hout := (hflush rfl hpoll).1
    rw [hunsent, List.append_nil] at hout
    refine ⟨?_, hunsent⟩
    rw [hout]
    simp [Progress.out, Out.sentBinary]

end

section

variable {σ : Side → Type} {ι : Type} {endpoints : (side : Side) → Endpoint (σ side) ι}
  {accounts : (side : Side) → Account (σ side)} {ends : (side : Side) → σ side} {t : State σ}
  {tr : List (Event (State σ) (Action ι) Out)}

theorem flushed (hcarries : ∀ side, Carries (endpoints side) (accounts side))
    (hflushes : ∀ side, Flushes (endpoints side) (accounts side))
    (hstart : ∀ side, (proxyStreamObserved ends).sent accounts side = [] ∧
      (proxyStreamObserved ends).unsent accounts side = [])
    (h : Run (next endpoints) (proxyStreamObserved ends) tr t) (direction : TrafficDirection) :
    (t.loops direction).Flushed (sentBinary tr direction) (t.sent accounts direction.sink)
      (t.unsent accounts direction.sink) := by
  refine h.history (C := fun _ ↦ True)
    (P := fun tr t ↦ (t.loops direction).Flushed (sentBinary tr direction)
      (t.sent accounts direction.sink) (t.unsent accounts direction.sink)) (hstart _) ?_
    fun _ _ ↦ trivial
  intro l v a o w hv _ hnext
  rw [sentBinary_snoc]
  cases next_moved hnext with
  | @poll direction' io turn _ hturn =>
    by_cases hsame : direction = direction'
    · subst hsame
      rw [State.sent, State.unsent, State.apply_sink, State.apply_loops_self]
      exact hturn.flushed (hcarries _) (hflushes _) hv
    · obtain ⟨hsent, hunsent⟩ := State.apply_sent_other hcarries hturn
      have hnone := (@Progress.out_other direction turn.progress direction' hsame).2
      rw [hnone, Option.toList_none, List.append_nil]
      rw [TrafficDirection.eq_other hsame] at hv ⊢
      rw [hsent, hunsent, State.apply_loops_other]
      exact hv
  | cancelled _ =>
    have hnone : Out.sentBinary direction (.returned none (.ok ())) = none := rfl
    rw [hnone, Option.toList_none, List.append_nil]
    exact hv

/-- A loop that has no binary message in hand has sent all the bytes that it has pulled. -/
theorem sent_eq_pulled (hcarries : ∀ side, Carries (endpoints side) (accounts side))
    (hflushes : ∀ side, Flushes (endpoints side) (accounts side))
    (hstart : ∀ side, (proxyStreamObserved ends).sent accounts side = [] ∧
      (proxyStreamObserved ends).unsent accounts side = [])
    (h : Run (next endpoints) (proxyStreamObserved ends) tr t) {direction : TrafficDirection}
    (hnone : (t.loops direction).inHand = none) :
    t.sent accounts direction.sink = (pulledBinary tr direction).flatten := by
  have hflushed := flushed hcarries hflushes hstart h direction
  rw [pulled_eq_sent h direction, hnone, Option.toList_none, List.append_nil]
  cases hloop : t.loops direction with
  | next =>
    rw [hloop] at hflushed
    exact hflushed.1
  | send message =>
    rw [hloop] at hflushed
    exact hflushed.1
  | flush message =>
    rw [hloop] at hflushed hnone
    have hpayload : message.payload = [] := by
      rw [← message.flatten_data?, show message.data? = none from hnone]
      rfl
    obtain ⟨hout, hunsent⟩ := hflushed
    rw [hpayload] at hout hunsent
    rwa [List.suffix_nil.mp hunsent, List.append_nil, List.append_nil] at hout

end

/-! ## The result `Ok` -/

section

variable {σ : Side → Type} {ι : Type} {endpoints : (side : Side) → Endpoint (σ side) ι}
  {ends : (side : Side) → σ side} {t : State σ} {direction : TrafficDirection}
  {tr : List (Event (State σ) (Action ι) Out)} {e : Event (State σ) (Action ι) Out}

-- Only a loop that waits for its next message sees its stream end.
theorem Turned.next_of_ended {σ τ : Type} {stream : Endpoint σ ι} {sink : Endpoint τ ι} {x : σ}
    {y : τ} {loop : Loop} {io : ι} {turn : Turn σ τ} (h : Turned stream sink x y loop io turn)
    (hend : turn.progress = .returned (.ok ())) : loop = .next ∧ turn.loop = .next := by
  cases h <;> first | exact ⟨rfl, rfl⟩ | cases hend

theorem Progress.of_out_returned {progress : Progress} {direction' : TrafficDirection}
    {result : Except Error Unit}
    (h : progress.out direction' = .returned (some direction) result) :
    direction' = direction ∧ progress = .returned result := by
  cases progress <;> cases h
  exact ⟨rfl, rfl⟩

theorem loop_of_ended (hnext : next endpoints e.pre e.act = some (e.out, t))
    (hend : e.out = .returned (some direction) (.ok ())) :
    e.pre.loops direction = .next ∧ t.loops = e.pre.loops := by
  obtain ⟨s, a, o⟩ := e
  cases next_moved hnext with
  | @poll direction' io turn _ hturn =>
    obtain ⟨rfl, hprogress⟩ := Progress.of_out_returned hend
    obtain ⟨hbefore, hafter⟩ := hturn.next_of_ended hprogress
    refine ⟨hbefore, ?_⟩
    show Function.update s.loops direction' turn.loop = s.loops
    rw [hafter, ← hbefore, Function.update_eq_self]
  | cancelled _ => cases hend

-- The loop whose stream has ended has nothing in hand.
theorem inHand_of_ended (hnext : next endpoints e.pre e.act = some (e.out, t))
    (hend : e.out = .returned (some direction) (.ok ()))
    (hnone : (e.pre.loops direction.other).inHand = none) (direction' : TrafficDirection) :
    (t.loops direction').inHand = none := by
  obtain ⟨hloop, hloops⟩ := loop_of_ended hnext hend
  rw [hloops]
  by_cases hsame : direction' = direction
  · rw [hsame, hloop]
    rfl
  · rw [TrafficDirection.eq_other hsame, hnone]

/-- Where the end of a stream makes the result `Ok`, all binary messages pulled on either side have
been sent if and only if the loop of the other direction has none in hand at that moment. -/
theorem graceful_end_delivers
    (h : Run (next endpoints) (proxyStreamObserved ends) (tr ++ [e]) t)
    (hend : e.out = .returned (some direction) (.ok ())) :
    (∀ direction, pulledBinary (tr ++ [e]) direction = sentBinary (tr ++ [e]) direction) ↔
      (e.pre.loops direction.other).inHand = none := by
  have hnext := h.snoc_inv.2
  constructor
  · intro hall
    have hother := pulled_eq_sent h direction.other
    rw [hall, List.self_eq_append_right, Option.toList_eq_nil_iff,
      (loop_of_ended hnext hend).2] at hother
    exact hother
  · intro hnone direction'
    rw [pulled_eq_sent h direction', inHand_of_ended hnext hend hnone, Option.toList_none,
      List.append_nil]

end

/-- A client sends one message, and it is written to the target. -/
def sampleForward : List (Action Io) :=
  [.poll .clientToTarget (.message (.axumWebsocket (.binary [1, 2, 3]))),
    .poll .clientToTarget .done, .poll .clientToTarget (.wrote 2), .poll .clientToTarget (.wrote 1)]

-- The target closes its connection after that.
theorem graceful_end_delivers_sample : ∃ tr e t,
    Run (next endpoints) proxyObserved (tr ++ [e]) t ∧
    e.out = .returned (some .targetToClient) (.ok ()) ∧
    pulledBinary (tr ++ [e]) .clientToTarget = [[1, 2, 3]] ∧
    ∀ direction, pulledBinary (tr ++ [e]) direction = sentBinary (tr ++ [e]) direction := by
  obtain ⟨tr, e, tr', t, hrun, -, hp⟩ := exists_run_at (next endpoints) proxyObserved
    (sampleForward ++ [.poll .targetToClient (.read [])]) (.poll .targetToClient .pending) []
    (fun tr e tr' _ ↦ tr'.isEmpty && e.out = .returned (some .targetToClient) (.ok ()) &&
      pulledBinary (tr ++ [e]) .clientToTarget = [[1, 2, 3]] &&
      (e.pre.loops .clientToTarget).inHand.isNone)
    (by decide +kernel)
  simp only [Bool.and_eq_true, List.isEmpty_iff, decide_eq_true_eq, Option.isNone_iff_eq_none] at hp
  obtain ⟨⟨⟨rfl, hend⟩, hpulled⟩, hnone⟩ := hp
  exact ⟨tr, e, t, hrun, hend, hpulled, (graceful_end_delivers hrun hend).mpr hnone⟩

/-- The target closes its connection while a message to it is being written. -/
theorem message_lost : ¬ ∀ tr e t direction,
    Run (next endpoints) proxyObserved (tr ++ [e]) t →
    e.out = .returned (some direction) (.ok ()) →
    ∀ direction, pulledBinary (tr ++ [e]) direction = sentBinary (tr ++ [e]) direction := by
  intro hclaim
  obtain ⟨tr, e, tr', t, hrun, -, hp⟩ := exists_run_at (next endpoints) proxyObserved
    (sampleForward.take 3 ++ [.poll .targetToClient (.read [])]) (.poll .targetToClient .pending) []
    (fun tr e tr' _ ↦ tr'.isEmpty && e.out = .returned (some .targetToClient) (.ok ()) &&
      pulledBinary (tr ++ [e]) .clientToTarget = [[1, 2, 3]] &&
      sentBinary (tr ++ [e]) .clientToTarget = [])
    (by decide +kernel)
  simp only [Bool.and_eq_true, List.isEmpty_iff, decide_eq_true_eq] at hp
  obtain ⟨⟨⟨rfl, hend⟩, hpulled⟩, hsent⟩ := hp
  have hsame := hclaim tr e t _ hrun hend .clientToTarget
  rw [hpulled, hsent] at hsame
  cases hsame

/-- With nothing in hand at that moment, all the bytes pulled from either side have been written to
the TCP stream and handed to the WebSocket. -/
theorem graceful_end_written {t : State Half} {direction : TrafficDirection}
    {tr : List (Event (State Half) (Action Io) Out)} {e : Event (State Half) (Action Io) Out}
    (h : Run (next endpoints) proxyObserved (tr ++ [e]) t)
    (hend : e.out = .returned (some direction) (.ok ()))
    (hnone : (e.pre.loops direction.other).inHand = none) :
    t.tcp.written = (pulledBinary (tr ++ [e]) .clientToTarget).flatten ∧
      t.ws.handed.flatten = (pulledBinary (tr ++ [e]) .targetToClient).flatten := by
  have hsent : ∀ direction', t.sent accounts direction'.sink =
      (pulledBinary (tr ++ [e]) direction').flatten := by
    intro direction'
    refine sent_eq_pulled carries flushes (fun side ↦ ?_) h
      (inHand_of_ended h.snoc_inv.2 hend hnone direction')
    cases side <;> exact ⟨rfl, rfl⟩
  exact ⟨hsent .clientToTarget, hsent .targetToClient⟩

end LabStreamGate.Relay
