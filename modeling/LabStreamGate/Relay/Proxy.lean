import LabStreamGate.Library.Run
import LabStreamGate.Relay.Message

/-!
# `proxy_stream_observed`

Two loops take messages from one stream and send them to the other, each in its own direction; they
take turns in any order.  The first to end decides the result, and so does a cancelled token; the
other loop is dropped where it stands.
-/

namespace LabStreamGate.Relay

open Function

/-- `Poll` of the standard library. -/
inductive Poll (α : Type)
  | pending
  | ready (value : α)
  deriving DecidableEq, Repr

/-- The bytes of a poll that gave a message. -/
def Poll.payload : Poll (Option (Except Error Message)) → Bytes
  | .ready (some (.ok message)) => message.payload
  | _ => []

/-- The stream and the sink of a type, as far as a loop makes use of them.  The outside world
answers every call with a value of `ι`. -/
structure Endpoint (σ ι : Type) where
  pollNext : σ → ι → Option (σ × Poll (Option (Except Error Message)))
  startSend : σ → Message → ι → Option (σ × Poll (Except Error Unit))
  pollFlush : σ → ι → Option (σ × Poll (Except Error Unit))

/-! ## One loop -/

/-- Where `forward_observed` waits: for the next message, for room to send the one it has, or for
that one to go out. -/
inductive Loop
  | next
  | send (message : Message)
  | flush (message : Message)
  deriving DecidableEq, Repr

/-- What became of a turn of a loop. -/
inductive Progress
  | silent
  | pulled (message : Message)
  | sent (message : Message)
  | returned (result : Except Error Unit)

structure Turn (σ τ : Type) where
  stream : σ
  sink : τ
  loop : Loop
  progress : Progress

section

variable {σ τ ι : Type} (stream : Endpoint σ ι) (sink : Endpoint τ ι)

/-- One turn of `forward_observed`. -/
def forwardObserved (x : σ) (y : τ) : Loop → ι → Option (Turn σ τ)
  | .next, io => (stream.pollNext x io).map fun (x, polled) ↦
    match polled with
    | .pending => ⟨x, y, .next, .silent⟩
    | .ready none => ⟨x, y, .next, .returned (.ok ())⟩
    | .ready (some (.error error)) => ⟨x, y, .next, .returned (.error error)⟩
    | .ready (some (.ok message)) => ⟨x, y, .send message, .pulled message⟩
  | .send message, io => (sink.startSend y message io).map fun (y, polled) ↦
    match polled with
    | .pending => ⟨x, y, .send message, .silent⟩
    | .ready (.ok _) => ⟨x, y, .flush message, .silent⟩
    | .ready (.error error) => ⟨x, y, .send message, .returned (.error error)⟩
  | .flush message, io => (sink.pollFlush y io).map fun (y, polled) ↦
    match polled with
    | .pending => ⟨x, y, .flush message, .silent⟩
    | .ready (.ok _) => ⟨x, y, .next, .sent message⟩
    | .ready (.error error) => ⟨x, y, .flush message, .returned (.error error)⟩

end

/-! ## Both loops -/

/-- The two streams that are passed to `proxy_stream_observed`. -/
inductive Side
  | s1
  | s2
  deriving DecidableEq, Repr

namespace TrafficDirection

def stream : TrafficDirection → Side
  | clientToTarget => .s1
  | targetToClient => .s2

def sink : TrafficDirection → Side
  | clientToTarget => .s2
  | targetToClient => .s1

def other : TrafficDirection → TrafficDirection
  | clientToTarget => targetToClient
  | targetToClient => clientToTarget

theorem sink_ne_stream (direction : TrafficDirection) : direction.sink ≠ direction.stream := by
  cases direction <;> decide

theorem stream_other (direction : TrafficDirection) : direction.other.stream = direction.sink := by
  cases direction <;> rfl

theorem sink_other (direction : TrafficDirection) : direction.other.sink = direction.stream := by
  cases direction <;> rfl

theorem eq_other {direction direction' : TrafficDirection} (h : direction ≠ direction') :
    direction = direction'.other := by
  cases direction <;> cases direction' <;> first | rfl | exact absurd rfl h

end TrafficDirection

structure State (σ : Side → Type) where
  ends : (side : Side) → σ side
  loops : TrafficDirection → Loop
  bytes : TrafficDirection → UInt64
  result : Option (Except Error Unit)

structure ProxyStats where
  clientToTarget : UInt64
  targetToClient : UInt64
  deriving DecidableEq, Repr

def ProxyStats.bytes (stats : ProxyStats) : TrafficDirection → UInt64
  | .clientToTarget => stats.clientToTarget
  | .targetToClient => stats.targetToClient

inductive Action (ι : Type)
  | poll (direction : TrafficDirection) (io : ι)
  | cancelled
  deriving Repr

/-- What is seen of a step; a binary message that is pulled is counted and shown to the
observer. -/
inductive Out
  | silent
  | pulled (direction : TrafficDirection) (message : Message)
  | sent (direction : TrafficDirection) (message : Message)
  | returned (branch : Option TrafficDirection) (result : Except Error Unit)
  deriving DecidableEq

def Progress.out (direction : TrafficDirection) : Progress → Out
  | .silent => .silent
  | .pulled message => .pulled direction message
  | .sent message => .sent direction message
  | .returned result => .returned (some direction) result

section

variable {σ : Side → Type} {ι : Type}

/-- The start of `proxy_stream_observed`. -/
def proxyStreamObserved (ends : (side : Side) → σ side) : State σ where
  ends := ends
  loops := fun _ ↦ .next
  bytes := fun _ ↦ 0
  result := none

def State.apply (s : State σ) (direction : TrafficDirection)
    (turn : Turn (σ direction.stream) (σ direction.sink)) : State σ where
  ends := update (update s.ends direction.stream turn.stream) direction.sink turn.sink
  loops := update s.loops direction turn.loop
  bytes :=
    match turn.progress with
    | .pulled (.binary data) =>
      update s.bytes direction (s.bytes direction + UInt64.ofNat data.length)
    | _ => s.bytes
  result :=
    match turn.progress with
    | .returned result => some result
    | _ => s.result

/-- What `proxy_stream_observed` returns, once it does. -/
def State.returned (s : State σ) : Option (Except Error ProxyStats) :=
  s.result.map fun result ↦ result.map fun _ ↦
    ⟨s.bytes .clientToTarget, s.bytes .targetToClient⟩

variable (endpoints : (side : Side) → Endpoint (σ side) ι)

def next (s : State σ) : Action ι → Option (Out × State σ)
  | .poll direction io =>
    if s.result.isSome then none
    else
      (forwardObserved (endpoints direction.stream) (endpoints direction.sink)
        (s.ends direction.stream) (s.ends direction.sink) (s.loops direction) io).map fun turn ↦
          (turn.progress.out direction, s.apply direction turn)
  | .cancelled =>
    if s.result.isSome then none
    else some (.returned none (.ok ()), { s with result := some (.ok ()) })

end

/-! ## One step -/

section

variable {σ τ ι : Type} {stream : Endpoint σ ι} {sink : Endpoint τ ι} {x : σ} {y : τ} {loop : Loop}
  {io : ι} {turn : Turn σ τ}

/-- The turns of a loop. -/
inductive Turned (stream : Endpoint σ ι) (sink : Endpoint τ ι) (x : σ) (y : τ) :
    Loop → ι → Turn σ τ → Prop
  | wait {io : ι} {x' : σ} : stream.pollNext x io = some (x', .pending) →
      Turned stream sink x y .next io ⟨x', y, .next, .silent⟩
  | ended {io : ι} {x' : σ} : stream.pollNext x io = some (x', .ready none) →
      Turned stream sink x y .next io ⟨x', y, .next, .returned (.ok ())⟩
  | pull {io : ι} {x' : σ} {message : Message} :
      stream.pollNext x io = some (x', .ready (some (.ok message))) →
      Turned stream sink x y .next io ⟨x', y, .send message, .pulled message⟩
  | broken {io : ι} {x' : σ} {error : Error} :
      stream.pollNext x io = some (x', .ready (some (.error error))) →
      Turned stream sink x y .next io ⟨x', y, .next, .returned (.error error)⟩
  | unready {io : ι} {y' : τ} {message : Message} :
      sink.startSend y message io = some (y', .pending) →
      Turned stream sink x y (.send message) io ⟨x, y', .send message, .silent⟩
  | start {io : ι} {y' : τ} {message : Message} :
      sink.startSend y message io = some (y', .ready (.ok ())) →
      Turned stream sink x y (.send message) io ⟨x, y', .flush message, .silent⟩
  | refused {io : ι} {y' : τ} {message : Message} {error : Error} :
      sink.startSend y message io = some (y', .ready (.error error)) →
      Turned stream sink x y (.send message) io ⟨x, y', .send message, .returned (.error error)⟩
  | flushing {io : ι} {y' : τ} {message : Message} :
      sink.pollFlush y io = some (y', .pending) →
      Turned stream sink x y (.flush message) io ⟨x, y', .flush message, .silent⟩
  | sent {io : ι} {y' : τ} {message : Message} :
      sink.pollFlush y io = some (y', .ready (.ok ())) →
      Turned stream sink x y (.flush message) io ⟨x, y', .next, .sent message⟩
  | lost {io : ι} {y' : τ} {message : Message} {error : Error} :
      sink.pollFlush y io = some (y', .ready (.error error)) →
      Turned stream sink x y (.flush message) io
        ⟨x, y', .flush message, .returned (.error error)⟩

-- The case analysis over what the endpoints answer, made once.
theorem forwardObserved_turned (h : forwardObserved stream sink x y loop io = some turn) :
    Turned stream sink x y loop io turn := by
  cases loop with
  | next =>
    obtain ⟨⟨x', polled⟩, hpoll, rfl⟩ := Option.map_eq_some_iff.mp h
    cases polled with
    | pending => exact .wait hpoll
    | ready item =>
      cases item with
      | none => exact .ended hpoll
      | some item =>
        cases item with
        | error error => exact .broken hpoll
        | ok message => exact .pull hpoll
  | send message =>
    obtain ⟨⟨y', polled⟩, hpoll, rfl⟩ := Option.map_eq_some_iff.mp h
    cases polled with
    | pending => exact .unready hpoll
    | ready result =>
      cases result with
      | error error => exact .refused hpoll
      | ok => exact .start hpoll
  | flush message =>
    obtain ⟨⟨y', polled⟩, hpoll, rfl⟩ := Option.map_eq_some_iff.mp h
    cases polled with
    | pending => exact .flushing hpoll
    | ready result =>
      cases result with
      | error error => exact .lost hpoll
      | ok => exact .sent hpoll

end

section

variable {σ : Side → Type} {ι : Type} {endpoints : (side : Side) → Endpoint (σ side) ι}
  {s t : State σ} {a : Action ι} {o : Out} {direction : TrafficDirection}

@[simp] theorem State.apply_stream
    {turn : Turn (σ direction.stream) (σ direction.sink)} :
    (s.apply direction turn).ends direction.stream = turn.stream :=
  (update_of_ne direction.sink_ne_stream.symm ..).trans (update_self ..)

@[simp] theorem State.apply_sink {turn : Turn (σ direction.stream) (σ direction.sink)} :
    (s.apply direction turn).ends direction.sink = turn.sink := update_self ..

@[simp] theorem State.apply_loops_self
    {turn : Turn (σ direction.stream) (σ direction.sink)} :
    (s.apply direction turn).loops direction = turn.loop := update_self ..

@[simp] theorem State.apply_loops_other
    {turn : Turn (σ direction.stream) (σ direction.sink)} :
    (s.apply direction turn).loops direction.other = s.loops direction.other :=
  update_of_ne (by cases direction <;> decide) ..

/-- What an action can come to. -/
inductive Moved (endpoints : (side : Side) → Endpoint (σ side) ι) (s : State σ) :
    Action ι → Out → State σ → Prop
  | poll {direction : TrafficDirection} {io : ι}
      {turn : Turn (σ direction.stream) (σ direction.sink)} : s.result = none →
      Turned (endpoints direction.stream) (endpoints direction.sink) (s.ends direction.stream)
        (s.ends direction.sink) (s.loops direction) io turn →
      Moved endpoints s (.poll direction io) (turn.progress.out direction) (s.apply direction turn)
  | cancelled : s.result = none →
      Moved endpoints s .cancelled (.returned none (.ok ())) { s with result := some (.ok ()) }

-- The step function is unfolded here and nowhere else.
theorem next_moved (h : next endpoints s a = some (o, t)) : Moved endpoints s a o t := by
  cases a with
  | poll direction io =>
    simp only [next, Option.isSome_iff_ne_none, Option.ite_none_left_eq_some, not_not,
      Option.map_eq_some_iff, Prod.mk.injEq] at h
    obtain ⟨hresult, turn, hturn, rfl, rfl⟩ := h
    exact .poll hresult (forwardObserved_turned hturn)
  | cancelled =>
    simp only [next, Option.isSome_iff_ne_none, Option.ite_none_left_eq_some, not_not,
      Option.some.injEq, Prod.mk.injEq] at h
    obtain ⟨hresult, rfl, rfl⟩ := h
    exact .cancelled hresult

/-- The proxy has come to an end only by a step that shows it. -/
theorem next_result
    (h : next endpoints s a = some (o, t)) (hout : ∀ branch result, o ≠ .returned branch result) :
    t.result = s.result := by
  cases next_moved h with
  | @poll direction io turn _ _ =>
    simp only [State.apply]
    cases hturn : turn.progress with
    | returned result =>
      rw [hturn] at hout
      exact absurd rfl (hout (some direction) result)
    | _ => rfl
  | cancelled _ => exact absurd rfl (hout none (.ok ()))

end

/-! ## Invariants of one end -/

/-- Every call of the endpoint keeps `J`. -/
structure Endpoint.Keeps {σ ι : Type} (endpoint : Endpoint σ ι) (J : σ → Prop) : Prop where
  pollNext : ∀ {x x' io polled}, endpoint.pollNext x io = some (x', polled) → J x → J x'
  startSend : ∀ {x x' message io polled},
    endpoint.startSend x message io = some (x', polled) → J x → J x'
  pollFlush : ∀ {x x' io polled}, endpoint.pollFlush x io = some (x', polled) → J x → J x'

section

variable {σ τ ι : Type} {stream : Endpoint σ ι} {sink : Endpoint τ ι} {x : σ} {y : τ} {loop : Loop}
  {io : ι} {turn : Turn σ τ}

theorem Turned.keeps_stream {J : σ → Prop} (h : Turned stream sink x y loop io turn)
    (hkeeps : stream.Keeps J) (hx : J x) : J turn.stream := by
  cases h with
  | wait hnext => exact hkeeps.pollNext hnext hx
  | ended hnext => exact hkeeps.pollNext hnext hx
  | pull hnext => exact hkeeps.pollNext hnext hx
  | broken hnext => exact hkeeps.pollNext hnext hx
  | _ => exact hx

theorem Turned.keeps_sink {J : τ → Prop} (h : Turned stream sink x y loop io turn)
    (hkeeps : sink.Keeps J) (hy : J y) : J turn.sink := by
  cases h with
  | unready hstart => exact hkeeps.startSend hstart hy
  | start hstart => exact hkeeps.startSend hstart hy
  | refused hstart => exact hkeeps.startSend hstart hy
  | flushing hflush => exact hkeeps.pollFlush hflush hy
  | sent hflush => exact hkeeps.pollFlush hflush hy
  | lost hflush => exact hkeeps.pollFlush hflush hy
  | _ => exact hy

end

section

variable {σ : Side → Type} {ι : Type} {endpoints : (side : Side) → Endpoint (σ side) ι}
  {ends : (side : Side) → σ side} {s t : State σ} {a : Action ι} {o : Out} {side : Side}
  {J : σ side → Prop}

theorem TrafficDirection.stream_or_sink (direction : TrafficDirection) (side : Side) :
    side = direction.stream ∨ side = direction.sink := by
  cases direction <;> cases side <;> decide

theorem Moved.keeps (hm : Moved endpoints s a o t) (hkeeps : (endpoints side).Keeps J)
    (h : J (s.ends side)) : J (t.ends side) := by
  cases hm with
  | @poll direction io turn _ hturn =>
    rcases direction.stream_or_sink side with rfl | rfl
    · rw [State.apply_stream]
      exact hturn.keeps_stream hkeeps h
    · rw [State.apply_sink]
      exact hturn.keeps_sink hkeeps h
  | cancelled _ => exact h

/-- What every call of an endpoint keeps holds of that end throughout. -/
theorem ends_keep {tr : List (Event (State σ) (Action ι) Out)}
    (h : Run (next endpoints) (proxyStreamObserved ends) tr t)
    (hkeeps : (endpoints side).Keeps J) (hstart : J (ends side)) : J (t.ends side) := by
  refine h.invariant (I := fun t ↦ J (t.ends side)) (C := fun _ ↦ True) hstart ?_
    fun _ _ ↦ trivial
  intro v a o w hv _ hnext
  exact (next_moved hnext).keeps hkeeps hv

end

/-! ## Messages pulled and sent -/

/-- The binary message that the step pulls for the direction. -/
def Out.pulledBinary (direction : TrafficDirection) : Out → Option Bytes
  | .pulled direction' message => if direction' = direction then message.data? else none
  | _ => none

/-- The binary message whose sending the step completes in the direction. -/
def Out.sentBinary (direction : TrafficDirection) : Out → Option Bytes
  | .sent direction' message => if direction' = direction then message.data? else none
  | _ => none

/-- The binary message that a loop has pulled and has not finished sending. -/
def Loop.inHand : Loop → Option Bytes
  | .next => none
  | .send message => message.data?
  | .flush message => message.data?

section

variable {σ : Side → Type} {ι : Type} {endpoints : (side : Side) → Endpoint (σ side) ι}
  {ends : (side : Side) → σ side} {t : State σ} {direction : TrafficDirection}
  {tr : List (Event (State σ) (Action ι) Out)} {e : Event (State σ) (Action ι) Out}

def pulledBinary (tr : List (Event (State σ) (Action ι) Out)) (direction : TrafficDirection) :
    List Bytes := tr.filterMap fun e ↦ e.out.pulledBinary direction

def sentBinary (tr : List (Event (State σ) (Action ι) Out)) (direction : TrafficDirection) :
    List Bytes := tr.filterMap fun e ↦ e.out.sentBinary direction

theorem pulledBinary_snoc : pulledBinary (tr ++ [e]) direction =
    pulledBinary tr direction ++ (e.out.pulledBinary direction).toList := by
  cases h : e.out.pulledBinary direction <;> simp [pulledBinary, h]

theorem sentBinary_snoc : sentBinary (tr ++ [e]) direction =
    sentBinary tr direction ++ (e.out.sentBinary direction).toList := by
  cases h : e.out.sentBinary direction <;> simp [sentBinary, h]

-- What one turn pulls it takes in hand, and what it has sent it lets go.
theorem Turned.inHand {σ τ : Type} {stream : Endpoint σ ι} {sink : Endpoint τ ι} {x : σ} {y : τ}
    {loop : Loop} {io : ι} {turn : Turn σ τ} (h : Turned stream sink x y loop io turn) :
    loop.inHand.toList ++ ((turn.progress.out direction).pulledBinary direction).toList =
      ((turn.progress.out direction).sentBinary direction).toList ++ turn.loop.inHand.toList := by
  cases h <;> simp [Progress.out, Out.pulledBinary, Out.sentBinary, Loop.inHand]

/-- A turn of one direction is none of the other. -/
theorem Progress.out_other {progress : Progress} {direction' : TrafficDirection}
    (h : direction ≠ direction') :
    (progress.out direction').pulledBinary direction = none ∧
      (progress.out direction').sentBinary direction = none := by
  cases progress <;> simp [out, Out.pulledBinary, Out.sentBinary, Ne.symm h]

/-- The loop has sent the messages that it has pulled, but for the one in hand. -/
theorem pulled_eq_sent (h : Run (next endpoints) (proxyStreamObserved ends) tr t)
    (direction : TrafficDirection) :
    pulledBinary tr direction = sentBinary tr direction ++ (t.loops direction).inHand.toList := by
  refine h.history (C := fun _ ↦ True)
    (P := fun tr t ↦ pulledBinary tr direction =
      sentBinary tr direction ++ (t.loops direction).inHand.toList) rfl ?_ fun _ _ ↦ trivial
  intro l v a o w hv _ hnext
  rw [pulledBinary_snoc, sentBinary_snoc, hv]
  cases next_moved hnext with
  | @poll direction' io turn _ hturn =>
    by_cases hsame : direction = direction'
    · subst hsame
      rw [List.append_assoc, List.append_assoc, State.apply_loops_self, hturn.inHand]
    · obtain ⟨hpulled, hsent⟩ := @Progress.out_other direction turn.progress direction' hsame
      have hloop : (v.apply direction' turn).loops direction = v.loops direction :=
        update_of_ne hsame ..
      simp [hpulled, hsent, hloop]
  | cancelled _ => simp [Out.pulledBinary, Out.sentBinary]

-- A turn counts the binary message that it pulls.
theorem State.apply_bytes {s : State σ} {direction' : TrafficDirection}
    {turn : Turn (σ direction'.stream) (σ direction'.sink)} :
    (s.apply direction' turn).bytes direction = s.bytes direction + UInt64.ofNat
      ((turn.progress.out direction').pulledBinary direction).toList.flatten.length := by
  simp only [apply]
  cases turn.progress with
  | pulled message =>
    cases message with
    | binary data =>
      by_cases hsame : direction = direction'
      · subst hsame
        simp [Progress.out, Out.pulledBinary, Message.data?]
      · simp [Progress.out, Out.pulledBinary, Ne.symm hsame, hsame]
    | others => simp [Progress.out, Out.pulledBinary, Message.data?]
  | _ => simp [Progress.out, Out.pulledBinary]

/-- The counters are the lengths of what has been pulled. -/
theorem bytes_eq_pulled (h : Run (next endpoints) (proxyStreamObserved ends) tr t)
    (direction : TrafficDirection) :
    t.bytes direction = UInt64.ofNat (pulledBinary tr direction).flatten.length := by
  refine h.history (C := fun _ ↦ True)
    (P := fun tr t ↦ t.bytes direction = UInt64.ofNat (pulledBinary tr direction).flatten.length)
    rfl ?_ fun _ _ ↦ trivial
  intro l v a o w hv _ hnext
  rw [pulledBinary_snoc, List.flatten_append, List.length_append, UInt64.ofNat_add, ← hv]
  cases next_moved hnext with
  | poll _ _ => exact State.apply_bytes
  | cancelled _ => exact (UInt64.add_zero _).symm

end

end LabStreamGate.Relay
