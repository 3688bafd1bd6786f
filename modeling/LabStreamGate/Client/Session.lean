import LabStreamGate.Client.Version
import LabStreamGate.Library.Run
import LabStreamGate.Library.TaskTable

/-!
# The session of the browser client

Calls of `connect` and the callbacks of intervals wait for the daemon at the same time, and each
goes on when what it waits for has come.  In between they share the state that the client shows, the
interval and the counter of its ticks.
-/

namespace LabStreamGate.Client.Session

open Function

/-! ## The client -/

/-- What a call of `connect` waits for; after a `check` it waits for its turn. -/
inductive Connecting
  | version
  | check
  | checked
  | request
  | checkAgain
  | checkedAgain
  deriving DecidableEq, Repr

/-- The same for a callback of the interval. -/
inductive Ticking
  | check
  | checked
  | sync
  deriving DecidableEq, Repr

/-- `running` are the intervals that have not been cleared. -/
structure State where
  state : WsrxState
  onStateChangeCallbacks : List Nat
  nextCallback : Nat
  interval : Option Nat
  running : Nat → Bool
  nextInterval : Nat
  tickCounter : Nat
  connects : Nat → Option Connecting
  nextConnect : Nat
  ticks : Nat → Option Ticking
  nextTick : Nat

/-- The constructor of `Wsrx`. -/
def start : State where
  state := .invalid
  onStateChangeCallbacks := []
  nextCallback := 0
  interval := none
  running := fun _ ↦ false
  nextInterval := 0
  tickCounter := 0
  connects := fun _ ↦ none
  nextConnect := 0
  ticks := fun _ ↦ none
  nextTick := 0

inductive Action
  | onStateChange
  | offStateChange (id : Nat)
  | connect
  | version (c : Nat) (answer : Except Thrown Json)
  | checked (c : Nat) (answer : Except Thrown Nat)
  | resume (c : Nat)
  | requested (c : Nat) (answer : Except Thrown Unit)
  | fire (interval : Nat)
  | tickChecked (k : Nat) (answer : Except Thrown Nat)
  | tickResume (k : Nat)
  | synced (k : Nat)

/-- The call of `connect` that goes on with the action. -/
def Action.call : Action → Option Nat
  | .version c _ | .checked c _ | .resume c | .requested c _ => some c
  | _ => none

inductive Did
  | silent
  | registered (id : Nat)
  | thrown (error : WsrxError)
  | posted
  | started (interval : Nat)
  | cleared
  | syncs
  | ticked
  deriving DecidableEq

/-- What a step does, with the callbacks that it calls. -/
structure Out where
  told : List (Nat × WsrxState)
  did : Did

namespace State

def setConnect (s : State) (c : Nat) (connecting : Option Connecting) : State :=
  { s with connects := update s.connects c connecting }

def setTick (s : State) (k : Nat) (ticking : Option Ticking) : State :=
  { s with ticks := update s.ticks k ticking }

def setState (s : State) (state : WsrxState) : State := { s with state := state }

/-- The callbacks that `setState` calls.  They are told in one step: the loop over the `Map` gives
nothing else a turn, and a callback is taken to return without an exception and without having
registered or taken out another one. -/
def told (s : State) (state : WsrxState) : List (Nat × WsrxState) :=
  if s.state = state then [] else s.onStateChangeCallbacks.map fun id ↦ (id, state)

/-- `clearInterval` of the interval there is. -/
def clear (s : State) : State :=
  match s.interval with
  | some id => { s with running := update s.running id false }
  | none => s

/-- `tick`. -/
def tick (s : State) : State :=
  { s.clear with
    interval := some s.nextInterval
    running := update s.clear.running s.nextInterval true
    nextInterval := s.nextInterval + 1 }

/-- The end of a callback that has found the client usable. -/
def count (s : State) : State := { s with tickCounter := (s.tickCounter + 1) % 5 }

end State

section

variable (js : Coercion)

def next (s : State) : Action → Option (Out × State)
  | .onStateChange =>
    some (⟨[], .registered s.nextCallback⟩, { s with
      onStateChangeCallbacks := s.onStateChangeCallbacks ++ [s.nextCallback]
      nextCallback := s.nextCallback + 1 })
  | .offStateChange id =>
    some (⟨[], .silent⟩, { s with
      onStateChangeCallbacks := s.onStateChangeCallbacks.filter (· ≠ id) })
  | .connect =>
    some (⟨[], .silent⟩, { s with
      connects := update s.connects s.nextConnect (some .version)
      nextConnect := s.nextConnect + 1 })
  | .version c answer =>
    if s.connects c = some .version then
      let (state, result) := checkVersion js s.state answer
      match result with
      | .ok _ => some (⟨s.told state, .silent⟩, (s.setState state).setConnect c (some .check))
      | .error error => some (⟨s.told state, .thrown error⟩, (s.setState state).setConnect c none)
    else none
  | .checked c answer =>
    let state := check answer
    match s.connects c with
    | some .check =>
      some (⟨s.told state, .silent⟩, (s.setState state).setConnect c (some .checked))
    | some .checkAgain =>
      some (⟨s.told state, .silent⟩, (s.setState state).setConnect c (some .checkedAgain))
    | _ => none
  | .resume c =>
    match s.connects c with
    | some .checked =>
      if s.state = .invalid then some (⟨[], .posted⟩, s.setConnect c (some .request))
      else some (⟨[], .started s.nextInterval⟩, s.tick.setConnect c none)
    | some .checkedAgain =>
      some (⟨[], .started s.nextInterval⟩, s.tick.setConnect c none)
    | _ => none
  | .requested c answer =>
    if s.connects c = some .request then
      match answer with
      | .ok _ => some (⟨[], .silent⟩, s.setConnect c (some .checkAgain))
      | .error error =>
        some (⟨s.told .invalid, .thrown (catchConnect error)⟩,
          (s.setState .invalid).setConnect c none)
    else none
  | .fire interval =>
    if s.running interval then
      some (⟨[], .silent⟩, { s with
        ticks := update s.ticks s.nextTick (some .check)
        nextTick := s.nextTick + 1 })
    else none
  | .tickChecked k answer =>
    if s.ticks k = some .check then
      some (⟨s.told (check answer), .silent⟩,
        (s.setState (check answer)).setTick k (some .checked))
    else none
  | .tickResume k =>
    if s.ticks k = some .checked then
      match s.state with
      | .invalid => some (⟨[], .cleared⟩, s.clear.setTick k none)
      | .pending => some (⟨[], .silent⟩, s.setTick k none)
      | .usable =>
        if s.tickCounter % 5 = 0 then some (⟨[], .syncs⟩, s.setTick k (some .sync))
        else some (⟨[], .ticked⟩, s.count.setTick k none)
    else none
  | .synced k =>
    if s.ticks k = some .sync then some (⟨[], .ticked⟩, s.count.setTick k none) else none

end


/-! ## One step -/

variable {js : Coercion} {s t : State} {a : Action} {o : Out} {tr : List (Event State Action Out)}
  {id : Nat} {state : WsrxState}

/-- The steps of a call of `connect` but for the last one of a call that succeeds. -/
inductive Advances (js : Coercion) (s : State) :
    Action → Nat → Did → WsrxState → Option Connecting → Prop
  | version {c : Nat} {answer : Except Thrown Json} {state : WsrxState} :
      s.connects c = some .version → checkVersion js s.state answer = (state, .ok ()) →
      Advances js s (.version c answer) c .silent state (some .check)
  | tooLow {c : Nat} {answer : Except Thrown Json} {state : WsrxState} {error : WsrxError} :
      s.connects c = some .version → checkVersion js s.state answer = (state, .error error) →
      Advances js s (.version c answer) c (.thrown error) state none
  | checked {c : Nat} {answer : Except Thrown Nat} : s.connects c = some .check →
      Advances js s (.checked c answer) c .silent (check answer) (some .checked)
  | checkedAgain {c : Nat} {answer : Except Thrown Nat} : s.connects c = some .checkAgain →
      Advances js s (.checked c answer) c .silent (check answer) (some .checkedAgain)
  | post {c : Nat} : s.connects c = some .checked → s.state = .invalid →
      Advances js s (.resume c) c .posted s.state (some .request)
  | granted {c : Nat} : s.connects c = some .request →
      Advances js s (.requested c (.ok ())) c .silent s.state (some .checkAgain)
  | refused {c : Nat} {thrown : Thrown} : s.connects c = some .request →
      Advances js s (.requested c (.error thrown)) c (.thrown (catchConnect thrown)) .invalid none

/-- What an action can come to. -/
inductive Moved (js : Coercion) (s : State) : Action → Out → State → Prop
  | register : Moved js s .onStateChange ⟨[], .registered s.nextCallback⟩ { s with
      onStateChangeCallbacks := s.onStateChangeCallbacks ++ [s.nextCallback]
      nextCallback := s.nextCallback + 1 }
  | unregister {id : Nat} : Moved js s (.offStateChange id) ⟨[], .silent⟩ { s with
      onStateChangeCallbacks := s.onStateChangeCallbacks.filter (· ≠ id) }
  | call : Moved js s .connect ⟨[], .silent⟩ { s with
      connects := update s.connects s.nextConnect (some .version)
      nextConnect := s.nextConnect + 1 }
  | connect {a : Action} {c : Nat} {did : Did} {state : WsrxState}
      {connecting : Option Connecting} : Advances js s a c did state connecting →
      Moved js s a ⟨s.told state, did⟩ ((s.setState state).setConnect c connecting)
  | started {c : Nat} :
      s.connects c = some .checked ∧ s.state ≠ .invalid ∨ s.connects c = some .checkedAgain →
      Moved js s (.resume c) ⟨[], .started s.nextInterval⟩ (s.tick.setConnect c none)
  | fire {interval : Nat} : s.running interval = true →
      Moved js s (.fire interval) ⟨[], .silent⟩ { s with
        ticks := update s.ticks s.nextTick (some .check)
        nextTick := s.nextTick + 1 }
  | tickChecked {k : Nat} {answer : Except Thrown Nat} : s.ticks k = some .check →
      Moved js s (.tickChecked k answer) ⟨s.told (check answer), .silent⟩
        ((s.setState (check answer)).setTick k (some .checked))
  | cleared {k : Nat} : s.ticks k = some .checked → s.state = .invalid →
      Moved js s (.tickResume k) ⟨[], .cleared⟩ (s.clear.setTick k none)
  | waits {k : Nat} : s.ticks k = some .checked → s.state = .pending →
      Moved js s (.tickResume k) ⟨[], .silent⟩ (s.setTick k none)
  | syncs {k : Nat} : s.ticks k = some .checked → s.state = .usable → s.tickCounter % 5 = 0 →
      Moved js s (.tickResume k) ⟨[], .syncs⟩ (s.setTick k (some .sync))
  | skips {k : Nat} : s.ticks k = some .checked → s.state = .usable → s.tickCounter % 5 ≠ 0 →
      Moved js s (.tickResume k) ⟨[], .ticked⟩ (s.count.setTick k none)
  | synced {k : Nat} : s.ticks k = some .sync →
      Moved js s (.synced k) ⟨[], .ticked⟩ (s.count.setTick k none)

theorem State.clear_eq : s.clear = { s with running := s.clear.running } := by
  unfold clear
  split <;> rfl

theorem State.tick_eq : s.tick = { s with
    interval := some s.nextInterval
    running := s.tick.running
    nextInterval := s.nextInterval + 1 } := by
  unfold tick
  rw [clear_eq]

@[simp] theorem State.told_self : s.told s.state = [] := if_pos rfl

-- The step function is unfolded here and nowhere else.
theorem next_moved (h : next js s a = some (o, t)) : Moved js s a o t := by
  cases a with
  | onStateChange =>
    cases h
    exact .register
  | offStateChange id =>
    cases h
    exact .unregister
  | connect =>
    cases h
    exact .call
  | version c answer =>
    simp only [next, Option.ite_none_right_eq_some] at h
    obtain ⟨hc, h⟩ := h
    cases hresult : checkVersion js s.state answer with
    | mk state result =>
      rw [hresult] at h
      cases result with
      | ok =>
        cases h
        exact .connect (.version hc hresult)
      | error error =>
        cases h
        exact .connect (.tooLow hc hresult)
  | checked c answer =>
    simp only [next] at h
    split at h <;> cases h
    · exact .connect (.checked ‹_›)
    · exact .connect (.checkedAgain ‹_›)
  | resume c =>
    simp only [next] at h
    split at h
    · split at h <;> cases h
      · have hpost := @Moved.connect js _ _ _ _ _ _ (Advances.post ‹_› ‹_›)
        rw [State.told_self] at hpost
        exact hpost
      · exact .started (.inl ⟨‹_›, ‹_›⟩)
    · cases h
      exact .started (.inr ‹_›)
    · cases h
  | requested c answer =>
    simp only [next, Option.ite_none_right_eq_some] at h
    obtain ⟨hc, h⟩ := h
    cases answer with
    | ok =>
      cases h
      have hgranted := @Moved.connect js _ _ _ _ _ _ (Advances.granted hc)
      rw [State.told_self] at hgranted
      exact hgranted
    | error thrown =>
      cases h
      exact .connect (.refused hc)
  | fire interval =>
    simp only [next, Option.ite_none_right_eq_some] at h
    obtain ⟨hrunning, h⟩ := h
    cases h
    exact .fire hrunning
  | tickChecked k answer =>
    simp only [next, Option.ite_none_right_eq_some] at h
    obtain ⟨hk, h⟩ := h
    cases h
    exact .tickChecked hk
  | tickResume k =>
    simp only [next, Option.ite_none_right_eq_some] at h
    obtain ⟨hk, h⟩ := h
    split at h
    · cases h
      exact .cleared hk ‹_›
    · cases h
      exact .waits hk ‹_›
    · split at h <;> cases h
      · exact .syncs hk ‹_› ‹_›
      · exact .skips hk ‹_› ‹_›
  | synced k =>
    simp only [next, Option.ite_none_right_eq_some] at h
    obtain ⟨hk, h⟩ := h
    cases h
    exact .synced hk

/-! ## A call by itself -/

/-- What a call of `connect` comes to in the step. -/
def Did.result : Did → Option (Except WsrxError Unit)
  | .thrown error => some (.error error)
  | .started _ => some (.ok ())
  | _ => none

/-- What the call `c` comes to in the step. -/
def resultOf (c : Nat) (e : Event State Action Out) : Option (Except WsrxError Unit) :=
  if e.act.call = some c then e.out.did.result else none

section

variable (js : Coercion) (version : Except Thrown Json) (checked : Except Thrown Nat)
  (requested : Except Thrown Unit) (checkedAgain : Except Thrown Nat)

def afterRequest : WsrxState × Except WsrxError Unit :=
  match requested with
  | .ok () => (check checkedAgain, .ok ())
  | .error thrown => (.invalid, .error (catchConnect thrown))

def afterCheck (state : WsrxState) : WsrxState × Except WsrxError Unit :=
  match state with
  | .invalid => afterRequest requested checkedAgain
  | state => (state, .ok ())

/-- What a call still comes to from where it is, with these answers. -/
def Connecting.rest (state : WsrxState) : Connecting → WsrxState × Except WsrxError Unit
  | .version => connect js state version checked requested checkedAgain
  | .check => afterCheck requested checkedAgain (Client.check checked)
  | .checked => afterCheck requested checkedAgain state
  | .request => afterRequest requested checkedAgain
  | .checkAgain => (Client.check checkedAgain, .ok ())
  | .checkedAgain => (state, .ok ())

/-- The step is one of the call `c`, with these answers. -/
def Own (c : Nat) (e : Event State Action Out) : Prop :=
  match e.act with
  | .version c' answer => c' = c ∧ answer = version
  | .checked c' answer => c' = c ∧
      answer = if e.pre.connects c = some .check then checked else checkedAgain
  | .resume c' => c' = c
  | .requested c' answer => c' = c ∧ answer = requested
  | _ => False

/-- The step is one of a callback, an interval or another call, and leaves the state as it is. -/
def Beside (c : Nat) (e : Event State Action Out) : Prop :=
  e.act.call ≠ some c ∧ ∀ o t, next js e.pre e.act = some (o, t) → t.state = e.pre.state

/-- The call `c` of the state still comes to `outcome`, or has come to it with `results`. -/
def State.ComesTo (s : State) (c : Nat) (outcome : WsrxState × Except WsrxError Unit)
    (results : List (Except WsrxError Unit)) : Prop :=
  match s.connects c with
  | some connecting => results = [] ∧
      connecting.rest js version checked requested checkedAgain s.state = outcome
  | none => results = [outcome.2] ∧ s.state = outcome.1

end

section

variable {version : Except Thrown Json} {checked checkedAgain : Except Thrown Nat}
  {requested : Except Thrown Unit} {c : Nat} {outcome : WsrxState × Except WsrxError Unit}
  {results : List (Except WsrxError Unit)}

theorem State.setConnect_comesTo (connecting : Option Connecting) :
    (s.setConnect c connecting).ComesTo js version checked requested checkedAgain c outcome
        results ↔
      match connecting with
      | some connecting => results = [] ∧
          connecting.rest js version checked requested checkedAgain s.state = outcome
      | none => results = [outcome.2] ∧ s.state = outcome.1 := by
  unfold ComesTo setConnect
  dsimp only
  rw [update_self]

theorem rest_version : Connecting.rest js version checked requested checkedAgain state .version =
    match checkVersion js state version with
    | (state, .error error) => (state, .error error)
    | (_, .ok ()) => afterCheck requested checkedAgain (check checked) := rfl

theorem State.ComesTo.here {connecting : Connecting}
    (h : s.ComesTo js version checked requested checkedAgain c outcome results)
    (hc : s.connects c = some connecting) : results = [] ∧
      connecting.rest js version checked requested checkedAgain s.state = outcome := by
  unfold ComesTo at h
  rw [hc] at h
  exact h

-- By cases on where the call is; what it still comes to stays the same.
theorem State.ComesTo.step
    (h : s.ComesTo js version checked requested checkedAgain c outcome results)
    (hown : Own version checked requested checkedAgain c ⟨s, a, o⟩) (hm : Moved js s a o t) :
    t.ComesTo js version checked requested checkedAgain c outcome
      (results ++ o.did.result.toList) := by
  cases hm with
  | connect hadvances =>
    cases hadvances with
    | version hc hresult =>
      obtain ⟨rfl, rfl⟩ := hown
      obtain ⟨rfl, hrest⟩ := h.here hc
      rw [rest_version, hresult] at hrest
      rw [setConnect_comesTo]
      exact ⟨rfl, hrest⟩
    | tooLow hc hresult =>
      obtain ⟨rfl, rfl⟩ := hown
      obtain ⟨rfl, hrest⟩ := h.here hc
      rw [rest_version, hresult] at hrest
      rw [setConnect_comesTo, ← hrest]
      exact ⟨rfl, rfl⟩
    | checked hc =>
      obtain ⟨rfl, hanswer⟩ := hown
      obtain ⟨rfl, hrest⟩ := h.here hc
      dsimp only at hanswer
      rw [if_pos hc] at hanswer
      rw [setConnect_comesTo, hanswer]
      exact ⟨rfl, hrest⟩
    | checkedAgain hc =>
      obtain ⟨rfl, hanswer⟩ := hown
      obtain ⟨rfl, hrest⟩ := h.here hc
      dsimp only at hanswer
      rw [if_neg (by rw [hc]; simp)] at hanswer
      rw [setConnect_comesTo, hanswer]
      exact ⟨rfl, hrest⟩
    | post hc hinvalid =>
      obtain rfl := hown
      obtain ⟨rfl, hrest⟩ := h.here hc
      rw [Connecting.rest, hinvalid] at hrest
      rw [setConnect_comesTo]
      exact ⟨rfl, hrest⟩
    | granted hc =>
      obtain ⟨rfl, rfl⟩ := hown
      obtain ⟨rfl, hrest⟩ := h.here hc
      rw [setConnect_comesTo]
      exact ⟨rfl, hrest⟩
    | refused hc =>
      obtain ⟨rfl, rfl⟩ := hown
      obtain ⟨rfl, hrest⟩ := h.here hc
      rw [setConnect_comesTo, ← hrest]
      exact ⟨rfl, rfl⟩
  | started hc =>
    obtain rfl := hown
    have hstate : s.tick.state = s.state := by rw [State.tick_eq]
    rw [setConnect_comesTo, hstate]
    rcases hc with ⟨hc, hvalid⟩ | hc
    · obtain ⟨rfl, hrest⟩ := h.here hc
      have hdone : afterCheck requested checkedAgain s.state = (s.state, .ok ()) := by
        cases hs : s.state with
        | invalid => exact absurd hs hvalid
        | _ => rfl
      rw [← hrest, Connecting.rest, hdone]
      exact ⟨rfl, rfl⟩
    · obtain ⟨rfl, hrest⟩ := h.here hc
      rw [← hrest]
      exact ⟨rfl, rfl⟩
  | _ => exact absurd hown (by simp [Own])

theorem State.ComesTo.congr
    (h : s.ComesTo js version checked requested checkedAgain c outcome results)
    (hconnects : t.connects c = s.connects c) (hstate : t.state = s.state) :
    t.ComesTo js version checked requested checkedAgain c outcome results := by
  unfold ComesTo at h ⊢
  rwa [hconnects, hstate]

theorem Own.call {e : Event State Action Out}
    (h : Own version checked requested checkedAgain c e) : e.act.call = some c := by
  obtain ⟨v, a, o⟩ := e
  cases a with
  | version c' answer => exact congrArg some h.1
  | checked c' answer => exact congrArg some h.1
  | resume c' => exact congrArg some h
  | requested c' answer => exact congrArg some h.1
  | _ => exact h.elim

end

theorem Advances.call {c : Nat} {did : Did} {connecting : Option Connecting}
    (h : Advances js s a c did state connecting) : a.call = some c := by
  cases h <;> rfl

/-- A call goes on in its own steps only. -/
theorem Moved.connects_eq {c : Nat} (hm : Moved js s a o t) (hc : c < s.nextConnect)
    (hcall : a.call ≠ some c) : t.connects c = s.connects c := by
  cases hm with
  | call => exact update_of_ne (Nat.ne_of_lt hc) _ _
  | @connect _ c' _ _ _ hadvances =>
    refine update_of_ne ?_ _ _
    rintro rfl
    exact hcall hadvances.call
  | @started c' _ =>
    have hne : c ≠ c' := by
      rintro rfl
      exact hcall rfl
    show update s.tick.connects c' none c = _
    rw [update_of_ne hne, State.tick_eq]
  | cleared _ _ =>
    show s.clear.connects c = _
    rw [State.clear_eq]
  | _ => rfl

theorem Moved.nextConnect_le (hm : Moved js s a o t) : s.nextConnect ≤ t.nextConnect := by
  cases hm with
  | call => exact Nat.le_succ _
  | started _ =>
    show _ ≤ s.tick.nextConnect
    rw [State.tick_eq]
  | cleared _ _ =>
    show _ ≤ s.clear.nextConnect
    rw [State.clear_eq]
  | _ => exact Nat.le_refl _

/-- A call of `connect` that has the state for itself does what `connect` says, for all answers,
whatever callbacks, intervals and other calls do besides, as long as they leave the state as it is:
where it returns, it does so once, and the state and the result are those of `connect`; until then
it has returned nothing. -/
theorem connect_alone {version : Except Thrown Json} {checked checkedAgain : Except Thrown Nat}
    {requested : Except Thrown Unit} (h : Run (next js) s (⟨s, .connect, o⟩ :: tr) t)
    (halone : ∀ e ∈ tr, Own version checked requested checkedAgain s.nextConnect e ∨
      Beside js s.nextConnect e) :
    (t.connects s.nextConnect ≠ none → tr.filterMap (resultOf s.nextConnect) = []) ∧
    (t.connects s.nextConnect = none →
      tr.filterMap (resultOf s.nextConnect) =
        [(connect js s.state version checked requested checkedAgain).2] ∧
      t.state = (connect js s.state version checked requested checkedAgain).1) := by
  have hcut : Run (next js) s ([] ++ ⟨s, .connect, o⟩ :: tr) t := h
  obtain ⟨u, -, hcall, hrun⟩ := hcut.cut
  have hend := hrun.history
    (C := fun e ↦ Own version checked requested checkedAgain s.nextConnect e ∨
      Beside js s.nextConnect e)
    (P := fun l v ↦ s.nextConnect < v.nextConnect ∧
      v.ComesTo js version checked requested checkedAgain s.nextConnect
        (connect js s.state version checked requested checkedAgain)
        (l.filterMap (resultOf s.nextConnect))) ?_ ?_ halone
  · obtain ⟨-, hend⟩ := hend
    unfold State.ComesTo at hend
    cases ht : t.connects s.nextConnect with
    | none =>
      rw [ht] at hend
      exact ⟨fun hne ↦ absurd rfl hne, fun _ ↦ hend⟩
    | some connecting =>
      rw [ht] at hend
      exact ⟨fun _ ↦ hend.1, fun hnone ↦ by cases hnone⟩
  · cases hcall
    refine ⟨Nat.lt_succ_self _, ?_⟩
    unfold State.ComesTo
    dsimp only
    rw [update_self]
    exact ⟨rfl, rfl⟩
  · rintro l v a o w ⟨hlt, hv⟩ hstep hnext
    have hm := next_moved hnext
    have hresults : (l ++ [(⟨v, a, o⟩ : Event State Action Out)]).filterMap
        (resultOf s.nextConnect) = l.filterMap (resultOf s.nextConnect) ++
          (resultOf s.nextConnect ⟨v, a, o⟩).toList := by
      rw [List.filterMap_append, List.filterMap_cons, List.filterMap_nil]
      cases resultOf s.nextConnect ⟨v, a, o⟩ <;> rfl
    refine ⟨Nat.lt_of_lt_of_le hlt hm.nextConnect_le, ?_⟩
    rw [hresults]
    rcases hstep with hown | ⟨hother, hkeeps⟩
    · rw [resultOf, if_pos hown.call]
      exact hv.step hown hm
    · rw [resultOf, if_neg hother, Option.toList_none, List.append_nil]
      exact hv.congr (hm.connects_eq hlt hother) (hkeeps o w hnext)

def sampleJs : Coercion := ⟨fun _ _ ↦ false, fun _ ↦ ""⟩

/-- A call of `connect` that finds the client usable. -/
def sampleConnect (c : Nat) : List Action :=
  [.connect, .version c (.ok (served "0.5.0")), .checked c (.ok 202), .resume c]

/-- A tick with what its check gets. -/
def sampleTick (interval k : Nat) (answer : Except Thrown Nat) : List Action :=
  [.fire interval, .tickChecked k answer, .tickResume k]

/-- The answers that the call of the sample gets, of which the two of `check` differ. -/
def sampleAnswers (e : Event State Action Out) : Bool :=
  match e.act with
  | .version c (.ok (.str text)) => c = 0 && text = "0.5.0"
  | .checked c (.ok status) =>
    c = 0 && status = if e.pre.connects 0 = some .check then 200 else 201
  | .resume c => c = 0
  | .requested c (.ok _) => c = 0
  | _ => false

def sampleBeside (e : Event State Action Out) : Bool :=
  e.act.call ≠ some 0 && (next sampleJs e.pre e.act).all fun q ↦ q.2.state = e.pre.state

theorem own_of_sampleAnswers {e : Event State Action Out} (h : sampleAnswers e = true) :
    Own (.ok (served "0.5.0")) (.ok 200) (.ok ()) (.ok 201) 0 e := by
  unfold Own
  unfold sampleAnswers at h
  split at h
  · simp_all [served]
  · simp_all
    split <;> rfl
  · simp_all
  · simp_all
  · cases h

theorem beside_of_sampleBeside {e : Event State Action Out} (h : sampleBeside e = true) :
    Beside sampleJs 0 e := by
  rw [sampleBeside, Bool.and_eq_true, decide_eq_true_eq] at h
  refine ⟨h.1, fun o t hnext ↦ ?_⟩
  have hstate := h.2
  rw [hnext, Option.all_some, decide_eq_true_eq] at hstate
  exact hstate

-- The daemon asks for consent first, and the client waits.  Meanwhile a callback is registered, an
-- interval fires and another call begins.
theorem connect_alone_sample : ∃ s o tr t, Run (next sampleJs) s (⟨s, .connect, o⟩ :: tr) t ∧
    t.state = .pending ∧ tr.filterMap (resultOf s.nextConnect) = [.ok ()] ∧
    connect sampleJs s.state (.ok (served "0.5.0")) (.ok 200) (.ok ()) (.ok 201) =
      (.pending, .ok ()) := by
  let s : State := start.tick
  obtain ⟨tr, t, hrun, hp⟩ := exists_run (next sampleJs)
    { s with connects := update s.connects 0 (some .version), nextConnect := 1 }
    [.onStateChange, .version 0 (.ok (served "0.5.0")), .fire 0, .checked 0 (.ok 200),
      .tickChecked 0 (.ok 200), .resume 0, .connect, .requested 0 (.ok ()),
      .version 1 (.ok (served "0.5.0")), .checked 0 (.ok 201), .tickResume 0, .resume 0]
    (fun tr t ↦ t.connects 0 = none && tr.all fun e ↦ sampleAnswers e || sampleBeside e)
    (by decide)
  rw [Bool.and_eq_true, decide_eq_true_eq, List.all_eq_true] at hp
  obtain ⟨hreturned, hsteps⟩ := hp
  have hcall : Run (next sampleJs) s (⟨s, .connect, ⟨[], .silent⟩⟩ :: tr) t :=
    (Run.single rfl).append hrun
  obtain ⟨hresults, hstate⟩ := (connect_alone hcall fun e he ↦
    (Bool.or_eq_true_iff.mp (hsteps e he)).imp own_of_sampleAnswers
      beside_of_sampleBeside).2 hreturned
  exact ⟨s, _, tr, t, hcall, hstate, hresults, rfl⟩

end LabStreamGate.Client.Session
