import LabStreamGate.Desktop.Instances

/-!
# The browser client and the daemon as a transition system

The client keeps an array of instances.  Its calls are under way at the same time; each sends one
request, which the daemon handles step by step beside everything else, and does to the array what
the response says at the moment at which it arrives.  Responses arrive in any order, or not at all.
-/

namespace LabStreamGate.Client

open Function
open Desktop (InstanceData InstanceResponse PoolRequest Reply)

/-! ## Instances and requests -/

structure WsrxInstance where
  label : Option String
  remote : String
  localAddr : String
  latency : Option Int
  deriving DecidableEq, Repr

namespace WsrxInstance

/-- `JSON.stringify`, which leaves out what is undefined. -/
def toJson (i : WsrxInstance) : Json :=
  .obj ((i.label.map fun label ↦ ("label", Json.str label)).toList ++
    [("remote", .str i.remote), ("local", .str i.localAddr)] ++
    (i.latency.map fun latency ↦ ("latency", Json.num (.int latency))).toList)

/-- The response to a launch. -/
def ofData (data : InstanceData) : WsrxInstance where
  label := some data.label
  remote := data.remote
  localAddr := data.localAddr
  latency := some data.latency

/-- One item of the response to a listing. -/
def ofResponse (response : InstanceResponse) : WsrxInstance where
  label := some response.label
  remote := response.remote
  localAddr := response.localAddr
  latency := some response.latency

end WsrxInstance

/-- A call of `add`, `delete` or `sync`; the daemon makes up a label from the number. -/
inductive Request
  | add (inst : WsrxInstance) (random : UInt32)
  | delete (localAddr : String)
  | sync
  deriving DecidableEq, Repr

namespace Request

def toPool : Request → PoolRequest
  | .add inst random => .post random (some inst.toJson)
  | .delete localAddr => .delete (some (.obj [("local", .str localAddr)]))
  | .sync => .get

/-- `add` has the remote in the array already and asks nobody. -/
def isKnown (instances : List WsrxInstance) : Request → Bool
  | .add inst _ => instances.any fun i ↦ i.remote == inst.remote
  | _ => false

/-- Whether `ky` sends the request anew when it has failed. -/
def retries : Request → Bool
  | .delete _ => true
  | _ => false

/-- The array after the response; an error is thrown and changes nothing. -/
def settle (instances : List WsrxInstance) : Request → StatusCode × Reply → List WsrxInstance
  | .add _ _, (.ok, .instance data) => instances ++ [.ofData data]
  | .delete localAddr, (.ok, _) => instances.filter fun i ↦ i.localAddr != localAddr
  | .sync, (.ok, .instances list) => list.map .ofResponse
  | _, _ => instances

end Request

/-! ## The state of the client and of the daemon -/

/-- A call that has not returned: the task of the daemon that handles its request, if there is one,
and the response as soon as there is one. -/
structure Call where
  request : Request
  task : Option Nat
  answer : Option (StatusCode × Reply)

/-- The response to the task of the call is on its way. -/
def Call.hear (call : Call) : Desktop.Action → Desktop.Out → Call
  | .run id _, .responded status reply =>
    if call.task = some id then { call with answer := some (status, reply) } else call
  | _, _ => call

structure State where
  instances : List WsrxInstance
  calls : Nat → Option Call
  nextCall : Nat
  daemon : Desktop.State

def State.start (daemon : Desktop.State) : State where
  instances := []
  calls := fun _ ↦ none
  nextCall := 0
  daemon := daemon

/-- A step of the client or of the daemon; a call may be given up, and then throws. -/
inductive Action
  | call (request : Request)
  | retry (call : Nat)
  | fail (call : Nat)
  | arrive (call : Nat)
  | daemon (a : Desktop.Action)

section

variable (toml : TomlText) (header : Option HeaderValue)

/-- The request reaches the daemon.  One that it cannot read is answered with an error at once. -/
def send (daemon : Desktop.State) (request : Request) :
    Option (Desktop.Out × Call × Desktop.State) :=
  (Desktop.next toml daemon (.pool header request.toPool)).map fun r ↦
    match r.1 with
    | .rejected => (r.1, ⟨request, none, some (.badRequest, .empty)⟩, r.2)
    | _ => (r.1, ⟨request, some daemon.nextTask, none⟩, r.2)

def next (s : State) : Action → Option (Desktop.Out × State)
  | .call request =>
    if request.isKnown s.instances then some (.silent, s)
    else
      (send toml header s.daemon request).map fun r ↦
        (r.1, { s with
          calls := update s.calls s.nextCall (some r.2.1)
          nextCall := s.nextCall + 1
          daemon := r.2.2 })
  | .retry c =>
    (s.calls c).bind fun call ↦
      if call.request.retries then
        (send toml header s.daemon call.request).map fun r ↦
          (r.1, { s with calls := update s.calls c (some r.2.1), daemon := r.2.2 })
      else none
  | .fail c => (s.calls c).map fun _ ↦ (.silent, { s with calls := update s.calls c none })
  | .arrive c =>
    (s.calls c).bind fun call ↦ call.answer.map fun answer ↦
      (.silent, { s with
        instances := call.request.settle s.instances answer
        calls := update s.calls c none })
  | .daemon a =>
    (Desktop.next toml s.daemon a).map fun r ↦
      (r.1, { s with
        calls := fun c ↦ (s.calls c).map fun call ↦ call.hear a r.1
        daemon := r.2 })

end

/-! ## One step -/

section

variable {toml : TomlText} {header : Option HeaderValue} {s t : State} {a : Action}
  {o : Desktop.Out} {daemon daemon' : Desktop.State} {request : Request} {call : Call}

/-- What becomes of a request that is sent. -/
inductive Sent (header : Option HeaderValue) (daemon : Desktop.State) (request : Request) :
    Desktop.Out → Call → Desktop.State → Prop
  | rejected : Sent header daemon request .rejected ⟨request, none, some (.badRequest, .empty)⟩
      daemon
  | accepted {task : Desktop.Task} : request.toPool.task (Desktop.origin header) = some task →
      Sent header daemon request .silent ⟨request, some daemon.nextTask, none⟩ (daemon.spawn task)

theorem send_sent (h : send toml header daemon request = some (o, call, daemon')) :
    Sent header daemon request o call daemon' := by
  obtain ⟨⟨o', d⟩, hnext, heq⟩ := Option.map_eq_some_iff.mp h
  simp only [Desktop.next, Desktop.Action.task] at hnext
  cases htask : request.toPool.task (Desktop.origin header) with
  | none =>
    rw [htask] at hnext
    cases hnext
    cases heq
    exact .rejected
  | some task =>
    rw [htask] at hnext
    cases hnext
    cases heq
    exact .accepted htask

/-- For the daemon a request that is sent is one of its own steps. -/
theorem Sent.moved (h : Sent header daemon request o call daemon') :
    Desktop.Moved toml daemon (.pool header request.toPool) o daemon' := by
  cases h with
  | rejected => exact .reject rfl
  | accepted htask => exact .spawn rfl htask

theorem Sent.tasks_of_lt {id : Nat} (h : Sent header daemon request o call daemon')
    (hlt : id < daemon.nextTask) :
    daemon'.tasks id = daemon.tasks id ∧ daemon.nextTask ≤ daemon'.nextTask := by
  cases h with
  | rejected => exact ⟨rfl, Nat.le_refl _⟩
  | accepted => exact ⟨update_of_ne (Nat.ne_of_lt hlt) _ _, Nat.le_succ _⟩

/-- What one step of the system does. -/
inductive Moved (toml : TomlText) (header : Option HeaderValue) (s : State) :
    Action → Desktop.Out → State → Prop
  | known {request : Request} : Moved toml header s (.call request) .silent s
  | call {request : Request} {o : Desktop.Out} {call : Call} {daemon : Desktop.State} :
      Sent header s.daemon request o call daemon →
      Moved toml header s (.call request) o { s with
        calls := update s.calls s.nextCall (some call)
        nextCall := s.nextCall + 1
        daemon := daemon }
  | retry {c : Nat} {call call' : Call} {o : Desktop.Out} {daemon : Desktop.State} :
      s.calls c = some call → Sent header s.daemon call.request o call' daemon →
      Moved toml header s (.retry c) o
        { s with calls := update s.calls c (some call'), daemon := daemon }
  | fail {c : Nat} {call : Call} : s.calls c = some call → Moved toml header s (.fail c) .silent
      { s with calls := update s.calls c none }
  | arrive {c : Nat} {call : Call} {answer : StatusCode × Reply} : s.calls c = some call →
      call.answer = some answer → Moved toml header s (.arrive c) .silent
        { s with
          instances := call.request.settle s.instances answer
          calls := update s.calls c none }
  | daemon {a : Desktop.Action} {o : Desktop.Out} {daemon : Desktop.State} :
      Desktop.Moved toml s.daemon a o daemon →
      Moved toml header s (.daemon a) o { s with
        calls := fun c ↦ (s.calls c).map fun call ↦ call.hear a o
        daemon := daemon }

theorem next_moved (h : next toml header s a = some (o, t)) : Moved toml header s a o t := by
  cases a with
  | call request =>
    simp only [next] at h
    split at h
    · cases h
      exact .known
    · obtain ⟨⟨o', call, daemon⟩, hsend, heq⟩ := Option.map_eq_some_iff.mp h
      cases heq
      exact .call (send_sent hsend)
  | retry c =>
    simp only [next, Option.bind_eq_some_iff, Option.ite_none_right_eq_some,
      Option.map_eq_some_iff] at h
    obtain ⟨call, hcall, -, ⟨o', call', daemon⟩, hsend, heq⟩ := h
    cases heq
    exact .retry hcall (send_sent hsend)
  | fail c =>
    obtain ⟨call, hcall, heq⟩ := Option.map_eq_some_iff.mp h
    cases heq
    exact .fail hcall
  | arrive c =>
    simp only [next, Option.bind_eq_some_iff, Option.map_eq_some_iff] at h
    obtain ⟨call, hcall, answer, hanswer, heq⟩ := h
    cases heq
    exact .arrive hcall hanswer
  | daemon a =>
    obtain ⟨⟨o', daemon⟩, hnext, heq⟩ := Option.map_eq_some_iff.mp h
    cases heq
    exact .daemon (Desktop.next_moved hnext)

/-- A step leaves the daemon alone, or is one of its steps. -/
theorem Moved.daemon_moved (hm : Moved toml header s a o t) :
    o = .silent ∧ t.daemon = s.daemon ∨ ∃ a', Desktop.Moved toml s.daemon a' o t.daemon := by
  cases hm with
  | known => exact .inl ⟨rfl, rfl⟩
  | call hsent => exact .inr ⟨_, hsent.moved⟩
  | retry _ hsent => exact .inr ⟨_, hsent.moved⟩
  | fail => exact .inl ⟨rfl, rfl⟩
  | arrive => exact .inl ⟨rfl, rfl⟩
  | daemon hm => exact .inr ⟨_, hm⟩

/-- Calls are numbered in the order in which they are made. -/
theorem numbered {tr : List (Event State Action Desktop.Out)}
    (h : Run (next toml header) (.start daemon) tr s) : TasksBelow s.nextCall s.calls := by
  refine h.invariant (I := fun v ↦ TasksBelow v.nextCall v.calls) (C := fun _ ↦ True)
    (fun _ _ ↦ rfl) (fun v b o' w hb _ hnext ↦ ?_) fun _ _ ↦ trivial
  cases next_moved hnext with
  | known => exact hb
  | call => exact hb.spawn
  | retry hcall => exact hb.step (hb.lt hcall)
  | fail hcall => exact hb.step (hb.lt hcall)
  | arrive hcall => exact hb.step (hb.lt hcall)
  | daemon =>
    intro c hc
    show (v.calls c).map _ = none
    rw [hb c hc]
    rfl

/-! ## Responses -/

@[simp] theorem Call.hear_request {a : Desktop.Action} : (call.hear a o).request = call.request := by
  unfold hear
  split
  · split <;> rfl
  · rfl

@[simp] theorem Call.hear_task {a : Desktop.Action} : (call.hear a o).task = call.task := by
  unfold hear
  split
  · split <;> rfl
  · rfl

theorem Call.hear_of_other {a : Desktop.Action}
    (h : ∀ id io, call.task = some id → a ≠ .run id io) : call.hear a o = call := by
  unfold hear
  split
  · exact if_neg fun htask ↦ h _ _ htask rfl
  · rfl

/-- A response that was not there before is the one that the task of the call has just given. -/
theorem Call.hear_answer {a : Desktop.Action} {answer : StatusCode × Reply}
    (h : (call.hear a o).answer = some answer) : call.answer = some answer ∨
      ∃ id io, a = .run id io ∧ call.task = some id ∧ o = .responded answer.1 answer.2 := by
  unfold hear at h
  split at h
  · split at h
    · rename_i htask
      cases h
      exact .inr ⟨_, _, rfl, htask, rfl⟩
    · exact .inl h
  · exact .inl h

end

end LabStreamGate.Client
