import LabStreamGate.Daemon.OriginLocks
import LabStreamGate.Library.Simulation

/-!
# The origin lists as their clients may think of them

Whatever the handlers and the CORS layer do at the same time, each of them comes to its answer at
one moment, as if it used both lists in one step.
-/

namespace LabStreamGate.Daemon.OriginLocks

open Function

/-! ## One step a request -/

inductive Call
  | asked (request : Request)
  | settled (answer : Answer)
  deriving DecidableEq, Repr

/-- What the clients see. -/
inductive Seen
  | asked (id : Nat) (request : Request)
  | answered (id : Nat) (answer : Answer)
  deriving DecidableEq, Repr

/-- A request that was asked comes to its answer at one moment, and is answered by that. -/
structure Atomic where
  origins : Origins
  calls : Nat → Option Call
  fresh : Nat

namespace Atomic

inductive Action
  | ask (id : Nat) (request : Request)
  | settle (id : Nat)
  | answer (id : Nat)
  deriving DecidableEq, Repr

def launch : Atomic := ⟨.empty, fun _ ↦ none, 0⟩

def serve (origins : Origins) : Request → Option (Answer × Origins)
  | .handle request => (Daemon.next origins request).map fun r ↦ (.handled r.1, r.2)
  | .corsLayer origin => some (.allows (corsAllows origins.allowed origin), origins)

def next (s : Atomic) : Action → Option (List Seen × Atomic)
  | .ask id request =>
    if s.fresh ≤ id then
      some ([.asked id request],
        { s with calls := update s.calls id (some (.asked request)), fresh := id + 1 })
    else none
  | .settle id =>
    match s.calls id with
    | some (.asked request) =>
      (serve s.origins request).map fun r ↦
        ([], { s with origins := r.2, calls := update s.calls id (some (.settled r.1)) })
    | _ => none
  | .answer id =>
    match s.calls id with
    | some (.settled answer) =>
      some ([.answered id answer], { s with calls := update s.calls id none })
    | _ => none

def see (e : Event Atomic Action (List Seen)) : List Seen := e.out

end Atomic

def see (e : Event State Action (Option Answer)) : List Seen :=
  match e.act with
  | .ask request => [.asked e.pre.nextTask request]
  | .run id => (e.out.map (.answered id)).toList

variable {s t : State} {a : Action} {o : Option Answer} {id : Nat} {task : Task} {e : Effect}
  {request : Request} {tr : List (Event State Action (Option Answer))} {call : Call}
  {allowed allowed' : List String} {origins : Origins}

/-! ## What is left to do -/

def Request.complete (origins : Origins) : Request → Origins
  | .handle (.addAllowedOrigin req) => { origins with allowed := origins.allowed ++ [req] }
  | .handle (.removeAllowedOrigin req) =>
    { origins with allowed := origins.allowed.filter (· != req) }
  | _ => origins

/-- The lists when the task has done what is left. -/
def Task.complete (origins : Origins) (task : Task) : Origins :=
  match task.stage with
  | .finish _ => task.request.complete origins
  | _ => origins

/-- The lists when the one who writes to them is through. -/
def State.completed (s : State) : Origins :=
  (((s.locks .allowed).writer.bind s.tasks).map (·.complete s.origins)).getD s.origins

def Effect.complete (e : Effect) (request : Request) : Origins :=
  (e.stage.map fun stage ↦ (⟨request, stage⟩ : Task).complete e.origins).getD e.origins

theorem Task.complete_of_read (h : task.request.mode .allowed = .read) :
    task.complete origins = origins := by
  obtain ⟨request, stage⟩ := task
  cases stage with
  | finish seen =>
    cases request with
    | corsLayer origin => rfl
    | handle request =>
      cases request with
      | addAllowedOrigin req => cases h
      | removeAllowedOrigin req => cases h
      | _ => rfl
  | _ => rfl

theorem completed_of_none (h : (s.locks .allowed).writer = none) : s.completed = s.origins := by
  rw [State.completed, h]
  rfl

theorem State.held_eq (htask : s.tasks id = some task) (lock : Lock) :
    s.held lock id = task.holds lock := by
  rw [held, htask, Option.bind_some]

/-- Who holds the allowed list is the only one that may have something left to do. -/
theorem Locked.completed (h : Locked s) (htask : s.tasks id = some task)
    (hholds : task.stage.holds .allowed = true) : s.completed = task.complete s.origins := by
  have hheld : s.held .allowed id = some (task.request.mode .allowed) := by
    rw [State.held_eq htask, Task.holds, if_pos hholds]
  cases hmode : task.request.mode .allowed with
  | write =>
    rw [hmode, ← (h.tracks .allowed).writer] at hheld
    rw [State.completed, hheld, Option.bind_some, htask]
    rfl
  | read =>
    rw [Task.complete_of_read hmode]
    refine completed_of_none (Option.eq_none_iff_forall_ne_some.mpr fun id' hwriter ↦ ?_)
    rw [(h.tracks .allowed).writer] at hwriter
    obtain rfl := (h.tracks .allowed).exclusive hwriter (by rw [hheld]; exact Option.some_ne_none _)
    rw [hheld, hmode] at hwriter
    cases hwriter

theorem State.apply_origins : (s.apply id request e).origins = e.origins := rfl

/-- Where the first lock is taken nobody has anything left to do. -/
theorem writer_of_acquire {lock lock' : RwLock} {mode : LockMode}
    (h : lock.acquire id mode = some lock') : lock.writer = none := by
  cases mode with
  | read =>
    simp only [RwLock.acquire, Option.ite_none_right_eq_some] at h
    exact h.1
  | write =>
    simp only [RwLock.acquire, Option.ite_none_right_eq_some] at h
    exact h.1.1

-- Nobody is writing when the task has given its lock back.
theorem Locked.completed_of_released (h : Locked s) (htask : s.tasks id = some task)
    (hholds : task.stage.holds .allowed = true)
    (hreleased : (s.locks .allowed).release id = (t.locks .allowed)) : t.completed = t.origins := by
  refine completed_of_none (Option.eq_none_iff_forall_ne_some.mpr fun id' hwriter ↦ ?_)
  rw [← hreleased, RwLock.release] at hwriter
  dsimp only at hwriter
  split at hwriter
  · cases hwriter
  · rename_i hnot
    rw [(h.tracks .allowed).writer] at hwriter
    have hheld : s.held .allowed id ≠ none := by
      rw [State.held_eq htask, Task.holds, if_pos hholds]
      exact Option.some_ne_none _
    obtain rfl := (h.tracks .allowed).exclusive hwriter hheld
    exact hnot ((h.tracks .allowed).writer id |>.mpr hwriter)

-- A task that does not hold the allowed list has nothing left to do.
theorem Locked.completed_update (h : Locked s) (hfree : s.held .allowed id = none)
    {after : Option Task} (horigins : t.origins = s.origins) (hlocks : t.locks = s.locks)
    (htasks : t.tasks = update s.tasks id after) : t.completed = s.completed := by
  rw [State.completed, State.completed, horigins, hlocks, htasks]
  cases hwriter : (s.locks .allowed).writer with
  | none => rfl
  | some id' =>
    have hne : id' ≠ id := by
      rintro rfl
      have hheld := ((h.tracks .allowed).writer id').mp hwriter
      rw [hfree] at hheld
      cases hheld
    rw [Option.bind_some, Option.bind_some, update_of_ne hne]

/-- What a step of a task does to the lists as they will be. -/
theorem Ran.completed {stage : Stage} (h : Ran s id task e) (hlocked : Locked s)
    (hlocked' : Locked (s.apply id task.request e)) (htask : s.tasks id = some task)
    (hstage : e.stage = some stage) : s.completed = task.complete s.origins ∧
      (s.apply id task.request e).completed = e.complete task.request := by
  have hafter : ∀ {stage : Stage}, e.stage = some stage → stage.holds .allowed = true →
      (s.apply id task.request e).completed = e.complete task.request := by
    intro stage hstage hholds
    have htask' : (s.apply id task.request e).tasks id = some ⟨task.request, stage⟩ := by
      rw [State.apply_tasks, update_self, hstage]
      rfl
    rw [hlocked'.completed htask' hholds, Effect.complete, hstage, State.apply_origins]
    rfl
  cases h with
  | lockAllowed hacquire =>
    exact ⟨completed_of_none (writer_of_acquire hacquire), hafter rfl rfl⟩
  | @look request => exact ⟨hlocked.completed htask rfl, hafter rfl (look_holds request .allowed)⟩
  | lockPending => exact ⟨hlocked.completed htask rfl, hafter rfl rfl⟩
  | @work request =>
    refine ⟨hlocked.completed htask rfl, ?_⟩
    rcases work_cases (s := s) request with ⟨answer, hstage⟩ | ⟨seen, hstage, -⟩
    · exact hafter hstage rfl
    · exact hafter hstage rfl
  | finish hfinish =>
    obtain ⟨answer, hstage⟩ := finish_cases hfinish
    exact ⟨hlocked.completed htask rfl, hafter hstage rfl⟩
  | unlockPending => exact ⟨hlocked.completed htask rfl, hafter rfl rfl⟩
  | unlockAllowed =>
    exact ⟨hlocked.completed htask rfl, hlocked.completed_of_released htask rfl rfl⟩
  | respond => cases hstage

theorem Ran.completed_of_end (h : Ran s id task e) (hlocked : Locked s)
    (htask : s.tasks id = some task) (hstage : e.stage = none) :
    (s.apply id task.request e).completed = s.completed := by
  cases h with
  | @respond request answer =>
    exact hlocked.completed_update (State.held_eq htask .allowed) rfl rfl rfl
  | @work request =>
    rcases work_cases (s := s) request with ⟨answer, hsome⟩ | ⟨seen, hsome, -⟩ <;>
      rw [hsome] at hstage <;> cases hstage
  | finish hfinish =>
    obtain ⟨answer, hsome⟩ := finish_cases hfinish
    rw [hsome] at hstage
    cases hstage
  | _ => cases hstage

/-! ## Where a request stands -/

/-- What has become of a request that is at a stage, while the allowed list is as it is. -/
inductive Stands (allowed : List String) : Task → Call → Prop
  | early {request : Request} {stage : Stage} : stage = .lockAllowed ∨ stage = .look →
      Stands allowed ⟨request, stage⟩ (.asked request)
  | waiting {request : OriginRequest} {stage : Stage} : stage = .lockPending ∨ stage = .work →
      (∀ req, request = .addPendingOrigin req → allowed.contains req = false) →
      Stands allowed ⟨.handle request, stage⟩ (.asked (.handle request))
  | cloned : Stands allowed ⟨.handle .getOrigins, .finish allowed⟩ (.asked (.handle .getOrigins))
  | notAllowed {origin : HeaderValue} {seen : List String} :
      allowed.contains (originText origin) = false →
      Stands allowed ⟨.handle (.getCorsStatus (some origin)), .finish seen⟩
        (.asked (.handle (.getCorsStatus (some origin))))
  | writing {request : OriginRequest} {seen : List String} :
      (Request.handle request).mode .allowed = .write →
      Stands allowed ⟨.handle request, .finish seen⟩ (.settled (status .ok))
  | settled {request : Request} {stage : Stage} {answer : Answer} :
      stage = .unlockPending answer ∨ stage = .unlockAllowed answer ∨ stage = .respond answer →
      Stands allowed ⟨request, stage⟩ (.settled answer)

-- A task that does not hold the allowed list does not care what is done to it.
theorem Stands.other (h : Stands allowed task call)
    (hfree : task.stage.holds .allowed = false) : Stands allowed' task call := by
  cases h with
  | early hstage => exact .early hstage
  | waiting hstage => rcases hstage with rfl | rfl <;> cases hfree
  | cloned => cases hfree
  | notAllowed => cases hfree
  | writing => cases hfree
  | settled hstage => exact .settled hstage

/-- A step of a task is none of the atomic request, or its one step, or its answer. -/
inductive Turn (task : Task) (call : Call) (e : Effect) (before : Origins) : Prop
  | quiet (stage : Stage) : e.stage = some stage → e.answer = none →
      e.complete task.request = before → Stands e.origins.allowed ⟨task.request, stage⟩ call →
      Turn task call e before
  | settles (stage : Stage) (answer : Answer) : e.stage = some stage → e.answer = none →
      call = .asked task.request →
      Atomic.serve before task.request = some (answer, e.complete task.request) →
      Stands e.origins.allowed ⟨task.request, stage⟩ (.settled answer) → Turn task call e before
  | responds (answer : Answer) : e.stage = none → e.answer = some answer →
      call = .settled answer → Turn task call e before

theorem serve_addPending (origins : Origins) (req : String) :
    Atomic.serve origins (.handle (.addPendingOrigin req)) =
      some (.handled (.status (addPendingOrigin origins req).1),
        (addPendingOrigin origins req).2) := rfl

theorem look_turn (hstands : Stands s.origins.allowed ⟨request, .look⟩ call) :
    Turn ⟨request, .look⟩ call (s.goTo (request.look s)) s.origins := by
  have hcall : call = .asked request := by
    cases hstands with
    | early => rfl
    | waiting hstage => rcases hstage with hstage | hstage <;> cases hstage
    | settled hstage => rcases hstage with hstage | hstage | hstage <;> cases hstage
  subst hcall
  cases request with
  | corsLayer origin => exact .settles _ _ rfl rfl rfl rfl (.settled (.inr (.inl rfl)))
  | handle request =>
    cases request with
    | addPendingOrigin req =>
      cases hallowed : s.origins.allowed.contains req with
      | true =>
        have hlook : (Request.handle (.addPendingOrigin req)).look s =
            .unlockAllowed (status .accepted) := by
          rw [Request.look, if_pos hallowed]
        rw [hlook]
        refine .settles _ _ rfl rfl rfl ?_ (.settled (.inr (.inl rfl)))
        rw [serve_addPending, addPendingOrigin, if_pos hallowed]
        rfl
      | false =>
        have hlook : (Request.handle (.addPendingOrigin req)).look s = .lockPending := by
          rw [Request.look, hallowed, if_neg Bool.false_ne_true]
        rw [hlook]
        refine .quiet _ rfl rfl rfl (.waiting (.inl rfl) fun req' heq ↦ ?_)
        cases heq
        exact hallowed
    | _ => exact .quiet _ rfl rfl rfl (.waiting (.inl rfl) fun _ heq ↦ by cases heq)

theorem work_turn {request : OriginRequest}
    (hstands : Stands s.origins.allowed ⟨.handle request, .work⟩ call) :
    Turn ⟨.handle request, .work⟩ call (OriginRequest.work s request) s.origins := by
  have hcall : call = .asked (.handle request) ∧
      ∀ req, request = .addPendingOrigin req → s.origins.allowed.contains req = false := by
    cases hstands with
    | early hstage => rcases hstage with hstage | hstage <;> cases hstage
    | waiting _ hpending => exact ⟨rfl, hpending⟩
    | settled hstage => rcases hstage with hstage | hstage | hstage <;> cases hstage
  obtain ⟨rfl, hnot⟩ := hcall
  cases request with
  | getOrigins => exact .quiet _ rfl rfl rfl .cloned
  | addAllowedOrigin req => exact .settles _ _ rfl rfl rfl rfl (.writing rfl)
  | removeAllowedOrigin req => exact .settles _ _ rfl rfl rfl rfl (.writing rfl)
  | getCorsStatus origin =>
    cases origin with
    | none => exact .settles _ _ rfl rfl rfl rfl (.settled (.inl rfl))
    | some origin =>
      cases hallowed : s.origins.allowed.contains (originText origin) with
      | true =>
        have hwork : OriginRequest.work s (.getCorsStatus (some origin)) =
            s.goTo (.unlockPending (status .accepted)) := by
          rw [OriginRequest.work, Option.map_some]
          dsimp only
          rw [if_pos hallowed]
        rw [hwork]
        refine .settles _ _ rfl rfl rfl ?_ (.settled (.inl rfl))
        show some (Answer.handled (.status (getCorsStatus s.origins (some origin))), s.origins) = _
        rw [getCorsStatus, Option.map_some]
        dsimp only
        rw [if_pos hallowed]
        rfl
      | false =>
        have hwork : OriginRequest.work s (.getCorsStatus (some origin)) =
            s.goTo (.finish []) := by
          rw [OriginRequest.work, Option.map_some]
          dsimp only
          rw [hallowed, if_neg Bool.false_ne_true]
        rw [hwork]
        exact .quiet _ rfl rfl rfl (.notAllowed hallowed)
  | addPendingOrigin req =>
    have hallowed := hnot req rfl
    have hserve : Atomic.serve s.origins (.handle (.addPendingOrigin req)) =
        some (status .created, if s.origins.pending.contains req then s.origins
          else { s.origins with pending := s.origins.pending ++ [req] }) := by
      rw [serve_addPending, addPendingOrigin, hallowed, if_neg Bool.false_ne_true]
      split <;> rfl
    rw [OriginRequest.work]
    split
    case isTrue hpending =>
      rw [if_pos hpending] at hserve
      exact .settles _ _ rfl rfl rfl hserve (.settled (.inl rfl))
    case isFalse hpending =>
      rw [if_neg hpending] at hserve
      exact .settles _ _ rfl rfl rfl hserve (.settled (.inl rfl))

theorem finish_turn {request : OriginRequest} {seen : List String}
    (hfinish : OriginRequest.finish s seen request = some e)
    (hstands : Stands s.origins.allowed ⟨.handle request, .finish seen⟩ call) :
    Turn ⟨.handle request, .finish seen⟩ call e
      ((⟨.handle request, .finish seen⟩ : Task).complete s.origins) := by
  cases hstands with
  | early hstage => rcases hstage with hstage | hstage <;> cases hstage
  | waiting hstage => rcases hstage with hstage | hstage <;> cases hstage
  | cloned =>
    cases hfinish
    exact .settles _ _ rfl rfl rfl rfl (.settled (.inl rfl))
  | @notAllowed origin seen hallowed =>
    cases hfinish
    refine .settles _ _ rfl rfl rfl ?_ (.settled (.inl rfl))
    show some (Answer.handled (.status (getCorsStatus s.origins (some origin))), s.origins) = _
    rw [getCorsStatus, Option.map_some]
    dsimp only
    rw [hallowed, if_neg Bool.false_ne_true]
    rfl
  | writing hmode =>
    cases request with
    | addAllowedOrigin req =>
      cases hfinish
      exact .quiet _ rfl rfl rfl (.settled (.inl rfl))
    | removeAllowedOrigin req =>
      cases hfinish
      exact .quiet _ rfl rfl rfl (.settled (.inl rfl))
    | _ => cases hmode
  | settled hstage => rcases hstage with hstage | hstage | hstage <;> cases hstage

-- What a task that has its answer still does changes nothing.
theorem Stands.settled_of {stage : Stage} {answer : Answer}
    (h : Stands allowed ⟨request, stage⟩ call)
    (hstage : stage = .unlockPending answer ∨ stage = .unlockAllowed answer ∨
      stage = .respond answer) : call = .settled answer := by
  cases h with
  | early hstage' =>
    rcases hstage' with rfl | rfl <;> rcases hstage with hstage | hstage | hstage <;> cases hstage
  | waiting hstage' =>
    rcases hstage' with rfl | rfl <;> rcases hstage with hstage | hstage | hstage <;> cases hstage
  | settled hstage' =>
    rcases hstage' with rfl | rfl | rfl <;>
      rcases hstage with hstage | hstage | hstage <;> cases hstage <;> rfl
  | _ => rcases hstage with hstage | hstage | hstage <;> cases hstage

theorem Ran.turn (h : Ran s id task e) (hstands : Stands s.origins.allowed task call) :
    Turn task call e (task.complete s.origins) := by
  cases h with
  | lockAllowed =>
    cases hstands with
    | early => exact .quiet .look rfl rfl rfl (.early (.inr rfl))
    | waiting hstage => rcases hstage with hstage | hstage <;> cases hstage
    | settled hstage => rcases hstage with hstage | hstage | hstage <;> cases hstage
  | look => exact look_turn hstands
  | lockPending =>
    cases hstands with
    | early hstage => rcases hstage with hstage | hstage <;> cases hstage
    | waiting _ hpending => exact .quiet .work rfl rfl rfl (.waiting (.inr rfl) hpending)
    | settled hstage => rcases hstage with hstage | hstage | hstage <;> cases hstage
  | work => exact work_turn hstands
  | finish hfinish => exact finish_turn hfinish hstands
  | unlockPending =>
    obtain rfl := hstands.settled_of (.inl rfl)
    exact .quiet _ rfl rfl rfl (.settled (.inr (.inl rfl)))
  | unlockAllowed =>
    obtain rfl := hstands.settled_of (.inr (.inl rfl))
    exact .quiet _ rfl rfl rfl (.settled (.inr (.inr rfl)))
  | respond =>
    obtain rfl := hstands.settled_of (.inr (.inr rfl))
    exact .responds _ rfl rfl rfl

/-- Only a task that writes to the allowed list changes it. -/
theorem Ran.allowed_or (h : Ran s id task e) : e.origins.allowed = s.origins.allowed ∨
    task.holds .allowed = some .write := by
  cases h with
  | @work request =>
    refine .inl ?_
    cases request with
    | getCorsStatus origin =>
      cases origin with
      | none => rfl
      | some origin => rfl
    | addPendingOrigin req =>
      rw [OriginRequest.work]
      split <;> rfl
    | _ => rfl
  | @finish request seen e hfinish =>
    cases request with
    | getOrigins =>
      cases hfinish
      exact .inl rfl
    | getCorsStatus origin =>
      obtain ⟨origin, -, rfl⟩ := Option.map_eq_some_iff.mp hfinish
      exact .inl rfl
    | addPendingOrigin req => cases hfinish
    | addAllowedOrigin req => exact .inr rfl
    | removeAllowedOrigin req => exact .inr rfl
  | _ => exact .inl rfl

theorem Ran.others {id' : Nat} {task' : Task} (h : Ran s id task e) (hlocked : Locked s)
    (htask : s.tasks id = some task) (htask' : s.tasks id' = some task') (hne : id' ≠ id)
    (hstands : Stands s.origins.allowed task' call) : Stands e.origins.allowed task' call := by
  rcases h.allowed_or with hallowed | hwrite
  · rw [hallowed]
    exact hstands
  · refine hstands.other (Bool.eq_false_iff.mpr fun hholds ↦ hne ?_)
    refine (hlocked.tracks .allowed).exclusive ((State.held_eq htask .allowed).trans hwrite) ?_
    rw [State.held_eq htask', Task.holds, if_pos hholds]
    exact nofun

/-! ## The two systems -/

/-- The lists are the atomic ones once the writer is through, and every request stands where its
call is. -/
structure Mirrors (s : State) (t : Atomic) : Prop where
  locked : Locked s
  origins : t.origins = s.completed
  fresh : t.fresh = s.nextTask
  stands : ∀ id, Option.Rel (Stands s.origins.allowed) (s.tasks id) (t.calls id)

theorem mirrors_launch : Mirrors .launch .launch := ⟨locked_launch, rfl, rfl, fun _ ↦ .none⟩

section

variable {u : Atomic}

theorem Mirrors.exists_call (h : Mirrors s u) (htask : s.tasks id = some task) :
    ∃ call, u.calls id = some call ∧ Stands s.origins.allowed task call := by
  have hstands := h.stands id
  rw [htask] at hstands
  generalize u.calls id = c at hstands
  cases hstands with
  | some hstands => exact ⟨_, rfl, hstands⟩

theorem Mirrors.ask (h : Mirrors s u) (request : Request) : Mirrors (s.spawn request)
    { u with
      calls := update u.calls s.nextTask (some (.asked request))
      fresh := s.nextTask + 1 } := by
  have hnone := h.locked.below s.nextTask (Nat.le_refl _)
  refine ⟨h.locked.step .ask, ?_, rfl, fun id ↦ ?_⟩
  · have hfree : s.held .allowed s.nextTask = none := by rw [State.held, hnone, Option.bind_none]
    have hsame : (s.spawn request).completed = s.completed :=
      h.locked.completed_update hfree rfl rfl rfl
    exact h.origins.trans hsame.symm
  · show Option.Rel _ ((s.spawn request).tasks id) (update u.calls s.nextTask _ id)
    rw [State.spawn_tasks]
    by_cases hid : id = s.nextTask
    · rw [hid, update_self, update_self]
      exact .some (.early (.inl rfl))
    · rw [update_of_ne hid, update_of_ne hid]
      exact h.stands id

/-- What is left to show after a step of a task, where the others are as they were. -/
theorem Mirrors.run {u' : Atomic} (h : Mirrors s u) (hran : Ran s id task e)
    (htask : s.tasks id = some task) (horigins : u'.origins = (s.apply id task.request e).completed)
    (hfresh : u'.fresh = u.fresh) (hothers : ∀ id', id' ≠ id → u'.calls id' = u.calls id')
    (hstands : Option.Rel (Stands e.origins.allowed)
      (e.stage.map fun stage ↦ ⟨task.request, stage⟩) (u'.calls id)) :
    Mirrors (s.apply id task.request e) u' := by
  refine ⟨h.locked.step (.run htask hran), horigins, hfresh.trans h.fresh, fun id' ↦ ?_⟩
  rw [State.apply_tasks, State.apply_origins]
  by_cases hid : id' = id
  · rw [hid, update_self]
    exact hstands
  · rw [update_of_ne hid, hothers id' hid]
    cases htask' : s.tasks id' with
    | none =>
      have hother := h.stands id'
      rw [htask'] at hother
      generalize u.calls id' = c at hother ⊢
      cases hother
      exact .none
    | some task' =>
      obtain ⟨call, hcall, hstands'⟩ := h.exists_call htask'
      rw [hcall]
      exact .some (hran.others h.locked htask htask' hid hstands')

end

theorem see_run (id : Nat) (o : Option Answer) :
    see ⟨s, .run id, o⟩ = (o.map (Seen.answered id)).toList := rfl

/-- Every step is answered by one that shows the same, or by none where it shows nothing. -/
theorem mirrors : Simulation next see Atomic.next Atomic.see Mirrors where
  step := by
    intro s s' u a o h hnext
    cases next_moved hnext with
    | @ask request =>
      have hask : Atomic.next u (.ask s.nextTask request) = some ([.asked s.nextTask request],
          { u with
            calls := update u.calls s.nextTask (some (.asked request))
            fresh := s.nextTask + 1 }) := by
        rw [Atomic.next, if_pos (Nat.le_of_eq h.fresh)]
      exact .single Atomic.see hask (h.ask request)
    | @run id task e htask hran =>
      obtain ⟨call, hcall, hstands⟩ := h.exists_call htask
      have hlocked' := h.locked.step (.run htask hran)
      rw [see_run]
      cases hran.turn hstands with
      | quiet stage hstage hanswer hcomplete hafter =>
        obtain ⟨hbefore, hlists⟩ := hran.completed h.locked hlocked' htask hstage
        rw [hanswer]
        refine .stutter (h.run hran htask ?_ rfl (fun _ _ ↦ rfl) ?_)
        · rw [hlists, hcomplete, h.origins, hbefore]
        · rw [hcall, hstage]
          exact .some hafter
      | settles stage answer hstage hanswer hcall' hserve hafter =>
        obtain ⟨hbefore, hlists⟩ := hran.completed h.locked hlocked' htask hstage
        have hsettle : Atomic.next u (.settle id) = some ([],
            { u with
              origins := e.complete task.request
              calls := update u.calls id (some (.settled answer)) }) := by
          rw [Atomic.next, hcall, hcall']
          dsimp only
          rw [h.origins, hbefore, hserve]
          rfl
        rw [hanswer]
        refine .single Atomic.see hsettle (h.run hran htask hlists.symm rfl (fun id' hid ↦ ?_) ?_)
        · exact update_of_ne hid ..
        · show Option.Rel _ _ (update u.calls id _ id)
          rw [update_self, hstage]
          exact .some hafter
      | responds answer hstage hanswer hcall' =>
        have hend : Atomic.next u (.answer id) = some ([.answered id answer],
            { u with calls := update u.calls id none }) := by
          rw [Atomic.next, hcall, hcall']
        rw [hanswer]
        refine .single Atomic.see hend (h.run hran htask ?_ rfl (fun id' hid ↦ ?_) ?_)
        · exact h.origins.trans (hran.completed_of_end h.locked htask hstage).symm
        · exact update_of_ne hid ..
        · show Option.Rel _ _ (update u.calls id _ id)
          rw [update_self, hstage]
          exact .none

/-! ## The lists of the atomic requests -/

theorem Atomic.origins_next {u w : Atomic} {a : Atomic.Action} {o : List Seen}
    (h : Atomic.next u a = some (o, w)) : w.origins = u.origins ∨
    ∃ request answer, Daemon.next u.origins request = some (answer, w.origins) := by
  cases a with
  | ask id request =>
    obtain ⟨-, rfl⟩ := Prod.mk.inj (Option.some.inj (Option.ite_none_right_eq_some.mp h).2)
    exact .inl rfl
  | settle id =>
    rw [Atomic.next] at h
    split at h
    case h_1 request _ =>
      obtain ⟨⟨answer, origins⟩, hserve, hw⟩ := Option.map_eq_some_iff.mp h
      obtain ⟨-, rfl⟩ := Prod.mk.inj hw
      cases request with
      | handle request =>
        obtain ⟨⟨answer', origins'⟩, hnext, hserve⟩ := Option.map_eq_some_iff.mp hserve
        cases hserve
        exact .inr ⟨request, answer', hnext⟩
      | corsLayer origin =>
        cases hserve
        exact .inl rfl
    case h_2 => cases h
  | answer id =>
    rw [Atomic.next] at h
    split at h
    · cases h
      exact .inl rfl
    · cases h

/-- The lists are what single requests make of them, one after the other. -/
theorem Atomic.exists_requests {tr : List (Event Atomic Atomic.Action (List Seen))} {u : Atomic}
    (h : Run Atomic.next .launch tr u) : ∃ tr', Run Daemon.next Origins.empty tr' u.origins := by
  induction h with
  | nil => exact ⟨[], .nil⟩
  | snoc _ hnext ih =>
    obtain ⟨tr', hrun⟩ := ih
    rcases Atomic.origins_next hnext with hsame | ⟨request, answer, hrequest⟩
    · rw [hsame]
      exact ⟨tr', hrun⟩
    · exact ⟨_, hrun.snoc hrequest⟩

/-- Whatever the handlers and the CORS layer do at the same time, there is a run of requests that
take one step each in which the same is asked and answered in the same order.  Where nobody holds
the allowed list for writing both lists are as after that run, which some requests lead to one after
the other. -/
theorem origins_linearizable (h : Run next .launch tr s) :
    ∃ tr' u, Run Atomic.next .launch tr' u ∧ seen Atomic.see tr' = seen see tr ∧
      ((s.locks .allowed).writer = none → s.origins = u.origins) ∧
      ∃ tr'', Run Daemon.next Origins.empty tr'' u.origins := by
  obtain ⟨tr', u, hrun, hseen, hmirrors⟩ := mirrors.run mirrors_launch h
  refine ⟨tr', u, hrun, hseen, fun hwriter ↦ ?_, Atomic.exists_requests hrun⟩
  rw [hmirrors.origins, completed_of_none hwriter]

-- A website asks to be put on the pending list while the user's answer is under way, which is told
-- first; the website is told that it is waiting, and it is.
theorem origins_linearizable_sample : ∃ tr s tr' u, Run next .launch tr s ∧
    Run Atomic.next .launch tr' u ∧ s.origins = u.origins ∧ u.origins.pending = ["https://a"] ∧
    seen Atomic.see tr' = [.asked 0 (.handle (.addPendingOrigin "https://a")),
      .asked 1 (.handle (.removeAllowedOrigin "https://a")),
      .answered 1 (status .ok), .answered 0 (status .created)] := by
  obtain ⟨tr, s, hrun, hp⟩ := exists_run next .launch
    [.ask (.handle (.addPendingOrigin "https://a")),
      .ask (.handle (.removeAllowedOrigin "https://a")),
      .run 1, .run 1, .run 1, .run 1, .run 1, .run 1, .run 1,
      .run 0, .run 0, .run 1, .run 0, .run 0, .run 0, .run 0, .run 0]
    (fun tr s ↦ (s.locks .allowed).writer.isNone ∧ s.origins.pending = ["https://a"] ∧
      seen see tr = [.asked 0 (.handle (.addPendingOrigin "https://a")),
        .asked 1 (.handle (.removeAllowedOrigin "https://a")),
        .answered 1 (status .ok), .answered 0 (status .created)])
    (by decide +kernel)
  simp only [decide_eq_true_eq, Option.isNone_iff_eq_none] at hp
  obtain ⟨hwriter, hpending, hseen⟩ := hp
  obtain ⟨tr', u, hrun', hseen', hsame, -⟩ := origins_linearizable hrun
  have horigins := hsame hwriter
  exact ⟨tr, s, tr', u, hrun, hrun', horigins, horigins ▸ hpending, hseen'.trans hseen⟩

end LabStreamGate.Daemon.OriginLocks
