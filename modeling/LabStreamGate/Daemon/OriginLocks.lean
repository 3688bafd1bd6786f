import LabStreamGate.Daemon.Cors
import LabStreamGate.Library.Counting
import LabStreamGate.Library.RwLocks
import LabStreamGate.Library.Run
import LabStreamGate.Library.TaskTable
import Mathlib.Data.Fintype.EquivFin

/-!
# The locks of the origin lists

Each list has a lock of its own.  The handlers and the CORS layer take the lock of the allowed list
first and that of the pending list, if they need it, while they hold the first one; they give them
back in the other order.  Any number of them run at the same time.
-/

namespace LabStreamGate.Daemon.OriginLocks

open Function

inductive Request
  | handle (request : OriginRequest)
  | corsLayer (origin : HeaderValue)
  deriving DecidableEq, Repr

inductive Answer
  | handled (answer : OriginAnswer)
  | allows (value : Bool)
  deriving DecidableEq, Repr

/-- `ALLOWED_ORIGINS` and `PENDING_ORIGINS`, in the order in which they are locked. -/
inductive Lock
  | allowed
  | pending
  deriving DecidableEq, Repr

def Lock.rank : Lock → Fin 2
  | .allowed => 0
  | .pending => 1

instance : Preorder Lock := .lift Lock.rank

instance : Finite Lock := .of_injective Lock.rank fun lock lock' h ↦ by
  cases lock <;> cases lock' <;> first | rfl | cases h

/-- How a request locks a list. -/
def Request.mode (lock : Lock) : Request → LockMode
  | .handle (.addAllowedOrigin _) => .write
  | .handle (.removeAllowedOrigin _) => .write
  | .handle (.addPendingOrigin _) => if lock = .pending then .write else .read
  | _ => .read

/-- How far a request is; between `work` and `finish` it has used one of the lists and not yet the
other one, and `seen` is what it has taken from the allowed list. -/
inductive Stage
  | lockAllowed
  | look
  | lockPending
  | work
  | finish (seen : List String)
  | unlockPending (answer : Answer)
  | unlockAllowed (answer : Answer)
  | respond (answer : Answer)
  deriving DecidableEq, Repr

structure Task where
  request : Request
  stage : Stage
  deriving DecidableEq, Repr

def Stage.holds (stage : Stage) : Lock → Bool
  | .allowed =>
    match stage with
    | .lockAllowed | .respond _ => false
    | _ => true
  | .pending =>
    match stage with
    | .work | .finish _ | .unlockPending _ => true
    | _ => false

/-- How a task holds a lock. -/
def Task.holds (task : Task) (lock : Lock) : Option LockMode :=
  if task.stage.holds lock then some (task.request.mode lock) else none

structure State where
  origins : Origins
  locks : Lock → RwLock
  tasks : Nat → Option Task
  nextTask : Nat

def State.launch : State := ⟨.empty, fun _ ↦ .free, fun _ ↦ none, 0⟩

/-- What a step of a task leaves behind. -/
structure Effect where
  origins : Origins
  locks : Lock → RwLock
  stage : Option Stage
  answer : Option Answer

namespace State

def goTo (s : State) (stage : Stage) : Effect := ⟨s.origins, s.locks, some stage, none⟩

def acquire (s : State) (id : Nat) (lock : Lock) (request : Request) (stage : Stage) :
    Option Effect :=
  ((s.locks lock).acquire id (request.mode lock)).map fun held ↦
    ⟨s.origins, update s.locks lock held, some stage, none⟩

def release (s : State) (id : Nat) (lock : Lock) (stage : Stage) : Effect :=
  ⟨s.origins, update s.locks lock ((s.locks lock).release id), some stage, none⟩

def setAllowed (s : State) (allowed : List String) (stage : Stage) : Effect :=
  ⟨{ s.origins with allowed }, s.locks, some stage, none⟩

def setPending (s : State) (pending : List String) (stage : Stage) : Effect :=
  ⟨{ s.origins with pending }, s.locks, some stage, none⟩

end State

def status (code : StatusCode) : Answer := .handled (.status code)

/-- The waiting list without an origin. -/
def State.waitlist (s : State) (req : String) : List String :=
  if s.origins.pending.contains req then s.origins.pending.filter (· != req) else s.origins.pending

/-- With the lock of the allowed list alone. -/
def Request.look (s : State) : Request → Stage
  | .corsLayer origin => .unlockAllowed (.allows (corsAllows s.origins.allowed origin))
  | .handle (.addPendingOrigin req) =>
    if s.origins.allowed.contains req then .unlockAllowed (status .accepted) else .lockPending
  | _ => .lockPending

/-- With both locks. -/
def OriginRequest.work (s : State) : OriginRequest → Effect
  | .getOrigins => s.goTo (.finish s.origins.allowed)
  | .addAllowedOrigin req => s.setPending (s.waitlist req) (.finish [])
  | .removeAllowedOrigin req => s.setPending (s.waitlist req) (.finish [])
  | .getCorsStatus origin =>
    match origin.map originText with
    | some origin =>
      s.goTo (if s.origins.allowed.contains origin then .unlockPending (status .accepted)
        else .finish [])
    | none => s.goTo (.unlockPending (status .accepted))
  | .addPendingOrigin req =>
    if s.origins.pending.contains req then s.goTo (.unlockPending (status .created))
    else s.setPending (s.origins.pending ++ [req]) (.unlockPending (status .created))

def OriginRequest.finish (s : State) (seen : List String) : OriginRequest → Option Effect
  | .getOrigins =>
    some (s.goTo (.unlockPending (.handled (.originResponse seen s.origins.pending))))
  | .addAllowedOrigin req =>
    some (s.setAllowed (s.origins.allowed ++ [req]) (.unlockPending (status .ok)))
  | .removeAllowedOrigin req =>
    some (s.setAllowed (s.origins.allowed.filter (· != req)) (.unlockPending (status .ok)))
  | .getCorsStatus origin =>
    origin.map fun origin ↦
      s.goTo (.unlockPending (status
        (if s.origins.pending.contains (originText origin) then .created else .forbidden)))
  | .addPendingOrigin _ => none

def Task.run (s : State) (id : Nat) (task : Task) : Option Effect :=
  match task.stage, task.request with
  | .lockAllowed, request => s.acquire id .allowed request .look
  | .look, request => some (s.goTo (request.look s))
  | .lockPending, request => s.acquire id .pending request .work
  | .work, .handle request => some (OriginRequest.work s request)
  | .finish seen, .handle request => OriginRequest.finish s seen request
  | .unlockPending answer, _ => some (s.release id .pending (.unlockAllowed answer))
  | .unlockAllowed answer, _ => some (s.release id .allowed (.respond answer))
  | .respond answer, _ => some ⟨s.origins, s.locks, none, some answer⟩
  | _, _ => none

inductive Action
  | ask (request : Request)
  | run (id : Nat)
  deriving DecidableEq, Repr

def State.spawn (s : State) (request : Request) : State :=
  { s with
    tasks := update s.tasks s.nextTask (some ⟨request, .lockAllowed⟩)
    nextTask := s.nextTask + 1 }

def State.apply (s : State) (id : Nat) (request : Request) (e : Effect) : State :=
  { s with
    origins := e.origins
    locks := e.locks
    tasks := update s.tasks id (e.stage.map fun stage ↦ ⟨request, stage⟩) }

def next (s : State) : Action → Option (Option Answer × State)
  | .ask request => some (none, s.spawn request)
  | .run id =>
    (s.tasks id).bind fun task ↦
      (task.run s id).map fun e ↦ (e.answer, s.apply id task.request e)

/-! ## One step -/

variable {s t : State} {a : Action} {o : Option Answer} {id : Nat} {task : Task} {e : Effect}
  {request : Request} {tr : List (Event State Action (Option Answer))} {lock : Lock}

/-- What a step of a task can come to. -/
inductive Ran (s : State) (id : Nat) : Task → Effect → Prop
  | lockAllowed {request : Request} {held : RwLock} :
      (s.locks .allowed).acquire id (request.mode .allowed) = some held →
      Ran s id ⟨request, .lockAllowed⟩ ⟨s.origins, update s.locks .allowed held, some .look, none⟩
  | look {request : Request} : Ran s id ⟨request, .look⟩ (s.goTo (request.look s))
  | lockPending {request : Request} {held : RwLock} :
      (s.locks .pending).acquire id (request.mode .pending) = some held →
      Ran s id ⟨request, .lockPending⟩ ⟨s.origins, update s.locks .pending held, some .work, none⟩
  | work {request : OriginRequest} :
      Ran s id ⟨.handle request, .work⟩ (OriginRequest.work s request)
  | finish {request : OriginRequest} {seen : List String} {e : Effect} :
      OriginRequest.finish s seen request = some e →
      Ran s id ⟨.handle request, .finish seen⟩ e
  | unlockPending {request : Request} {answer : Answer} :
      Ran s id ⟨request, .unlockPending answer⟩ (s.release id .pending (.unlockAllowed answer))
  | unlockAllowed {request : Request} {answer : Answer} :
      Ran s id ⟨request, .unlockAllowed answer⟩ (s.release id .allowed (.respond answer))
  | respond {request : Request} {answer : Answer} :
      Ran s id ⟨request, .respond answer⟩ ⟨s.origins, s.locks, none, some answer⟩

theorem run_ran (h : task.run s id = some e) : Ran s id task e := by
  obtain ⟨request, stage⟩ := task
  cases stage with
  | lockAllowed =>
    obtain ⟨held, hheld, rfl⟩ := Option.map_eq_some_iff.mp h
    exact .lockAllowed hheld
  | look =>
    cases h
    exact .look
  | lockPending =>
    obtain ⟨held, hheld, rfl⟩ := Option.map_eq_some_iff.mp h
    exact .lockPending hheld
  | work =>
    cases request with
    | handle request =>
      cases h
      exact .work
    | corsLayer origin => cases h
  | finish seen =>
    cases request with
    | handle request => exact .finish h
    | corsLayer origin => cases h
  | unlockPending answer =>
    cases h
    exact .unlockPending
  | unlockAllowed answer =>
    cases h
    exact .unlockAllowed
  | respond answer =>
    cases h
    exact .respond

theorem State.spawn_tasks : (s.spawn request).tasks =
    update s.tasks s.nextTask (some ⟨request, .lockAllowed⟩) := rfl

theorem State.apply_locks : (s.apply id request e).locks = e.locks := rfl

theorem State.apply_tasks : (s.apply id request e).tasks =
    update s.tasks id (e.stage.map fun stage ↦ ⟨request, stage⟩) := rfl

/-- What an action can come to. -/
inductive Moved (s : State) : Action → Option Answer → State → Prop
  | ask {request : Request} : Moved s (.ask request) none (s.spawn request)
  | run {id : Nat} {task : Task} {e : Effect} : s.tasks id = some task → Ran s id task e →
      Moved s (.run id) e.answer (s.apply id task.request e)

theorem next_moved (h : next s a = some (o, t)) : Moved s a o t := by
  cases a with
  | ask request =>
    cases h
    exact .ask
  | run id =>
    simp only [next, Option.bind_eq_some_iff, Option.map_eq_some_iff, Prod.mk.injEq] at h
    obtain ⟨task, htask, e, he, rfl, rfl⟩ := h
    exact .run htask (run_ran he)

/-! ## Who holds the locks -/

def Effect.holds (e : Effect) (request : Request) (lock : Lock) : Option LockMode :=
  (e.stage.map fun stage ↦ (⟨request, stage⟩ : Task)).bind (·.holds lock)

/-- What a step does to a lock: nothing, or it is acquired or given back by the task. -/
inductive Locking (s : State) (id : Nat) (task : Task) (e : Effect) (lock : Lock) : Prop
  | kept : e.locks lock = s.locks lock → e.holds task.request lock = task.holds lock →
      Locking s id task e lock
  | acquired (mode : LockMode) : (s.locks lock).acquire id mode = some (e.locks lock) →
      e.holds task.request lock = some mode → Locking s id task e lock
  | released : e.locks lock = (s.locks lock).release id → e.holds task.request lock = none →
      Locking s id task e lock

theorem look_holds (request : Request) (lock : Lock) :
    (request.look s).holds lock = Stage.look.holds lock := by
  cases request with
  | corsLayer origin => cases lock <;> rfl
  | handle request =>
    cases request with
    | addPendingOrigin req =>
      rw [Request.look]
      split <;> cases lock <;> rfl
    | _ => cases lock <;> rfl

theorem work_keeps (request : OriginRequest) :
    (OriginRequest.work s request).locks = s.locks ∧
      (OriginRequest.work s request).holds (.handle request) lock =
        (⟨.handle request, .work⟩ : Task).holds lock := by
  cases request with
  | getCorsStatus origin =>
    cases origin with
    | none => cases lock <;> exact ⟨rfl, rfl⟩
    | some origin =>
      rw [OriginRequest.work, Option.map_some]
      dsimp only
      split <;> cases lock <;> exact ⟨rfl, rfl⟩
  | addPendingOrigin req =>
    rw [OriginRequest.work]
    split <;> cases lock <;> exact ⟨rfl, rfl⟩
  | _ => cases lock <;> exact ⟨rfl, rfl⟩

theorem finish_keeps {request : OriginRequest} {seen : List String}
    (h : OriginRequest.finish s seen request = some e) : e.locks = s.locks ∧
      e.holds (.handle request) lock = (⟨.handle request, .finish seen⟩ : Task).holds lock := by
  cases request with
  | getCorsStatus origin =>
    obtain ⟨origin, -, rfl⟩ := Option.map_eq_some_iff.mp h
    cases lock <;> exact ⟨rfl, rfl⟩
  | addPendingOrigin req => cases h
  | _ =>
    cases h
    cases lock <;> exact ⟨rfl, rfl⟩

theorem Ran.locking (h : Ran s id task e) (lock : Lock) : Locking s id task e lock := by
  cases h with
  | @lockAllowed request held hheld =>
    cases lock with
    | allowed => exact .acquired (request.mode .allowed) hheld rfl
    | pending => exact .kept rfl rfl
  | @look request =>
    refine .kept rfl ?_
    show (if (request.look s).holds lock then _ else _) = if Stage.look.holds lock then _ else _
    rw [look_holds]
  | @lockPending request held hheld =>
    cases lock with
    | allowed => exact .kept rfl rfl
    | pending => exact .acquired (request.mode .pending) hheld rfl
  | work =>
    obtain ⟨hlocks, hholds⟩ := @work_keeps s lock _
    exact .kept (by rw [hlocks]) hholds
  | finish hfinish =>
    obtain ⟨hlocks, hholds⟩ := @finish_keeps s _ lock _ _ hfinish
    exact .kept (by rw [hlocks]) hholds
  | unlockPending =>
    cases lock with
    | allowed => exact .kept rfl rfl
    | pending => exact .released rfl rfl
  | unlockAllowed =>
    cases lock with
    | allowed => exact .released rfl rfl
    | pending => exact .kept rfl rfl
  | respond => exact .kept rfl (by cases lock <;> rfl)

def State.held (s : State) (lock : Lock) (id : Nat) : Option LockMode :=
  (s.tasks id).bind (·.holds lock)

/-- The locks are held as the tasks are. -/
structure Locked (s : State) : Prop where
  below : TasksBelow s.nextTask s.tasks
  tracks : ∀ lock, (s.locks lock).Tracks (s.held lock)

theorem locked_launch : Locked .launch := ⟨.of_none, fun _ ↦ RwLock.free_tracks⟩

theorem Locked.step (h : Locked s) (hm : Moved s a o t) : Locked t := by
  cases hm with
  | ask =>
    refine ⟨h.below.spawn, fun lock ↦ (h.tracks lock).congr fun id ↦ ?_⟩
    rw [State.held, State.held, State.spawn_tasks]
    by_cases hid : id = s.nextTask
    · rw [hid, update_self, h.below s.nextTask (Nat.le_refl _)]
      cases lock <;> rfl
    · rw [update_of_ne hid]
  | @run id task e htask hran =>
    refine ⟨h.below.step (h.below.lt htask), fun lock ↦ ?_⟩
    have hheld : ∀ id', (s.apply id task.request e).held lock id' =
        update (s.held lock) id (e.holds task.request lock) id' := by
      intro id'
      rw [State.held, State.apply_tasks]
      by_cases hid : id' = id
      · rw [hid, update_self, update_self]
        rfl
      · rw [update_of_ne hid, update_of_ne hid]
        rfl
    refine RwLock.Tracks.congr ?_ hheld
    have hown : s.held lock id = task.holds lock := by
      rw [State.held, htask, Option.bind_some]
    rw [State.apply_locks]
    cases hran.locking lock with
    | kept hlocks hholds =>
      rw [hlocks, hholds, ← hown, update_eq_self]
      exact h.tracks lock
    | acquired mode hacquire hholds =>
      rw [hholds]
      exact (h.tracks lock).acquire hacquire
    | released hlocks hholds =>
      rw [hlocks, hholds]
      exact (h.tracks lock).release

theorem locked (h : Run next .launch tr s) : Locked s := by
  refine h.invariant (I := Locked) (C := fun _ ↦ True) locked_launch ?_ (fun _ _ ↦ trivial)
  intro v a o w hlocked _ hnext
  exact hlocked.step (next_moved hnext)

/-! ## Nobody waits for ever -/

def Request.isHandle : Request → Bool
  | .handle _ => true
  | .corsLayer _ => false

/-- The requests that use one list after the other. -/
def Request.finishes : Request → Bool
  | .handle (.addPendingOrigin _) => false
  | .handle (.getCorsStatus origin) => origin.isSome
  | .handle _ => true
  | .corsLayer _ => false

/-- The task is at a stage that its request can come to. -/
def Task.fits (task : Task) : Bool :=
  match task.stage with
  | .lockPending | .work => task.request.isHandle
  | .finish _ => task.request.finishes
  | _ => true

theorem look_fits (request : Request) : (⟨request, request.look s⟩ : Task).fits = true := by
  cases request with
  | corsLayer origin => rfl
  | handle request =>
    cases request with
    | addPendingOrigin req =>
      rw [Request.look]
      split <;> rfl
    | _ => rfl

theorem look_cases (request : Request) : request.look s = .lockPending ∨
    ∃ answer, request.look s = .unlockAllowed answer := by
  cases request with
  | corsLayer origin => exact .inr ⟨_, rfl⟩
  | handle request =>
    cases request with
    | addPendingOrigin req =>
      rw [Request.look]
      split
      · exact .inr ⟨_, rfl⟩
      · exact .inl rfl
    | _ => exact .inl rfl

theorem work_cases (request : OriginRequest) :
    (∃ answer, (OriginRequest.work s request).stage = some (.unlockPending answer)) ∨
      ∃ seen, (OriginRequest.work s request).stage = some (.finish seen) ∧
        (Request.handle request).finishes = true := by
  cases request with
  | getCorsStatus origin =>
    cases origin with
    | none => exact .inl ⟨_, rfl⟩
    | some origin =>
      rw [OriginRequest.work, Option.map_some]
      dsimp only
      split
      · exact .inl ⟨_, rfl⟩
      · exact .inr ⟨_, rfl, rfl⟩
  | addPendingOrigin req =>
    rw [OriginRequest.work]
    split <;> exact .inl ⟨_, rfl⟩
  | _ => exact .inr ⟨_, rfl, rfl⟩

theorem finish_cases {request : OriginRequest} {seen : List String}
    (h : OriginRequest.finish s seen request = some e) :
    ∃ answer, e.stage = some (.unlockPending answer) := by
  cases request with
  | getCorsStatus origin =>
    obtain ⟨origin, -, rfl⟩ := Option.map_eq_some_iff.mp h
    exact ⟨_, rfl⟩
  | addPendingOrigin req => cases h
  | _ =>
    cases h
    exact ⟨_, rfl⟩

/-- How many steps a request takes at most from here on. -/
def Stage.left : Stage → Nat
  | .lockAllowed => 8
  | .look => 7
  | .lockPending => 6
  | .work => 5
  | .finish _ => 4
  | .unlockPending _ => 3
  | .unlockAllowed _ => 2
  | .respond _ => 1

def stepsLeft (task : Option Task) : Nat := (task.map fun task ↦ task.stage.left).getD 0

/-- A step brings a task nearer to its end. -/
inductive Advances (task : Task) (e : Effect) : Prop
  | goes (stage : Stage) : e.stage = some stage → stage.left < task.stage.left →
      (⟨task.request, stage⟩ : Task).fits = true → Advances task e
  | ends : e.stage = none → Advances task e

theorem Ran.advances (h : Ran s id task e) (hfits : task.fits = true) : Advances task e := by
  cases h with
  | lockAllowed => exact .goes .look rfl (Nat.lt_succ_self 7) rfl
  | @look request =>
    refine .goes _ rfl ?_ (look_fits request)
    rcases look_cases (s := s) request with hstage | ⟨answer, hstage⟩ <;> rw [hstage]
    · exact Nat.lt_succ_self 6
    · exact (by decide : 2 < 7)
  | lockPending => exact .goes .work rfl (Nat.lt_succ_self 5) hfits
  | @work request =>
    rcases work_cases (s := s) request with ⟨answer, hstage⟩ | ⟨seen, hstage, hfinishes⟩
    · exact .goes _ hstage (by decide : 3 < 5) rfl
    · exact .goes _ hstage (Nat.lt_succ_self 4) hfinishes
  | finish hfinish =>
    obtain ⟨answer, hstage⟩ := finish_cases hfinish
    exact .goes _ hstage (Nat.lt_succ_self 3) rfl
  | unlockPending => exact .goes _ rfl (Nat.lt_succ_self 2) rfl
  | unlockAllowed => exact .goes _ rfl (Nat.lt_succ_self 1) rfl
  | respond => exact .ends rfl

/-- All tasks are at stages of theirs. -/
def Fitting (s : State) : Prop := ∀ id task, s.tasks id = some task → task.fits = true

theorem Fitting.step (h : Fitting s) (hm : Moved s a o t) : Fitting t := by
  intro id' task' htask'
  cases hm with
  | ask =>
    rw [State.spawn_tasks] at htask'
    rcases tasks_of_update htask' with ⟨-, hsome⟩ | ⟨-, hold⟩
    · cases hsome
      rfl
    · exact h id' task' hold
  | @run id task e htask hran =>
    rw [State.apply_tasks] at htask'
    rcases tasks_of_update htask' with ⟨-, hsome⟩ | ⟨-, hold⟩
    · cases hran.advances (h id task htask) with
      | goes stage hstage _ hfits =>
        rw [hstage] at hsome
        cases hsome
        exact hfits
      | ends hnone =>
        rw [hnone] at hsome
        cases hsome
    · exact h id' task' hold

theorem fitting (h : Run next .launch tr s) : Fitting s := by
  refine h.invariant (I := Fitting) (C := fun _ ↦ True) nofun ?_ (fun _ _ ↦ trivial)
  intro v a o w hfitting _ hnext
  exact hfitting.step (next_moved hnext)

/-- The lock that a task wants next. -/
def Task.waits (task : Task) : Option Lock :=
  match task.stage with
  | .lockAllowed => some .allowed
  | .lockPending => some .pending
  | _ => none

/-- A task that cannot go on waits for a lock. -/
theorem Task.waits_of_stuck (hfits : task.fits = true) (hstuck : task.run s id = none) :
    ∃ lock, task.waits = some lock ∧ (s.locks lock).acquire id (task.request.mode lock) = none := by
  obtain ⟨request, stage⟩ := task
  cases stage with
  | lockAllowed => exact ⟨.allowed, rfl, Option.map_eq_none_iff.mp hstuck⟩
  | lockPending => exact ⟨.pending, rfl, Option.map_eq_none_iff.mp hstuck⟩
  | work =>
    cases request with
    | handle request => cases hstuck
    | corsLayer origin => cases hfits
  | finish seen =>
    cases request with
    | handle request =>
      cases request with
      | getCorsStatus origin =>
        cases origin with
        | some origin => cases hstuck
        | none => cases hfits
      | addPendingOrigin req => cases hfits
      | _ => cases hstuck
    | corsLayer origin => cases hfits
  | _ => cases hstuck

/-- A task waits for the second lock only while it has the first one, and for the first one while
it has none. -/
theorem Task.ordered {lock' : Lock} (hholds : task.holds lock ≠ none)
    (hwaits : task.waits = some lock') : lock < lock' := by
  obtain ⟨request, stage⟩ := task
  cases stage with
  | lockAllowed => cases lock <;> exact absurd rfl hholds
  | lockPending =>
    cases hwaits
    cases lock with
    | allowed => exact Nat.zero_lt_one
    | pending => exact absurd rfl hholds
  | _ => cases hwaits

/-- As long as a request is under way, one of those that are can go on. -/
theorem exists_step (hlocked : Locked s) (hfitting : Fitting s) (hlive : s.tasks id = some task) :
    ∃ id o t, next s (.run id) = some (o, t) := by
  have hstuck : ∀ id, (s.tasks id).isSome = true → ¬ (next s (.run id)).isSome = true →
      ∃ lock id', (s.tasks id).bind Task.waits = some lock ∧ (s.tasks id').isSome = true ∧
        s.held lock id' ≠ none := by
    intro id hsome hnext
    obtain ⟨task, htask⟩ := Option.isSome_iff_exists.mp hsome
    rw [Option.not_isSome_iff_eq_none, next, htask, Option.bind_some,
      Option.map_eq_none_iff] at hnext
    obtain ⟨lock, hwaits, hacquire⟩ := Task.waits_of_stuck (hfitting id task htask) hnext
    obtain ⟨id', hheld⟩ := (hlocked.tracks lock).exists_holder hacquire
    refine ⟨lock, id', ?_, ?_, hheld⟩
    · rw [htask, Option.bind_some, hwaits]
    · rw [Option.isSome_iff_ne_none]
      intro hnone
      rw [State.held, hnone] at hheld
      exact hheld rfl
  have horder : ∀ id lock lock', s.held lock id ≠ none →
      (s.tasks id).bind Task.waits = some lock' → lock < lock' := by
    intro id lock lock' hholds hwaits
    obtain ⟨task, htask, hwaits⟩ := Option.bind_eq_some_iff.mp hwaits
    rw [State.held, htask, Option.bind_some] at hholds
    exact Task.ordered hholds hwaits
  have hsome : (s.tasks id).isSome = true := by
    rw [hlive]
    rfl
  obtain ⟨id, -, hnext⟩ := exists_going hstuck horder hsome
  obtain ⟨⟨o, t⟩, hnext⟩ := Option.isSome_iff_exists.mp hnext
  exact ⟨id, o, t, hnext⟩

/-- The steps that the requests under way take at most. -/
def State.stepsLeft (s : State) : Nat := totalHeld s.nextTask OriginLocks.stepsLeft s.tasks

theorem stepsLeft_run (hlocked : Locked s) (hfitting : Fitting s)
    (hnext : next s (.run id) = some (o, t)) : t.stepsLeft < s.stepsLeft := by
  cases next_moved hnext with
  | @run id task e htask hran =>
    have htotal := @totalHeld_update _ s.nextTask id OriginLocks.stepsLeft s.tasks
      (e.stage.map fun stage ↦ ⟨task.request, stage⟩) (hlocked.below.lt htask)
    have hless : OriginLocks.stepsLeft (e.stage.map fun stage ↦ (⟨task.request, stage⟩ : Task)) <
        OriginLocks.stepsLeft (s.tasks id) := by
      rw [htask]
      cases hran.advances (hfitting id task htask) with
      | goes stage hstage hless _ =>
        rw [hstage]
        exact hless
      | ends hnone =>
        rw [hnone]
        show 0 < task.stage.left
        cases task.stage <;> exact Nat.succ_pos _
    show totalHeld s.nextTask OriginLocks.stepsLeft (s.apply id task.request e).tasks < _
    rw [State.apply_tasks, State.stepsLeft]
    omega

/-- No request is asked in the steps. -/
def OnlyRuns (tr : List (Event State Action (Option Answer))) : Prop :=
  ∀ e ∈ tr, ∃ id, e.act = .run id

theorem descends : Descends next (fun s ↦ Locked s ∧ Fitting s) (fun e ↦ ∃ id, e.act = .run id)
    State.stepsLeft := by
  rintro s a o t ⟨hlocked, hfitting⟩ ⟨id, hact⟩ hnext
  obtain rfl : a = .run id := hact
  have hm := next_moved hnext
  exact ⟨⟨hlocked.step hm, hfitting.step hm⟩, stepsLeft_run hlocked hfitting hnext⟩

/-- Whatever has been asked, and however far the requests have come: as long as one of them is under
way one can go on, they come to their end after a number of steps that is known, in whatever order
they take them, and there is nothing then that holds a lock. -/
theorem origins_never_stuck (h : Run next .launch tr s) :
    (∀ id task, s.tasks id = some task → ∃ id' o t, next s (.run id') = some (o, t)) ∧
    (∀ tr' t, Run next s tr' t → OnlyRuns tr' → tr'.length ≤ s.stepsLeft) ∧
    ∃ tr' t, Run next s tr' t ∧ OnlyRuns tr' ∧ (∀ id, t.tasks id = none) ∧
      ∀ lock, t.locks lock = .free := by
  refine ⟨fun id task htask ↦ exists_step (locked h) (fitting h) htask,
    fun tr' t hrun hruns ↦ ?_, ?_⟩
  · obtain ⟨-, hle⟩ := descends.run hrun ⟨locked h, fitting h⟩ hruns
    omega
  · obtain ⟨tr', t, hrun, hruns, ⟨hlocked, hfitting⟩, hlast⟩ :=
      descends.exists_last ⟨locked h, fitting h⟩
    have hend : ∀ id, t.tasks id = none := by
      refine fun id ↦ Option.eq_none_iff_forall_ne_some.mpr fun task htask ↦ ?_
      obtain ⟨id', o, u, hnext⟩ := exists_step hlocked hfitting htask
      exact hlast (.run id') o u hnext ⟨id', rfl⟩
    refine ⟨tr', t, hrun, hruns, hend, fun lock ↦ (hlocked.tracks lock).eq_free fun id ↦ ?_⟩
    rw [State.held, hend, Option.bind_none]

-- A website waits for the user's answer, which writes to the lists, and both are told in the end.
theorem origins_never_stuck_sample : ∃ tr s, Run next .launch tr s ∧
    next s (.run 0) = none ∧ (∃ id o t, next s (.run id) = some (o, t)) ∧
    ∃ tr' t, Run next s tr' t ∧ (∀ id, t.tasks id = none) ∧ ∀ lock, t.locks lock = .free := by
  obtain ⟨tr, s, hrun, hp⟩ := exists_run next .launch
    [.ask (.handle (.addPendingOrigin "https://a")),
      .ask (.handle (.addAllowedOrigin "https://a")), .run 1]
    (fun _ s ↦ (s.tasks 1).isSome ∧ (next s (.run 0)).isNone) (by decide +kernel)
  simp only [decide_eq_true_eq, Option.isNone_iff_eq_none, Option.isSome_iff_exists] at hp
  obtain ⟨⟨task, htask⟩, hwaits⟩ := hp
  obtain ⟨hgoes, -, tr', t, hrun', -, hend⟩ := origins_never_stuck hrun
  exact ⟨tr, s, hrun, hwaits, hgoes 1 task htask, tr', t, hrun', hend⟩

end LabStreamGate.Daemon.OriginLocks
