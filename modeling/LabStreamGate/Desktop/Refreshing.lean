import LabStreamGate.Desktop.EventPump
import LabStreamGate.Desktop.Pingfall

/-!
# The daemon in its window

A view keeps the scopes and the instances that it has read.  The tasks that change them in the
daemon send a `Refresh` once they have done so, which is later, and the main thread reads first the
scopes and then the instances, while the tasks go on.
-/

namespace LabStreamGate.Desktop

open Function

/-! ## What the tasks send -/

/-- Whether `update_instance_state` is to return `true`. -/
def Task.measures (s : State) : Task → Bool
  | .updateInstanceState data result _ =>
    (s.instances.find? fun i ↦ i.data.remote == data.remote).any fun i ↦
      i.data.latency != elapsed result
  | _ => false

/-- The `Refresh` events that the function of a step sends at its end; `silent` tells of a save
that `shutdown` has asked for. -/
def Task.sends (s : State) (silent : Bool) (e : Effect) : Task → Nat
  | .launchInstance _ localAddr _ => if isTaken s.instances localAddr then 0 else 1
  | .removeInstance _ _ | .pingfallRemove _ _ =>
    if e.instances.length = s.instances.length then 0 else 1
  | .persistTo _ _ => if silent || e.task.any Task.isWriting then 0 else 1
  | _ => 0

namespace Refreshing

/-! ## The daemon, the pump and the windows -/

/-- What `refresh_from_state` reads; the settings have no part in this. -/
structure Shown where
  scopes : List ScopeData
  instances : List InstanceData

/-- A task goes on when it owes no `Refresh`.  `changed` is the flag of a pass, and `reading` tells
that a view has read the scopes and not yet the instances. -/
structure State where
  server : Desktop.State
  owes : Nat → Nat
  changed : Nat → Bool
  silent : Nat → Bool
  app : App Shown
  opened : Bool
  reading : Bool

/-- `emit` is an event of some other task, and `main` a step of the pump or a window that is
closed. -/
inductive Action
  | server (a : Desktop.Action)
  | send (id : Nat)
  | emit (event : UiEvent)
  | openWindow
  | main (a : App.Action Shown)
  | changePage (home : Bool)
  | readInstances

inductive Out
  | silent
  | server (o : Desktop.Out)
  | app (o : App.Out)

namespace State

/-- The server runs, and there is no window yet. -/
def start (files : Fs String) (apiPort : UInt16) : State where
  server := .spawnBackground files
  owes := fun _ ↦ 0
  changed := fun _ ↦ false
  silent := fun _ ↦ false
  app :=
    { channel := []
      pump := .idle
      shared := ⟨⟨[], []⟩, apiPort, false, []⟩
      windowRef := none
      windows := fun _ ↦ none
      nextWindow := 0 }
  opened := false
  reading := false

/-- A step of the task `id`, with what it has to send after it. -/
def tell (s : State) (id : Nat) (task : Task) (e : Effect) : State :=
  let changed := s.changed id || (task.inPass && task.measures s.server)
  let ended := task.inPass && !e.task.any Task.inPass
  { s with
    server := s.server.apply id e
    owes := update s.owes id
      (task.sends s.server (s.silent id) e + if ended && changed then 1 else 0)
    changed := update s.changed id (changed && !ended) }

/-- The app where a view reads the scopes as they are, and has the instances that it had; a new
view has none. -/
def current (s : State) : App Shown :=
  { s.app with
    shared.data :=
      { scopes := s.server.scopes
        instances :=
          ((s.app.windowRef.bind s.app.windows).map fun root ↦ root.data.instances).getD [] } }

end State

/-- Whether the pump has begun to read the state again, for a view or for a new one. -/
def reads (before after : App Shown) : App.Out → Bool
  | .processed .refresh => true
  | .processed .popup => before.nextWindow != after.nextWindow
  | _ => false

/-- What the main thread does beside reading. -/
def onMain : App.Action Shown → Bool
  | .recv | .tryRecv | .closeWindow _ => true
  | _ => false

/-- The rest of `refresh_from_state`. -/
def readInstances (instances : List InstanceData) (root : RootView Shown) : RootView Shown :=
  { root with data.instances := instances }

/-- `change_page` up to its first read. -/
def changePage (home : Bool) (scopes : List ScopeData) (root : RootView Shown) : RootView Shown :=
  { root with home := home, data.scopes := scopes }

def next (toml : TomlText) (s : State) : Action → Option (Out × State)
  | .server (.run id io) =>
    if s.owes id = 0 then
      (s.server.tasks id).bind fun task ↦ (task.run toml s.server io).map fun e ↦
        (.server e.out, s.tell id task e)
    else none
  | .server .shutdown =>
    -- its save is one that nobody is told of
    some (.server .silent,
      { s with
        server := s.server.spawn (.persistScopes .ui)
        silent := update s.silent s.server.nextTask true })
  | .server a =>
    (Desktop.next toml s.server a).map fun r ↦ (.server r.1, { s with server := r.2 })
  | .send id =>
    if s.owes id = 0 then none
    else
      some (.silent,
        { s with
          owes := update s.owes id (s.owes id - 1)
          app := { s.app with channel := s.app.channel ++ [.refresh] } })
  | .emit event =>
    if event = .refresh then none
    else (App.next s.app (.send event)).map fun r ↦ (.app r.1, { s with app := r.2 })
  | .openWindow =>
    if s.opened || s.server.loader.isSome then none
    else
      some (.silent,
        { s with app := s.current.openMainWindow, opened := true, reading := true })
  | .main a =>
    if s.opened && !s.reading && onMain a then
      (App.next s.current a).map fun r ↦
        (.app r.1, { s with app := r.2, reading := reads s.app r.2 r.1 })
    else none
  | .changePage home =>
    if s.opened && !s.reading then
      (s.app.updateWindow (changePage home s.server.scopes)).map fun app ↦
        (.silent, { s with app := app, reading := true })
    else none
  | .readInstances =>
    if s.reading then
      some (.silent,
        { s with
          app := (s.app.updateWindow (readInstances
            (s.server.instances.map ProxyInstance.data))).getD s.app
          reading := false })
    else none

/-! ## What is on its way -/

/-- The task is still to send a `Refresh`. -/
def State.Owing (s : State) (id : Nat) : Prop :=
  0 < s.owes id ∨ s.changed id = true ∨
    ∃ task, s.server.tasks id = some task ∧ task.savesScopes = true ∧ s.silent id = false

/-- A `Refresh` is in the channel, or a task is still to send one. -/
def State.Due (s : State) : Prop :=
  .refresh ∈ s.app.channel ∨ ∃ id < s.server.nextTask, s.Owing id

/-- The tasks of a save that no handler waits for. -/
def isOwnSave : Task → Bool
  | .persistScopes .ui => true
  | .persistTo _ .ui => true
  | _ => false

/-- A step of a launch's own ping that changes a latency, of which no view is told. -/
def untold (e : Event State Action Out) : Bool :=
  match e.act with
  | .server (.run id _) =>
    (e.pre.server.tasks id).any fun task ↦ !task.inPass && task.measures e.pre.server
  | _ => false

variable {toml : TomlText} {files : Fs String} {apiPort : UInt16} {s t : State} {task task' : Task}
  {io : Io} {e : Effect} {id id' : Nat} {a : Action} {o : Out}
  {tr : List (Event State Action Out)} {β : Type} {f : InstanceData → β}

/-! ## One step of a task -/

theorem owing_of_changed
    (h : (s.changed id || (task.inPass && task.measures s.server)) = true) :
    (s.tell id task e).Owing id := by
  by_cases hended : (task.inPass && !e.task.any Task.inPass) = true
  · left
    show 0 < update s.owes id _ id
    rw [update_self, hended, h]
    exact Nat.succ_pos _
  · right
    left
    show update s.changed id _ id = true
    rw [update_self, h, Bool.eq_false_iff.mpr hended]
    rfl

theorem owing_of_sends (h : 0 < task.sends s.server (s.silent id) e) :
    (s.tell id task e).Owing id := by
  left
  show 0 < update s.owes id _ id
  rw [update_self]
  exact Nat.add_pos_left h _

theorem owing_of_saves (hbelow : s.server.Below) (ht : s.server.tasks id = some task)
    (htask : e.task = some task') (hsaves : task'.savesScopes = true)
    (hsilent : s.silent id = false) : (s.tell id task e).Owing id :=
  .inr (.inr ⟨task', (hbelow.apply_tasks_self ht).trans htask, hsaves, hsilent⟩)

-- On its way to the file a task owes a `Refresh` until it has sent it.
theorem saving_owing (hbelow : s.server.Below) (ht : s.server.tasks id = some task)
    (hrun : task.run toml s.server io = some e) (hsaves : task.savesScopes = true)
    (hsilent : s.silent id = false) : (s.tell id task e).Owing id := by
  cases run_ran hrun with
  | quiet hno =>
    rw [hno] at hsaves
    cases hsaves
  | removeInstances | snapshot | goOn => exact owing_of_saves hbelow ht rfl rfl hsilent
  | @finish stage io files caller =>
    refine owing_of_sends ?_
    rw [hsilent]
    cases caller <;> exact Nat.one_pos
  | _ => cases hsaves

/-- What is on its way stays so in the step of a task. -/
theorem State.Due.tell (hbelow : s.server.Below) (ht : s.server.tasks id = some task)
    (hrun : task.run toml s.server io = some e) (howes : s.owes id = 0) (h : s.Due) :
    (s.tell id task e).Due := by
  rcases h with hmem | ⟨id', hlt, hid'⟩
  · exact .inl hmem
  · right
    refine ⟨id', Nat.lt_of_lt_of_le hlt State.le_apply_nextTask, ?_⟩
    by_cases hid : id' = id
    · subst hid
      rcases hid' with hpos | hchanged | ⟨task₀, ht₀, hsaves, hsilent⟩
      · rw [howes] at hpos
        cases hpos
      · exact owing_of_changed (by rw [hchanged, Bool.true_or])
      · obtain rfl : task = task₀ := Option.some.inj (ht.symm.trans ht₀)
        exact saving_owing hbelow ht hrun hsaves hsilent
    · rcases hid' with hpos | hchanged | ⟨task₀, ht₀, hsaves, hsilent⟩
      · exact .inl (Nat.lt_of_lt_of_eq hpos (update_of_ne hid ..).symm)
      · exact .inr (.inl ((update_of_ne hid ..).trans hchanged))
      · exact .inr (.inr ⟨task₀, hbelow.apply_tasks_of_ne hid ht₀, hsaves, hsilent⟩)

theorem State.Owing.due (hbelow : s.server.Below) (ht : s.server.tasks id = some task)
    (h : (s.tell id task e).Owing id) : (s.tell id task e).Due :=
  .inr ⟨id, Nat.lt_of_lt_of_le (hbelow.lt ht) State.le_apply_nextTask, h⟩

/-- A save of `shutdown` stays one, and nothing else becomes one. -/
def State.Silenced (s : State) : Prop :=
  ∀ id, s.silent id = true →
    id < s.server.nextTask ∧
      ∀ task, s.server.tasks id = some task → isOwnSave task = true

theorem ownSave_stays (h : isOwnSave task = true) (hrun : task.run toml s.server io = some e)
    (ht : e.task = some task') : isOwnSave task' = true := by
  cases run_ran hrun with
  | quiet hno => cases task <;> first | cases h | cases hno
  | @snapshot caller =>
    cases ht
    cases caller
    · cases h
    · rfl
  | @goOn _ _ _ _ caller =>
    cases ht
    cases caller
    · cases h
    · rfl
  | @finish _ _ _ caller =>
    cases caller
    · cases h
    · cases ht
  | _ => cases h

theorem State.Silenced.tell (h : s.Silenced) (hbelow : s.server.Below)
    (ht : s.server.tasks id = some task) (hrun : task.run toml s.server io = some e) :
    (s.tell id task e).Silenced := by
  intro id' hsilent
  obtain ⟨hlt, hown⟩ := h id' hsilent
  refine ⟨Nat.lt_of_lt_of_le hlt State.le_apply_nextTask, fun task' ht' ↦ ?_⟩
  by_cases hid : id' = id
  · subst hid
    have hself : e.task = some task' := (hbelow.apply_tasks_self ht).symm.trans ht'
    exact ownSave_stays (hown task ht) hrun hself
  · exact hown task' (State.apply_tasks_of_lt hid hlt ht')

theorem not_silent (h : s.Silenced) (ht : s.server.tasks id = some task)
    (hno : isOwnSave task = false) : s.silent id = false := by
  refine Bool.eq_false_iff.mpr fun hsilent ↦ ?_
  rw [(h id hsilent).2 task ht] at hno
  cases hno

-- What changes the scopes goes on to save them.
theorem tell_scopes (hbelow : s.server.Below) (hsilenced : s.Silenced)
    (ht : s.server.tasks id = some task) (hrun : task.run toml s.server io = some e) :
    (s.tell id task e).server.scopes = s.server.scopes ∨ (s.tell id task e).Owing id := by
  have hscopes : (s.tell id task e).server.scopes = e.scopes := State.apply_scopes
  cases run_ran hrun with
  | push | update | allow | remove =>
    exact .inr (owing_of_saves hbelow ht rfl rfl (not_silent hsilenced ht rfl))
  | quiet | launch | removeInstances | snapshot | goOn | finish => exact .inl hscopes

/-! ## The instances that are shown -/

theorem measure_eq_self {instances : List ProxyInstance} {remote : String} {latency : Int}
    (h : ((instances.find? fun i ↦ i.data.remote == remote).any fun i ↦
      i.data.latency != latency) = false) : measure instances remote latency = instances := by
  induction instances with
  | nil => rfl
  | cons i instances ih =>
    rw [measure, updateFirst]
    rw [List.find?_cons] at h
    cases hremote : i.data.remote == remote with
    | true =>
      rw [hremote] at h
      have hlatency : i.data.latency = latency := by simpa using h
      rw [if_pos rfl, ← hlatency]
    | false =>
      rw [hremote] at h
      rw [if_neg Bool.false_ne_true]
      exact congrArg (i :: ·) (ih h)

theorem dropAddr_eq_self {instances : List ProxyInstance} {localAddr : String}
    (h : (dropAddr instances localAddr).length = instances.length) :
    dropAddr instances localAddr = instances :=
  List.filter_eq_self.mpr (List.length_filter_eq_length_iff.mp h)

/-- `f` sees of an instance what views are told of: all of it, or all but its latency. -/
def Told (f : InstanceData → β) (e : Event State Action Out) : Prop :=
  (∀ i latency, f { i with latency := latency } = f i) ∨ untold e = false

-- A change of the list is followed by a `Refresh`; a latency is told of at the end of the pass.
theorem tell_instances (hbelow : s.server.Below) (hsilenced : s.Silenced)
    (ht : s.server.tasks id = some task) (hrun : task.run toml s.server io = some e)
    (htold : Told f ⟨s, .server (.run id io), .server e.out⟩) :
    ((s.tell id task e).server.instances.map fun i ↦ f i.data) =
        s.server.instances.map (fun i ↦ f i.data) ∨ (s.tell id task e).Owing id := by
  have hinstances : (s.tell id task e).server.instances = e.instances := State.apply_instances
  rw [hinstances]
  cases run_changed hrun with
  | keep hkeep => exact .inl (by rw [hkeep])
  | relabel htaken | add htaken =>
    refine .inr (owing_of_sends ?_)
    rw [Task.sends, htaken]
    exact Nat.one_pos
  | close hdrop | fall hdrop =>
    by_cases hlength : e.instances.length = s.server.instances.length
    · left
      rw [hdrop] at hlength ⊢
      rw [dropAddr_eq_self hlength]
    · refine .inr (owing_of_sends ?_)
      rw [Task.sends, if_neg hlength]
      exact Nat.one_pos
  | cascade =>
    exact .inr (saving_owing hbelow ht hrun rfl (not_silent hsilenced ht rfl))
  | @measure data result rest _ hmeasure =>
    by_cases hsame : Task.measures s.server (.updateInstanceState data result rest) = true
    · rcases htold with hf | htold
      · left
        rw [hmeasure, measure]
        exact map_updateFirst fun i ↦ hf i.data _
      · right
        refine owing_of_changed ?_
        rw [untold] at htold
        dsimp only at htold
        rw [ht, Option.any_some, hsame, Bool.and_true, Bool.not_eq_false'] at htold
        rw [htold, hsame, Bool.and_true, Bool.or_true]
    · left
      rw [hmeasure, measure_eq_self (Bool.eq_false_iff.mpr hsame)]

end Refreshing

end LabStreamGate.Desktop
