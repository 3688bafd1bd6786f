import LabStreamGate.Desktop.Refreshing

/-!
# What the window shows

The windows are changed by the main thread only, which reads the state for them when a `Refresh`
comes.  So what they show is what the daemon has, or a `Refresh` is still on its way.
-/

namespace LabStreamGate.Desktop.Refreshing

open Function

variable {toml : TomlText} {files : Fs String} {apiPort : UInt16} {s t : State} {task task' : Task}
  {io : Io} {e : Effect} {id id' : Nat} {a : Action} {o : Out}
  {tr : List (Event State Action Out)} {β : Type} {f : InstanceData → β}

/-! ## One window -/

section

variable {app : App Shown} {event : UiEvent} {handle : Nat} {root root' : RootView Shown}
  {g : RootView Shown → RootView Shown}

/-- A window that is open is the one that is kept. -/
def OneWindow (app : App Shown) : Prop :=
  ∀ handle root, app.windows handle = some root → app.windowRef = some handle

theorem updateWindow_open (hone : OneWindow app)
    (h : ((app.updateWindow g).getD app).windows handle = some root') :
    ((app.updateWindow g).getD app).windowRef = some handle ∧
      ∃ root, app.windows handle = some root ∧ root' = g root := by
  cases href : app.windowRef with
  | none =>
    simp only [App.updateWindow, href, Option.bind_none, Option.getD_none] at h
    rw [hone handle root' h] at href
    cases href
  | some current =>
    cases hcurrent : app.windows current with
    | none =>
      simp only [App.updateWindow, href, Option.bind_some, hcurrent, Option.map_none,
        Option.getD_none] at h
      obtain rfl : current = handle := Option.some.inj (href.symm.trans (hone handle root' h))
      rw [hcurrent] at h
      cases h
    | some root =>
      simp only [App.updateWindow, href, Option.bind_some, hcurrent, Option.map_some,
        Option.getD_some] at h ⊢
      rcases tasks_of_update h with ⟨rfl, heq⟩ | ⟨hne, hold⟩
      · exact ⟨rfl, root, hcurrent, (Option.some.inj heq).symm⟩
      · exact absurd (Option.some.inj ((hone handle root' hold).symm.trans href)) hne

/-- A window has kept what it shows, or it has read again, or it is new. -/
inductive Showing (before after : App Shown) (o : App.Out) (handle : Nat)
    (root : RootView Shown) : Prop
  | kept {root₀ : RootView Shown} : before.windows handle = some root₀ → root.data = root₀.data →
      o ≠ .processed .refresh → Showing before after o handle root
  | read : root.data = before.shared.data → reads before after o = true →
      Showing before after o handle root

-- The channel and the pump have no part in it.
theorem Showing.congr {before before' after after' : App Shown} {o : App.Out}
    (h : Showing before after o handle root) (hwindows : before'.windows = before.windows)
    (hshared : before'.shared.data = before.shared.data)
    (hbefore : before'.nextWindow = before.nextWindow)
    (hafter : after'.nextWindow = after.nextWindow) : Showing before' after' o handle root := by
  cases h with
  | kept hroot hdata hevent => exact .kept (hwindows ▸ hroot) hdata hevent
  | read hdata hreads =>
    have hsame : reads before' after' o = reads before after o := by
      unfold reads
      rw [hbefore, hafter]
    exact .read (hdata.trans hshared.symm) (hsame.trans hreads)

theorem updateWindow_kept {before : App Shown} (hone : OneWindow app)
    (hwindows : app.windows = before.windows) (hg : ∀ root, (g root).data = root.data)
    (hevent : event ≠ .refresh)
    (h : ((app.updateWindow g).getD app).windows handle = some root') :
    ((app.updateWindow g).getD app).windowRef = some handle ∧
      Showing before ((app.updateWindow g).getD app) (.processed event) handle root' := by
  obtain ⟨href, root, hroot, rfl⟩ := updateWindow_open hone h
  refine ⟨href, .kept (hwindows ▸ hroot) (hg root) fun heq ↦ hevent ?_⟩
  cases heq
  rfl

theorem processEvent_open (hone : OneWindow app)
    (h : (app.processEvent event).1.windows handle = some root') :
    (app.processEvent event).1.windowRef = some handle ∧
      Showing app (app.processEvent event).1 (.processed event) handle root' := by
  cases event with
  | quit => exact ⟨hone handle root' h, .kept h rfl fun heq ↦ by cases heq⟩
  | popup =>
    rw [App.processEvent] at h ⊢
    cases hopen : app.updateWindow id with
    | some app' =>
      rw [hopen] at h
      have hsame : (app.updateWindow id).getD app = app' := by rw [hopen, Option.getD_some]
      have hkept := @updateWindow_kept app .popup handle root' id app hone rfl (fun _ ↦ rfl)
        (fun heq ↦ by cases heq)
        (hsame ▸ h)
      exact hsame ▸ hkept
    | none =>
      rw [hopen] at h
      rcases tasks_of_update h with ⟨rfl, heq⟩ | ⟨hne, hold⟩
      · refine ⟨rfl, .read ?_ ?_⟩
        · rw [← Option.some.inj heq]
          rfl
        · show (app.nextWindow != app.nextWindow + 1) = true
          simp
      · -- no other window can be open
        rw [App.updateWindow, hone handle root' hold, Option.bind_some, hold] at hopen
        cases hopen
  | refresh =>
    obtain ⟨href, root, -, rfl⟩ := updateWindow_open hone h
    exact ⟨href, .read rfl rfl⟩
  | logs batch =>
    exact @updateWindow_kept
      { app with shared.logs := trimFront maxLogs (app.shared.logs ++ batch) } (.logs batch) handle
      root' _ app hone rfl (fun _ ↦ rfl) (fun heq ↦ by cases heq) h
  | hasUpdates value =>
    exact @updateWindow_kept { app with shared.hasUpdates := value } (.hasUpdates value) handle
      root' _ app hone rfl (fun _ ↦ rfl) (fun heq ↦ by cases heq) h
  | log entry => exact updateWindow_kept hone rfl (fun _ ↦ rfl) (fun heq ↦ by cases heq) h
  | online port => exact updateWindow_kept hone rfl (fun _ ↦ rfl) (fun heq ↦ by cases heq) h
  | cursorTick =>
    refine updateWindow_kept hone rfl (fun root ↦ ?_) (fun heq ↦ by cases heq) h
    rw [RootView.handleEvent]
    split <;> rfl

end

/-! ## Steps of the main thread -/

section

variable {app app' : App Shown} {event : UiEvent} {handle : Nat} {root' : RootView Shown}
  {a' : App.Action Shown} {o' : App.Out}

theorem processEvent_channel : (app.processEvent event).1.channel = app.channel := by
  cases event with
  | quit => rfl
  | popup =>
    rw [App.processEvent]
    cases hopen : app.updateWindow id with
    | none => rfl
    | some app' =>
      have hsame : (app.updateWindow id).getD app = app' := by rw [hopen, Option.getD_some]
      exact hsame ▸ App.updateWindow_getD_channel
  | _ => exact App.updateWindow_getD_channel

theorem process_open (hone : OneWindow app)
    (h : (app.process event).2.windows handle = some root') :
    (app.process event).2.windowRef = some handle ∧
      Showing app (app.process event).2 (.processed event) handle root' := by
  unfold App.process at h ⊢
  dsimp only at h ⊢
  cases hquit : (app.processEvent event).2 with
  | false =>
    rw [hquit] at h
    exact processEvent_open hone h
  | true =>
    rw [hquit] at h
    obtain ⟨href, hshowing⟩ := processEvent_open hone h
    exact ⟨href, hshowing.congr rfl rfl rfl rfl⟩

theorem process_channel : (app.process event).2.channel = app.channel := by
  unfold App.process
  dsimp only
  split <;> exact processEvent_channel

/-- What a step of the main thread leaves in the windows and in the channel. -/
theorem main_moved (hone : OneWindow app) (hmain : onMain a' = true)
    (h : App.next app a' = some (o', app')) :
    (∀ handle root', app'.windows handle = some root' →
      app'.windowRef = some handle ∧ Showing app app' o' handle root') ∧
    (.refresh ∈ app.channel → .refresh ∈ app'.channel ∨ o' = .processed .refresh) := by
  cases App.next_moved h with
  | send | write | navigate => cases hmain
  | took ha hchannel =>
    refine ⟨fun handle root' hroot ↦ ⟨hone handle root' hroot, .kept hroot rfl ?_⟩, fun hmem ↦ ?_⟩
    · exact fun heq ↦ by cases heq
    · rw [hchannel] at hmem
      rcases List.mem_cons.mp hmem with heq | hmem
      · cases heq
      · exact .inl hmem
  | @processed _ event channel ha hchannel hlog =>
    have hone' : OneWindow { app with channel := channel } := hone
    refine ⟨fun handle root' hroot ↦ ?_, fun hmem ↦ ?_⟩
    · obtain ⟨href, hshowing⟩ := process_open hone' hroot
      exact ⟨href, hshowing.congr rfl rfl rfl rfl⟩
    · rw [hchannel] at hmem
      rcases List.mem_cons.mp hmem with rfl | hmem
      · exact .inr rfl
      · left
        rw [process_channel]
        exact hmem
  | @flushed batch hpump hchannel =>
    have hone' : OneWindow { app with pump := .idle } := hone
    refine ⟨fun handle root' hroot ↦ ?_, fun hmem ↦ ?_⟩
    · obtain ⟨href, hshowing⟩ := process_open hone' hroot
      exact ⟨href, hshowing.congr rfl rfl rfl rfl⟩
    · rw [hchannel] at hmem
      cases hmem
  | @closeWindow closed =>
    refine ⟨fun handle root' hroot ↦ ?_, .inl⟩
    rcases tasks_of_update hroot with ⟨-, heq⟩ | ⟨-, hold⟩
    · cases heq
    · exact ⟨hone handle root' hold, .kept hold rfl fun heq ↦ by cases heq⟩

end

/-! ## All steps -/

/-- What an action can come to. -/
inductive Moved (toml : TomlText) (s : State) : Action → Out → State → Prop
  | run {id : Nat} {io : Io} {task : Task} {e : Effect} : s.owes id = 0 →
      s.server.tasks id = some task → task.run toml s.server io = some e →
      Moved toml s (.server (.run id io)) (.server e.out) (s.tell id task e)
  | server {a : Desktop.Action} {o : Desktop.Out} {server : Desktop.State} :
      (∀ id io, a ≠ .run id io) → Desktop.Moved toml s.server a o server →
      Moved toml s (.server a) (.server o) { s with server := server }
  | shutdown : Moved toml s (.server .shutdown) (.server .silent)
      { s with
        server := s.server.spawn (.persistScopes .ui)
        silent := update s.silent s.server.nextTask true }
  | send {id : Nat} : s.owes id ≠ 0 → Moved toml s (.send id) .silent
      { s with
        owes := update s.owes id (s.owes id - 1)
        app := { s.app with channel := s.app.channel ++ [.refresh] } }
  | emit {event : UiEvent} : Moved toml s (.emit event) (.app .silent)
      { s with app := { s.app with channel := s.app.channel ++ [event] } }
  | openWindow : s.opened = false → s.server.loader = none →
      Moved toml s .openWindow .silent
        { s with app := s.current.openMainWindow, opened := true, reading := true }
  | main {a : App.Action Shown} {o : App.Out} {app : App Shown} : s.opened = true →
      s.reading = false → onMain a = true → App.next s.current a = some (o, app) →
      Moved toml s (.main a) (.app o) { s with app := app, reading := reads s.app app o }
  | changePage {home : Bool} {app : App Shown} : s.opened = true →
      s.app.updateWindow (changePage home s.server.scopes) = some app →
      Moved toml s (.changePage home) .silent { s with app := app, reading := true }
  | readInstances : Moved toml s .readInstances .silent
      { s with
        app := (s.app.updateWindow (readInstances
          (s.server.instances.map ProxyInstance.data))).getD s.app
        reading := false }

theorem next_moved (h : next toml s a = some (o, t)) : Moved toml s a o t := by
  unfold next at h
  split at h
  · simp only [Option.ite_none_right_eq_some, Option.bind_eq_some_iff,
      Option.map_eq_some_iff] at h
    obtain ⟨howes, task, htask, e, he, h⟩ := h
    cases h
    exact .run howes htask he
  · cases h
    exact .shutdown
  · rename_i hrun _
    obtain ⟨⟨o, server⟩, hnext, h⟩ := Option.map_eq_some_iff.mp h
    cases h
    exact .server (fun id io heq ↦ hrun id io heq) (Desktop.next_moved hnext)
  · simp only [Option.ite_none_left_eq_some, Option.some.injEq] at h
    obtain ⟨howes, h⟩ := h
    cases h
    exact .send howes
  · rename_i event
    simp only [Option.ite_none_left_eq_some, Option.map_eq_some_iff] at h
    obtain ⟨-, ⟨o, app⟩, hnext, h⟩ := h
    cases h
    cases App.next_moved hnext with
    | send => exact .emit
    | took ha | processed ha => rcases ha with ha | ha <;> cases ha
  · simp only [Option.ite_none_left_eq_some, Bool.or_eq_true, not_or, Bool.not_eq_true,
      Option.isSome_eq_false_iff, Option.isNone_iff_eq_none, Option.some.injEq] at h
    obtain ⟨⟨hopened, hloader⟩, h⟩ := h
    cases h
    exact .openWindow hopened hloader
  · simp only [Option.ite_none_right_eq_some, Bool.and_eq_true, Bool.not_eq_true',
      Option.map_eq_some_iff] at h
    obtain ⟨⟨⟨hopened, hreading⟩, hmain⟩, ⟨o, app⟩, hnext, h⟩ := h
    cases h
    exact .main hopened hreading hmain hnext
  · simp only [Option.ite_none_right_eq_some, Bool.and_eq_true, Option.map_eq_some_iff] at h
    obtain ⟨⟨hopened, -⟩, app, hupdate, h⟩ := h
    cases h
    exact .changePage hopened hupdate
  · simp only [Option.ite_none_right_eq_some] at h
    obtain ⟨-, h⟩ := h
    cases h
    exact .readInstances

theorem le_nextTask {b : Desktop.Action} {o' : Desktop.Out} {server server' : Desktop.State}
    (hm : Desktop.Moved toml server b o' server') : server.nextTask ≤ server'.nextTask := by
  cases hm with
  | reject | read | overwrite => exact Nat.le_refl _
  | spawn => exact Nat.le_succ _
  | run => exact State.le_apply_nextTask

/-- What a view shows, as far as `f` sees, is what the daemon has, or a `Refresh` is on its way. -/
def Shows (f : InstanceData → β) (s : State) (shown : Shown) : Prop :=
  (shown.scopes = s.server.scopes ∨ s.Due) ∧
    (shown.instances.map f = s.server.instances.map (fun i ↦ f i.data) ∨ s.Due ∨ s.reading = true)

structure Agrees (f : InstanceData → β) (s : State) : Prop where
  below : s.server.Below
  silenced : s.Silenced
  loaded : s.opened = true → s.server.loader = none
  shut : s.opened = false → ∀ handle, s.app.windows handle = none
  windows : ∀ handle root, s.app.windows handle = some root →
    s.app.windowRef = some handle ∧ Shows f s root.data

theorem Agrees.one (h : Agrees f s) : OneWindow s.app :=
  fun handle root hroot ↦ (h.windows handle root hroot).1

theorem Agrees.opened {handle : Nat} {root : RootView Shown} (h : Agrees f s)
    (hroot : s.app.windows handle = some root) : s.opened = true := by
  by_contra hno
  rw [h.shut (Bool.eq_false_iff.mpr hno) handle] at hroot
  cases hroot

-- The daemon changes under the windows.
theorem Shows.step {shown : Shown} (h : Shows f s shown) (hreading : t.reading = s.reading)
    (hdue : s.Due → t.Due) (hscopes : t.server.scopes = s.server.scopes ∨ t.Due)
    (hinstances : (t.server.instances.map fun i ↦ f i.data) =
      s.server.instances.map (fun i ↦ f i.data) ∨ t.Due) : Shows f t shown := by
  refine ⟨?_, ?_⟩
  · rcases hscopes with hscopes | hnow
    · rw [hscopes]
      exact h.1.imp_right hdue
    · exact .inr hnow
  · rcases hinstances with hinstances | hnow
    · rw [hinstances, hreading]
      exact h.2.imp_right (Or.imp_left hdue)
    · exact .inr (.inl hnow)

theorem State.Due.of_server {server : Desktop.State} {silent : Nat → Bool} (h : s.Due)
    (hle : s.server.nextTask ≤ server.nextTask)
    (hold : ∀ id task, s.server.tasks id = some task →
      server.tasks id = some task ∧ silent id = s.silent id) :
    ({ s with server := server, silent := silent } : State).Due := by
  rcases h with hmem | ⟨id, hlt, hid⟩
  · exact .inl hmem
  · refine .inr ⟨id, Nat.lt_of_lt_of_le hlt hle, ?_⟩
    rcases hid with hpos | hchanged | ⟨task, ht, hsaves, hsilent⟩
    · exact .inl hpos
    · exact .inr (.inl hchanged)
    · obtain ⟨htask, hsame⟩ := hold id task ht
      exact .inr (.inr ⟨task, htask, hsaves, hsame.trans hsilent⟩)

theorem Agrees.server {b : Desktop.Action} {o' : Desktop.Out} {server : Desktop.State}
    (h : Agrees f s) (hrun : ∀ id io, b ≠ .run id io)
    (hm : Desktop.Moved toml s.server b o' server) : Agrees f { s with server := server } where
  below := h.below.step hm
  silenced := by
    intro id hsilent
    obtain ⟨hlt, hown⟩ := h.silenced id hsilent
    obtain ⟨htasks, hle⟩ := hm.tasks_of_other hlt (hrun id)
    exact ⟨Nat.lt_of_lt_of_le hlt hle, fun task ht ↦ hown task (htasks ▸ ht)⟩
  loaded := fun hopened ↦ (hm.scopes (h.loaded hopened)).1
  shut := h.shut
  windows := by
    intro handle root hroot
    obtain ⟨href, hshows⟩ := h.windows handle root hroot
    have hloader := h.loaded (h.opened hroot)
    have hdue : s.Due → State.Due { s with server := server } := fun hdue ↦
      State.Due.of_server hdue (le_nextTask hm) fun id task ht ↦
        ⟨((hm.tasks_of_other (h.below.lt ht) (hrun id)).1).trans ht, rfl⟩
    have hsame : server.scopes = s.server.scopes ∧ server.instances = s.server.instances := by
      cases hm with
      | reject | spawn => exact ⟨rfl, rfl⟩
      | run => exact absurd rfl (hrun _ _)
      | read hread | overwrite hread =>
        rw [hloader] at hread
        cases hread
    exact ⟨href, hshows.step rfl hdue (.inl hsame.1) (.inl (by rw [hsame.2]))⟩

-- A save that `shutdown` starts is not one that a view waits for.
theorem Agrees.shutdown (h : Agrees f s) : Agrees f
    { s with
      server := s.server.spawn (.persistScopes .ui)
      silent := update s.silent s.server.nextTask true } where
  below := h.below.spawn
  silenced := by
    intro id hsilent
    by_cases hid : id = s.server.nextTask
    · subst hid
      refine ⟨Nat.lt_succ_self _, fun task ht ↦ ?_⟩
      have hnew : update s.server.tasks s.server.nextTask (some (.persistScopes .ui))
          s.server.nextTask = some task := ht
      rw [update_self] at hnew
      cases hnew
      rfl
    · obtain ⟨hlt, hown⟩ := h.silenced id ((update_of_ne hid ..).symm.trans hsilent)
      refine ⟨Nat.lt_succ_of_lt hlt, fun task ht ↦ hown task ?_⟩
      exact (update_of_ne hid ..).symm.trans ht
  loaded := h.loaded
  shut := h.shut
  windows := by
    intro handle root hroot
    obtain ⟨href, hshows⟩ := h.windows handle root hroot
    refine ⟨href, hshows.step rfl (fun hdue ↦ ?_) (.inl rfl) (.inl rfl)⟩
    exact State.Due.of_server hdue (Nat.le_succ _) fun id task ht ↦ ⟨h.below.spawn_tasks_of_some ht,
      update_of_ne (Nat.ne_of_lt (h.below.lt ht)) ..⟩

-- The views read again: the scopes first, and a view that has them waits for the instances.
theorem Agrees.main {a' : App.Action Shown} {o' : App.Out} {app : App Shown} (h : Agrees f s)
    (hopened : s.opened = true) (hreading : s.reading = false) (hmain : onMain a' = true)
    (hnext : App.next s.current a' = some (o', app)) :
    Agrees f { s with app := app, reading := reads s.app app o' } where
  below := h.below
  silenced := h.silenced
  loaded := h.loaded
  shut := fun hno ↦ by
    have hshut : s.opened = false := hno
    rw [hopened] at hshut
    cases hshut
  windows := by
    have hone : OneWindow s.current := h.one
    obtain ⟨hwindows, hchannel⟩ := main_moved hone hmain hnext
    intro handle root' hroot
    obtain ⟨href, hshowing⟩ := hwindows handle root' hroot
    refine ⟨href, ?_⟩
    cases hshowing with
    | @kept root hopen hdata hevent =>
      obtain ⟨-, hscopes, hinstances⟩ := h.windows handle root hopen
      have hdue : s.Due → State.Due { s with app := app, reading := reads s.app app o' } := by
        rintro (hmem | howing)
        · exact .inl ((hchannel hmem).resolve_right hevent)
        · exact .inr howing
      rw [hdata]
      refine ⟨hscopes.imp_right hdue, ?_⟩
      rcases hinstances with hsame | hnow | hread
      · exact .inl hsame
      · exact .inr (.inl (hdue hnow))
      · rw [hreading] at hread
        cases hread
    | read hdata hreads =>
      rw [hdata]
      exact ⟨.inl rfl, .inr (.inr hreads)⟩

theorem Agrees.step (h : Agrees f s) (htold : Told f ⟨s, a, o⟩) (hm : Moved toml s a o t) :
    Agrees f t := by
  cases hm with
  | @run id io task e howes htask hrun =>
    refine ⟨h.below.apply htask, h.silenced.tell h.below htask hrun,
      fun hopened ↦ State.apply_loader.trans (h.loaded hopened), h.shut, fun handle root hroot ↦ ?_⟩
    obtain ⟨href, hshows⟩ := h.windows handle root hroot
    refine ⟨href, hshows.step rfl (State.Due.tell h.below htask hrun howes)
      ((tell_scopes h.below h.silenced htask hrun).imp_right (State.Owing.due h.below htask))
      ((tell_instances h.below h.silenced htask hrun htold).imp_right
        (State.Owing.due h.below htask))⟩
  | server hrun hserver => exact h.server hrun hserver
  | shutdown => exact h.shutdown
  | send =>
    refine ⟨h.below, h.silenced, h.loaded, h.shut, fun handle root hroot ↦ ?_⟩
    obtain ⟨href, hshows⟩ := h.windows handle root hroot
    have hdue : ∀ owes : Nat → Nat, State.Due
        { s with
          owes := owes
          app := { s.app with channel := s.app.channel ++ [.refresh] } } :=
      fun owes ↦ .inl (List.mem_append_right _ (List.mem_singleton_self _))
    exact ⟨href, hshows.step rfl (fun _ ↦ hdue _) (.inl rfl) (.inl rfl)⟩
  | emit =>
    refine ⟨h.below, h.silenced, h.loaded, h.shut, fun handle root hroot ↦ ?_⟩
    obtain ⟨href, hshows⟩ := h.windows handle root hroot
    refine ⟨href, hshows.step rfl ?_ (.inl rfl) (.inl rfl)⟩
    rintro (hmem | howing)
    · exact .inl (List.mem_append_left _ hmem)
    · exact .inr howing
  | openWindow hopened hloader =>
    refine ⟨h.below, h.silenced, fun _ ↦ hloader, (fun hno ↦ by cases hno),
      fun handle root hroot ↦ ?_⟩
    rcases tasks_of_update hroot with ⟨rfl, heq⟩ | ⟨-, hold⟩
    · obtain rfl := Option.some.inj heq
      exact ⟨rfl, .inl rfl, .inr (.inr rfl)⟩
    · have hwindow : s.app.windows handle = some root := hold
      rw [h.shut hopened handle] at hwindow
      cases hwindow
  | main hopened hreading hmain hnext => exact h.main hopened hreading hmain hnext
  | @changePage home app hopened hupdate =>
    have happ : (s.app.updateWindow (changePage home s.server.scopes)).getD s.app = app := by
      rw [hupdate, Option.getD_some]
    refine ⟨h.below, h.silenced, h.loaded, fun hno ↦ ?_, fun handle root hroot ↦ ?_⟩
    · have hshut : s.opened = false := hno
      rw [hopened] at hshut
      cases hshut
    · obtain ⟨href, root₀, -, rfl⟩ := updateWindow_open h.one (happ.symm ▸ hroot)
      exact ⟨happ ▸ href, .inl rfl, .inr (.inr rfl)⟩
  | readInstances =>
    refine ⟨h.below, h.silenced, h.loaded, fun hno handle ↦ ?_, fun handle root hroot ↦ ?_⟩
    · refine Option.eq_none_iff_forall_ne_some.mpr fun root hroot ↦ ?_
      obtain ⟨-, root₀, hopen, -⟩ := updateWindow_open h.one hroot
      rw [h.shut hno handle] at hopen
      cases hopen
    · obtain ⟨href, root₀, hopen, rfl⟩ := updateWindow_open h.one hroot
      refine ⟨href, (h.windows handle root₀ hopen).2.1.imp_right ?_, .inl (List.map_map ..)⟩
      rintro (hmem | howing)
      · exact .inl (App.updateWindow_getD_channel.symm ▸ hmem)
      · exact .inr howing

/-! ## All runs -/

theorem agrees_start : Agrees f (.start files apiPort) where
  below := fun _ _ ↦ rfl
  silenced := fun _ hsilent ↦ by cases hsilent
  loaded := fun hopened ↦ by cases hopened
  shut := fun _ _ ↦ rfl
  windows := fun _ _ hroot ↦ by cases hroot

theorem agrees (h : Run (next toml) (.start files apiPort) tr s)
    (htold : ∀ e ∈ tr, Told f e) : Agrees f s :=
  h.invariant (C := Told f) agrees_start
    (fun _ _ _ _ hagrees htold hnext ↦ hagrees.step htold (next_moved hnext)) htold

/-- No `Refresh` is on its way: none is in the channel, no task owes one, no pass has changed a
latency, and nobody saves the scopes but for `shutdown`. -/
def State.Quiet (s : State) : Prop :=
  .refresh ∉ s.app.channel ∧ ∀ id < s.server.nextTask, s.owes id = 0 ∧ s.changed id = false ∧
    ∀ task ∈ s.server.tasks id, task.savesScopes = true → s.silent id = true

instance : Decidable s.Quiet := inferInstanceAs (Decidable (_ ∧ _))

theorem State.Quiet.not_due (h : s.Quiet) : ¬ s.Due := by
  rintro (hmem | ⟨id, hlt, howing⟩)
  · exact h.1 hmem
  · obtain ⟨howes, hchanged, hsaves⟩ := h.2 id hlt
    rcases howing with hpos | htrue | ⟨task, ht, hsave, hsilent⟩
    · rw [howes] at hpos
      cases hpos
    · rw [hchanged] at htrue
      cases htrue
    · rw [hsaves task ht hsave] at hsilent
      cases hsilent

def withoutLatency (data : InstanceData) : InstanceData := { data with latency := -1 }

/-- Whenever no `Refresh` is on its way, a window that is open and not reading shows the scopes and
the instances of the daemon.  Only a latency may be an old one, and that only after a launch's own
ping has changed it. -/
theorem window_shows_daemon {handle : Nat} {root : RootView Shown}
    (h : Run (next toml) (.start files apiPort) tr s)
    (hroot : s.app.windows handle = some root) (hquiet : s.Quiet) (hreading : s.reading = false) :
    root.data.scopes = s.server.scopes ∧
    root.data.instances.map withoutLatency =
      s.server.instances.map (fun i ↦ withoutLatency i.data) ∧
    ((∀ e ∈ tr, untold e = false) →
      root.data.instances = s.server.instances.map ProxyInstance.data) := by
  have hshown : ∀ {γ : Type} {f : InstanceData → γ}, (∀ e ∈ tr, Told f e) →
      root.data.scopes = s.server.scopes ∧
        root.data.instances.map f = s.server.instances.map (fun i ↦ f i.data) := by
    intro γ f htold
    obtain ⟨-, hscopes, hinstances⟩ := (agrees h htold).windows handle root hroot
    refine ⟨hscopes.resolve_right hquiet.not_due, ?_⟩
    rcases hinstances with hsame | hdue | hread
    · exact hsame
    · exact absurd hdue hquiet.not_due
    · rw [hreading] at hread
      cases hread
  obtain ⟨hscopes, hinstances⟩ := @hshown _ withoutLatency fun e _ ↦ .inl fun _ _ ↦ rfl
  refine ⟨hscopes, hinstances, fun htold ↦ ?_⟩
  have hall := (@hshown _ id fun e he ↦ .inr (htold e he)).2
  rwa [List.map_id] at hall

/-- A website asks for control, and the user launches an instance. -/
def sampleActions : List Action :=
  [.server .load, .server .load, .openWindow, .readInstances] ++
  (([sampleConnect, .run 0 .done] ++ samplePersist 0).map .server) ++
  [.send 0, .server (.launch 0 "ws://lab:80" "127.0.0.1:0"),
    .server (.run 1 (.bound "127.0.0.1:3000")), .server (.run 1 .done), .send 1, .main .recv,
    .readInstances, .main .recv, .readInstances]

-- The window has read again after each of the two.
theorem window_shows_daemon_sample : ∃ files tr s root,
    Run (next .compact) (.start files 3307) tr s ∧ s.app.windows 0 = some root ∧
    root.data.scopes = s.server.scopes ∧ root.data.scopes.length = 1 ∧
    root.data.instances = s.server.instances.map ProxyInstance.data ∧
    root.data.instances.length = 1 := by
  obtain ⟨tr, s, hrun, hp⟩ := exists_run (next .compact) (.start Fs.empty 3307) sampleActions
    (fun tr s ↦ (s.app.windows 0).any (fun root ↦
        root.data.scopes.length = 1 && root.data.instances.length = 1) &&
      decide s.Quiet && !s.reading && tr.all fun e ↦ !untold e) (by decide +kernel)
  simp only [Bool.and_eq_true, Option.any_eq_true, decide_eq_true_eq, Bool.not_eq_true',
    List.all_eq_true] at hp
  obtain ⟨⟨⟨⟨root, hroot, hscope, hinstance⟩, hquiet⟩, hreading⟩, htold⟩ := hp
  obtain ⟨hscopes, -, hinstances⟩ := window_shows_daemon hrun hroot hquiet hreading
  exact ⟨Fs.empty, tr, s, root, hrun, hroot, hscopes, hscope, hinstances htold, hinstance⟩

end LabStreamGate.Desktop.Refreshing
