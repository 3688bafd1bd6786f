import LabStreamGate.Desktop.Logs
import LabStreamGate.Library.Recent
import LabStreamGate.Library.Run
import Mathlib.Logic.Function.Basic

/-!
# The event pump

Background tasks send events to the user interface through a channel.  The pump takes them out one
after the other and puts the log entries that are there at once into one batch; what it finds among
them is processed before the batch.  A window is closed and opened anew while this goes on.
-/

namespace LabStreamGate.Desktop

open Function

inductive UiEvent
  | online (port : UInt16)
  | refresh
  | log (entry : LogEntry)
  | logs (entries : List LogEntry)
  | hasUpdates (value : Bool)
  | popup
  | quit
  | cursorTick
  deriving DecidableEq, Repr

/-- What the views read of `ServerState`; `data` are the instances, the scopes and the settings. -/
structure Shared (α : Type) where
  data : α
  apiPort : UInt16
  hasUpdates : Bool
  logs : List LogEntry

def maxLogs : Nat := 1000

/-! ## The view of a window -/

structure RootView (α : Type) where
  data : α
  logs : List LogEntry
  apiPort : UInt16
  online : Bool
  hasUpdates : Bool
  home : Bool
  cursorVisible : Bool

namespace RootView

variable {α : Type}

/-- `RootView::view`. -/
def view (shared : Shared α) : RootView α where
  data := shared.data
  logs := shared.logs
  apiPort := shared.apiPort
  online := shared.apiPort != 0
  hasUpdates := shared.hasUpdates
  home := true
  cursorVisible := true

def handleLogs (root : RootView α) (entries : List LogEntry) : RootView α :=
  let logs := root.logs ++ entries
  { root with
    logs := if maxLogs < logs.length then logs.drop (logs.length - maxLogs) else logs }

def handleEvent (shared : Shared α) (root : RootView α) : UiEvent → RootView α
  | .online port => { root with apiPort := port, online := true }
  | .refresh => { root with data := shared.data }
  | .log entry => root.handleLogs [entry]
  | .logs entries => root.handleLogs entries
  | .hasUpdates value => { root with hasUpdates := value }
  | .cursorTick => if root.home then { root with cursorVisible := !root.cursorVisible } else root
  | .popup | .quit => root

end RootView

/-! ## The application -/

/-- The pump waits for an event, empties the channel into a batch, or has ended. -/
inductive Pump
  | idle
  | draining (batch : List LogEntry)
  | stopped
  deriving DecidableEq, Repr

def Pump.batch : Pump → List LogEntry
  | .draining batch => batch
  | _ => []

/-- The handle that is kept may be that of a window that has been closed. -/
structure App (α : Type) where
  channel : List UiEvent
  pump : Pump
  shared : Shared α
  windowRef : Option Nat
  windows : Nat → Option (RootView α)
  nextWindow : Nat

namespace App

variable {α : Type}

def openMainWindow (app : App α) : App α :=
  { app with
    windowRef := some app.nextWindow
    windows := update app.windows app.nextWindow (some (.view app.shared))
    nextWindow := app.nextWindow + 1 }

/-- Where the application starts: the background has its data, and the window is opened. -/
def start (data : α) (apiPort : UInt16) : App α :=
  openMainWindow
    { channel := []
      pump := .idle
      shared := ⟨data, apiPort, false, []⟩
      windowRef := none
      windows := fun _ ↦ none
      nextWindow := 0 }

/-- `handle.update` of the window that is kept; `none` where it fails. -/
def updateWindow (app : App α) (f : RootView α → RootView α) : Option (App α) :=
  app.windowRef.bind fun handle ↦
    (app.windows handle).map fun root ↦
      { app with windows := update app.windows handle (some (f root)) }

/-- `process_event`, and whether the pump ends. -/
def processEvent (app : App α) : UiEvent → App α × Bool
  | .quit => (app, true)
  | .popup =>
    match app.updateWindow id with
    | some app => (app, false)
    | none => (app.openMainWindow, false)
  | .logs batch =>
    let app := { app with shared.logs := trimFront maxLogs (app.shared.logs ++ batch) }
    ((app.updateWindow (·.handleLogs batch)).getD app, false)
  | .hasUpdates value =>
    let app := { app with shared.hasUpdates := value }
    ((app.updateWindow (·.handleEvent app.shared (.hasUpdates value))).getD app, false)
  | event => ((app.updateWindow (·.handleEvent app.shared event)).getD app, false)

inductive Out
  | silent
  | took (entry : LogEntry)
  | processed (event : UiEvent)
  deriving DecidableEq, Repr

/-- A task sends an event or writes to the shared state, the pump takes a step, or the user closes
a window to the tray or goes to another page. -/
inductive Action (α : Type)
  | send (event : UiEvent)
  | write (data : α) (apiPort : UInt16)
  | recv
  | tryRecv
  | closeWindow (handle : Nat)
  | navigate (handle : Nat) (home : Bool)

/-- The pump processes an event. -/
def process (app : App α) (event : UiEvent) : Out × App α :=
  let processed := app.processEvent event
  (.processed event,
    if processed.2 then { processed.1 with pump := .stopped } else processed.1)

def next (app : App α) : Action α → Option (Out × App α)
  -- batches are made by the pump only
  | .send (.logs _) => none
  | .send event => some (.silent, { app with channel := app.channel ++ [event] })
  | .write data apiPort =>
    some (.silent, { app with shared.data := data, shared.apiPort := apiPort })
  | .recv =>
    match app.pump, app.channel with
    | .idle, .log entry :: channel =>
      some (.took entry, { app with channel := channel, pump := .draining [entry] })
    | .idle, event :: channel => some (process { app with channel := channel } event)
    | _, _ => none
  | .tryRecv =>
    match app.pump, app.channel with
    | .draining batch, .log entry :: channel =>
      some (.took entry, { app with channel := channel, pump := .draining (batch ++ [entry]) })
    | .draining _, event :: channel => some (process { app with channel := channel } event)
    | .draining batch, [] => some (process { app with pump := .idle } (.logs batch))
    | _, _ => none
  | .closeWindow handle => some (.silent, { app with windows := update app.windows handle none })
  | .navigate handle home =>
    (app.windows handle).map fun root ↦
      (.silent, { app with windows := update app.windows handle (some { root with home := home }) })

/-! ## What has gone through the pump -/

abbrev Trace (α : Type) := List (Event (App α) (Action α) Out)

def logEntry : UiEvent → Option LogEntry
  | .log entry => some entry
  | _ => none

/-- An event that is processed by itself. -/
def isOther : UiEvent → Bool
  | .log _ | .logs _ => false
  | _ => true

/-- The events that have been sent, in order. -/
def sent (tr : Trace α) : List UiEvent :=
  tr.filterMap fun e ↦
    match e.act with
    | .send event => some event
    | _ => none

/-- The log entries that have been taken from the channel, in order. -/
def taken (tr : Trace α) : List LogEntry :=
  tr.filterMap fun e ↦
    match e.out with
    | .took entry => some entry
    | _ => none

def processed (tr : Trace α) : List UiEvent :=
  tr.filterMap fun e ↦
    match e.out with
    | .processed event => some event
    | _ => none

/-- The window that is open, if there is one, has the logs of the shared buffer. -/
def WindowsAgree (app : App α) : Prop :=
  ∀ handle root, app.windows handle = some root →
    app.windowRef = some handle ∧ root.logs = app.shared.logs

/-- Nothing is lost, doubled or put in another order between the tasks and the views. -/
structure Pumped (tr : Trace α) (app : App α) : Prop where
  others : (processed tr).filter isOther ++ app.channel.filter isOther = (sent tr).filter isOther
  entries : taken tr ++ app.channel.filterMap logEntry = (sent tr).filterMap logEntry
  buffer : ∃ done, taken tr = done ++ app.pump.batch ∧ app.shared.logs = done.rtake maxLogs
  windows : WindowsAgree app
  running : app.pump ≠ .stopped
  channel : ∀ event ∈ app.channel, event ≠ .quit ∧ ∀ batch, event ≠ .logs batch

variable {app app' : App α} {tr : Trace α} {event : UiEvent} {entry : LogEntry}
  {batch : List LogEntry} {handle : Nat} {root : RootView α} {f : RootView α → RootView α}
  {a : Action α} {o : Out} {data : α} {apiPort : UInt16}

theorem handleLogs_logs : (root.handleLogs batch).logs = (root.logs ++ batch).rtake maxLogs := by
  rw [RootView.handleLogs]
  dsimp only
  split
  · rfl
  · rw [rtake_of_le (by omega)]

theorem handleEvent_logs {shared : Shared α} (h : isOther event = true) :
    (root.handleEvent shared event).logs = root.logs := by
  cases event with
  | log entry => cases h
  | logs entries => cases h
  | cursorTick =>
    rw [RootView.handleEvent]
    split <;> rfl
  | _ => rfl

/-! ## The windows -/

theorem openMainWindow_windows : app.openMainWindow.windows =
    update app.windows app.nextWindow (some (.view app.shared)) := rfl

theorem WindowsAgree.openMainWindow (h : WindowsAgree app)
    (hclosed : app.updateWindow id = none) : WindowsAgree app.openMainWindow := by
  intro handle root hroot
  by_cases hnew : handle = app.nextWindow
  · subst hnew
    rw [openMainWindow_windows, update_self] at hroot
    rw [← Option.some.inj hroot]
    exact ⟨rfl, rfl⟩
  · -- no other window can be open
    rw [openMainWindow_windows, update_of_ne hnew] at hroot
    rw [updateWindow, (h handle root hroot).1, Option.bind_some, hroot] at hclosed
    cases hclosed

theorem WindowsAgree.update {after : Option (RootView α)} (h : WindowsAgree app)
    (hafter : ∀ root, after = some root →
      app.windowRef = some handle ∧ root.logs = app.shared.logs) :
    WindowsAgree { app with windows := Function.update app.windows handle after } := by
  intro handle' root hroot
  dsimp only at hroot
  rw [update_apply] at hroot
  split at hroot
  · rename_i hsame
    subst hsame
    exact hafter root hroot
  · exact h handle' root hroot

/-- What is done to the shared logs is done to those of the window. -/
theorem WindowsAgree.updateWindow {logs : List LogEntry} {shared : Shared α}
    (h : WindowsAgree app) (hf : ∀ root : RootView α, root.logs = app.shared.logs →
      (f root).logs = logs) (hshared : shared.logs = logs) :
    WindowsAgree (({ app with shared := shared }.updateWindow f).getD
      { app with shared := shared }) := by
  intro handle root hroot
  have hopen : ∀ handle root, app.windows handle = some root → app.windowRef = some handle :=
    fun handle root h' ↦ (h handle root h').1
  cases href : app.windowRef with
  | none =>
    rw [App.updateWindow, href] at hroot
    have hwindow : app.windows handle = some root := hroot
    rw [hopen handle root hwindow] at href
    cases href
  | some current =>
    cases hcurrent : app.windows current with
    | none =>
      simp only [App.updateWindow, href, Option.bind_some, hcurrent, Option.map_none,
        Option.getD_none] at hroot
      have hsame := (hopen handle root hroot).symm.trans href
      rw [Option.some.inj hsame, hcurrent] at hroot
      cases hroot
    | some root' =>
      simp only [App.updateWindow, href, Option.bind_some, hcurrent, Option.map_some,
        Option.getD_some] at hroot ⊢
      by_cases hhandle : handle = current
      · subst hhandle
        rw [update_self] at hroot
        rw [← Option.some.inj hroot, hshared]
        exact ⟨rfl, hf root' (h handle root' hcurrent).2⟩
      · rw [update_of_ne hhandle] at hroot
        have hsame := (hopen handle root hroot).symm.trans href
        exact absurd (Option.some.inj hsame) hhandle

/-! ## What a step does -/

-- Only the windows change, if anything does.
theorem exists_updateWindow :
    ∃ windows, (app.updateWindow f).getD app = { app with windows := windows } := by
  cases h : app.updateWindow f with
  | none => exact ⟨app.windows, rfl⟩
  | some app' =>
    obtain ⟨handle, -, h⟩ := Option.bind_eq_some_iff.mp h
    obtain ⟨root, -, rfl⟩ := Option.map_eq_some_iff.mp h
    exact ⟨_, rfl⟩

theorem updateWindow_getD_channel : ((app.updateWindow f).getD app).channel = app.channel := by
  obtain ⟨windows, h⟩ := @exists_updateWindow _ app f
  rw [h]

theorem updateWindow_getD_pump : ((app.updateWindow f).getD app).pump = app.pump := by
  obtain ⟨windows, h⟩ := @exists_updateWindow _ app f
  rw [h]

theorem updateWindow_getD_shared : ((app.updateWindow f).getD app).shared = app.shared := by
  obtain ⟨windows, h⟩ := @exists_updateWindow _ app f
  rw [h]

/-- What the pump processes keeps the windows as the shared buffer, and the pump goes on. -/
structure Handled (app : App α) (event : UiEvent) (app' : App α) : Prop where
  channel : app'.channel = app.channel
  pump : app'.pump = app.pump
  windows : WindowsAgree app'
  kept : isOther event = true → app'.shared.logs = app.shared.logs
  added : ∀ batch, event = .logs batch →
    app'.shared.logs = (app.shared.logs ++ batch).rtake maxLogs

theorem Handled.ofOther {shared : Shared α} (h : WindowsAgree app)
    (hshared : shared.logs = app.shared.logs) (hother : isOther event = true) :
    Handled app event (({ app with shared := shared }.updateWindow
      (·.handleEvent shared event)).getD { app with shared := shared }) where
  channel := updateWindow_getD_channel
  pump := updateWindow_getD_pump
  windows := h.updateWindow (fun root hroot ↦ (handleEvent_logs hother).trans hroot) hshared
  kept := by
    intro _
    rw [updateWindow_getD_shared, hshared]
  added := by
    rintro batch rfl
    cases hother

theorem processEvent_handled (h : WindowsAgree app) (hquit : event ≠ .quit)
    (hlog : ∀ entry, event ≠ .log entry) :
    (app.processEvent event).2 = false ∧ Handled app event (app.processEvent event).1 := by
  cases event with
  | quit => exact absurd rfl hquit
  | log entry => exact absurd rfl (hlog entry)
  | popup =>
    rw [processEvent]
    cases hopen : app.updateWindow id with
    | none => exact ⟨rfl, rfl, rfl, h.openMainWindow hopen, fun _ ↦ rfl, nofun⟩
    | some app' =>
      have hsame : (app.updateWindow id).getD app = app' := by rw [hopen, Option.getD_some]
      have hagree := h.updateWindow (f := id) (fun root hroot ↦ hroot) (Eq.refl app.shared.logs)
      exact ⟨rfl, hsame ▸ updateWindow_getD_channel, hsame ▸ updateWindow_getD_pump,
        hsame ▸ hagree, fun _ ↦ by rw [← hsame, updateWindow_getD_shared], nofun⟩
  | logs batch =>
    refine ⟨rfl, updateWindow_getD_channel, updateWindow_getD_pump, ?_, nofun, ?_⟩
    · refine h.updateWindow (fun root hroot ↦ ?_) rfl
      rw [handleLogs_logs, hroot, trimFront_eq]
    · rintro batch' ⟨⟩
      rw [processEvent]
      dsimp only
      rw [updateWindow_getD_shared, trimFront_eq]
  | hasUpdates value => exact ⟨rfl, .ofOther h rfl rfl⟩
  | online port => exact ⟨rfl, .ofOther h rfl rfl⟩
  | refresh => exact ⟨rfl, .ofOther h rfl rfl⟩
  | cursorTick => exact ⟨rfl, .ofOther h rfl rfl⟩

theorem process_handled (h : WindowsAgree app) (hquit : event ≠ .quit)
    (hlog : ∀ entry, event ≠ .log entry) :
    (app.process event).1 = .processed event ∧ Handled app event (app.process event).2 := by
  obtain ⟨hgoes, hhandled⟩ := processEvent_handled h hquit hlog
  refine ⟨rfl, ?_⟩
  rw [process]
  dsimp only
  rwa [hgoes, if_neg Bool.false_ne_true]

/-- The steps by what they do to the channel. -/
inductive Moved (app : App α) : Action α → Out → App α → Prop
  | send {event : UiEvent} (hevent : ∀ batch, event ≠ .logs batch) :
    Moved app (.send event) .silent { app with channel := app.channel ++ [event] }
  | write {data : α} {apiPort : UInt16} : Moved app (.write data apiPort) .silent
      { app with shared.data := data, shared.apiPort := apiPort }
  | took {a : Action α} {entry : LogEntry} {channel : List UiEvent}
      (ha : a = .recv ∨ a = .tryRecv) (hchannel : app.channel = .log entry :: channel) :
    Moved app a (.took entry)
      { app with channel := channel, pump := .draining (app.pump.batch ++ [entry]) }
  | processed {a : Action α} {event : UiEvent} {channel : List UiEvent}
      (ha : a = .recv ∨ a = .tryRecv) (hchannel : app.channel = event :: channel)
      (hlog : ∀ entry, event ≠ .log entry) :
    Moved app a (.processed event) (process { app with channel := channel } event).2
  | flushed {batch : List LogEntry} (hpump : app.pump = .draining batch)
      (hchannel : app.channel = []) :
    Moved app .tryRecv (.processed (.logs batch))
      (process { app with pump := .idle } (.logs batch)).2
  | closeWindow {handle : Nat} : Moved app (.closeWindow handle) .silent
      { app with windows := update app.windows handle none }
  | navigate {handle : Nat} {home : Bool} {root : RootView α}
      (hroot : app.windows handle = some root) :
    Moved app (.navigate handle home) .silent
      { app with windows := update app.windows handle (some { root with home := home }) }

theorem next_moved (h : next app a = some (o, app')) : Moved app a o app' := by
  cases a with
  | send event =>
    cases event with
    | logs batch => cases h
    | _ =>
      cases h
      exact .send fun _ ↦ nofun
  | write data apiPort =>
    cases h
    exact .write
  | recv =>
    rw [next] at h
    split at h
    · rename_i hpump hchannel
      cases h
      have hbatch : app.pump.batch = [] := congrArg Pump.batch hpump
      have hmoved := Moved.took (.inl rfl) hchannel
      rwa [hbatch] at hmoved
    · rename_i hlog hpump hchannel
      cases h
      exact .processed (.inl rfl) hchannel fun entry heq ↦ hlog entry heq
    · cases h
  | tryRecv =>
    rw [next] at h
    split at h
    · rename_i hpump hchannel
      cases h
      have hmoved := Moved.took (.inr rfl) hchannel
      rwa [hpump] at hmoved
    · rename_i hlog hpump hchannel
      cases h
      exact .processed (.inr rfl) hchannel fun entry heq ↦ hlog entry heq
    · rename_i hpump hchannel
      cases h
      exact .flushed hpump hchannel
    · cases h
  | closeWindow handle =>
    cases h
    exact .closeWindow
  | navigate handle home =>
    obtain ⟨root, hroot, heq⟩ := Option.map_eq_some_iff.mp h
    cases heq
    exact .navigate hroot

/-! ## Runs -/

theorem isOther_of (hlog : ∀ entry, event ≠ .log entry) (hlogs : ∀ batch, event ≠ .logs batch) :
    isOther event = true ∧ logEntry event = none := by
  cases event with
  | log entry => exact absurd rfl (hlog entry)
  | logs batch => exact absurd rfl (hlogs batch)
  | _ => exact ⟨rfl, rfl⟩

/-- What is done beside the channel and the pump. -/
theorem Pumped.aside (h : Pumped tr app) (ha : sent [⟨app, a, .silent⟩] = [])
    (hchannel : app'.channel = app.channel) (hpump : app'.pump = app.pump)
    (hshared : app'.shared.logs = app.shared.logs) (hwindows : WindowsAgree app') :
    Pumped (tr ++ [⟨app, a, .silent⟩]) app' := by
  have hsent : sent (tr ++ [⟨app, a, .silent⟩]) = sent tr := by
    rw [sent, List.filterMap_append]
    exact (congrArg _ ha).trans (List.append_nil _)
  have htaken : taken (tr ++ [⟨app, a, .silent⟩]) = taken tr := by simp [taken]
  have hprocessed : App.processed (tr ++ [⟨app, a, .silent⟩]) = App.processed tr := by
    simp [processed]
  constructor
  case others => rw [hprocessed, hsent, hchannel, h.others]
  case entries => rw [htaken, hsent, hchannel, h.entries]
  case buffer => rw [htaken, hpump, hshared]; exact h.buffer
  case windows => exact hwindows
  case running => rw [hpump]; exact h.running
  case channel => rw [hchannel]; exact h.channel

theorem Pumped.step (hpumped : Pumped tr app) (hquit : a ≠ .send .quit) (hm : Moved app a o app') :
    Pumped (tr ++ [⟨app, a, o⟩]) app' := by
  have ⟨hothers, hentries, ⟨done, hdone, hlogs⟩, hwindows, hrunning, hchannels⟩ := hpumped
  cases hm with
  | @send event hevent =>
    refine ⟨?_, ?_, ⟨done, ?_, hlogs⟩, hwindows, hrunning, ?_⟩
    · simp [processed, sent] at hothers ⊢
      rw [← List.append_assoc, hothers]
    · simp [taken, sent] at hentries ⊢
      rw [← List.append_assoc, hentries]
    · simpa [taken] using hdone
    · intro event' hmem
      rcases List.mem_append.mp hmem with hmem | hmem
      · exact hchannels event' hmem
      · rw [List.mem_singleton.mp hmem]
        exact ⟨fun heq ↦ hquit (by rw [heq]), hevent⟩
  | write =>
    exact hpumped.aside rfl rfl rfl rfl hwindows
  | @took a entry channel ha hchannel =>
    have hsent : sent (tr ++ [⟨app, a, .took entry⟩]) = sent tr := by
      rcases ha with rfl | rfl <;> simp [sent]
    rw [hchannel] at hothers hentries hchannels
    refine ⟨?_, ?_, ⟨done, ?_, hlogs⟩, hwindows, nofun, fun event hmem ↦
      hchannels event (List.mem_cons_of_mem _ hmem)⟩
    · rw [hsent, ← hothers]
      simp [processed, isOther]
    · rw [hsent, ← hentries]
      simp [taken, logEntry]
    · change _ = done ++ (app.pump.batch ++ [entry])
      rw [← List.append_assoc, ← hdone]
      simp [taken]
  | @processed a event channel ha hchannel hlog =>
    have hsent : sent (tr ++ [⟨app, a, .processed event⟩]) = sent tr := by
      rcases ha with rfl | rfl <;> simp [sent]
    rw [hchannel] at hothers hentries hchannels
    obtain ⟨hevent, hbatch⟩ := hchannels event List.mem_cons_self
    obtain ⟨hother, hnone⟩ := isOther_of hlog hbatch
    obtain ⟨-, hhandled⟩ :=
      @process_handled _ { app with channel := channel } event hwindows hevent hlog
    refine ⟨?_, ?_, ⟨done, ?_, ?_⟩, hhandled.windows, ?_, ?_⟩
    · rw [hsent, ← hothers, hhandled.channel]
      simp [App.processed, hother]
    · rw [hsent, ← hentries, hhandled.channel]
      simp [taken, hnone]
    · rw [hhandled.pump, ← hdone]
      simp [taken]
    · rw [hhandled.kept hother, hlogs]
    · rw [hhandled.pump]
      exact hrunning
    · intro event' hmem
      rw [hhandled.channel] at hmem
      exact hchannels event' (List.mem_cons_of_mem _ hmem)
  | @flushed batch hpump hchannel =>
    have hsent : sent (tr ++ [⟨app, .tryRecv, .processed (.logs batch)⟩]) = sent tr := by
      simp [sent]
    obtain ⟨-, hhandled⟩ :=
      @process_handled _ { app with pump := .idle } (.logs batch) hwindows nofun nofun
    have hkept : app.channel = (process { app with pump := .idle } (.logs batch)).2.channel :=
      hhandled.channel.symm
    refine ⟨?_, ?_, ⟨done ++ batch, ?_, ?_⟩, hhandled.windows, ?_, ?_⟩
    · rw [hsent, ← hothers, ← hkept]
      simp [App.processed, isOther]
    · rw [hsent, ← hentries, ← hkept]
      simp [taken]
    · rw [hpump] at hdone
      rw [hhandled.pump, Pump.batch, List.append_nil]
      · simpa [taken, Pump.batch] using hdone
      · exact nofun
    · rw [hhandled.added batch rfl, hlogs, rtake_append]
    · rw [hhandled.pump]
      exact nofun
    · rw [← hkept]
      exact hchannels
  | closeWindow =>
    refine hpumped.aside rfl rfl rfl rfl (hwindows.update fun root hroot ↦ ?_)
    cases hroot
  | @navigate handle home root' hroot' =>
    refine hpumped.aside rfl rfl rfl rfl (hwindows.update fun root hroot ↦ ?_)
    rw [← Option.some.inj hroot]
    exact hwindows handle root' hroot'

theorem pumped_start : Pumped [] (start data apiPort) where
  others := rfl
  entries := rfl
  buffer := ⟨[], rfl, rfl⟩
  windows := WindowsAgree.openMainWindow (fun _ _ h ↦ nomatch h) rfl
  running := nofun
  channel := nofun

theorem pumped (h : Run next (start data apiPort) tr app) (hquit : ∀ e ∈ tr, e.act ≠ .send .quit) :
    Pumped tr app :=
  h.history pumped_start (fun _ _ _ _ _ hpumped hact hnext ↦ hpumped.step hact (next_moved hnext))
    hquit

/-- Where there is something to do the pump can do it. -/
theorem Pumped.exists_next (h : Pumped tr app) (hwork : app.channel ≠ [] ∨ app.pump ≠ .idle) :
    ∃ a o app', (a = .recv ∨ a = .tryRecv) ∧ next app a = some (o, app') := by
  suffices hsome : ∃ a, (a = .recv ∨ a = .tryRecv) ∧ (next app a).isSome = true by
    obtain ⟨a, ha, hnext⟩ := hsome
    obtain ⟨⟨o, app'⟩, hnext⟩ := Option.isSome_iff_exists.mp hnext
    exact ⟨a, o, app', ha, hnext⟩
  cases hpump : app.pump with
  | idle =>
    refine ⟨.recv, .inl rfl, ?_⟩
    cases hchannel : app.channel with
    | nil => exact absurd hwork (by simp [hchannel, hpump])
    | cons event channel => cases event <;> simp [next, hpump, hchannel]
  | draining batch =>
    refine ⟨.tryRecv, .inr rfl, ?_⟩
    cases hchannel : app.channel with
    | nil => simp [next, hpump, hchannel]
    | cons event channel => cases event <;> simp [next, hpump, hchannel]
  | stopped => exact absurd hpump h.running

/-- What a step of the pump leaves to be done. -/
theorem Pumped.less (h : Pumped tr app) (ha : a = .recv ∨ a = .tryRecv)
    (hm : Moved app a o app') :
    app'.channel = app.channel.tail ∧ (app.channel = [] → app'.pump = .idle) := by
  cases hm with
  | took _ hchannel =>
    rw [hchannel]
    exact ⟨rfl, nofun⟩
  | @processed _ event channel _ hchannel hlog =>
    have hquit := (h.channel event (by rw [hchannel]; exact List.mem_cons_self)).1
    obtain ⟨-, hhandled⟩ :=
      @process_handled _ { app with channel := channel } event h.windows hquit hlog
    rw [hchannel, hhandled.channel]
    exact ⟨rfl, nofun⟩
  | @flushed batch hpump hchannel =>
    obtain ⟨-, hhandled⟩ :=
      @process_handled _ { app with pump := .idle } (.logs batch) h.windows nofun nofun
    rw [hhandled.channel, hhandled.pump, hchannel]
    exact ⟨rfl, fun _ ↦ rfl⟩
  | _ => rcases ha with ha | ha <;> cases ha

theorem Pumped.advance (h : Pumped tr app) (hwork : app.channel ≠ [] ∨ app.pump ≠ .idle) :
    ∃ a o app', (a = .recv ∨ a = .tryRecv) ∧ next app a = some (o, app') ∧
      Pumped (tr ++ [⟨app, a, o⟩]) app' ∧ app'.channel = app.channel.tail ∧
        (app.channel = [] → app'.pump = .idle) := by
  obtain ⟨a, o, app', ha, hnext⟩ := h.exists_next hwork
  have hm := next_moved hnext
  have hquit : a ≠ .send .quit := by
    rcases ha with rfl | rfl <;> exact nofun
  exact ⟨a, o, app', ha, hnext, h.step hquit hm, h.less ha hm⟩

/-- Left to itself the pump comes to an end of its work. -/
theorem Pumped.exists_idle {channel : List UiEvent} (h : Pumped tr app)
    (hchannel : app.channel = channel) : ∃ tr' app', Run next app tr' app' ∧
      (∀ e ∈ tr', e.act = .recv ∨ e.act = .tryRecv) ∧
      Pumped (tr ++ tr') app' ∧ app'.channel = [] ∧ app'.pump = .idle := by
  induction channel generalizing tr app with
  | nil =>
    by_cases hidle : app.pump = .idle
    · exact ⟨[], app, .nil, List.forall_mem_nil _, by rwa [List.append_nil], hchannel, hidle⟩
    · obtain ⟨a, o, app', ha, hnext, hpumped, htail, hend⟩ := h.advance (.inr hidle)
      rw [hchannel] at htail
      exact ⟨_, app', .single hnext, List.forall_mem_singleton.mpr ha, hpumped, htail,
        hend hchannel⟩
  | cons event channel ih =>
    obtain ⟨a, o, app₁, ha, hnext, hpumped, htail, -⟩ := h.advance (.inl (by simp [hchannel]))
    rw [hchannel, List.tail_cons] at htail
    obtain ⟨tr', app', hrun, hacts, hpumped', hend⟩ := ih hpumped htail
    refine ⟨⟨app, a, o⟩ :: tr', app', (Run.single hnext).append hrun,
      List.forall_mem_cons.mpr ⟨ha, hacts⟩, ?_, hend⟩
    rwa [List.append_cons]

/-- In every run without an end of the application: other events are processed once and in order,
the shared buffer after a batch is the end of all entries taken by then, an open window shows that
buffer, and whatever has been sent comes through. -/
theorem pump_faithful (data : α) (apiPort : UInt16) (tr : Trace α) (app : App α)
    (h : Run next (start data apiPort) tr app) (hquit : ∀ e ∈ tr, e.act ≠ .send .quit) :
    (processed tr).filter isOther ++ app.channel.filter isOther = (sent tr).filter isOther ∧
    taken tr ++ app.channel.filterMap logEntry = (sent tr).filterMap logEntry ∧
    (∀ tr' e batch, tr = tr' ++ [e] → e.out = .processed (.logs batch) →
      app.shared.logs = (taken tr).rtake 1000) ∧
    (∀ handle root, app.windows handle = some root → root.logs = app.shared.logs) ∧
    ∃ tr' app', Run next app tr' app' ∧ (∀ e ∈ tr', e.act = .recv ∨ e.act = .tryRecv) ∧
      (processed (tr ++ tr')).filter isOther = (sent tr).filter isOther ∧
      taken (tr ++ tr') = (sent tr).filterMap logEntry ∧
      app'.shared.logs = (taken (tr ++ tr')).rtake 1000 := by
  have hpumped := pumped h hquit
  refine ⟨hpumped.others, hpumped.entries, ?_, fun handle root hroot ↦
    (hpumped.windows handle root hroot).2, ?_⟩
  · rintro tr' ⟨pre, a, o⟩ batch rfl hout
    obtain ⟨done, hdone, hlogs⟩ := hpumped.buffer
    -- a batch is processed where the pump is idle again
    have hidle : app.pump = .idle := by
      obtain ⟨hrun, hnext⟩ := h.snoc_inv
      have hpumped' := pumped hrun fun e he ↦ hquit e (List.mem_append_left _ he)
      have hm := next_moved hnext
      cases hout
      cases hm with
      | processed ha hchannel hlog =>
        have hmem := hpumped'.channel (.logs batch) (by rw [hchannel]; exact List.mem_cons_self)
        exact absurd rfl (hmem.2 batch)
      | flushed hpump hchannel =>
        exact (@process_handled _ { pre with pump := .idle } (.logs batch) hpumped'.windows nofun
          nofun).2.pump
    rw [hidle, Pump.batch, List.append_nil] at hdone
    · rw [hdone]
      exact hlogs
    · exact nofun
  · obtain ⟨tr', app', hrun, hacts, hpumped', hchannel, hidle⟩ := hpumped.exists_idle rfl
    have hsent : sent (tr ++ tr') = sent tr := by
      have hnone : sent tr' = [] := by
        refine List.filterMap_eq_nil_iff.mpr fun e he ↦ ?_
        rcases hacts e he with ha | ha <;> rw [ha]
      rw [sent, List.filterMap_append]
      exact (congrArg (sent tr ++ ·) hnone).trans (List.append_nil _)
    obtain ⟨hothers, hentries, ⟨done, hdone, hlogs⟩, -⟩ := hpumped'
    rw [hchannel, hsent] at hothers hentries
    rw [List.filter_nil, List.append_nil] at hothers
    rw [List.filterMap_nil, List.append_nil] at hentries
    rw [hidle, Pump.batch, List.append_nil] at hdone
    · refine ⟨tr', app', hrun, hacts, hothers, hentries, ?_⟩
      rw [hdone]
      exact hlogs
    · exact nofun

def sampleEntry (message : String) : LogEntry := ⟨sampleTime, "INFO", "wsrx", ⟨message⟩⟩

/-- The window is closed while a batch is put together, and opened by an event among its entries. -/
theorem pump_faithful_sample : ∃ (tr : Trace Unit) (app : App Unit) (root : RootView Unit),
    Run next (start () 3307) tr app ∧ (processed tr).filter isOther = [.popup] ∧
      app.windows 1 = some root ∧ root.logs = [sampleEntry "one", sampleEntry "two"] ∧
      root.logs = app.shared.logs := by
  obtain ⟨tr, app, hrun, hp⟩ := exists_run (next (α := Unit)) (start () 3307)
    [.send (.log (sampleEntry "one")), .send .popup, .recv, .closeWindow 0, .tryRecv,
      .send (.log (sampleEntry "two")), .tryRecv, .tryRecv]
    (fun tr app ↦ (tr.all fun e ↦ match e.act with
      | .send .quit => false
      | _ => true) && (processed tr).filter isOther == [.popup] &&
      (app.windows 1).any fun root ↦ root.logs == [sampleEntry "one", sampleEntry "two"])
    (by decide +kernel)
  simp only [Bool.and_eq_true, List.all_eq_true, beq_iff_eq, Option.any_eq_true] at hp
  obtain ⟨⟨hquit, hothers⟩, root, hroot, hlogs⟩ := hp
  have hfaithful := pump_faithful () 3307 tr app hrun fun e he hact ↦ by
    have hsent := hquit e he
    rw [hact] at hsent
    cases hsent
  exact ⟨tr, app, root, hrun, hothers, hroot, hlogs, hfaithful.2.2.2.1 1 root hroot⟩

end App

end LabStreamGate.Desktop
