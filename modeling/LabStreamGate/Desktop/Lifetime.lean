import LabStreamGate.Desktop.Config
import LabStreamGate.Desktop.EventPump

/-!
# Settings, window and tray

The app changes its settings in its window, writes them to `config.toml` at once and again when it
quits.  Closing the window quits, unless the app is to run in the tray; then it goes on without a
window until it is asked to pop up.  A process may be killed at any moment, and a later one starts
from the file.
-/

namespace LabStreamGate.Desktop.Lifetime

open Function

/-- `windows` have the settings they show; the handle that is kept may be that of a window that has
been removed.  `forwarding` is whether the thread of the tray runs. -/
structure Process where
  settings : WsrxDesktopConfig
  dark : Bool
  locale : Locale
  woocraft : String
  tray : Bool
  forwarding : Bool
  windowRef : Option Nat
  windows : Nat → Option WsrxDesktopConfig
  nextWindow : Nat
  channel : List UiEvent
  pumping : Bool
  quitting : Bool

/-- There is one process at a time, as the check for a running instance wants it.  It is killed
between two actions; one that is killed while it writes `config.toml` has made a write that is not
complete, which is a save that failed. -/
structure State where
  config : Option Bytes
  process : Option Process

def State.idle (config : Option Bytes) : State := ⟨config, none⟩

/-- How a write of `config.toml` goes: the file cannot be opened, or this much is written to it. -/
inductive Saving
  | notOpened
  | wrote (count : Nat)
  deriving DecidableEq, Repr

def Saving.apply (config : Option Bytes) (data : Bytes) : Saving → Option Bytes
  | .notOpened => config
  | .wrote count => some (data.take count)

def Saving.isComplete (data : Bytes) : Saving → Bool
  | .notOpened => false
  | .wrote count => data.length ≤ count

/-- How the tray answers: whether the icon can be set, whether its events can be received, and
whether the icon can be removed. -/
structure TrayIo where
  set : Bool
  events : Bool
  removed : Bool
  deriving DecidableEq, Repr

inductive TrayEvent
  | menuClicked (id : String)
  | click (left : Bool)
  | other
  deriving DecidableEq, Repr

/-- What the thread of the tray sends on. -/
def TrayEvent.uiEvent : TrayEvent → Option UiEvent
  | .menuClicked id => if id = "show" then some .popup else if id = "quit" then some .quit else none
  | .click left => if left then some .popup else none
  | .other => none

inductive Action
  | start (system : Option String) (io : TrayIo)
  | themeButton (window : Nat) (io : Saving)
  | languageButton (window : Nat) (woocraft : String) (io : Saving)
  | languageItem (window : Nat) (code : Locale) (io : Saving)
  | trayToggle (window : Nat) (tray : TrayIo) (io : Saving)
  | changePage (window : Nat)
  | closeButton (window : Nat) (io : Saving)
  | shouldClose (window : Nat) (io : Saving)
  | trayEvent (event : TrayEvent)
  | send (event : UiEvent)
  | recv (io : Saving)
  | appQuit (io : Saving)
  | kill
  deriving DecidableEq, Repr

namespace Process

/-- `open_main_window`; the view sets theme and locale. -/
def openMainWindow (p : Process) : Process :=
  { p with
    dark := p.settings.isDark
    locale := .ofName p.settings.language
    woocraft := (Locale.ofName p.settings.language).woocraft
    windowRef := some p.nextWindow
    windows := update p.windows p.nextWindow (some p.settings)
    nextWindow := p.nextWindow + 1 }

def removeWindow (p : Process) (window : Nat) : Process :=
  { p with windows := update p.windows window none }

/-- `tray::enable`; the thread is started once. -/
def enable (p : Process) (io : TrayIo) : Process :=
  if io.set then { p with tray := true, forwarding := p.forwarding || io.events } else p

def disable (p : Process) (io : TrayIo) : Process :=
  if io.removed then { p with tray := false } else p

/-- Icon and thread are there. -/
def trayWorks (p : Process) : Bool := p.tray && p.forwarding

/-- The app when the window has been opened, before the tray is enabled. -/
def run (settings : WsrxDesktopConfig) : Process :=
  openMainWindow
    { settings := settings
      dark := true
      locale := .enUS
      woocraft := "en-us"
      tray := false
      forwarding := false
      windowRef := none
      windows := fun _ ↦ none
      nextWindow := 0
      channel := []
      pumping := true
      quitting := false }

/-- A setting is changed, and so is what the window shows of it. -/
def change (p : Process) (window : Nat) (set : WsrxDesktopConfig → WsrxDesktopConfig) : Process :=
  { p with
    settings := set p.settings
    windows := update p.windows window ((p.windows window).map set) }

def setTheme (p : Process) (window : Nat) : Process :=
  let dark := !p.dark
  { p.change window fun settings ↦ { settings with theme := if dark then "dark" else "light" } with
    dark := dark }

/-- `i18n::set_locale` and the setting. -/
def setLanguage (p : Process) (window : Nat) (locale : Locale) : Process :=
  { p.change window fun settings ↦ { settings with language := locale.name } with
    locale := .ofName locale.name
    woocraft := (Locale.ofName locale.name).woocraft }

def setRunningInTray (p : Process) (window : Nat) (running : Bool) : Process :=
  p.change window fun settings ↦ { settings with runningInTray := running }

/-- The window shows the settings as they are. -/
def refreshFromState (p : Process) (window : Nat) : Process :=
  { p with windows := update p.windows window (some p.settings) }

/-- The window that is kept, if it is still there. -/
def liveWindow (p : Process) : Option Nat :=
  p.windowRef.filter fun window ↦ (p.windows window).isSome

/-- `process_event`, but for `Quit`. -/
def processEvent (p : Process) : UiEvent → Process
  | .popup => if p.liveWindow.isSome then p else p.openMainWindow
  | .refresh => (p.liveWindow.map p.refreshFromState).getD p
  | _ => p

end Process

/-- What a step has done: `saved` is whether the whole of `config.toml` was written where it was to
be, `enabled` whether the tray works where it was enabled. -/
structure Out where
  saved : Option Bool
  enabled : Option Bool
  deriving DecidableEq, Repr

def Out.silent : Out := ⟨none, none⟩

section

variable (toml : TomlText)

/-- `write_settings_to_disk`, with the process after it. -/
def State.save (s : State) (p : Process) (io : Saving) : Out × State :=
  (⟨some (io.isComplete (configText toml p.settings)), none⟩,
    ⟨io.apply s.config (configText toml p.settings), some p⟩)

/-- `shutdown`, after which the process is to quit. -/
def State.shutdown (s : State) (p : Process) (io : Saving) : Out × State :=
  s.save toml { p with quitting := true } io

def State.quiet (s : State) (p : Process) : Out × State := (.silent, { s with process := some p })

/-- The tray is enabled. -/
def State.enabling (r : Out × State) (p : Process) (io : TrayIo) : Out × State :=
  ({ r.1 with enabled := some (p.enable io).trayWorks }, { r.2 with process := some (p.enable io) })

/-- A handler of an open window runs. -/
def State.handle (s : State) (window : Nat) (f : Process → Out × State) : Option (Out × State) :=
  s.process.bind fun p ↦ if (p.windows window).isSome then some (f p) else none

def State.start (s : State) (settings : WsrxDesktopConfig) (io : TrayIo) : Out × State :=
  let opened := s.quiet (.run settings)
  if settings.runningInTray then State.enabling opened (.run settings) io else opened

def State.toggleTray (s : State) (window : Nat) (tray : TrayIo) (io : Saving) (p : Process) :
    Out × State :=
  let running := !p.settings.runningInTray
  let p := p.setRunningInTray window running
  let saved := s.save toml p io
  if running then State.enabling saved p tray
  else (saved.1, { saved.2 with process := some (p.disable tray) })

/-- The pump takes an event out of the channel. -/
def State.recv (s : State) (p : Process) (io : Saving) : Option (Out × State) :=
  match p.channel with
  | [] => none
  | event :: channel =>
    let p := { p with channel := channel }
    if event = .quit then some (s.shutdown toml { p with pumping := false } io)
    else some (s.quiet (p.processEvent event))

def next (s : State) : Action → Option (Out × State)
  | .start system io =>
    if s.process.isSome then none else some (s.start (loadConfig toml system s.config) io)
  | .themeButton window io => s.handle window fun p ↦ s.save toml (p.setTheme window) io
  | .languageButton window woocraft io =>
    s.handle window fun p ↦ s.save toml (p.setLanguage window (.ofWoocraft woocraft)) io
  | .languageItem window code io =>
    s.handle window fun p ↦ s.save toml (p.setLanguage window code) io
  | .trayToggle window tray io => s.handle window (s.toggleTray toml window tray io)
  | .changePage window => s.handle window fun p ↦ s.quiet (p.refreshFromState window)
  | .closeButton window io =>
    s.handle window fun p ↦
      if p.settings.runningInTray then s.quiet (p.removeWindow window) else s.shutdown toml p io
  | .shouldClose window io =>
    s.handle window fun p ↦
      if p.settings.runningInTray then s.quiet (p.removeWindow window)
      else s.shutdown toml (p.removeWindow window) io
  | .trayEvent event =>
    s.process.bind fun p ↦
      if p.trayWorks then some (s.quiet { p with channel := p.channel ++ event.uiEvent.toList })
      else none
  | .send event => s.process.map fun p ↦ s.quiet { p with channel := p.channel ++ [event] }
  | .recv io => s.process.bind fun p ↦ if p.pumping then s.recv toml p io else none
  | .appQuit io =>
    s.process.map fun p ↦ ((s.save toml p io).1, { (s.save toml p io).2 with process := none })
  | .kill => s.process.map fun _ ↦ (.silent, { s with process := none })

end


/-! ## One step -/

abbrev Step := Event State Action Out

variable {toml : TomlText} {s : State} {a : Action} {r : Out × State} {p : Process} {window : Nat}
  {settings : WsrxDesktopConfig} {tr : List Step} {e : Step}

/-- What an action can come to. -/
inductive Moved (toml : TomlText) (s : State) : Action → Out × State → Prop
  | start {system : Option String} {io : TrayIo} : s.process = none →
      Moved toml s (.start system io) (s.start (loadConfig toml system s.config) io)
  | theme {p : Process} {window : Nat} {io : Saving} : s.process = some p →
      (p.windows window).isSome = true →
      Moved toml s (.themeButton window io) (s.save toml (p.setTheme window) io)
  | language {p : Process} {window : Nat} {io : Saving} {a : Action} {locale : Locale} :
      s.process = some p → (p.windows window).isSome = true →
      Moved toml s a (s.save toml (p.setLanguage window locale) io)
  | trayToggle {p : Process} {window : Nat} {tray : TrayIo} {io : Saving} : s.process = some p →
      (p.windows window).isSome = true →
      Moved toml s (.trayToggle window tray io) (s.toggleTray toml window tray io p)
  | page {p : Process} {window : Nat} : s.process = some p → (p.windows window).isSome = true →
      Moved toml s (.changePage window) (s.quiet (p.refreshFromState window))
  | hide {p : Process} {window : Nat} {a : Action} : s.process = some p →
      (p.windows window).isSome = true → p.settings.runningInTray = true →
      Moved toml s a (s.quiet (p.removeWindow window))
  | closeButton {p : Process} {window : Nat} {io : Saving} : s.process = some p →
      Moved toml s (.closeButton window io) (s.shutdown toml p io)
  | shouldClose {p : Process} {window : Nat} {io : Saving} : s.process = some p →
      Moved toml s (.shouldClose window io) (s.shutdown toml (p.removeWindow window) io)
  | sent {p : Process} {a : Action} {events : List UiEvent} : s.process = some p →
      Moved toml s a (s.quiet { p with channel := p.channel ++ events })
  | quit {p : Process} {io : Saving} {channel : List UiEvent} : s.process = some p →
      Moved toml s (.recv io) (s.shutdown toml { p with channel := channel, pumping := false } io)
  | event {p : Process} {io : Saving} {channel : List UiEvent} {event : UiEvent} :
      s.process = some p →
      Moved toml s (.recv io) (s.quiet (({ p with channel := channel }).processEvent event))
  | appQuit {p : Process} {io : Saving} : s.process = some p →
      Moved toml s (.appQuit io)
        ((s.save toml p io).1, { (s.save toml p io).2 with process := none })
  | kill {p : Process} : s.process = some p →
      Moved toml s .kill (.silent, { s with process := none })

theorem State.handle_eq_some {f : Process → Out × State} (h : s.handle window f = some r) :
    ∃ p, s.process = some p ∧ (p.windows window).isSome = true ∧ f p = r := by
  simp only [handle, Option.bind_eq_some_iff, Option.ite_none_right_eq_some, Option.some.injEq] at h
  exact h

-- The step function is unfolded here and nowhere else.
theorem next_moved (h : next toml s a = some r) : Moved toml s a r := by
  cases a with
  | start system io =>
    simp only [next, Option.ite_none_left_eq_some, Option.some.injEq, Bool.not_eq_true,
      Option.isSome_eq_false_iff, Option.isNone_iff_eq_none] at h
    obtain ⟨hnone, rfl⟩ := h
    exact .start hnone
  | themeButton window io =>
    obtain ⟨p, hp, hwindow, rfl⟩ := State.handle_eq_some h
    exact .theme hp hwindow
  | languageButton window woocraft io =>
    obtain ⟨p, hp, hwindow, rfl⟩ := State.handle_eq_some h
    exact .language hp hwindow
  | languageItem window code io =>
    obtain ⟨p, hp, hwindow, rfl⟩ := State.handle_eq_some h
    exact .language hp hwindow
  | trayToggle window tray io =>
    obtain ⟨p, hp, hwindow, rfl⟩ := State.handle_eq_some h
    exact .trayToggle hp hwindow
  | changePage window =>
    obtain ⟨p, hp, hwindow, rfl⟩ := State.handle_eq_some h
    exact .page hp hwindow
  | closeButton window io =>
    obtain ⟨p, hp, hwindow, h⟩ := State.handle_eq_some h
    split at h <;> cases h
    · exact .hide hp hwindow ‹_›
    · exact .closeButton hp
  | shouldClose window io =>
    obtain ⟨p, hp, hwindow, h⟩ := State.handle_eq_some h
    split at h <;> cases h
    · exact .hide hp hwindow ‹_›
    · exact .shouldClose hp
  | trayEvent event =>
    simp only [next, Option.bind_eq_some_iff, Option.ite_none_right_eq_some,
      Option.some.injEq] at h
    obtain ⟨p, hp, -, rfl⟩ := h
    exact .sent hp
  | send event =>
    simp only [next, Option.map_eq_some_iff] at h
    obtain ⟨p, hp, rfl⟩ := h
    exact .sent hp
  | recv io =>
    simp only [next, State.recv, Option.bind_eq_some_iff, Option.ite_none_right_eq_some] at h
    obtain ⟨p, hp, -, h⟩ := h
    split at h
    · cases h
    · split at h <;> cases h
      · exact .quit hp
      · exact .event hp
  | appQuit io =>
    simp only [next, Option.map_eq_some_iff] at h
    obtain ⟨p, hp, rfl⟩ := h
    exact .appQuit hp
  | kill =>
    simp only [next, Option.map_eq_some_iff] at h
    obtain ⟨p, hp, rfl⟩ := h
    exact .kill hp

/-! ## What the window shows -/

/-- At most one window is open, it shows the settings as they are, and theme and locale are those of
the settings.  A process that has no window is to run in the tray, or quits. -/
structure Process.Shown (p : Process) : Prop where
  only : ∀ window settings, p.windows window = some settings →
    p.windowRef = some window ∧ settings = p.settings
  dark : p.dark = p.settings.isDark
  locale : p.locale = .ofName p.settings.language
  woocraft : p.woocraft = p.locale.woocraft
  hidden : p.quitting = false → p.liveWindow = none → p.settings.runningInTray = true
  pumping : p.pumping = false → p.quitting = true

namespace Process

theorem openMainWindow_windows :
    p.openMainWindow.windows = update p.windows p.nextWindow (some p.settings) := rfl

theorem removeWindow_eq_some {other : Nat}
    (h : (p.removeWindow window).windows other = some settings) :
    p.windows other = some settings := by
  have hwindows : (p.removeWindow window).windows = update p.windows window none := rfl
  rw [hwindows] at h
  by_cases heq : other = window
  · rw [heq, update_self] at h
    cases h
  · rwa [update_of_ne heq] at h

theorem liveWindow_eq_some : p.liveWindow = some window ↔
    p.windowRef = some window ∧ (p.windows window).isSome = true := by
  simp [liveWindow, Option.filter_eq_some_iff]

namespace Shown

theorem liveWindow (h : p.Shown) (hwindow : (p.windows window).isSome = true) :
    p.liveWindow = some window := by
  obtain ⟨settings, hsettings⟩ := Option.isSome_iff_exists.mp hwindow
  exact liveWindow_eq_some.mpr ⟨(h.only window settings hsettings).1, hwindow⟩

/-- The open window shows the settings. -/
theorem windows (h : p.Shown) (hwindow : p.liveWindow = some window) :
    p.windows window = some p.settings := by
  obtain ⟨settings, hsettings⟩ := Option.isSome_iff_exists.mp (liveWindow_eq_some.mp hwindow).2
  rw [hsettings, (h.only window settings hsettings).2]

-- A step that leaves the window as it is.
theorem same {p' : Process} (h : p.Shown) (hsettings : p'.settings = p.settings)
    (hwindows : p'.windows = p.windows) (href : p'.windowRef = p.windowRef)
    (hdark : p'.dark = p.dark) (hlocale : p'.locale = p.locale)
    (hwoocraft : p'.woocraft = p.woocraft) (hquitting : p'.quitting = false → p.quitting = false)
    (hpumping : p'.pumping = false → p'.quitting = true) : p'.Shown := by
  refine ⟨?_, ?_, ?_, ?_, fun hquit hnone ↦ ?_, hpumping⟩
  · rw [hwindows, href, hsettings]
    exact h.only
  · rw [hdark, hsettings]
    exact h.dark
  · rw [hlocale, hsettings]
    exact h.locale
  · rw [hwoocraft, hlocale]
    exact h.woocraft
  · rw [Process.liveWindow, href, hwindows] at hnone
    rw [hsettings]
    exact h.hidden (hquitting hquit) hnone

-- All other windows have been removed, so the new one is the only one.
theorem openMainWindow (hnone : ∀ window, p.windows window = none)
    (hpumping : p.pumping = false → p.quitting = true) : p.openMainWindow.Shown := by
  refine ⟨fun window settings hwindow ↦ ?_, rfl, rfl, rfl, fun _ hlive ↦ ?_, hpumping⟩
  · by_cases heq : window = p.nextWindow
    · rw [heq, openMainWindow_windows, update_self] at hwindow
      exact ⟨congrArg some heq.symm, (Option.some.inj hwindow).symm⟩
    · rw [openMainWindow_windows, update_of_ne heq, hnone] at hwindow
      cases hwindow
  · have hopen : p.openMainWindow.liveWindow = some p.nextWindow := by
      simp [liveWindow_eq_some, Process.openMainWindow]
    rw [hlive] at hopen
    cases hopen

theorem run : (Process.run settings).Shown := openMainWindow (fun _ ↦ rfl) nofun

-- The setting changes in the state and in the window alike.
theorem change {set : WsrxDesktopConfig → WsrxDesktopConfig} {p' : Process} (h : p.Shown)
    (hwindow : (p.windows window).isSome = true) (hsettings : p'.settings = set p.settings)
    (hwindows : p'.windows = update p.windows window ((p.windows window).map set))
    (href : p'.windowRef = p.windowRef) (hdark : p'.dark = p'.settings.isDark)
    (hlocale : p'.locale = .ofName p'.settings.language)
    (hwoocraft : p'.woocraft = p'.locale.woocraft)
    (hpumping : p'.pumping = false → p'.quitting = true) : p'.Shown := by
  have hlive := h.liveWindow hwindow
  refine ⟨fun other settings hother ↦ ?_, hdark, hlocale, hwoocraft, fun _ hnone ↦ ?_, hpumping⟩
  · rw [hwindows] at hother
    rw [hsettings, href]
    by_cases heq : other = window
    · rw [heq, update_self, h.windows hlive, Option.map_some] at hother
      rw [heq]
      exact ⟨(liveWindow_eq_some.mp hlive).1, (Option.some.inj hother).symm⟩
    · rw [update_of_ne heq] at hother
      have hsome := (h.only other settings hother).1
      rw [(liveWindow_eq_some.mp hlive).1] at hsome
      exact absurd (Option.some.inj hsome).symm heq
  · have hopen : p'.liveWindow = some window := by
      rw [liveWindow_eq_some, href, hwindows, update_self, Option.isSome_map]
      exact ⟨(liveWindow_eq_some.mp hlive).1, hwindow⟩
    rw [hnone] at hopen
    cases hopen

theorem setTheme (h : p.Shown) (hwindow : (p.windows window).isSome = true) :
    (p.setTheme window).Shown := by
  refine h.change hwindow rfl rfl rfl ?_ h.locale h.woocraft h.pumping
  show (!p.dark) = ((if (!p.dark) = true then "dark" else "light") != "light")
  cases p.dark <;> decide

theorem setLanguage {locale : Locale} (h : p.Shown) (hwindow : (p.windows window).isSome = true) :
    (p.setLanguage window locale).Shown :=
  h.change hwindow rfl rfl rfl h.dark rfl rfl h.pumping

theorem setRunningInTray {running : Bool} (h : p.Shown)
    (hwindow : (p.windows window).isSome = true) : (p.setRunningInTray window running).Shown :=
  h.change hwindow rfl rfl rfl h.dark h.locale h.woocraft h.pumping

theorem enable {io : TrayIo} (h : p.Shown) : (p.enable io).Shown := by
  unfold Process.enable
  split
  · exact h.same rfl rfl rfl rfl rfl rfl id h.pumping
  · exact h

theorem disable {io : TrayIo} (h : p.Shown) : (p.disable io).Shown := by
  unfold Process.disable
  split
  · exact h.same rfl rfl rfl rfl rfl rfl id h.pumping
  · exact h

-- It shows them already.
theorem refreshFromState (h : p.Shown) (hwindow : (p.windows window).isSome = true) :
    p.refreshFromState window = p := by
  rw [Process.refreshFromState, ← h.windows (h.liveWindow hwindow), update_eq_self]

theorem removeWindow (h : p.Shown) (hhidden : p.settings.runningInTray = true) :
    (p.removeWindow window).Shown := by
  refine ⟨fun other settings hother ↦ ?_, h.dark, h.locale, h.woocraft, fun _ _ ↦ hhidden,
    h.pumping⟩
  exact h.only other settings (removeWindow_eq_some hother)

-- The process quits, so that it does not matter that it has no window.
theorem quitWithout (h : p.Shown) : ({ p.removeWindow window with quitting := true }).Shown := by
  refine ⟨fun other settings hother ↦ ?_, h.dark, h.locale, h.woocraft, nofun, fun _ ↦ rfl⟩
  exact h.only other settings (removeWindow_eq_some hother)

theorem processEvent {event : UiEvent} (h : p.Shown) : (p.processEvent event).Shown := by
  cases event with
  | popup =>
    rw [Process.processEvent]
    cases hlive : p.liveWindow with
    | some window => exact h
    | none =>
      refine openMainWindow (fun window ↦ ?_) h.pumping
      rw [← Option.not_isSome_iff_eq_none]
      intro hwindow
      rw [h.liveWindow hwindow] at hlive
      cases hlive
  | refresh =>
    rw [Process.processEvent]
    cases hlive : p.liveWindow with
    | some window =>
      show (p.refreshFromState window).Shown
      rw [h.refreshFromState (liveWindow_eq_some.mp hlive).2]
      exact h
    | none => exact h
  | _ => exact h

end Shown

end Process

end LabStreamGate.Desktop.Lifetime
