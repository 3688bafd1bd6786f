import LabStreamGate.Desktop.Lifetime

/-!
# After the window was closed and the app was started again

What a user finds again: the settings at the next start, however the process ended, and the window
when it is asked for.
-/

namespace LabStreamGate.Desktop.Lifetime

open Function

variable {toml : TomlText} {config : Option Bytes} {s t : State} {a : Action} {r : Out × State}
  {p p' : Process} {window : Nat} {settings : WsrxDesktopConfig} {system : Option String}
  {tr : List Step} {e : Step}

/-! ## The window over a run -/

theorem State.toggleTray_process (tray : TrayIo) (io : Saving) :
    (s.toggleTray toml window tray io p).2.process =
      some (if p.settings.runningInTray then (p.setRunningInTray window false).disable tray
        else (p.setRunningInTray window true).enable tray) := by
  unfold toggleTray
  cases p.settings.runningInTray <;> rfl

theorem State.start_process (io : TrayIo) : (s.start settings io).2.process =
    some (if settings.runningInTray then (Process.run settings).enable io else .run settings) := by
  unfold start
  cases settings.runningInTray <;> rfl

theorem Process.Shown.step (h : ∀ p, s.process = some p → p.Shown) (hm : Moved toml s a r)
    (hp : r.2.process = some p') : p'.Shown := by
  cases hm with
  | start =>
    rw [State.start_process] at hp
    split at hp <;> cases hp
    · exact run.enable
    · exact run
  | theme hpre hwindow =>
    cases hp
    exact (h _ hpre).setTheme hwindow
  | language hpre hwindow =>
    cases hp
    exact (h _ hpre).setLanguage hwindow
  | trayToggle hpre hwindow =>
    rw [State.toggleTray_process] at hp
    split at hp <;> cases hp
    · exact ((h _ hpre).setRunningInTray hwindow).disable
    · exact ((h _ hpre).setRunningInTray hwindow).enable
  | page hpre hwindow =>
    cases hp
    rw [(h _ hpre).refreshFromState hwindow]
    exact h _ hpre
  | hide hpre _ hrunning =>
    cases hp
    exact (h _ hpre).removeWindow hrunning
  | closeButton hpre =>
    cases hp
    exact (h _ hpre).same rfl rfl rfl rfl rfl rfl nofun fun _ ↦ rfl
  | shouldClose hpre =>
    cases hp
    exact (h _ hpre).quitWithout
  | sent hpre =>
    cases hp
    exact (h _ hpre).same rfl rfl rfl rfl rfl rfl id (h _ hpre).pumping
  | quit hpre =>
    cases hp
    exact (h _ hpre).same rfl rfl rfl rfl rfl rfl nofun fun _ ↦ rfl
  | event hpre =>
    cases hp
    refine Shown.processEvent ?_
    exact (h _ hpre).same rfl rfl rfl rfl rfl rfl id (h _ hpre).pumping
  | appQuit => cases hp
  | kill => cases hp

-- By induction on the steps.
theorem process_shown (h : Run (next toml) (.idle config) tr s) :
    ∀ p, s.process = some p → p.Shown := by
  refine h.invariant (I := fun s ↦ ∀ p, s.process = some p → p.Shown) (C := fun _ ↦ True) nofun ?_
    (fun _ _ ↦ trivial)
  intro v a o w hv _ hnext p hp
  exact Process.Shown.step hv (next_moved hnext) hp

/-- In every state that is reached from any file, over any number of starts, at most one window is
open; it shows the settings as they are, and theme and locale are those of the settings. -/
theorem shown_is_stored (h : Run (next toml) (.idle config) tr s) (hp : s.process = some p) :
    p.Shown := process_shown h p hp

-- The file asks for the light theme and leaves out the rest, on a Chinese system.
theorem shown_is_stored_sample : ∃ toml config tr s p, Run (next toml) (.idle config) tr s ∧
    s.process = some p ∧ p.settings.language = "zh_CN" ∧ p.Shown := by
  let toml := TomlText.compact.answering [("theme", .string "light")] (by decide)
  obtain ⟨tr, s, hrun, hs⟩ := exists_run (next toml)
    (.idle (some (toml.toString (.table [("theme", .string "light")]))))
    [.start (some "zh") ⟨true, true, true⟩]
    (fun _ s ↦ s.process.map (·.settings.language) = some "zh_CN") (by decide +kernel)
  obtain ⟨p, hp, hlanguage⟩ := Option.map_eq_some_iff.mp (of_decide_eq_true hs)
  exact ⟨toml, _, tr, s, p, hrun, hp, hlanguage, shown_is_stored hrun hp⟩

/-! ## The settings over a restart -/

/-- The settings are those of the file as it was found, and of the system at a start. -/
def Loaded (toml : TomlText) (config : Option Bytes) (tr : List Step) (p : Process) : Prop :=
  ∃ system, (∃ e ∈ tr, ∃ io, e.act = .start system io) ∧ p.settings = loadConfig toml system config

theorem Loaded.snoc (h : Loaded toml config tr p) (hsettings : p'.settings = p.settings) :
    Loaded toml config (tr ++ [e]) p' := by
  obtain ⟨system, ⟨x, hx, hact⟩, hloaded⟩ := h
  exact ⟨system, ⟨x, List.mem_append_left _ hx, hact⟩, hsettings.trans hloaded⟩

/-- The file as it was found, or with the settings as they are. -/
inductive Kept (toml : TomlText) (config : Option Bytes) (tr : List Step) (s : State) : Prop
  | found : (∀ e ∈ tr, e.out.saved = none) → s.config = config →
      (∀ p, s.process = some p → Loaded toml config tr p) → Kept toml config tr s
  | saved (settings : WsrxDesktopConfig) : s.config = some (configText toml settings) →
      (∀ p, s.process = some p → p.settings = settings) → Kept toml config tr s

theorem State.save_config {io : Saving} (h : (s.save toml p io).1.saved ≠ some false) :
    (s.save toml p io).2.config = some (configText toml p.settings) := by
  cases io with
  | notOpened => exact absurd rfl h
  | wrote count =>
    have hle : (configText toml p.settings).length ≤ count := by
      by_contra hlt
      exact h (congrArg some (decide_eq_false hlt))
    exact congrArg some (List.take_of_length_le hle)

theorem Process.enable_settings (io : TrayIo) : (p.enable io).settings = p.settings := by
  unfold enable
  split <;> rfl

theorem Process.disable_settings (io : TrayIo) : (p.disable io).settings = p.settings := by
  unfold disable
  split <;> rfl

theorem Process.processEvent_settings (event : UiEvent) :
    (p.processEvent event).settings = p.settings := by
  cases event with
  | popup =>
    rw [processEvent]
    split <;> rfl
  | refresh =>
    rw [processEvent]
    cases p.liveWindow <;> rfl
  | _ => rfl

-- A step that writes the settings it leaves behind.
theorem Kept.write {o : Out} (p : Process) (io : Saving)
    (hout : o.saved = (s.save toml p io).1.saved) (hconfig : t.config = (s.save toml p io).2.config)
    (hprocess : ∀ p', t.process = some p' → p'.settings = p.settings)
    (hsaved : o.saved ≠ some false) : Kept toml config tr t := by
  rw [hout] at hsaved
  exact .saved p.settings (hconfig.trans (State.save_config hsaved)) hprocess

-- A step that neither writes nor changes them.
theorem Kept.quiet (h : Kept toml config tr s) (hout : e.out.saved = none)
    (hconfig : t.config = s.config) (hprocess : ∀ p', t.process = some p' →
      ∃ p, s.process = some p ∧ p'.settings = p.settings) : Kept toml config (tr ++ [e]) t := by
  cases h with
  | found hnone hfile hloaded =>
    refine .found ?_ (hconfig.trans hfile) fun p' hp' ↦ ?_
    · rw [List.forall_mem_append]
      exact ⟨hnone, by simpa using hout⟩
    · obtain ⟨p, hp, hsettings⟩ := hprocess p' hp'
      exact (hloaded p hp).snoc hsettings
  | saved settings hfile hsame =>
    refine .saved settings (hconfig.trans hfile) fun p' hp' ↦ ?_
    obtain ⟨p, hp, hsettings⟩ := hprocess p' hp'
    rw [hsettings]
    exact hsame p hp

theorem State.start_quiet {io : TrayIo} : (s.start settings io).1.saved = none ∧
    (s.start settings io).2.config = s.config := by
  unfold start
  dsimp only
  split <;> exact ⟨rfl, rfl⟩

theorem State.start_settings {io : TrayIo} (h : (s.start settings io).2.process = some p) :
    p.settings = settings := by
  rw [start_process] at h
  split at h <;> cases h
  · exact Process.enable_settings io
  · rfl

-- The file is as it was found at the start, or it has the settings and they are read back.
theorem Kept.start {io : TrayIo} (h : Kept toml config tr s) :
    Kept toml config
      (tr ++ [⟨s, .start system io, (s.start (loadConfig toml system s.config) io).1⟩])
      (s.start (loadConfig toml system s.config) io).2 := by
  obtain ⟨hout, hconfig⟩ :=
    @State.start_quiet s (loadConfig toml system s.config) io
  cases h with
  | found hnone hfile _ =>
    refine .found ?_ (hconfig.trans hfile) fun p hp ↦ ⟨system, ?_, ?_⟩
    · rw [List.forall_mem_append]
      exact ⟨hnone, by simpa using hout⟩
    · exact ⟨_, List.mem_append_right _ (List.mem_singleton_self _), io, rfl⟩
    · rw [State.start_settings hp, hfile]
  | saved settings hfile _ =>
    refine .saved settings (hconfig.trans hfile) fun p hp ↦ ?_
    rw [State.start_settings hp, hfile, loadConfig_configText]

theorem State.toggleTray_saved (tray : TrayIo) (io : Saving) :
    (s.toggleTray toml window tray io p).1.saved =
        (s.save toml (p.setRunningInTray window (!p.settings.runningInTray)) io).1.saved ∧
      (s.toggleTray toml window tray io p).2.config =
        (s.save toml (p.setRunningInTray window (!p.settings.runningInTray)) io).2.config := by
  unfold toggleTray
  cases p.settings.runningInTray <;> exact ⟨rfl, rfl⟩

theorem State.toggleTray_settings {tray : TrayIo} {io : Saving}
    (h : (s.toggleTray toml window tray io p).2.process = some p') :
    p'.settings = (p.setRunningInTray window (!p.settings.runningInTray)).settings := by
  rw [toggleTray_process] at h
  cases hrunning : p.settings.runningInTray <;> rw [hrunning] at h <;> cases h
  · exact Process.enable_settings tray
  · exact Process.disable_settings tray

theorem Kept.step (h : Kept toml config tr s) (hm : Moved toml s a r)
    (hsaved : r.1.saved ≠ some false) : Kept toml config (tr ++ [⟨s, a, r.1⟩]) r.2 := by
  have hsame : ∀ {p p' : Process}, s.process = some p → p'.settings = p.settings →
      ∀ p'', some p' = some p'' → ∃ p, s.process = some p ∧ p''.settings = p.settings := by
    intro p p' hp hsettings p'' hp'
    cases hp'
    exact ⟨p, hp, hsettings⟩
  have hafter : ∀ {p : Process} p', some p = some p' → p'.settings = p.settings := by
    rintro p _ ⟨⟩
    rfl
  cases hm with
  | start => exact h.start
  | @theme p window io => exact .write (p.setTheme window) io rfl rfl hafter hsaved
  | @language p window io a locale =>
    exact .write (p.setLanguage window locale) io rfl rfl hafter hsaved
  | @trayToggle p window tray io =>
    obtain ⟨hout, hconfig⟩ := @State.toggleTray_saved toml s p window tray io
    exact .write _ io hout hconfig (fun _ ↦ State.toggleTray_settings) hsaved
  | page hp => exact h.quiet rfl rfl (hsame hp rfl)
  | hide hp => exact h.quiet rfl rfl (hsame hp rfl)
  | @closeButton p window io => exact .write { p with quitting := true } io rfl rfl hafter hsaved
  | @shouldClose p window io =>
    exact .write { p.removeWindow window with quitting := true } io rfl rfl hafter hsaved
  | sent hp => exact h.quiet rfl rfl (hsame hp rfl)
  | @quit p io channel =>
    exact .write { p with channel := channel, pumping := false, quitting := true } io rfl rfl hafter
      hsaved
  | event hp => exact h.quiet rfl rfl (hsame hp (Process.processEvent_settings _))
  | @appQuit p io => exact .write p io rfl rfl nofun hsaved
  | kill => exact h.quiet rfl rfl nofun

theorem kept (h : Run (next toml) (.idle config) tr s)
    (hsaved : ∀ e ∈ tr, e.out.saved ≠ some false) : Kept toml config tr s := by
  refine h.history (P := Kept toml config) (C := fun e ↦ e.out.saved ≠ some false)
    (.found (by simp) rfl nofun) ?_ hsaved
  intro l v a o w hkept hout hnext
  have hmoved : Moved toml v a (o, w) := next_moved hnext
  exact hkept.step hmoved hout

/-- A process ends after it has written the settings once more, or as it is. -/
theorem Moved.ended (hm : Moved toml s a r) (hp : s.process = some p)
    (hnone : r.2.process = none) :
    (∃ io, r.1.saved = (s.save toml p io).1.saved ∧ r.2.config = (s.save toml p io).2.config) ∨
      r.1.saved = none ∧ r.2.config = s.config := by
  cases hm with
  | start hidle =>
    rw [hp] at hidle
    cases hidle
  | trayToggle =>
    rw [State.toggleTray_process] at hnone
    cases hnone
  | @appQuit q io hq =>
    rw [hp] at hq
    cases hq
    exact .inl ⟨io, rfl, rfl⟩
  | kill => exact .inr ⟨rfl, rfl⟩
  | _ => cases hnone

/-- However a process has ended, the next one has its settings, its theme and its locale, as long as
no write of the settings went wrong; where nothing had been written at all, both have read the same
file, and only a language that the file leaves out is that of the system at either start. -/
theorem settings_survive {s' : State} {o o' : Out} {io : TrayIo}
    (h : Run (next toml) (.idle config) (tr ++ [⟨s, a, o⟩, ⟨s', .start system io, o'⟩]) t)
    (hsaved : ∀ e ∈ tr ++ [⟨s, a, o⟩], e.out.saved ≠ some false) (hp : s.process = some p) :
    ∃ p', t.process = some p' ∧
      (p'.settings = p.settings ∧ p'.dark = p.dark ∧ p'.locale = p.locale ∨
        (∀ e ∈ tr ++ [⟨s, a, o⟩], e.out.saved = none) ∧ Loaded toml config tr p ∧
          p'.settings = loadConfig toml system config) := by
  rw [List.append_cons] at h
  obtain ⟨hended, hstart⟩ := h.snoc_inv
  obtain ⟨hrun, hend⟩ := hended.snoc_inv
  simp only [next, Option.ite_none_left_eq_some, Option.some.injEq, Bool.not_eq_true,
    Option.isSome_eq_false_iff, Option.isNone_iff_eq_none] at hstart
  obtain ⟨hnone, hstart⟩ := hstart
  obtain rfl : (s'.start (loadConfig toml system s'.config) io).2 = t := congrArg Prod.snd hstart
  obtain ⟨p', hp'⟩ := Option.isSome_iff_exists.mp (congrArg Option.isSome (State.start_process io))
  have hsettings := State.start_settings hp'
  have hshown := process_shown hrun p hp
  have hshown' := process_shown h p' hp'
  have hsame : s'.config = some (configText toml p.settings) →
      p'.settings = p.settings ∧ p'.dark = p.dark ∧ p'.locale = p.locale := by
    intro hconfig
    rw [hconfig, loadConfig_configText] at hsettings
    exact ⟨hsettings, by rw [hshown'.dark, hshown.dark, hsettings],
      by rw [hshown'.locale, hshown.locale, hsettings]⟩
  refine ⟨p', hp', ?_⟩
  rw [List.forall_mem_append] at hsaved
  have hlast := hsaved.2 _ (List.mem_singleton_self _)
  rcases (next_moved hend).ended hp hnone with ⟨io, hout, hconfig⟩ | ⟨hout, hconfig⟩
  · refine .inl (hsame (hconfig.trans (State.save_config ?_)))
    rw [← hout]
    exact hlast
  · cases kept hrun hsaved.1 with
    | found hunsaved hfile hloaded =>
      refine .inr ⟨?_, hloaded p hp, ?_⟩
      · rw [List.forall_mem_append]
        exact ⟨hunsaved, by simpa using hout⟩
      · rw [hsettings, hconfig, hfile]
    | saved settings hfile hsettled =>
      rw [hconfig, hfile, ← hsettled p hp] at hsame
      exact .inl (hsame rfl)

-- The theme is changed and the process is killed; the next one starts on a Chinese system.
theorem settings_survive_sample : ∃ toml tr t p, Run (next toml) (.idle none) tr t ∧
    t.process = some p ∧ p.settings = ⟨"light", false, "en_US"⟩ := by
  obtain ⟨tr, s, hrun, hs⟩ := exists_run (next .compact) (.idle none)
    [.start none ⟨true, true, true⟩, .themeButton 0 (.wrote 100)]
    (fun tr s ↦ s.process.map (·.settings) = some ⟨"light", false, "en_US"⟩ &&
      tr.map (·.out.saved) = [none, some true]) (by decide +kernel)
  rw [Bool.and_eq_true, decide_eq_true_eq, decide_eq_true_eq] at hs
  obtain ⟨p, hp, hsettings⟩ := Option.map_eq_some_iff.mp hs.1
  have hout : ∀ saved, saved ∈ tr.map (·.out.saved) ↔ saved = none ∨ saved = some true := by
    rw [hs.2]
    simp
  have hkill : next .compact s .kill = some (.silent, { s with process := none }) := by
    rw [next, hp, Option.map_some]
  have hstarted := (hrun.snoc hkill).snoc (a := .start (some "zh-CN") ⟨true, true, true⟩) rfl
  rw [← List.append_cons] at hstarted
  have hsaved : ∀ e ∈ tr ++ [⟨s, .kill, .silent⟩], e.out.saved ≠ some false := by
    rw [List.forall_mem_append]
    refine ⟨fun e he hfalse ↦ ?_, by simp [Out.silent]⟩
    simpa [hfalse] using (hout _).mp (List.mem_map_of_mem he)
  obtain ⟨p', hp', hsame | ⟨hnone, -⟩⟩ := settings_survive hstarted hsaved hp
  · exact ⟨_, _, _, p', hstarted, hp', hsame.1.trans hsettings⟩
  · obtain ⟨e, he, hwritten⟩ := List.mem_map.mp ((hout (some true)).mpr (.inr rfl))
    rw [hnone e (List.mem_append_left _ he)] at hwritten
    cases hwritten


/-! ## The window that is asked for -/

/-- Whether the tray worked when it was enabled last. -/
def lastEnabled (tr : List Step) : Option Bool := (tr.filterMap fun e ↦ e.out.enabled).getLast?

theorem lastEnabled_snoc : lastEnabled (tr ++ [e]) = e.out.enabled.or (lastEnabled tr) := by
  unfold lastEnabled
  rw [List.filterMap_append, List.getLast?_append]
  cases he : e.out.enabled <;> simp [he]

/-- A process that is to run in the tray has enabled it. -/
def TrayKnown (tr : List Step) (s : State) : Prop :=
  ∀ p, s.process = some p → p.settings.runningInTray = true → lastEnabled tr = some p.trayWorks

-- A step that neither enables the tray nor decides to run in it.
theorem TrayKnown.quiet (h : TrayKnown tr s) (hout : e.out.enabled = none)
    (hprocess : ∀ p', t.process = some p' → p'.settings.runningInTray = true →
      ∃ p, s.process = some p ∧ p.settings.runningInTray = true ∧ p'.trayWorks = p.trayWorks) :
    TrayKnown (tr ++ [e]) t := by
  intro p' hp' hrunning'
  obtain ⟨p, hp, hrunning, hworks⟩ := hprocess p' hp' hrunning'
  rw [lastEnabled_snoc, hout, Option.none_or, hworks]
  exact h p hp hrunning

theorem Process.processEvent_trayWorks (event : UiEvent) :
    (p.processEvent event).trayWorks = p.trayWorks := by
  cases event with
  | popup =>
    rw [processEvent]
    split <;> rfl
  | refresh =>
    rw [processEvent]
    cases p.liveWindow <;> rfl
  | _ => rfl

theorem TrayKnown.step (h : TrayKnown tr s) (hm : Moved toml s a r) :
    TrayKnown (tr ++ [⟨s, a, r.1⟩]) r.2 := by
  have hsame : ∀ {p p' : Process}, s.process = some p →
      p'.settings.runningInTray = p.settings.runningInTray → p'.trayWorks = p.trayWorks →
      ∀ p'', some p' = some p'' → p''.settings.runningInTray = true →
        ∃ p, s.process = some p ∧ p.settings.runningInTray = true ∧
          p''.trayWorks = p.trayWorks := by
    rintro p p' hp hrunning hworks _ ⟨⟩ htrue
    exact ⟨p, hp, hrunning ▸ htrue, hworks⟩
  cases hm with
  | @start system io =>
    intro p hp hrunning
    rw [State.start_settings hp] at hrunning
    rw [State.start_process, if_pos hrunning] at hp
    cases hp
    rw [lastEnabled_snoc, State.start]
    dsimp only
    rw [if_pos hrunning]
    rfl
  | @trayToggle p window tray io hp =>
    intro p' hp' hrunning'
    rw [State.toggleTray_settings hp'] at hrunning'
    have hrunning : p.settings.runningInTray = false := by
      simpa [Process.setRunningInTray, Process.change] using hrunning'
    rw [State.toggleTray_process, hrunning] at hp'
    cases hp'
    rw [lastEnabled_snoc, State.toggleTray, hrunning]
    rfl
  | theme hp => exact h.quiet rfl (hsame hp rfl rfl)
  | language hp => exact h.quiet rfl (hsame hp rfl rfl)
  | page hp => exact h.quiet rfl (hsame hp rfl rfl)
  | hide hp => exact h.quiet rfl (hsame hp rfl rfl)
  | closeButton hp => exact h.quiet rfl (hsame hp rfl rfl)
  | shouldClose hp => exact h.quiet rfl (hsame hp rfl rfl)
  | sent hp => exact h.quiet rfl (hsame hp rfl rfl)
  | quit hp => exact h.quiet rfl (hsame hp rfl rfl)
  | event hp =>
    refine h.quiet rfl (hsame hp ?_ (Process.processEvent_trayWorks _))
    rw [Process.processEvent_settings]
  | appQuit => exact h.quiet rfl nofun
  | kill => exact h.quiet rfl nofun

theorem trayKnown (h : Run (next toml) (.idle config) tr s) : TrayKnown tr s := by
  refine h.history (P := TrayKnown) (C := fun _ ↦ True) nofun ?_ (fun _ _ ↦ trivial)
  intro l v a o w hknown _ hnext
  have hmoved : Moved toml v a (o, w) := next_moved hnext
  exact hknown.step hmoved

theorem Process.processEvent_liveWindow (event : UiEvent)
    (h : p.liveWindow.isSome = true ∨ event = .popup) :
    (p.processEvent event).liveWindow.isSome = true := by
  have hkeep : event ≠ .popup → p.liveWindow.isSome = true := fun hne ↦ h.resolve_right hne
  cases event with
  | popup =>
    rw [processEvent]
    split
    · assumption
    · simp [liveWindow, openMainWindow]
  | refresh =>
    obtain ⟨window, hwindow⟩ := Option.isSome_iff_exists.mp (hkeep fun heq ↦ by cases heq)
    have href := (liveWindow_eq_some.mp hwindow).1
    rw [processEvent, hwindow]
    simp [liveWindow, refreshFromState, href]
  | _ => exact hkeep fun heq ↦ by cases heq

theorem Process.processEvent_channel (event : UiEvent) :
    (p.processEvent event).channel = p.channel ∧ (p.processEvent event).pumping = p.pumping := by
  cases event with
  | popup =>
    rw [processEvent]
    split <;> exact ⟨rfl, rfl⟩
  | refresh =>
    rw [processEvent]
    cases p.liveWindow <;> exact ⟨rfl, rfl⟩
  | _ => exact ⟨rfl, rfl⟩

/-- The pump empties a channel with no `Quit` in it, and a window is open after a popup. -/
theorem exec_recv (io : Saving) {channel : List UiEvent} (hchannel : p.channel = channel)
    (hpumping : p.pumping = true) (hquit : UiEvent.quit ∉ channel) :
    ∃ tr p', exec (next toml) ⟨config, some p⟩ (List.replicate channel.length (.recv io)) =
        some (tr, ⟨config, some p'⟩) ∧ p'.settings = p.settings ∧
      (p.liveWindow.isSome = true ∨ .popup ∈ channel → p'.liveWindow.isSome = true) := by
  induction channel generalizing p with
  | nil => exact ⟨[], p, rfl, rfl, fun h ↦ by simpa using h⟩
  | cons event channel ih =>
    rw [List.mem_cons, not_or] at hquit
    let q : Process := { p with channel := channel }
    have hstep : next toml ⟨config, some p⟩ (.recv io) =
        some (.silent, ⟨config, some (q.processEvent event)⟩) := by
      simp only [next, Option.bind_some, hpumping, if_true, State.recv, hchannel,
        if_neg (Ne.symm hquit.1), State.quiet, q]
    obtain ⟨hrest, hpumps⟩ := q.processEvent_channel event
    obtain ⟨tr, p', hexec, hsettings, hlive⟩ := ih hrest (hpumps.trans hpumping) hquit.2
    refine ⟨⟨⟨config, some p⟩, .recv io, .silent⟩ :: tr, p', ?_, ?_, fun h ↦ hlive ?_⟩
    · rw [List.length_cons, List.replicate_succ, exec, hstep, Option.bind_some, hexec,
        Option.map_some]
    · rw [hsettings, Process.processEvent_settings]
    · rw [List.mem_cons] at h
      rcases h with h | h | h
      · exact .inl (q.processEvent_liveWindow event (.inl h))
      · exact .inl (q.processEvent_liveWindow event (.inr h.symm))
      · exact .inr h

/-- What asks for the window: another instance, or the tray where it works. -/
def Asks (works : Bool) (a : Action) : Prop :=
  a = .send .popup ∨ works = true ∧ ∃ event, event.uiEvent = some .popup ∧ a = .trayEvent event

/-- A process without a window that does not quit is to run in the tray.  Whoever asks for the
window then, through the tray if that worked when it was last enabled, gets one with the settings
as they are, when the pump has come to the end of the channel and nobody had asked to quit. -/
theorem hidden_window_returns (h : Run (next toml) (.idle config) tr s) (hp : s.process = some p)
    (hquit : p.quitting = false) (hhidden : ∀ window, p.windows window = none) :
    p.settings.runningInTray = true ∧ ∃ works, lastEnabled tr = some works ∧
      ∀ a io, Asks works a → .quit ∉ p.channel →
        ∃ tr' t p' window,
          exec (next toml) s (a :: List.replicate (p.channel.length + 1) (.recv io)) =
            some (tr', t) ∧
          t.config = s.config ∧ t.process = some p' ∧ p'.liveWindow = some window ∧
          p'.windows window = some p.settings := by
  have hshown := process_shown h p hp
  have hnone : p.liveWindow = none := by
    rw [Process.liveWindow, Option.filter_eq_none_iff]
    intro window _ hsome
    rw [hhidden] at hsome
    cases hsome
  have hrunning := hshown.hidden hquit hnone
  have hpumping : p.pumping = true := by
    rw [← Bool.not_eq_false]
    intro hstopped
    rw [hshown.pumping hstopped] at hquit
    cases hquit
  refine ⟨hrunning, p.trayWorks, trayKnown h p hp hrunning, fun a io ha hchannel ↦ ?_⟩
  have hasked : next toml s a =
      some (.silent, ⟨s.config, some { p with channel := p.channel ++ [.popup] }⟩) := by
    rcases ha with rfl | ⟨hworks, event, hevent, rfl⟩
    · rw [next, hp]
      rfl
    · rw [next, hp, Option.bind_some, if_pos hworks, hevent]
      rfl
  let q : Process := { p with channel := p.channel ++ [.popup] }
  have hchannel' : UiEvent.quit ∉ p.channel ++ [.popup] := by simpa using hchannel
  obtain ⟨tr', p', hexec, hsettings, hlive⟩ :=
    @exec_recv toml s.config q io _ rfl hpumping hchannel'
  obtain ⟨window, hwindow⟩ := Option.isSome_iff_exists.mp
    (hlive (.inr (List.mem_append_right _ (List.mem_singleton_self _))))
  have hexec' : exec (next toml) s (a :: List.replicate (p.channel.length + 1) (.recv io)) =
      some (⟨s, a, .silent⟩ :: tr', ⟨s.config, some p'⟩) := by
    rw [List.length_append, List.length_singleton] at hexec
    rw [exec, hasked, Option.bind_some, hexec]
    rfl
  refine ⟨_, _, p', window, hexec', rfl, rfl, hwindow, ?_⟩
  rw [(process_shown (h.append (exec_run hexec')) p' rfl).windows hwindow, hsettings]


-- The app is told to run in the tray, its window is closed, and "Show" is clicked.
theorem hidden_window_returns_sample : ∃ toml tr s tr' t p window,
    Run (next toml) (.idle none) tr s ∧
      exec (next toml) s [.trayEvent (.menuClicked "show"), .recv .notOpened] = some (tr', t) ∧
      t.process = some p ∧ p.liveWindow = some window ∧
      p.windows window = some ⟨"dark", true, "en_US"⟩ := by
  have hclosed : Run (next .compact) (.idle none) _ _ :=
    ((Run.nil.snoc (a := .start none ⟨true, true, true⟩) rfl).snoc
      (a := .trayToggle 0 ⟨true, true, true⟩ (.wrote 0)) rfl).snoc
        (a := .shouldClose 0 .notOpened) rfl
  obtain ⟨-, works, hworks, hreturns⟩ := hidden_window_returns hclosed rfl rfl fun window ↦ by
    by_cases hwindow : window = 0
    · rw [hwindow]
      rfl
    · exact (update_of_ne hwindow ..).trans ((update_of_ne hwindow ..).trans
        ((update_of_ne hwindow ..).trans rfl))
  obtain rfl : true = works := Option.some.inj hworks
  obtain ⟨tr', t, p', window, hexec, -, hp', hlive, hwindow⟩ := hreturns
    (.trayEvent (.menuClicked "show")) .notOpened (.inr ⟨rfl, _, by decide, rfl⟩) nofun
  exact ⟨_, _, _, tr', t, p', window, hclosed, hexec, hp', hlive, hwindow⟩

end LabStreamGate.Desktop.Lifetime
