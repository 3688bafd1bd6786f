import LabStreamGate.Desktop.Saving
import LabStreamGate.Desktop.Persistence

/-!
# Loading the scopes while the server runs

The server answers requests for control before the main thread has loaded `scopes.toml`.  A request
that comes after the load is kept, in memory and in the file, with all that was loaded; one that
comes before is not safe.
-/

namespace LabStreamGate.Desktop

variable {toml : TomlText} {files : Fs String} {s t : State} {a : Action} {o : Out} {task : Task}
  {io : Io} {e : Effect} {id : Nat} {tr : List (Event State Action Out)} {content : Bytes}
  {loaded : List ScopeData}

/-- What goes on at start-up: the load and requests for control. -/
def Action.startsUp : Action → Bool
  | .connect _ (.post _) => true
  | .load => true
  | .run _ _ => true
  | _ => false

def Task.startsUp : Task → Bool
  | .requestControl _ _ => true
  | .persistScopes _ => true
  | .persistTo _ _ => true
  | .respond _ _ => true
  | _ => false

/-- No call fails, and a scope is added after the load and in a list that can be encoded. -/
def settled (toml : TomlText) (e : Event State Action Out) : Bool :=
  !e.act.isFailed && match e.pre.stepping e.act with
    | some (.requestControl host body) =>
      hasHost e.pre.scopes host ||
        e.pre.loader.isNone && serializable toml.fits (e.pre.scopes ++ [requestedScope host body])
    | _ => true

-- What the guard says of a request that is about to add a scope.
theorem settled_push {host : String} {body : Option ScopeData}
    (h : settled toml ⟨s, .run id io, o⟩ = true)
    (ht : s.tasks id = some (.requestControl host body))
    (hnew : hasHost s.scopes host = false) :
    s.loader = none ∧ serializable toml.fits (s.scopes ++ [requestedScope host body]) = true := by
  rw [settled, Bool.and_eq_true] at h
  simpa [State.stepping, ht, hnew] using h.2

/-- The scope that a step has added. -/
def Out.newScope : Out → Option ScopeData
  | .pushed scope => some scope
  | _ => none

/-- The scopes that requests have added, in their order. -/
def pushedScopes (tr : List (Event State Action Out)) : List ScopeData :=
  tr.filterMap fun e ↦ e.out.newScope

theorem pushedScopes_snoc :
    pushedScopes (tr ++ [⟨s, a, o⟩]) = pushedScopes tr ++ o.newScope.toList := by
  unfold pushedScopes
  rw [List.filterMap_append]
  cases h : o.newScope <;> simp [h]

theorem Out.newScope_of_not (h : o.changesScopes = false) : o.newScope = none := by
  cases o with
  | pushed scope => cases h
  | _ => rfl

theorem pushedScopes_snoc_of_not (h : o.changesScopes = false) :
    pushedScopes (tr ++ [⟨s, a, o⟩]) = pushedScopes tr := by
  rw [pushedScopes_snoc, Out.newScope_of_not h]
  exact List.append_nil _

/-! ## The tasks of start-up -/

theorem Action.startsUp_task (ha : a.startsUp = true) (h : a.task = some task) :
    ∃ host body, task = .requestControl host body := by
  cases a with
  | connect header request =>
    cases request with
    | post =>
      cases h
      exact ⟨_, _, rfl⟩
    | _ => cases ha
  | load => cases h
  | run => cases h
  | _ => cases ha

/-- They start no other, and one that saves comes from one that saves or from a new scope. -/
theorem Task.startsUp_run (h : task.run toml s io = some e) (hs : task.startsUp = true) :
    e.spawned = none ∧ ∀ t ∈ e.task, t.startsUp = true ∧
      (t.savesScopes = true → task.savesScopes = true ∨ e.out.changesScopes = true) := by
  cases task with
  | requestControl host body =>
    cases io with
    | done =>
      simp only [Task.run, Option.ite_none_left_eq_some] at h
      obtain ⟨-, h⟩ := h
      split at h
      · cases h
        refine ⟨rfl, fun t ht ↦ ?_⟩
        cases ht
        refine ⟨rfl, fun hsaves ↦ ?_⟩
        cases hsaves
      · cases h
        refine ⟨rfl, fun t ht ↦ ?_⟩
        cases ht
        exact ⟨rfl, fun _ ↦ .inr rfl⟩
    | _ => cases h
  | persistScopes caller =>
    cases io with
    | done =>
      cases h
      refine ⟨rfl, fun t ht ↦ ?_⟩
      cases ht
      exact ⟨rfl, fun _ ↦ .inl rfl⟩
    | _ => cases h
  | persistTo stage caller =>
    cases io with
    | file io =>
      simp only [Task.run, Option.map_eq_some_iff] at h
      obtain ⟨⟨files, stage'⟩, -, rfl⟩ := h
      refine ⟨rfl, fun t ht ↦ ⟨?_, fun _ ↦ .inl rfl⟩⟩
      cases stage' with
      | some stage' =>
        cases ht
        rfl
      | none =>
        cases caller <;> cases ht
        rfl
    | _ => cases h
  | respond status reply =>
    cases io with
    | done =>
      cases h
      refine ⟨rfl, fun t ht ↦ ?_⟩
      cases ht
    | _ => cases h
  | _ => cases hs

/-- They change the scopes by adding one, and the file only where they save. -/
theorem Task.startsUp_scopes (h : task.run toml s io = some e) (hs : task.startsUp = true) :
    (e.scopes = s.scopes ∧ e.out.changesScopes = false ∧
        (task.savesScopes = false → e.files = s.files)) ∨
      ∃ host body, task = .requestControl host body ∧ hasHost s.scopes host = false ∧
        e.out = .pushed (requestedScope host body) ∧ e.task = some (.persistScopes .http) ∧
        e.scopes = s.scopes ++ [requestedScope host body] := by
  cases run_ran h with
  | push _ hnew => exact .inr ⟨_, _, rfl, hnew, rfl, rfl, rfl⟩
  | quiet _ hout => exact .inl ⟨rfl, hout, fun _ ↦ rfl⟩
  | snapshot => exact .inl ⟨rfl, rfl, fun _ ↦ rfl⟩
  | goOn => exact .inl ⟨rfl, rfl, nofun⟩
  | finish => exact .inl ⟨rfl, rfl, nofun⟩
  | _ => cases hs

/-- The state after the steps `tr` of a start with `content` in the file, which stands for
`loaded`. -/
inductive Phase (toml : TomlText) (content : Bytes) (loaded : List ScopeData)
    (tr : List (Event State Action Out)) (s : State) : Prop
  | loading : pushedScopes tr = [] →
      (∀ id task, s.tasks id = some task → task.savesScopes = false) →
      s.files.read scopesFile = some content →
      s.loader = some .read ∨ s.loader = some (.overwrite loaded) ∨
        s.loader = none ∧ s.scopes = loaded →
      Phase toml content loaded tr s
  | serving : s.loader = none → s.scopes = loaded ++ pushedScopes tr →
      serializable toml.fits s.scopes = true → Saved toml s → Phase toml content loaded tr s

structure StartingUp (toml : TomlText) (content : Bytes) (loaded : List ScopeData)
    (tr : List (Event State Action Out)) (s : State) : Prop where
  writers : Writers toml s
  tasks : ∀ id task, s.tasks id = some task → task.startsUp = true
  phase : Phase toml content loaded tr s

theorem startingUp_spawnBackground (hread : files.read scopesFile = some content) :
    StartingUp toml content loaded [] (State.spawnBackground files) := by
  exact ⟨⟨fun _ _ ↦ rfl, spawnBackground_tasks⟩, spawnBackground_tasks,
    .loading rfl spawnBackground_tasks hread (.inl rfl)⟩

/-- The tasks after an action of start-up are again such tasks. -/
theorem StartingUp.step_tasks (h : StartingUp toml content loaded tr s) (hm : Moved toml s a o t)
    (ha : a.startsUp = true) : ∀ id task, t.tasks id = some task → task.startsUp = true := by
  intro id task ht
  cases hm with
  | reject => exact h.tasks id task ht
  | spawn _ htask =>
    rcases State.spawn_tasks ht with rfl | ht
    · obtain ⟨host, body, rfl⟩ := Action.startsUp_task ha htask
      rfl
    · exact h.tasks id task ht
  | read => exact h.tasks id task ht
  | overwrite => exact h.tasks id task ht
  | run htask hrun =>
    obtain ⟨hspawned, hafter⟩ := Task.startsUp_run hrun (h.tasks _ _ htask)
    rcases State.apply_tasks ht with ⟨-, ht⟩ | ⟨-, ht⟩ | ht
    · exact (hafter task ht).1
    · exact h.tasks id task ht
    · rw [hspawned] at ht
      cases ht

/-- Until a scope is added the list is the loaded one, or still to be loaded from the same file. -/
theorem StartingUp.step_loading (h : StartingUp toml content loaded tr s)
    (hparse : parseScopes toml content = some loaded) (hm : Moved toml s a o t)
    (ha : a.startsUp = true) (hset : settled toml ⟨s, a, o⟩ = true) (hnone : pushedScopes tr = [])
    (hsaves : ∀ id task, s.tasks id = some task → task.savesScopes = false)
    (hread : s.files.read scopesFile = some content)
    (hloader : s.loader = some .read ∨ s.loader = some (.overwrite loaded) ∨
      s.loader = none ∧ s.scopes = loaded) :
    Phase toml content loaded (tr ++ [⟨s, a, o⟩]) t := by
  have hquiet : o.changesScopes = false → pushedScopes (tr ++ [⟨s, a, o⟩]) = [] := by
    intro hout
    rw [pushedScopes_snoc_of_not hout, hnone]
  cases hm with
  | reject => exact .loading (hquiet rfl) hsaves hread hloader
  | spawn _ htask =>
    refine .loading (hquiet rfl) ?_ hread hloader
    intro id task ht
    rcases State.spawn_tasks ht with rfl | ht
    · obtain ⟨host, body, rfl⟩ := Action.startsUp_task ha htask
      rfl
    · exact hsaves id task ht
  | read =>
    refine .loading (hquiet rfl) hsaves hread (.inr (.inl ?_))
    rw [hread, loadScopes, Option.bind_some, hparse]
    rfl
  | overwrite hover =>
    refine .loading ?_ hsaves hread (.inr (.inr ⟨rfl, ?_⟩))
    · rw [pushedScopes_snoc, hnone]
      rfl
    -- what overwrites the list is what was read from the unchanged file
    · rcases hloader with hl | hl | ⟨hl, -⟩ <;> rw [hover] at hl <;> cases hl
      rfl
  | @run id io task e htask hrun =>
    have hs := h.tasks id task htask
    rcases Task.startsUp_scopes hrun hs with
      ⟨hscopes, hout, hfiles⟩ | ⟨host, body, rfl, hnew, hout, hafter, hscopes⟩
    · refine .loading (hquiet hout) ?_ ?_ ?_
      · intro id' task' ht
        obtain ⟨hspawned, hafter⟩ := Task.startsUp_run hrun hs
        rcases State.apply_tasks ht with ⟨-, ht⟩ | ⟨-, ht⟩ | ht
        · by_contra hsaving
          rcases (hafter task' ht).2 (Bool.not_eq_false _ ▸ hsaving) with hsaving | hchanges
          · rw [hsaves id task htask] at hsaving
            cases hsaving
          · rw [hout] at hchanges
            cases hchanges
        · exact hsaves id' task' ht
        · rw [hspawned] at ht
          cases ht
      · rw [State.apply_files, hfiles (hsaves id task htask)]
        exact hread
      · rw [State.apply_loader, State.apply_scopes, hscopes]
        exact hloader
    · -- a scope is added, so by the guard the load is over
      have hguard := settled_push hset htask hnew
      have hloaded : s.scopes = loaded := by
        rcases hloader with hl | hl | ⟨-, hl⟩
        · rw [hguard.1] at hl
          cases hl
        · rw [hguard.1] at hl
          cases hl
        · exact hl
      refine .serving ?_ ?_ ?_ (.of_task h.writers htask hafter rfl)
      · rw [State.apply_loader, hguard.1]
      · rw [State.apply_scopes, hscopes, hout, pushedScopes_snoc, hnone, hloaded]
        rfl
      · rw [State.apply_scopes, hscopes, hguard.2]

-- From the first added scope on the file follows the memory, as `Saved.step` has it.
theorem StartingUp.step_serving (h : StartingUp toml content loaded tr s) (hm : Moved toml s a o t)
    (hset : settled toml ⟨s, a, o⟩ = true) (hloader : s.loader = none)
    (hscopes : s.scopes = loaded ++ pushedScopes tr) (hser : serializable toml.fits s.scopes = true)
    (hsaved : Saved toml s) : Phase toml content loaded (tr ++ [⟨s, a, o⟩]) t := by
  have hio : a.isFailed = false := by
    rw [settled, Bool.and_eq_true, Bool.not_eq_true'] at hset
    exact hset.1
  have hsaved' := hsaved.step h.writers hm hloader hio
  have hkeep : t.loader = s.loader → t.scopes = s.scopes → o.changesScopes = false →
      Phase toml content loaded (tr ++ [⟨s, a, o⟩]) t := by
    intro hl hsc hout
    refine .serving (hl.trans hloader) ?_ (hsc ▸ hser) hsaved'
    rw [hsc, hscopes, pushedScopes_snoc_of_not hout]
  cases hm with
  | reject => exact hkeep rfl rfl rfl
  | spawn => exact hkeep rfl rfl rfl
  | read hl =>
    rw [hloader] at hl
    cases hl
  | overwrite hl =>
    rw [hloader] at hl
    cases hl
  | @run id io task e htask hrun =>
    rcases Task.startsUp_scopes hrun (h.tasks id task htask) with
      ⟨hsc, hout, -⟩ | ⟨host, body, rfl, hnew, hout, -, hsc⟩
    · exact hkeep State.apply_loader (State.apply_scopes.trans hsc) hout
    · have hguard := settled_push hset htask hnew
      refine .serving (State.apply_loader.trans hloader) ?_ ?_ hsaved'
      · rw [State.apply_scopes, hsc, hout, pushedScopes_snoc, hscopes, List.append_assoc]
        rfl
      · rw [State.apply_scopes, hsc, hguard.2]

-- The two phases of a start; only the first can pass over into the second.
theorem StartingUp.step (h : StartingUp toml content loaded tr s)
    (hparse : parseScopes toml content = some loaded) (hm : Moved toml s a o t)
    (ha : a.startsUp = true) (hset : settled toml ⟨s, a, o⟩ = true) :
    StartingUp toml content loaded (tr ++ [⟨s, a, o⟩]) t := by
  refine ⟨h.writers.step hm, h.step_tasks hm ha, ?_⟩
  cases h.phase with
  | loading hnone hsaves hread hloader =>
    exact h.step_loading hparse hm ha hset hnone hsaves hread hloader
  | serving hloader hscopes hser hsaved => exact h.step_serving hm hset hloader hscopes hser hsaved

-- By induction on the run, with the guard at every step.
theorem startingUp (hread : files.read scopesFile = some content)
    (hparse : parseScopes toml content = some loaded)
    (h : Run (next toml) (State.spawnBackground files) tr s)
    (hacts : ∀ e ∈ tr, e.act.startsUp = true) (hset : ∀ e ∈ tr, settled toml e = true) :
    StartingUp toml content loaded tr s :=
  h.history (P := StartingUp toml content loaded)
    (C := fun e ↦ e.act.startsUp = true ∧ settled toml e = true) (startingUp_spawnBackground hread)
    (fun _ _ _ _ _ hs hC hnext ↦ hs.step hparse (next_moved hnext) hC.1 hC.2)
    (fun e he ↦ ⟨hacts e he, hset e he⟩)

theorem mem_pushedScopes {scope : ScopeData} :
    scope ∈ pushedScopes tr ↔ ∃ e ∈ tr, e.out = .pushed scope := by
  rw [pushedScopes, List.mem_filterMap]
  refine exists_congr fun e ↦ and_congr_right fun _ ↦ ?_
  cases e.out <;> simp [Out.newScope]

/-- Where no call fails and every scope is added after the load, in a list that can be encoded, the
memory and the file have in the end all scopes that were loaded and all that were added. -/
theorem startup_loses_nothing (hread : files.read scopesFile = some content)
    (hparse : parseScopes toml content = some loaded)
    (h : Run (next toml) (State.spawnBackground files) tr t)
    (hacts : ∀ e ∈ tr, e.act.startsUp = true) (hset : ∀ e ∈ tr, settled toml e = true)
    (hloader : t.loader = none) (hidle : ∀ id, t.tasks id = none) :
    ∃ content' saved, t.files.read scopesFile = some content' ∧
      parseScopes toml content' = some saved ∧
      ∀ scope, scope ∈ loaded ∨ (∃ e ∈ tr, e.out = .pushed scope) →
        scope ∈ t.scopes ∧ scope ∈ saved := by
  have hphase := (startingUp hread hparse h hacts hset).phase
  simp only [← mem_pushedScopes]
  cases hphase with
  | loading hnone _ hread' hl =>
    -- nothing was added and the file is as it was found
    have hscopes : t.scopes = loaded := by
      rcases hl with hl | hl | ⟨-, hl⟩
      · rw [hloader] at hl
        cases hl
      · rw [hloader] at hl
        cases hl
      · exact hl
    refine ⟨content, loaded, hread', hparse, fun scope hscope ↦ ?_⟩
    simpa [hscopes, hnone] using hscope
  | serving _ hscopes hser hsaved =>
    -- with no task left the file has the text of the memory
    refine ⟨_, t.scopes, hsaved.read_eq hidle, parseScopes_scopesText toml hser, ?_⟩
    intro scope hscope
    rw [hscopes]
    exact ⟨List.mem_append.mpr hscope, List.mem_append.mpr hscope⟩

/-! ## A start with an empty list in the file -/

noncomputable def sampleToml : TomlText := TomlText.answering .compact [("scopes", .array [])] rfl

noncomputable def sampleContent : Bytes := scopesText sampleToml []

noncomputable def sampleFiles : Fs String :=
  let opened := Fs.empty.create scopesFile
  (opened.1.write opened.2 sampleContent).1

theorem sampleFiles_read : sampleFiles.read scopesFile = some sampleContent := rfl

-- The load is over before the website asks.
theorem startup_loses_nothing_sample : ∃ toml files tr t,
    Run (next toml) (State.spawnBackground files) tr t ∧ pushedScopes tr ≠ [] ∧
      ∃ content saved, t.files.read scopesFile = some content ∧
        parseScopes toml content = some saved ∧
        ∀ scope, scope ∈ [] ∨ (∃ e ∈ tr, e.out = .pushed scope) →
          scope ∈ t.scopes ∧ scope ∈ saved := by
  obtain ⟨tr, t, hrun, hp⟩ := exists_run (next sampleToml) (State.spawnBackground sampleFiles)
    (.load :: .load :: sampleRequest)
    (fun tr t ↦ !(pushedScopes tr).isEmpty && tr.all (fun e ↦ e.act.startsUp) &&
      tr.all (settled sampleToml) && t.loader.isNone &&
      (List.range t.nextTask).all fun id ↦ (t.tasks id).isNone)
    (by decide +kernel)
  simp only [Bool.and_eq_true, List.all_eq_true, Option.isNone_iff_eq_none] at hp
  obtain ⟨⟨⟨⟨hpushed, hacts⟩, hset⟩, hloader⟩, hidle⟩ := hp
  refine ⟨_, _, tr, t, hrun, by simpa using hpushed, ?_⟩
  exact startup_loses_nothing sampleFiles_read (parseScopes_scopesText sampleToml rfl) hrun hacts
    hset hloader ((below hrun).all_idle (by simpa using hidle))

/-- The file is read, a website asks for control and is answered, and what it asked is
overwritten. -/
theorem early_request_lost : ¬ ∀ toml files content loaded tr t,
    files.read scopesFile = some content → parseScopes toml content = some loaded →
    Run (next toml) (State.spawnBackground files) tr t → (∀ e ∈ tr, e.act.startsUp = true) →
    t.loader = none → (∀ id, t.tasks id = none) →
      ∃ content' saved, t.files.read scopesFile = some content' ∧
        parseScopes toml content' = some saved ∧
        ∀ scope, scope ∈ loaded ∨ (∃ e ∈ tr, e.out = .pushed scope) →
          scope ∈ t.scopes ∧ scope ∈ saved := by
  intro hall
  obtain ⟨tr, t, hrun, hp⟩ := exists_run (next sampleToml) (State.spawnBackground sampleFiles)
    (.load :: sampleRequest ++ [.load])
    (fun tr t ↦ !(pushedScopes tr).isEmpty && tr.all (fun e ↦ e.act.startsUp) &&
      t.scopes.isEmpty && t.loader.isNone &&
      (List.range t.nextTask).all fun id ↦ (t.tasks id).isNone)
    (by decide +kernel)
  simp only [Bool.and_eq_true, List.all_eq_true, Option.isNone_iff_eq_none] at hp
  obtain ⟨⟨⟨⟨hpushed, hacts⟩, hscopes⟩, hloader⟩, hidle⟩ := hp
  obtain ⟨content', saved, -, -, hkept⟩ := hall _ _ _ _ tr t sampleFiles_read
    (parseScopes_scopesText sampleToml rfl) hrun hacts hloader
    ((below hrun).all_idle (by simpa using hidle))
  have hne : pushedScopes tr ≠ [] := by simpa using hpushed
  obtain ⟨scope, hscope⟩ := List.exists_mem_of_ne_nil _ hne
  have hmem := (hkept scope (.inr (mem_pushedScopes.mp hscope))).1
  rw [List.isEmpty_iff.mp hscopes] at hmem
  cases hmem

end LabStreamGate.Desktop
