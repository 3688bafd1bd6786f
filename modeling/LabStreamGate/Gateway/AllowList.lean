import LabStreamGate.Gateway.Frame
import LabStreamGate.Library.JsonText

/-!
# The allow-list of targets

Records come into the registry through `launch_tunnel`, which checks their target, and through the
state file of an earlier process, which nobody checks again.  A process dials allowed targets only
as far as the records it was started with have one.
-/

namespace LabStreamGate.Gateway

variable {json : JsonText} {stateFile : Option FilePath} {s t : State} {a : Action} {o : Out}
  {tr : List (Event State Action Out)}

/-- Everything that a process finds in the state file has a target which the process allows. -/
def loadsAllowed (json : JsonText) (stateFile : Option FilePath) (now : UInt64)
    (files : Fs FilePath) (config : Config) : Bool :=
  (loadRegistry json stateFile now files).entries.all fun e ↦
    validateTarget e.2.target (parseAllowedHosts config.allowedTargetHosts) = .ok ()

/-- Where this step starts a process, the process finds only targets that it allows. -/
def startsAllowed (json : JsonText) (stateFile : Option FilePath)
    (e : Event State Action Out) : Bool :=
  match e.act with
  | .start config => loadsAllowed json stateFile e.pre.now e.pre.files config
  | _ => true

/-- Every record of the process has an allowed target, in the registry and in the hands of a
handler. -/
structure Allowed (s : State) : Prop where
  registry : ∀ key record, s.connections.lookup key = some record →
    validateTarget record.target s.allowedTargetHosts = .ok ()
  tasks : ∀ id task key record, s.tasks id = some task → task.holds = some (key, record) →
    validateTarget record.target s.allowedTargetHosts = .ok ()

-- A process begins with what it restores from the file.
theorem Allowed.of_launch {config : Config} {now : UInt64} {files : Fs FilePath} {nextTask : Nat}
    (hlaunch : launch json stateFile config now files nextTask = some s)
    (hload : loadsAllowed json stateFile now files config = true) : Allowed s := by
  obtain ⟨-, -, htasks, hhosts, hconnections⟩ := launch_eq hlaunch
  constructor
  · intro key record hlook
    rw [hconnections] at hlook
    rw [loadsAllowed, List.all_eq_true] at hload
    have hok := hload ⟨key, record⟩ (List.of_mem_dlookup (Option.mem_def.mpr hlook))
    rw [decide_eq_true_eq] at hok
    rwa [hhosts]
  · intro id task key record htask
    rw [htasks] at htask
    cases htask

/-- A step of a task keeps the targets allowed: what it changes in the registry is taken out, or
was held by the task. -/
theorem Allowed.apply {id : Nat} {task : Task} {io : Io} {e : Effect} (hs : Allowed s)
    (htask : s.tasks id = some task) (hrun : task.run json stateFile s io = some e) :
    Allowed (s.apply id e) := by
  constructor
  · intro key record hlook
    rw [State.apply_allowedTargetHosts]
    rw [State.apply_connections] at hlook
    rcases Task.run_connections hrun with hsame | ⟨k, r, rfl, -, hc⟩ | ⟨k, rfl, -, hc⟩ |
      ⟨k, use, rfl, hc⟩ | ⟨now, listing, rfl, hc⟩
    · rw [hsame] at hlook
      exact hs.registry key record hlook
    · rw [hc] at hlook
      by_cases hk : key = k
      · subst hk
        rw [AList.lookup_insert] at hlook
        cases hlook
        exact hs.tasks id _ key record htask rfl
      · rw [AList.lookup_insert_ne hk] at hlook
        exact hs.registry key record hlook
    · rw [hc] at hlook
      exact hs.registry key record (Registry.lookup_of_lookup_erase hlook)
    · rw [hc] at hlook
      exact hs.registry key record (Registry.lookup_of_lookup_erase hlook)
    · rw [hc, Registry.lookup_retain, Option.filter_eq_some_iff] at hlook
      exact hs.registry key record hlook.1
  · intro id' task' key record htask' hholds
    rcases State.apply_tasks htask' with ⟨-, hnew⟩ | ⟨-, hold⟩
    · rcases (Task.run_leads hrun hnew).holds hholds with hheld | ⟨use, -, hlook⟩
      · exact hs.tasks id task key record htask hheld
      · exact hs.registry key record hlook
    · exact hs.tasks id' task' key record hold hholds

-- A registration that waits has passed `validate_target` when it was started.
theorem Allowed.spawn {task : Task} (hs : Allowed s) (hstart : s.Starts task) :
    Allowed (s.spawn task) := by
  refine ⟨hs.registry, ?_⟩
  intro id task' key record htask hholds
  rcases State.spawn_tasks htask with rfl | hold
  · cases hstart with
    | launchInsert req _ htarget _ =>
      cases hholds
      exact htarget
    | _ => cases hholds
  · exact hs.tasks id task' key record hold hholds

-- Records enter the registry by a checked registration or by a start that meets the guard.
theorem Allowed.step (hs : Allowed s) (hstart : startsAllowed json stateFile ⟨s, a, o⟩ = true)
    (h : next json stateFile s a = some (o, t)) : Allowed t := by
  cases next_moved h with
  | tick hle => exact ⟨hs.registry, hs.tasks⟩
  | reject => exact hs
  | answer => exact hs
  | spawn _ _ htask => exact hs.spawn htask
  | run htask hrun => exact hs.apply htask hrun
  | start hlaunch => exact .of_launch hlaunch hstart

/-- What is dialed is the target of a record that the task holds. -/
theorem Allowed.dialed {target : String} (hs : Allowed s)
    (h : next json stateFile s a = some (.dialed target, t)) :
    validateTarget target s.allowedTargetHosts = .ok () := by
  generalize ho : Out.dialed target = o at h
  cases next_moved h with
  | run htask hrun =>
    have hout := Task.run_out hrun
    rw [← ho] at hout
    obtain ⟨key, record, rfl, rfl⟩ := hout
    exact hs.tasks _ _ key record htask rfl
  | _ => cases ho

/-- In every history of processes on one state file, each started with its own allow-list, every
target dialed is one that its process allows, where no process finds another target in the state
file it starts from. -/
theorem dialed_target_allowed {config : Config} {now : UInt64} {files : Fs FilePath}
    {nextTask : Nat} (hlaunch : launch json stateFile config now files nextTask = some s)
    (hload : loadsAllowed json stateFile now files config = true)
    (hrun : Run (next json stateFile) s tr t)
    (hstart : ∀ e ∈ tr, startsAllowed json stateFile e = true) :
    ∀ e ∈ tr, ∀ target, e.out = .dialed target →
      validateTarget target e.pre.allowedTargetHosts = .ok () := by
  intro e he target ho
  obtain ⟨tr₁, tr₂, rfl⟩ := List.append_of_mem he
  obtain ⟨u, hbefore, hstep, -⟩ := hrun.cut
  have hpre : Allowed e.pre := hbefore.invariant (Allowed.of_launch hlaunch hload)
    (fun _ _ _ _ hv hC hnext ↦ hv.step hC hnext)
    fun e' he' ↦ hstart e' (List.mem_append_left _ he')
  rw [ho] at hstep
  exact hpre.dialed hstep

/-- The registry that holds `sampleRecord`, as it is saved. -/
def sampleRegistry : Registry := AList.singleton sampleKey (sampleRecord none)

noncomputable def sampleJson : JsonText :=
  JsonText.compact.answering sampleRegistry.toJson sampleRegistry.toJson_ok

/-- A process registers and saves a target; its successor, started with `config`, is asked for
it. -/
def sampleRestart (config : Config) : List Action :=
  samplePost none :: .run 0 .done :: samplePersist 0 ++
    [.run 0 .done, .start config, .processTraffic sampleKey, .run 1 .done, .run 1 .done,
      .run 1 .done, .run 1 .done, .run 1 .done, .run 1 .done]

/-- A successor with the same allow-list. -/
theorem dialed_target_allowed_sample : ∃ s tr t,
    Run (next sampleJson (some sampleFile)) s tr t ∧ (∃ e ∈ tr, e.out = .dialed "lab:80") ∧
    ∀ e ∈ tr, ∀ target, e.out = .dialed target →
      validateTarget target e.pre.allowedTargetHosts = .ok () := by
  obtain ⟨s, hs⟩ : ∃ s, launch sampleJson (some sampleFile) sampleConfig 0 Fs.empty 0 = some s :=
    Option.isSome_iff_exists.mp (by decide)
  obtain ⟨tr, t, hrun, hp⟩ := exists_run (next sampleJson (some sampleFile)) s
    (sampleRestart sampleConfig)
    (fun tr _ ↦ tr.any (fun e ↦ e.out = .dialed "lab:80") &&
      tr.all (startsAllowed sampleJson (some sampleFile)))
    (by cases hs; decide +kernel)
  simp only [Bool.and_eq_true, List.any_eq_true, List.all_eq_true, decide_eq_true_eq] at hp
  exact ⟨s, tr, t, hrun, hp.1, dialed_target_allowed hs (by decide) hrun hp.2⟩

/-- A successor that no longer allows the host still dials it. -/
theorem restored_target_dialed : ¬ ∀ s tr t,
    launch sampleJson (some sampleFile) sampleConfig 0 Fs.empty 0 = some s →
    Run (next sampleJson (some sampleFile)) s tr t →
    ∀ e ∈ tr, ∀ target, e.out = .dialed target →
      validateTarget target e.pre.allowedTargetHosts = .ok () := by
  intro hclaim
  obtain ⟨s, hs⟩ : ∃ s, launch sampleJson (some sampleFile) sampleConfig 0 Fs.empty 0 = some s :=
    Option.isSome_iff_exists.mp (by decide)
  obtain ⟨tr, t, hrun, hp⟩ := exists_run (next sampleJson (some sampleFile)) s
    (sampleRestart { sampleConfig with allowedTargetHosts := ["other"] })
    (fun tr _ ↦ tr.any fun e ↦ e.out = .dialed "lab:80" &&
      validateTarget "lab:80" e.pre.allowedTargetHosts ≠ .ok ())
    (by cases hs; decide +kernel)
  simp only [List.any_eq_true, Bool.and_eq_true, decide_eq_true_eq] at hp
  obtain ⟨e, he, hdialed, hforbidden⟩ := hp
  exact hforbidden (hclaim s tr t hs hrun e he "lab:80" hdialed)

end LabStreamGate.Gateway
