import LabStreamGate.Library.Json
import LabStreamGate.Library.Run
import LabStreamGate.Library.SocketText
import LabStreamGate.Library.TaskTable

/-!
# A single instance

Desktop processes find each other through a lock file that holds the port of the API server.  A
process that starts reads it and asks the one it names to pop up; the file itself is written later,
by the thread of the API server, and removed by a shutdown, whoever wrote it.
-/

namespace LabStreamGate.Desktop

open Function

def lockFile : String := ".rx.is.alive"

/-- `port.to_string()`. -/
def portText (port : UInt16) : Bytes := utf8 (String.ofList (Nat.toDigits 10 port.toNat))

/-- What `read_lock_file_port` makes of the bytes it finds. -/
def parsePort (bytes : Bytes) : Option UInt16 :=
  (fromUtf8 bytes).bind fun text ↦ parseU16 (trim text)

theorem parsePort_portText (port : UInt16) : parsePort (portText port) = some port := by
  have htrim : trim (String.ofList (Nat.toDigits 10 port.toNat)) =
      String.ofList (Nat.toDigits 10 port.toNat) := by
    refine trim_of_all fun c hc ↦ isWhiteSpace_of_isDigit ?_
    rw [String.toList_ofList] at hc
    exact Nat.isDigit_of_mem_toDigits (by decide) (by decide) hc
  rw [parsePort, portText, fromUtf8_utf8, Option.bind_some, htrim, parseU16_toDigits]

/-! ## The threads of a process -/

/-- Where the main thread is: in the check for another instance, and after it. -/
inductive MainThread
  | checking
  | opening
  | reading (inode : Nat)
  | notifying (port : UInt16)
  | removing
  | archiving
  | running
  | closing
  | closed
  deriving DecidableEq, Repr

inductive MainStep
  | checkLock
  | openLock
  | readLock
  | notify (outcome : Bool)
  | removeStale
  | prepareLogDir
  | shutdown
  | removeLock
  deriving DecidableEq, Repr

namespace MainThread

/-- `try_notify_existing_instance` has returned `false`. -/
def passed : MainThread → Bool
  | .archiving | .running | .closing | .closed => true
  | _ => false

/-- A lock file has been found, and what comes of it is open. -/
def isChecking : MainThread → Bool
  | .opening | .reading _ | .notifying _ | .removing => true
  | _ => false

/-- `spawn_background` has started the thread of the API server. -/
def spawned : MainThread → Bool
  | .running | .closing | .closed => true
  | _ => false

/-- A step of the main thread, with the files and the thread after it; `none` in place of the thread
is the end of the process.  `answers` are the ports on which a popup request succeeds. -/
def step (fs : Fs String) (answers : UInt16 → Bool) :
    MainThread → MainStep → Option (Fs String × Option MainThread)
  | .checking, .checkLock =>
    some (fs, some (if (fs.dir lockFile).isSome then .opening else .archiving))
  | .opening, .openLock => some (fs, some ((fs.dir lockFile).elim .removing .reading))
  | .reading inode, .readLock =>
    some (fs, some ((parsePort (fs.data inode)).elim .removing .notifying))
  -- `outcome` is what becomes of a request that nobody has to answer
  | .notifying port, .notify outcome =>
    some (fs, if answers port || outcome then none else some .removing)
  | .removing, .removeStale => some (fs.remove lockFile, some .archiving)
  | .archiving, .prepareLogDir => some (fs, some .running)
  | .running, .shutdown => some (fs, some .closing)
  -- the quit observer shuts down once more
  | .closing, .removeLock | .closed, .removeLock => some (fs.remove lockFile, some .closed)
  | _, _ => none

end MainThread

/-- Where the API server is on its way to `axum::serve`. -/
inductive ApiThread
  | waiting
  | bound (port : UInt16)
  | writing (port : UInt16) (handle : Handle)
  | serving (port : UInt16)
  deriving DecidableEq, Repr

inductive ApiStep
  | bind (port : UInt16)
  | createLock
  | writeLock
  deriving DecidableEq, Repr

namespace ApiThread

def port? : ApiThread → Option UInt16
  | .waiting => none
  | .bound port | .writing port _ | .serving port => some port

def isServing : ApiThread → Bool
  | .serving _ => true
  | _ => false

/-- The lock file has been opened for writing. -/
def hasOpened : ApiThread → Bool
  | .writing _ _ | .serving _ => true
  | _ => false

/-- A step of `serve`; `taken` are the ports that others listen on. -/
def step (fs : Fs String) (taken : UInt16 → Bool) :
    ApiThread → ApiStep → Option (Fs String × ApiThread)
  | .waiting, .bind port => if taken port then none else some (fs, .bound port)
  | .bound port, .createLock =>
    some ((fs.create lockFile).1, .writing port (fs.create lockFile).2)
  | .writing port handle, .writeLock => some ((fs.write handle (portText port)).1, .serving port)
  | _, _ => none

end ApiThread

structure Process where
  main : MainThread
  api : ApiThread
  deriving DecidableEq, Repr

/-- A process counts as live until its shutdown has removed the lock file. -/
def Process.isLive (process : Process) : Bool := process.main != .closed

/-! ## The machine -/

structure Machine where
  fs : Fs String
  processes : Nat → Option Process
  nextProcess : Nat

namespace Machine

def start (fs : Fs String) : Machine := ⟨fs, fun _ ↦ none, 0⟩

inductive Action
  | spawn
  | main (id : Nat) (step : MainStep)
  | api (id : Nat) (step : ApiStep)
  | exit (id : Nat)
  deriving DecidableEq, Repr

def any (m : Machine) (test : Process → Bool) : Bool :=
  (List.range m.nextProcess).any fun id ↦ (m.processes id).any test

/-- A live process whose API server has started takes popup requests. -/
def answers (m : Machine) (port : UInt16) : Bool :=
  m.any fun process ↦ process.isLive && process.api == .serving port

def taken (m : Machine) (port : UInt16) : Bool :=
  m.any fun process ↦ process.api.port? == some port

def next (m : Machine) : Action → Option (Unit × Machine)
  | .spawn =>
    some ((), { m with
      processes := update m.processes m.nextProcess (some ⟨.checking, .waiting⟩)
      nextProcess := m.nextProcess + 1 })
  | .main id step =>
    (m.processes id).bind fun process ↦
      (process.main.step m.fs m.answers step).map fun (fs, main) ↦
        ((), { m with
          fs
          processes := update m.processes id (main.map fun main ↦ { process with main }) })
  | .api id step =>
    (m.processes id).bind fun process ↦
      if process.main.spawned then
        (process.api.step m.fs m.taken step).map fun (fs, api) ↦
          ((), { m with fs, processes := update m.processes id (some { process with api }) })
      else none
  | .exit id =>
    (m.processes id).map fun _ ↦ ((), { m with processes := update m.processes id none })

/-- No two live processes have passed the check, and the lock file names the port of a live process
that has written it. -/
def Single (m : Machine) : Prop :=
  (∀ id id' process process', m.processes id = some process → m.processes id' = some process' →
    process.isLive → process'.isLive → process.main.passed → process'.main.passed → id = id') ∧
  ∀ id process port, m.processes id = some process → process.isLive →
    process.api = .serving port → m.fs.read lockFile = some (portText port)

/-! ## Starts that do not overlap -/

/-- `test` holds of every process but `id`. -/
def others (m : Machine) (id : Nat) (test : Process → Bool) : Bool :=
  (List.range m.nextProcess).all fun id' ↦ id' == id || (m.processes id').all test

/-- Who passed the check before has written the lock file by now. -/
def written (m : Machine) (id : Nat) : Bool :=
  m.others id fun process ↦
    !(process.isLive && process.main.passed) || process.api.isServing

/-- Nobody else who lives has begun to write the lock file. -/
def unopened (m : Machine) (id : Nat) : Bool :=
  m.others id fun process ↦ !(process.isLive && process.api.hasOpened)

/-- What a step must find for it to hurt nobody: the check is passed only when those who passed it
before have written the lock file; that file is written only while nobody is in the middle of the
check; and it is neither written nor removed in a shutdown where another live process has begun to
write it. -/
def isOrdered (m : Machine) : Action → Bool
  | .main id .checkLock => (m.fs.dir lockFile).isSome || m.written id
  | .main id .removeStale => m.written id
  | .api id .createLock | .api id .writeLock =>
    m.others id (fun process ↦ !process.main.isChecking) && m.unopened id
  | .main id .removeLock => m.unopened id
  | _ => true

end Machine

/-! ## What a step of the main thread does -/

namespace MainThread

variable {fs fs' : Fs String} {answers : UInt16 → Bool} {main : MainThread} {s : MainStep}
  {after : Option MainThread} {port : UInt16}

/-- What the check has found so far agrees with a process that serves on `port`. -/
def Finds (fs : Fs String) (port : UInt16) : MainThread → Prop
  | .reading inode => fs.data inode = portText port
  | .notifying port' => port' = port
  | .removing => False
  | _ => True

theorem finds_of_isChecking (h : main.isChecking = false) : main.Finds fs port := by
  cases main <;> trivial

theorem isChecking_of_passed (h : main.passed = true) : main.isChecking = false := by
  cases main <;> first | rfl | cases h

theorem spawned_of_passed (h : main.passed = false) : main.spawned = false := by
  cases main <;> first | rfl | cases h

theorem passed_of_spawned (h : main.spawned = true) : main.passed = true := by
  cases main <;> first | rfl | cases h

/-- The steps of the main thread by what they mean to the other processes. -/
inductive Moved (fs : Fs String) (answers : UInt16 → Bool) :
    MainThread → MainStep → Fs String → Option MainThread → Prop
  | absent (hnone : fs.dir lockFile = none) :
    Moved fs answers .checking .checkLock fs (some .archiving)
  | stale : Moved fs answers .removing .removeStale (fs.remove lockFile) (some .archiving)
  | check {main main' : MainThread} {s : MainStep} (hmain : main.spawned = false)
      (hmain' : main'.passed = false)
      (hfinds : ∀ port, fs.read lockFile = some (portText port) → answers port = true →
        main.Finds fs port → main'.Finds fs port) :
    Moved fs answers main s fs (some main')
  | forward {main main' : MainThread} {s : MainStep} (hpassed : main.passed = true)
      (hlive : main ≠ .closed) (hspawned : main'.spawned = true) :
    Moved fs answers main s fs (some main')
  | release {main : MainThread} (hmain : main.spawned = true) :
    Moved fs answers main .removeLock (fs.remove lockFile) (some .closed)
  | notified {main : MainThread} {s : MainStep} : Moved fs answers main s fs none

theorem step_moved (h : main.step fs answers s = some (fs', after)) :
    Moved fs answers main s fs' after := by
  cases main with
  | checking =>
    cases s with
    | checkLock =>
      obtain ⟨rfl, rfl⟩ := Prod.ext_iff.mp (Option.some.inj h)
      by_cases hsome : (fs.dir lockFile).isSome = true
      · rw [if_pos hsome]
        exact .check rfl rfl fun _ _ _ _ ↦ trivial
      · rw [if_neg hsome]
        exact .absent (by simpa using hsome)
    | _ => cases h
  | opening =>
    cases s with
    | openLock =>
      obtain ⟨rfl, rfl⟩ := Prod.ext_iff.mp (Option.some.inj h)
      cases hdir : fs.dir lockFile with
      | some inode =>
        refine .check rfl rfl fun port hread _ _ ↦ ?_
        rw [Fs.read, hdir] at hread
        exact Option.some.inj hread
      | none =>
        refine .check rfl rfl fun port hread _ _ ↦ ?_
        rw [Fs.read, hdir] at hread
        cases hread
    | _ => cases h
  | reading inode =>
    cases s with
    | readLock =>
      obtain ⟨rfl, rfl⟩ := Prod.ext_iff.mp (Option.some.inj h)
      -- a port that was written is read
      cases hparse : parsePort (fs.data inode) with
      | some port =>
        refine .check rfl rfl fun port' _ _ hdata ↦ ?_
        rw [show fs.data inode = portText port' from hdata, parsePort_portText] at hparse
        exact (Option.some.inj hparse).symm
      | none =>
        refine .check rfl rfl fun port' _ _ hdata ↦ ?_
        rw [show fs.data inode = portText port' from hdata, parsePort_portText] at hparse
        cases hparse
    | _ => cases h
  | notifying port =>
    cases s with
    | notify outcome =>
      obtain ⟨rfl, rfl⟩ := Prod.ext_iff.mp (Option.some.inj h)
      by_cases hanswer : (answers port || outcome) = true
      · rw [if_pos hanswer]
        exact .notified
      · rw [if_neg hanswer]
        refine .check rfl rfl fun port' _ hport hfound ↦ hanswer ?_
        rw [show port = port' from hfound, hport, Bool.true_or]
    | _ => cases h
  | removing =>
    cases s with
    | removeStale =>
      cases h
      exact .stale
    | _ => cases h
  | archiving =>
    cases s with
    | prepareLogDir =>
      cases h
      exact .forward rfl (by decide) rfl
    | _ => cases h
  | running =>
    cases s with
    | shutdown =>
      cases h
      exact .forward rfl (by decide) rfl
    | _ => cases h
  | closing | closed =>
    cases s with
    | removeLock =>
      cases h
      exact .release rfl
    | _ => cases h

end MainThread

/-! ## What holds between the processes -/

/-- What the thread of the API server relies on in the file system. -/
def ApiThread.Holds (fs : Fs String) : ApiThread → Prop
  | .writing port handle => fs.Writing lockFile handle (portText port) ∧ handle.offset = 0
  | .serving port => fs.read lockFile = some (portText port)
  | _ => True

theorem ApiThread.holds_of_hasOpened {api : ApiThread} (fs : Fs String)
    (h : api.hasOpened = false) : api.Holds fs := by
  cases api <;> trivial

namespace Process

structure Ok (fs : Fs String) (process : Process) : Prop where
  spawned : process.api = .waiting ∨ process.main.spawned = true
  holds : process.isLive = true → process.api.Holds fs

/-- How one process stands to another one. -/
structure Beside (fs : Fs String) (process process' : Process) : Prop where
  alone : process.isLive = true → process'.isLive = true → process.main.passed = true →
    process'.main.passed = false
  finds : ∀ port, process'.isLive = true → process'.api = .serving port →
    process.main.Finds fs port

variable {fs fs' : Fs String} {process process' : Process}

/-- Only what a reader has open matters of the files to how two processes stand to each other. -/
theorem Beside.files (h : Beside fs process process')
    (hfs : fs'.data = fs.data ∨ process.main.isChecking = false) :
    Beside fs' process process' := by
  refine ⟨h.alone, fun port hlive hapi ↦ ?_⟩
  rcases hfs with hdata | hchecking
  · have hfinds := h.finds port hlive hapi
    unfold MainThread.Finds at hfinds ⊢
    rwa [hdata]
  · exact MainThread.finds_of_isChecking hchecking

/-- A process that does not serve is in nobody's way. -/
theorem Beside.of_api (hpassed : process.isLive = true → process'.isLive = true →
    process.main.passed = true → process'.main.passed = false)
    (hapi : process'.isLive = true → process'.api.isServing = false) :
    Beside fs process process' := by
  refine ⟨hpassed, fun port hlive hserving ↦ ?_⟩
  have hnot := hapi hlive
  rw [hserving] at hnot
  cases hnot

theorem Ok.waiting (h : process.Ok fs) (hmain : process.main.spawned = false) :
    process.api = .waiting := by
  rcases h.spawned with hapi | hspawned
  · exact hapi
  · rw [hmain] at hspawned
    cases hspawned

end Process

namespace Machine

variable {m m' : Machine} {id id' : Nat} {process process' : Process} {a : Action} {o : Unit}
  {port : UInt16} {test : Process → Bool} {fs : Fs String} {after : Option Process}

/-- What holds along a run whose steps are ordered. -/
structure Inv (m : Machine) : Prop where
  below : TasksBelow m.nextProcess m.processes
  each : ∀ id process, m.processes id = some process → process.Ok m.fs
  apart : TasksApart (Process.Beside m.fs) m.processes

theorem Inv.single (h : m.Inv) : m.Single := by
  constructor
  · intro id id' process process' hp hp' hlive hlive' hpassed hpassed'
    by_contra hne
    have halone := (h.apart id id' process process' hne hp hp').alone hlive hlive' hpassed
    rw [hpassed'] at halone
    cases halone
  · intro id process port hp hlive hapi
    have hholds := (h.each id process hp).holds hlive
    rwa [hapi] at hholds

theorem start_inv (fs : Fs String) : (start fs).Inv := by
  refine ⟨.of_none, fun _ _ h ↦ ?_, fun _ _ _ _ _ h ↦ ?_⟩
  · cases h
  · cases h

/-- What a step of one process owes the others. -/
theorem Inv.update {n : Nat} (h : m.Inv) (hbelow : TasksBelow n (update m.processes id after))
    (hown : ∀ process, after = some process → process.Ok fs)
    (hothers : ∀ id' process', id' ≠ id → m.processes id' = some process' → process'.Ok fs ∧
      (fs.data = m.fs.data ∨ process'.main.isChecking = false) ∧
      ∀ process, after = some process →
        process.Beside fs process' ∧ process'.Beside fs process) :
    Inv ⟨fs, Function.update m.processes id after, n⟩ := by
  refine ⟨hbelow, ?_, ?_⟩
  · intro id' process' hp
    obtain ⟨-, hafter⟩ | ⟨hne, hp⟩ := tasks_of_update hp
    · exact hown process' hafter
    · exact (hothers id' process' hne hp).1
  · refine h.apart.update ?_ ?_
    · intro id₁ id₂ process₁ process₂ hne h₁ h₂ hbeside
      exact hbeside.files (hothers id₁ process₁ hne h₁).2.1
    · intro process id' process' hafter hne hp
      exact (hothers id' process' hne hp).2.2 process hafter

theorem any_of_some (h : TasksBelow m.nextProcess m.processes) (hp : m.processes id = some process)
    (htest : test process = true) : m.any test = true := by
  refine List.any_eq_true.mpr ⟨id, List.mem_range.mpr (h.lt hp), ?_⟩
  rw [hp]
  exact htest

theorem of_others (h : TasksBelow m.nextProcess m.processes) (hothers : m.others id test = true)
    (hne : id' ≠ id) (hp : m.processes id' = some process') : test process' = true := by
  have hid := List.all_eq_true.mp hothers id' (List.mem_range.mpr (h.lt hp))
  rw [hp] at hid
  simpa [hne] using hid

/-! ## One step -/

/-- Where nobody else has begun to write the lock file, nobody else relies on what it has. -/
theorem Inv.ok_of_unopened (h : m.Inv) (hunopened : m.unopened id = true) (hne : id' ≠ id)
    (hp : m.processes id' = some process') (fs : Fs String) : process'.Ok fs := by
  have hopened := of_others h.below hunopened hne hp
  refine ⟨(h.each id' process' hp).spawned, fun hlive ↦ ?_⟩
  rw [hlive, Bool.true_and] at hopened
  exact ApiThread.holds_of_hasOpened _ (by simpa using hopened)

/-- The end of a check.  Who has passed it before and lives would be serving by now, and it would
have been found. -/
theorem Inv.pass (h : m.Inv) (hp : m.processes id = some process)
    (hmain : process.main.spawned = false) (hwritten : m.written id = true)
    (hdata : fs.data = m.fs.data)
    (hnone : ∀ id' process' port, id' ≠ id → m.processes id' = some process' →
      process'.isLive = true → process'.api ≠ .serving port) :
    Inv { m with
      fs
      processes := Function.update m.processes id
        (some { process with main := .archiving }) } := by
  have hapi : process.api = .waiting := (h.each id process hp).waiting hmain
  have hfree : ∀ id' process', id' ≠ id → m.processes id' = some process' →
      process'.isLive = true → process'.main.passed = false := by
    intro id' process' hne hp' hlive
    have htest := of_others h.below hwritten hne hp'
    cases hpassed : process'.main.passed with
    | false => rfl
    | true =>
      rw [hlive, hpassed, Bool.and_true, Bool.not_true, Bool.false_or] at htest
      cases hserving : process'.api with
      | serving port => exact absurd hserving (hnone id' process' port hne hp' hlive)
      | waiting | bound | writing =>
        rw [hserving] at htest
        cases htest
  refine h.update (h.below.step (h.below.lt hp)) ?_ fun id' process' hne hp' ↦ ⟨?_, .inl hdata, ?_⟩
  · intro process₁ hafter
    cases hafter
    exact ⟨.inl hapi, fun _ ↦ by rw [hapi]; trivial⟩
  · have hok := h.each id' process' hp'
    refine ⟨hok.spawned, fun hlive ↦ ?_⟩
    rw [hok.waiting (MainThread.spawned_of_passed (hfree id' process' hne hp' hlive))]
    trivial
  · intro process₁ hafter
    cases hafter
    constructor
    · refine .of_api (fun _ hlive _ ↦ hfree id' process' hne hp' hlive) fun hlive ↦ ?_
      cases hserving : process'.api with
      | serving port => exact absurd hserving (hnone id' process' port hne hp' hlive)
      | waiting | bound | writing => rfl
    · refine .of_api (fun hlive _ hpassed ↦ ?_) fun _ ↦ by rw [hapi]; rfl
      rw [hfree id' process' hne hp' hlive] at hpassed
      cases hpassed

/-- A step of the check.  What it finds agrees with every process that serves. -/
theorem Inv.check {main : MainThread} (h : m.Inv) (hp : m.processes id = some process)
    (hspawned : process.main.spawned = false) (hpassed : main.passed = false)
    (hfinds : ∀ port, m.fs.read lockFile = some (portText port) → m.answers port = true →
      process.main.Finds m.fs port → main.Finds m.fs port) :
    Inv { m with processes := Function.update m.processes id (some { process with main }) } := by
  have hapi : process.api = .waiting := (h.each id process hp).waiting hspawned
  refine h.update (h.below.step (h.below.lt hp)) ?_ fun id' process' hne hp' ↦
    ⟨h.each id' process' hp', .inl rfl, ?_⟩
  · intro process₁ hafter
    cases hafter
    exact ⟨.inl hapi, fun _ ↦ by rw [hapi]; trivial⟩
  · intro process₁ hafter
    cases hafter
    constructor
    · refine ⟨fun _ _ hpassed' ↦ ?_, fun port hlive hserving ↦ ?_⟩
      · rw [show main.passed = true from hpassed'] at hpassed
        cases hpassed
      · have hread := (h.each id' process' hp').holds hlive
        rw [hserving] at hread
        have hanswers : m.answers port = true :=
          any_of_some h.below hp' (by rw [hlive, hserving]; simp)
        have hbeside := h.apart id id' process process' hne.symm hp hp'
        exact hfinds port hread hanswers (hbeside.finds port hlive hserving)
    · exact .of_api (fun _ _ _ ↦ hpassed) fun _ ↦ by rw [hapi]; rfl

/-- Who has passed the check goes on. -/
theorem Inv.forward {main : MainThread} (h : m.Inv) (hp : m.processes id = some process)
    (hlive : process.isLive = true) (hpassed : process.main.passed = true)
    (hspawned : main.spawned = true) :
    Inv { m with processes := Function.update m.processes id (some { process with main }) } := by
  refine h.update (h.below.step (h.below.lt hp)) ?_ fun id' process' hne hp' ↦
    ⟨h.each id' process' hp', .inl rfl, ?_⟩
  · intro process₁ hafter
    cases hafter
    exact ⟨.inr hspawned, fun _ ↦ (h.each id process hp).holds hlive⟩
  · intro process₁ hafter
    cases hafter
    have hbeside := h.apart id id' process process' hne.symm hp hp'
    have hbeside' := h.apart id' id process' process hne hp' hp
    constructor
    · refine ⟨fun _ hother _ ↦ hbeside.alone hlive hother hpassed, fun port _ _ ↦ ?_⟩
      exact MainThread.finds_of_isChecking
        (MainThread.isChecking_of_passed (MainThread.passed_of_spawned hspawned))
    · refine ⟨fun hother _ hpassed' ↦ ?_, fun port _ ↦ hbeside'.finds port hlive⟩
      have halone := hbeside'.alone hother hlive hpassed'
      rw [hpassed] at halone
      cases halone

/-- A shutdown removes the lock file, and nobody misses it. -/
theorem Inv.release (h : m.Inv) (hp : m.processes id = some process)
    (hunopened : m.unopened id = true) :
    Inv { m with
      fs := m.fs.remove lockFile
      processes := Function.update m.processes id (some { process with main := .closed }) } := by
  refine h.update (h.below.step (h.below.lt hp)) ?_ fun id' process' hne hp' ↦
    ⟨h.ok_of_unopened hunopened hne hp' _, .inl rfl, ?_⟩
  · intro process₁ hafter
    cases hafter
    exact ⟨.inr rfl, fun hlive ↦ by cases hlive⟩
  · intro process₁ hafter
    cases hafter
    constructor
    · refine ⟨fun hlive ↦ ?_, fun _ _ _ ↦ trivial⟩
      cases hlive
    · exact .of_api (fun _ hlive ↦ by cases hlive) fun hlive ↦ by cases hlive

theorem Inv.exit (h : m.Inv) (hp : m.processes id = some process) :
    Inv { m with processes := Function.update m.processes id none } := by
  refine h.update (h.below.step (h.below.lt hp)) (fun _ hafter ↦ ?_) fun id' process' _ hp' ↦
    ⟨h.each id' process' hp', .inl rfl, fun _ hafter ↦ ?_⟩
  · cases hafter
  · cases hafter

theorem Inv.mainStep {s : MainStep} {after : Option MainThread} (h : m.Inv)
    (hp : m.processes id = some process) (hordered : m.isOrdered (.main id s) = true)
    (hm : MainThread.Moved m.fs m.answers process.main s fs after) :
    Inv { m with
      fs
      processes := Function.update m.processes id
        (after.map fun main ↦ { process with main }) } := by
  generalize hmain : process.main = main at hm
  cases hm with
  | absent hnone =>
    have hwritten : m.written id = true := by
      simpa [isOrdered, hnone] using hordered
    refine h.pass hp (by rw [hmain]; rfl) hwritten rfl fun id' process' port hne hp' hlive hapi ↦ ?_
    -- the file of a process that serves would have been found
    have hread := (h.each id' process' hp').holds hlive
    rw [hapi] at hread
    rw [ApiThread.Holds, Fs.read, hnone] at hread
    cases hread
  | stale =>
    refine h.pass hp (by rw [hmain]; rfl) hordered rfl fun id' process' port hne hp' hlive hapi ↦ ?_
    have hfinds := (h.apart id id' process process' hne.symm hp hp').finds port hlive hapi
    rw [hmain] at hfinds
    exact hfinds
  | check hspawned hpassed hfinds =>
    rw [← hmain] at hspawned hfinds
    exact h.check hp hspawned hpassed hfinds
  | forward hpassed hlive hspawned =>
    rw [← hmain] at hpassed hlive
    exact h.forward hp (by simpa [Process.isLive] using hlive) hpassed hspawned
  | release => exact h.release hp hordered
  | notified => exact h.exit hp

theorem Inv.apiStep {s : ApiStep} {api : ApiThread} (h : m.Inv)
    (hp : m.processes id = some process) (hspawned : process.main.spawned = true)
    (hordered : m.isOrdered (.api id s) = true)
    (hs : process.api.step m.fs m.taken s = some (fs, api)) :
    Inv { m with
      fs, processes := Function.update m.processes id (some { process with api }) } := by
  have hok := h.each id process hp
  have hpassed := MainThread.passed_of_spawned hspawned
  have hquiet : ∀ id' process', id' ≠ id → m.processes id' = some process' →
      m.others id (fun process ↦ !process.main.isChecking) = true →
      process'.main.isChecking = false := by
    intro id' process' hne hp' hothers
    simpa using of_others h.below hothers hne hp'
  -- a port that is bound changes nothing; the lock file is written while nobody checks
  obtain ⟨hown, hothers⟩ : (process.isLive = true → api.Holds fs) ∧
      ∀ id' process', id' ≠ id → m.processes id' = some process' → process'.Ok fs ∧
        (fs.data = m.fs.data ∨ process'.main.isChecking = false) ∧
        (api.isServing = false ∨ process'.main.isChecking = false) := by
    have hholds := hok.holds
    unfold ApiThread.step at hs
    split at hs
    · split at hs
      · cases hs
      · cases hs
        exact ⟨fun _ ↦ trivial, fun id' process' _ hp' ↦
          ⟨h.each id' process' hp', .inl rfl, .inl rfl⟩⟩
    · cases hs
      obtain ⟨hchecks, hunopened⟩ := Bool.and_eq_true_iff.mp hordered
      exact ⟨fun _ ↦ ⟨Fs.create_writing .., Fs.create_offset ..⟩, fun id' process' hne hp' ↦
        ⟨h.ok_of_unopened hunopened hne hp' _, .inr (hquiet id' process' hne hp' hchecks),
          .inl rfl⟩⟩
    · rename_i port handle hapi
      cases hs
      obtain ⟨hchecks, hunopened⟩ := Bool.and_eq_true_iff.mp hordered
      rw [hapi] at hholds
      refine ⟨fun hlive ↦ ?_, fun id' process' hne hp' ↦ ?_⟩
      · obtain ⟨hwriting, hoffset⟩ := hholds hlive
        exact hwriting.read_write hoffset
      · have hchecking := hquiet id' process' hne hp' hchecks
        exact ⟨h.ok_of_unopened hunopened hne hp' _, .inr hchecking, .inr hchecking⟩
    · cases hs
  refine h.update (h.below.step (h.below.lt hp)) ?_ fun id' process' hne hp' ↦ ?_
  · intro process₁ hafter
    cases hafter
    exact ⟨.inr hspawned, hown⟩
  · obtain ⟨hok', hdata, hserving⟩ := hothers id' process' hne hp'
    refine ⟨hok', hdata, fun process₁ hafter ↦ ?_⟩
    cases hafter
    constructor
    · refine ⟨(h.apart id id' process process' hne.symm hp hp').alone, fun port _ _ ↦ ?_⟩
      exact MainThread.finds_of_isChecking (MainThread.isChecking_of_passed hpassed)
    · have halone := (h.apart id' id process' process hne hp' hp).alone
      rcases hserving with hserving | hchecking
      · exact .of_api halone fun _ ↦ hserving
      · exact ⟨halone, fun port _ _ ↦ MainThread.finds_of_isChecking hchecking⟩

theorem Inv.next (h : m.Inv) (hordered : m.isOrdered a = true) (hnext : m.next a = some (o, m')) :
    m'.Inv := by
  cases a with
  | spawn =>
    cases hnext
    refine h.update h.below.spawn ?_ fun id' process' _ hp' ↦
      ⟨h.each id' process' hp', .inl rfl, ?_⟩
    · intro process₁ hafter
      cases hafter
      exact ⟨.inl rfl, fun _ ↦ trivial⟩
    · intro process₁ hafter
      cases hafter
      constructor
      · refine ⟨fun _ _ hpassed ↦ ?_, fun _ _ _ ↦ trivial⟩
        cases hpassed
      · exact .of_api (fun _ _ _ ↦ rfl) fun _ ↦ rfl
  | main id s =>
    obtain ⟨process, hp, hstep⟩ := Option.bind_eq_some_iff.mp hnext
    obtain ⟨⟨fs, after⟩, hs, hm'⟩ := Option.map_eq_some_iff.mp hstep
    cases hm'
    exact h.mainStep hp hordered (MainThread.step_moved hs)
  | api id s =>
    obtain ⟨process, hp, hstep⟩ := Option.bind_eq_some_iff.mp hnext
    split at hstep
    · rename_i hspawned
      obtain ⟨⟨fs, api⟩, hs, hm'⟩ := Option.map_eq_some_iff.mp hstep
      cases hm'
      exact h.apiStep hp hspawned hordered hs
    · cases hstep
  | exit id =>
    obtain ⟨process, hp, hm'⟩ := Option.map_eq_some_iff.mp hnext
    cases hm'
    exact h.exit hp

/-- Where the processes do not get in each other's way at the lock file, one of them at most has
passed the check, and the file names it. -/
theorem single_instance (fs : Fs String) (tr : List (Event Machine Action Unit)) (m : Machine)
    (h : Run Machine.next (start fs) tr m) (hordered : ∀ e ∈ tr, e.pre.isOrdered e.act = true) :
    m.Single :=
  (h.invariant (start_inv fs) (fun _ _ _ _ hinv hordered hnext ↦ hinv.next hordered hnext)
    hordered).single

/-- A second process asks the first one to pop up, after a stale lock file has been removed. -/
theorem single_instance_sample : ∃ fs tr m, Run Machine.next (start fs) tr m ∧ m.Single ∧
    fs.read lockFile = some (portText 4000) ∧ m.fs.read lockFile = some (portText 3307) ∧
    m.nextProcess = 2 := by
  let fs : Fs String := ((Fs.empty.create lockFile).1.write (Fs.empty.create lockFile).2
    (portText 4000)).1
  obtain ⟨tr, m, hrun, hp⟩ := exists_run Machine.next (start fs)
    [.spawn, .main 0 .checkLock, .main 0 .openLock, .main 0 .readLock, .main 0 (.notify false),
      .main 0 .removeStale, .main 0 .prepareLogDir, .api 0 (.bind 3307), .api 0 .createLock,
      .api 0 .writeLock, .spawn, .main 1 .checkLock, .main 1 .openLock, .main 1 .readLock,
      .main 1 (.notify false)]
    (fun tr m ↦ tr.all (fun e ↦ e.pre.isOrdered e.act) &&
      m.fs.read lockFile == some (portText 3307) && m.nextProcess == 2) (by decide +kernel)
  simp only [Bool.and_eq_true, List.all_eq_true, beq_iff_eq] at hp
  obtain ⟨⟨hordered, hread⟩, hnext⟩ := hp
  exact ⟨fs, tr, m, hrun, single_instance fs tr m hrun hordered, by decide +kernel, hread, hnext⟩

/-- Two processes find no lock file, and both go on. -/
theorem single_instance_races : ¬∀ (fs : Fs String) (tr : List (Event Machine Action Unit))
    (m : Machine), Run Machine.next (start fs) tr m → m.Single := by
  intro h
  have hrun : Run Machine.next (start .empty) _ _ :=
    Run.snoc (a := .main 1 .checkLock) (Run.snoc (a := .main 0 .checkLock)
      (Run.snoc (a := .spawn) (Run.snoc (a := .spawn) Run.nil rfl) rfl) rfl) rfl
  have hsame := (h .empty _ _ hrun).1 0 1 ⟨.archiving, .waiting⟩ ⟨.archiving, .waiting⟩ rfl rfl
    rfl rfl rfl rfl
  cases hsame

end Machine

end LabStreamGate.Desktop
