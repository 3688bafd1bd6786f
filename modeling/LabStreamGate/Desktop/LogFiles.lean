import LabStreamGate.Library.FileSystem
import LabStreamGate.Library.Run
import Mathlib.Data.List.TakeWhile

/-!
# The log files of the desktop app

A session writes to `wsrx.log`, which is given a name of its own when the session ends, or at the
start of the next one if it was cut off.  A start takes away what has not been written to for three
days.  The writer keeps its file open, so that what it writes after the file has been renamed still
goes there.
-/

namespace LabStreamGate.Desktop.LogFiles

open Function

/-- Times are in nanoseconds. -/
def secondNanos : Nat := 1000000000

def threeDays : Nat := 3 * 24 * 60 * 60 * secondNanos

def live : String := "wsrx.log"

def archiveName (timestamp : Nat) : String := "wsrx-" ++ toString timestamp ++ ".log"

/-- `Path::extension` of a file name. -/
def extension (name : String) : Option String :=
  let reversed := name.toList.reverse
  match reversed.dropWhile (· ≠ '.') with
  | _ :: _ :: _ => some (String.ofList (reversed.takeWhile (· ≠ '.')).reverse)
  | _ => none

/-- How far a process is: none, between the two halves of `prepare_log_dir`, before the logger is
set up, and with the logger writing to an inode. -/
inductive Phase
  | stopped
  | preparing
  | prepared
  | running (inode : Nat)
  deriving DecidableEq, Repr

/-- `modified` is when an inode was last written to.  There is one process at a time, as the check
for a running instance wants it; two of them are the subject of `SingleInstance`.  A process can be
killed between any two actions, and the clock does not go back. -/
structure State where
  fs : Fs String
  modified : Nat → Nat
  now : Nat
  phase : Phase

/-- An entry of the directory, and whether it can be removed. -/
structure Entry where
  name : String
  removed : Bool
  deriving DecidableEq, Repr

inductive Action
  | pass (time : Nat)
  | prepareLogDir (created : Bool) (entries : List Entry)
  | archiveCurrentLog (renamed : Bool)
  | setup (opened : Bool)
  | line (bytes : Bytes)
  | exit
  deriving DecidableEq, Repr

namespace State

def setPhase (s : State) (phase : Phase) : State := { s with phase := phase }

def isStale (s : State) (name : String) : Bool :=
  (s.fs.dir name).any fun i ↦ decide (s.modified i < s.now - threeDays)

/-- The entry is a log that has not been written to for three days, and it can be removed. -/
def takes (s : State) (entry : Entry) : Bool :=
  extension entry.name = some "log" && s.isStale entry.name && entry.removed

/-- One turn of the loop over the directory. -/
def prune (s : State) (entry : Entry) : State :=
  if s.takes entry then { s with fs := s.fs.remove entry.name } else s

def timestamp (s : State) : Nat := s.now / secondNanos

def archive (s : State) (renamed : Bool) : State :=
  if renamed then
    match s.fs.rename live (archiveName s.timestamp) with
    | some fs => { s with fs := fs }
    | none => s
  else s

/-- The appender opens the live log, and makes it where there is none. -/
def openLive (s : State) : State :=
  match s.fs.dir live with
  | some i => s.setPhase (.running i)
  | none =>
    { s with
      fs := (s.fs.create live).1
      modified := update s.modified s.fs.unused s.now
      phase := .running s.fs.unused }

def append (s : State) (i : Nat) (bytes : Bytes) : State :=
  { s with
    fs := { s.fs with data := update s.fs.data i (s.fs.data i ++ bytes) }
    modified := update s.modified i s.now }

end State

def next (s : State) : Action → Option (Unit × State)
  | .pass time => some ((), { s with now := s.now + time })
  | .prepareLogDir created entries =>
    if s.phase = .stopped then
      if created then some ((), (entries.foldl State.prune s).setPhase .preparing)
      else some ((), s.setPhase .prepared)
    else none
  | .archiveCurrentLog renamed =>
    match s.phase with
    | .preparing => some ((), (s.archive renamed).setPhase .prepared)
    | .running i => some ((), (s.archive renamed).setPhase (.running i))
    | _ => none
  | .setup opened =>
    if s.phase = .prepared then some ((), if opened then s.openLive else s.setPhase .stopped)
    else none
  | .line bytes =>
    match s.phase with
    | .running i => some ((), s.append i bytes)
    | _ => none
  | .exit => some ((), s.setPhase .stopped)

/-! ## One step -/

abbrev Step := Event State Action Unit

variable {s t : State} {a : Action} {e : Step} {tr : List Step} {i : Nat} {name : String}

/-- What an action can come to. -/
inductive Moved (s : State) : Action → State → Prop
  | pass {time : Nat} : Moved s (.pass time) { s with now := s.now + time }
  | prune {entries : List Entry} : s.phase = .stopped →
      Moved s (.prepareLogDir true entries) ((entries.foldl State.prune s).setPhase .preparing)
  | noDir {entries : List Entry} : s.phase = .stopped →
      Moved s (.prepareLogDir false entries) (s.setPhase .prepared)
  | archive {renamed : Bool} {phase : Phase} :
      s.phase = .preparing ∧ phase = .prepared ∨ (∃ i, s.phase = .running i ∧ phase = s.phase) →
      Moved s (.archiveCurrentLog renamed) ((s.archive renamed).setPhase phase)
  | opened : s.phase = .prepared → Moved s (.setup true) s.openLive
  | notOpened : s.phase = .prepared → Moved s (.setup false) (s.setPhase .stopped)
  | line {bytes : Bytes} {i : Nat} : s.phase = .running i →
      Moved s (.line bytes) (s.append i bytes)
  | exit : Moved s .exit (s.setPhase .stopped)

-- The step function is unfolded here and nowhere else.
theorem next_moved {o : Unit} (h : next s a = some (o, t)) : Moved s a t := by
  cases a with
  | pass time =>
    cases h
    exact .pass
  | prepareLogDir created entries =>
    simp only [next, Option.ite_none_right_eq_some] at h
    obtain ⟨hphase, h⟩ := h
    cases created <;> cases h
    · exact .noDir hphase
    · exact .prune hphase
  | archiveCurrentLog renamed =>
    simp only [next] at h
    split at h <;> cases h
    · exact .archive (.inl ⟨‹_›, rfl⟩)
    · rename_i i hphase
      rw [← hphase]
      exact .archive (.inr ⟨i, hphase, rfl⟩)
  | setup opened =>
    simp only [next, Option.ite_none_right_eq_some] at h
    obtain ⟨hphase, h⟩ := h
    cases opened <;> cases h
    · exact .notOpened hphase
    · exact .opened hphase
  | line bytes =>
    simp only [next] at h
    split at h <;> cases h
    exact .line ‹_›
  | exit =>
    cases h
    exact .exit


/-! ## Names -/

theorem archiveName_toList (timestamp : Nat) :
    (archiveName timestamp).toList =
      "wsrx-".toList ++ Nat.toDigits 10 timestamp ++ ".log".toList := by
  unfold archiveName
  rw [String.toList_append, String.toList_append, Nat.toString_eq_repr, Nat.toList_repr]

theorem archiveName_injective {m n : Nat} (h : archiveName m = archiveName n) : m = n := by
  have hlist := congrArg String.toList h
  rw [archiveName_toList, archiveName_toList, List.append_left_inj, List.append_right_inj] at hlist
  rw [← Nat.ofDigitChars_ten_toDigits (n := m), hlist, Nat.ofDigitChars_ten_toDigits]

theorem archiveName_ne_live (timestamp : Nat) : archiveName timestamp ≠ live := by
  intro h
  have hlist := congrArg (fun name ↦ name.toList[4]?) h
  simp [archiveName_toList, live] at hlist

/-! ## What a step does to the files -/

theorem State.takes_le {entry : Entry} (h : s.takes entry = true)
    (hi : s.fs.dir entry.name = some i) : s.modified i + threeDays < s.now := by
  unfold takes isStale at h
  rw [Bool.and_eq_true, Bool.and_eq_true, hi, Option.any_some, decide_eq_true_eq,
    decide_eq_true_eq] at h
  have hstale := h.1.2
  omega

/-- Nothing but what the start takes is gone, and that is. -/
structure Pruned (entries : List Entry) (s t : State) : Prop where
  data : t.fs.data = s.fs.data
  unused : t.fs.unused = s.fs.unused
  modified : t.modified = s.modified
  now : t.now = s.now
  names : ∀ name, t.fs.dir name = s.fs.dir name ∨
    t.fs.dir name = none ∧ ∃ entry ∈ entries, entry.name = name ∧ s.takes entry = true
  taken : ∀ entry ∈ entries, s.takes entry = true → t.fs.dir entry.name = none

theorem Pruned.refl (s : State) : Pruned [] s s :=
  ⟨rfl, rfl, rfl, rfl, fun _ ↦ .inl rfl, fun _ h ↦ by cases h⟩

-- A name is as stale as it was at first, unless it is gone.
theorem Pruned.takes {entries : List Entry} (h : Pruned entries s t) (entry : Entry)
    (hname : t.fs.dir entry.name = s.fs.dir entry.name) : t.takes entry = s.takes entry := by
  unfold State.takes State.isStale
  rw [hname, h.modified, h.now]

theorem State.prune_eq (entry : Entry) : ∃ fs : Fs String, s.prune entry = { s with fs := fs } ∧
    fs.data = s.fs.data ∧ fs.unused = s.fs.unused ∧
    ∀ name, fs.dir name = if s.takes entry = true ∧ name = entry.name then none
      else s.fs.dir name := by
  unfold prune
  split
  · rename_i htakes
    refine ⟨s.fs.remove entry.name, rfl, rfl, rfl, fun name ↦ ?_⟩
    show update s.fs.dir entry.name none name = _
    by_cases hname : name = entry.name
    · rw [if_pos ⟨htakes, hname⟩, hname, update_self]
    · rw [if_neg fun h ↦ hname h.2, update_of_ne hname]
  · rename_i htakes
    exact ⟨s.fs, rfl, rfl, rfl, fun name ↦ (if_neg fun h ↦ htakes h.1).symm⟩

theorem Pruned.prune {entries : List Entry} (h : Pruned entries s t) (entry : Entry) :
    Pruned (entries ++ [entry]) s (t.prune entry) := by
  obtain ⟨fs, heq, hdata, hunused, hdir⟩ := t.prune_eq entry
  rw [heq]
  refine ⟨hdata.trans h.data, hunused.trans h.unused, h.modified, h.now, fun name ↦ ?_,
    fun x hx hs ↦ ?_⟩
  · show fs.dir name = _ ∨ fs.dir name = none ∧ _
    rw [hdir]
    split
    · rename_i htaken
      obtain ⟨htakes, rfl⟩ := htaken
      refine .inr ⟨rfl, ?_⟩
      rcases h.names entry.name with hsame | ⟨-, x, hx, hs⟩
      · exact ⟨entry, List.mem_append_right _ (List.mem_singleton_self _), rfl,
          h.takes entry hsame ▸ htakes⟩
      · exact ⟨x, List.mem_append_left _ hx, hs⟩
    · refine (h.names name).imp_right ?_
      rintro ⟨hnone, x, hx, hs⟩
      exact ⟨hnone, x, List.mem_append_left _ hx, hs⟩
  · show fs.dir x.name = none
    rw [hdir]
    split
    · rfl
    · rename_i hnot
      rcases List.mem_append.mp hx with hx | hx
      · exact h.taken x hx hs
      · obtain rfl := List.mem_singleton.mp hx
        rcases h.names x.name with hsame | ⟨hnone, -⟩
        · exact absurd ⟨(h.takes x hsame).trans hs, rfl⟩ hnot
        · exact hnone

-- By induction on the entries that are left.
theorem Pruned.foldl {entries : List Entry} (h : Pruned entries s t) (more : List Entry) :
    Pruned (entries ++ more) s (more.foldl State.prune t) := by
  induction more generalizing entries t with
  | nil => rwa [List.append_nil]
  | cons entry more ih =>
    rw [List.append_cons]
    exact ih (h.prune entry)

/-- The live log gets a name of its own, or stays where it is. -/
theorem State.archive_cases (renamed : Bool) :
    (s.archive renamed = s ∧ (renamed = true → s.fs.dir live = none)) ∨
    ∃ i fs, renamed = true ∧ s.fs.dir live = some i ∧ s.archive renamed = { s with fs := fs } ∧
      fs.data = s.fs.data ∧ fs.unused = s.fs.unused ∧
      ∀ name, fs.dir name = if name = archiveName s.timestamp then some i
        else if name = live then none else s.fs.dir name := by
  unfold archive
  cases renamed with
  | false => exact .inl ⟨rfl, by simp⟩
  | true =>
    cases hr : s.fs.rename live (archiveName s.timestamp) with
    | none =>
      have hnone := @Fs.rename_isSome _ _ s.fs live (archiveName s.timestamp)
      rw [hr, Fs.read, Option.isSome_map] at hnone
      exact .inl ⟨rfl, fun _ ↦ by simpa using hnone⟩
    | some fs =>
      obtain ⟨i, hlive, hdata, hunused, hdir⟩ := Fs.rename_eq hr
      exact .inr ⟨i, fs, rfl, hlive, rfl, hdata, hunused, hdir⟩

/-- The logger opens the log there is, or makes a new one. -/
theorem State.openLive_cases :
    (∃ i, s.fs.dir live = some i ∧ s.openLive = s.setPhase (.running i)) ∨
    ∃ fs : Fs String, s.fs.dir live = none ∧
      s.openLive = { s with
        fs := fs
        modified := update s.modified s.fs.unused s.now
        phase := .running s.fs.unused } ∧
      fs.data = update s.fs.data s.fs.unused [] ∧ fs.unused = s.fs.unused + 1 ∧
      fs.dir = update s.fs.dir live (some s.fs.unused) := by
  unfold openLive
  cases hlive : s.fs.dir live with
  | some i => exact .inl ⟨i, rfl, rfl⟩
  | none =>
    refine .inr ⟨(s.fs.create live).1, rfl, rfl, ?_⟩
    unfold Fs.create
    split
    · rename_i i hsome
      rw [hlive] at hsome
      cases hsome
    · exact ⟨rfl, rfl, rfl⟩


/-! ## What becomes of a log -/

/-- The step is a line that is written to the inode. -/
def Writes (i : Nat) (e : Step) : Prop := e.pre.phase = .running i ∧ ∃ bytes, e.act = .line bytes

def wrote (i : Nat) (e : Step) : Bytes :=
  match e.act with
  | .line bytes => if e.pre.phase = .running i then bytes else []
  | _ => []

/-- What has been written to the inode. -/
def written (i : Nat) (tr : List Step) : Bytes := tr.flatMap (wrote i)

/-- The step gives the inode a name of its own. -/
def Archives (i : Nat) (e : Step) : Prop :=
  e.act = .archiveCurrentLog true ∧ e.pre.fs.dir live = some i

/-- The log is the live one, or under the name that it was given. -/
def Named (i : Nat) (tr : List Step) (s : State) : Prop :=
  ∃ name, s.fs.dir name = some i ∧
    (name = live ∨ ∃ e ∈ tr, Archives i e ∧ name = archiveName e.pre.timestamp)

/-- The step is a start that takes the inode away. -/
def Removes (i : Nat) (e : Step) : Prop :=
  ∃ entries entry, e.act = .prepareLogDir true entries ∧ entry ∈ entries ∧
    e.pre.takes entry = true ∧ e.pre.fs.dir entry.name = some i

/-- The log was taken away at a start more than three days after its last line. -/
def Expired (i : Nat) (tr : List Step) : Prop :=
  ∃ tr₁ e tr₂, tr = tr₁ ++ e :: tr₂ ∧ Removes i e ∧
    ∀ x ∈ tr₁, Writes i x → x.pre.now + threeDays < e.pre.now

/-- The log was replaced by another one that was archived in the same second. -/
def Collided (i : Nat) (tr : List Step) : Prop :=
  ∃ tr₁ e tr₂, tr = tr₁ ++ e :: tr₂ ∧ (∃ j, j ≠ i ∧ Archives j e) ∧
    ∃ x ∈ tr₁, Archives i x ∧ x.pre.timestamp = e.pre.timestamp

def Kept (i : Nat) (tr : List Step) (s : State) : Prop :=
  Named i tr s ∨ Expired i tr ∨ Collided i tr

theorem written_snoc : written i (tr ++ [e]) = written i tr ++ wrote i e := by
  unfold written
  rw [List.flatMap_append, List.flatMap_singleton]

theorem wrote_eq_nil (h : ¬ Writes i e) : wrote i e = [] := by
  unfold wrote
  split
  · rename_i bytes hact
    exact if_neg fun hphase ↦ h ⟨hphase, bytes, hact⟩
  · rfl

theorem Expired.snoc (h : Expired i tr) : Expired i (tr ++ [e]) := by
  obtain ⟨tr₁, e', tr₂, rfl, hact, hpast⟩ := h
  exact ⟨tr₁, e', tr₂ ++ [e], by simp, hact, hpast⟩

theorem Collided.snoc (h : Collided i tr) : Collided i (tr ++ [e]) := by
  obtain ⟨tr₁, e', tr₂, rfl, hact, hearlier⟩ := h
  exact ⟨tr₁, e', tr₂ ++ [e], by simp, hact, hearlier⟩

theorem Named.snoc (h : Named i tr s) (hdir : ∀ name, s.fs.dir name = some i →
    t.fs.dir name = some i) : Named i (tr ++ [e]) t := by
  obtain ⟨name, hname, hcase⟩ := h
  refine ⟨name, hdir name hname, hcase.imp_right ?_⟩
  rintro ⟨x, hx, harchives, heq⟩
  exact ⟨x, List.mem_append_left _ hx, harchives, heq⟩

/-- What holds of the files that were made since `first` was the next inode. -/
structure Inv (first : Nat) (tr : List Step) (s : State) : Prop where
  first_le : first ≤ s.fs.unused
  running : ∀ i, s.phase = .running i → i < s.fs.unused
  past : ∀ x ∈ tr, x.pre.now ≤ s.now
  writes : ∀ x ∈ tr, ∀ i, Writes i x → i < s.fs.unused ∧ x.pre.now ≤ s.modified i
  data : ∀ i, first ≤ i → i < s.fs.unused → s.fs.data i = written i tr
  kept : ∀ i, first ≤ i → i < s.fs.unused → Kept i tr s

variable {first : Nat}

-- A step that writes no line and makes no file.
theorem Inv.quiet (h : Inv first tr s) (hpre : e.pre = s) (hwrites : ∀ i, ¬ Writes i e)
    (hdata : t.fs.data = s.fs.data) (hunused : t.fs.unused = s.fs.unused)
    (hmodified : t.modified = s.modified) (hnow : s.now ≤ t.now)
    (hrunning : ∀ i, t.phase = .running i → i < s.fs.unused)
    (hkept : ∀ i, first ≤ i → i < s.fs.unused → Named i tr s → Kept i (tr ++ [e]) t) :
    Inv first (tr ++ [e]) t := by
  refine ⟨hunused ▸ h.first_le, fun i hi ↦ hunused ▸ hrunning i hi, fun x hx ↦ ?_,
    fun x hx i hw ↦ ?_, fun i hfirst hi ↦ ?_, fun i hfirst hi ↦ ?_⟩
  · rcases List.mem_append.mp hx with hx | hx
    · exact Nat.le_trans (h.past x hx) hnow
    · rw [List.mem_singleton.mp hx, hpre]
      exact hnow
  · rcases List.mem_append.mp hx with hx | hx
    · rw [hunused, hmodified]
      exact h.writes x hx i hw
    · rw [List.mem_singleton.mp hx] at hw
      exact absurd hw (hwrites i)
  · rw [hunused] at hi
    rw [hdata, written_snoc, wrote_eq_nil (hwrites i), List.append_nil]
    exact h.data i hfirst hi
  · rw [hunused] at hi
    rcases h.kept i hfirst hi with hnamed | hexpired | hcollided
    · exact hkept i hfirst hi hnamed
    · exact .inr (.inl hexpired.snoc)
    · exact .inr (.inr hcollided.snoc)

theorem Inv.same (h : Inv first tr s) (hpre : e.pre = s) (hwrites : ∀ i, ¬ Writes i e)
    (hfs : t.fs = s.fs) (hmodified : t.modified = s.modified) (hnow : s.now ≤ t.now)
    (hrunning : ∀ i, t.phase = .running i → i < s.fs.unused) : Inv first (tr ++ [e]) t := by
  refine h.quiet hpre hwrites (by rw [hfs]) (by rw [hfs]) hmodified hnow hrunning
    fun i _ _ hnamed ↦ .inl (hnamed.snoc fun name hname ↦ ?_)
  rw [hfs]
  exact hname

-- A log that is taken away is older than three days.
theorem Inv.prune {entries : List Entry} (h : Inv first tr s) (hp : Pruned entries s t)
    (hphase : ∀ i, t.phase ≠ .running i) :
    Inv first (tr ++ [⟨s, .prepareLogDir true entries, ()⟩]) t := by
  refine h.quiet rfl (fun i hw ↦ ?_) hp.data hp.unused hp.modified (Nat.le_of_eq hp.now.symm)
    (fun i hi ↦ absurd hi (hphase i)) fun i _ hi hnamed ↦ ?_
  · obtain ⟨-, bytes, hact⟩ := hw
    cases hact
  · obtain ⟨name, hname, hcase⟩ := hnamed
    rcases hp.names name with hsame | ⟨-, entry, hentry, rfl, htakes⟩
    · refine .inl ⟨name, hsame.trans hname, hcase.imp_right ?_⟩
      rintro ⟨x, hx, harchives, heq⟩
      exact ⟨x, List.mem_append_left _ hx, harchives, heq⟩
    · refine .inr (.inl ⟨tr, _, [], rfl, ⟨entries, entry, rfl, hentry, htakes, hname⟩,
        fun x hx hw ↦ ?_⟩)
      have hstale := State.takes_le htakes hname
      have hlast := (h.writes x hx i hw).2
      show x.pre.now + threeDays < s.now
      omega

-- What was under the new name had been archived in the same second.
theorem Inv.archive {j : Nat} {fs : Fs String} (h : Inv first tr s)
    (hlive : s.fs.dir live = some j) (hfs : t.fs = fs) (hdata : fs.data = s.fs.data)
    (hunused : fs.unused = s.fs.unused)
    (hdir : ∀ name, fs.dir name = if name = archiveName s.timestamp then some j
      else if name = live then none else s.fs.dir name)
    (hmodified : t.modified = s.modified) (hnow : t.now = s.now)
    (hrunning : ∀ i, t.phase = .running i → i < s.fs.unused) :
    Inv first (tr ++ [⟨s, .archiveCurrentLog true, ()⟩]) t := by
  have harchives : Archives j ⟨s, .archiveCurrentLog true, ()⟩ := ⟨rfl, hlive⟩
  refine h.quiet rfl (fun i hw ↦ ?_) (by rw [hfs, hdata]) (by rw [hfs, hunused]) hmodified
    (Nat.le_of_eq hnow.symm) hrunning fun i _ _ hnamed ↦ ?_
  · obtain ⟨-, bytes, hact⟩ := hw
    cases hact
  · by_cases hij : i = j
    · subst hij
      refine .inl ⟨archiveName s.timestamp, ?_, .inr ⟨_, List.mem_append_right _
        (List.mem_singleton_self _), harchives, rfl⟩⟩
      rw [hfs, hdir, if_pos rfl]
    · obtain ⟨name, hname, hcase⟩ := hnamed
      have hnot : name ≠ live := by
        intro heq
        rw [heq, hlive] at hname
        exact hij (Option.some.inj hname).symm
      obtain ⟨x, hx, hx', heq⟩ := hcase.resolve_left hnot
      by_cases hsame : name = archiveName s.timestamp
      · refine .inr (.inr ⟨tr, _, [], rfl, ⟨j, Ne.symm hij, harchives⟩, x, hx, hx', ?_⟩)
        exact archiveName_injective (heq.symm.trans hsame)
      · refine .inl ⟨name, ?_, .inr ⟨x, List.mem_append_left _ hx, hx', heq⟩⟩
        rw [hfs, hdir, if_neg hsame, if_neg hnot]
        exact hname


theorem written_eq_nil (h : ∀ x ∈ tr, ¬ Writes i x) : written i tr = [] := by
  unfold written
  rw [List.flatMap_eq_nil_iff]
  exact fun x hx ↦ wrote_eq_nil (h x hx)

-- Nothing has been written to the next inode, and no name is given to it.
theorem Inv.opened {fs : Fs String} (h : Inv first tr s) (hlive : s.fs.dir live = none)
    (hfs : t.fs = fs) (hdata : fs.data = update s.fs.data s.fs.unused [])
    (hunused : fs.unused = s.fs.unused + 1)
    (hdir : fs.dir = update s.fs.dir live (some s.fs.unused))
    (hmodified : t.modified = update s.modified s.fs.unused s.now) (hnow : t.now = s.now)
    (hphase : t.phase = .running s.fs.unused) : Inv first (tr ++ [⟨s, .setup true, ()⟩]) t := by
  have hsetup : ∀ i, ¬ Writes i (⟨s, .setup true, ()⟩ : Step) := by
    rintro i ⟨-, bytes, hact⟩
    cases hact
  have hnone : ∀ x ∈ tr, ¬ Writes s.fs.unused x := fun x hx hw ↦
    Nat.lt_irrefl _ (h.writes x hx _ hw).1
  refine ⟨?_, fun i hi ↦ ?_, fun x hx ↦ ?_, fun x hx i hw ↦ ?_, fun i hfirst hi ↦ ?_,
    fun i hfirst hi ↦ ?_⟩
  · rw [hfs, hunused]
    exact Nat.le_succ_of_le h.first_le
  · rw [hphase] at hi
    cases hi
    rw [hfs, hunused]
    exact Nat.lt_succ_self _
  · rw [hnow]
    rcases List.mem_append.mp hx with hx | hx
    · exact h.past x hx
    · rw [List.mem_singleton.mp hx]
  · rcases List.mem_append.mp hx with hx | hx
    · obtain ⟨hlt, hle⟩ := h.writes x hx i hw
      rw [hfs, hunused, hmodified, update_of_ne (Nat.ne_of_lt hlt)]
      exact ⟨Nat.lt_succ_of_lt hlt, hle⟩
    · rw [List.mem_singleton.mp hx] at hw
      exact absurd hw (hsetup i)
  · rw [hfs, hunused] at hi
    rw [hfs, hdata, written_snoc, wrote_eq_nil (hsetup i), List.append_nil]
    by_cases hnew : i = s.fs.unused
    · rw [hnew, update_self, written_eq_nil hnone]
    · rw [update_of_ne hnew]
      exact h.data i hfirst (by omega)
  · rw [hfs, hunused] at hi
    by_cases hnew : i = s.fs.unused
    · refine .inl ⟨live, ?_, .inl rfl⟩
      rw [hfs, hdir, update_self, hnew]
    · rcases h.kept i hfirst (by omega) with hnamed | hexpired | hcollided
      · refine .inl (hnamed.snoc fun name hname ↦ ?_)
        have hnot : name ≠ live := by
          intro heq
          rw [heq, hlive] at hname
          cases hname
        rw [hfs, hdir, update_of_ne hnot]
        exact hname
      · exact .inr (.inl hexpired.snoc)
      · exact .inr (.inr hcollided.snoc)

theorem Inv.line {j : Nat} {bytes : Bytes} (h : Inv first tr s) (hphase : s.phase = .running j) :
    Inv first (tr ++ [⟨s, .line bytes, ()⟩]) (s.append j bytes) := by
  have hwrites : ∀ i, Writes i (⟨s, .line bytes, ()⟩ : Step) ↔ i = j := by
    intro i
    constructor
    · rintro ⟨hi, -⟩
      exact Phase.running.inj (hi.symm.trans hphase)
    · rintro rfl
      exact ⟨hphase, bytes, rfl⟩
  refine ⟨h.first_le, h.running, fun x hx ↦ ?_, fun x hx i hw ↦ ?_, fun i hfirst hi ↦ ?_,
    fun i hfirst hi ↦ ?_⟩
  · rcases List.mem_append.mp hx with hx | hx
    · exact h.past x hx
    · rw [List.mem_singleton.mp hx]
      exact Nat.le_refl _
  · show i < s.fs.unused ∧ x.pre.now ≤ update s.modified j s.now i
    rcases List.mem_append.mp hx with hx | hx
    · obtain ⟨hlt, hle⟩ := h.writes x hx i hw
      refine ⟨hlt, ?_⟩
      by_cases hij : i = j
      · rw [hij, update_self]
        exact h.past x hx
      · rw [update_of_ne hij]
        exact hle
    · rw [List.mem_singleton.mp hx] at hw ⊢
      rw [(hwrites i).mp hw, update_self]
      exact ⟨h.running j hphase, Nat.le_refl _⟩
  · show update s.fs.data j (s.fs.data j ++ bytes) i = _
    rw [written_snoc]
    by_cases hij : i = j
    · subst hij
      have hwrote : wrote i (⟨s, .line bytes, ()⟩ : Step) = bytes := if_pos hphase
      rw [update_self, hwrote, h.data i hfirst hi]
    · rw [update_of_ne hij, wrote_eq_nil fun hw ↦ hij ((hwrites i).mp hw), List.append_nil]
      exact h.data i hfirst hi
  · rcases h.kept i hfirst hi with hnamed | hexpired | hcollided
    · exact .inl (hnamed.snoc fun _ hname ↦ hname)
    · exact .inr (.inl hexpired.snoc)
    · exact .inr (.inr hcollided.snoc)

theorem Inv.step (h : Inv first tr s) (hm : Moved s a t) : Inv first (tr ++ [⟨s, a, ()⟩]) t := by
  have hno : ∀ {a}, (∀ bytes, a ≠ .line bytes) → ∀ i, ¬ Writes i (⟨s, a, ()⟩ : Step) := by
    rintro a ha i ⟨-, bytes, hact⟩
    exact ha bytes hact
  cases hm with
  | pass => exact h.same rfl (hno (by simp)) rfl rfl (Nat.le_add_right _ _) h.running
  | @prune entries _ =>
    have hp := (Pruned.refl s).foldl entries
    exact h.prune ⟨hp.data, hp.unused, hp.modified, hp.now, hp.names, hp.taken⟩
      fun i hi ↦ by cases hi
  | noDir _ => exact h.same rfl (hno (by simp)) rfl rfl (Nat.le_refl _) fun i hi ↦ by cases hi
  | @archive renamed phase hphase =>
    have hrunning : ∀ i, phase = .running i → i < s.fs.unused := by
      rcases hphase with ⟨-, rfl⟩ | ⟨j, -, rfl⟩
      · exact fun i hi ↦ by cases hi
      · exact h.running
    rcases s.archive_cases renamed with
      ⟨hsame, -⟩ | ⟨j, fs, rfl, hlive, harchive, hdata, hunused, hdir⟩
    · rw [hsame]
      exact h.same rfl (hno (by simp)) rfl rfl (Nat.le_refl _) hrunning
    · rw [harchive]
      exact h.archive hlive rfl hdata hunused hdir rfl rfl hrunning
  | opened _ =>
    rcases s.openLive_cases with ⟨j, hlive, hopen⟩ | ⟨fs, hlive, hopen, hdata, hunused, hdir⟩
    · rw [hopen]
      refine h.same rfl (hno (by simp)) rfl rfl (Nat.le_refl _) fun i hi ↦ ?_
      cases hi
      exact s.fs.ok.lt live _ hlive
    · rw [hopen]
      exact h.opened hlive rfl hdata hunused hdir rfl rfl rfl
  | notOpened _ => exact h.same rfl (hno (by simp)) rfl rfl (Nat.le_refl _) fun i hi ↦ by cases hi
  | line hphase => exact h.line hphase
  | exit => exact h.same rfl (hno (by simp)) rfl rfl (Nat.le_refl _) fun i hi ↦ by cases hi

/-- Before the first session, with the files there are. -/
def start (fs : Fs String) (modified : Nat → Nat) (now : Nat) : State :=
  ⟨fs, modified, now, .stopped⟩

variable {fs : Fs String} {modified : Nat → Nat} {now : Nat}

theorem inv (h : Run next (start fs modified now) tr s) : Inv fs.unused tr s := by
  refine h.history (P := Inv fs.unused) (C := fun _ ↦ True) ?_ ?_ fun _ _ ↦ trivial
  · exact ⟨Nat.le_refl _, fun i hi ↦ by (cases hi), fun x hx ↦ by (cases hx),
      fun x hx ↦ by (cases hx), fun i hfirst hi ↦ absurd hi (Nat.not_lt.mpr hfirst),
      fun i hfirst hi ↦ absurd hi (Nat.not_lt.mpr hfirst)⟩
  · exact fun l v a _ w hv _ hnext ↦ hv.step (next_moved hnext)

/-! ## A log that is gone -/

/-- The log that was made has no other name than these. -/
structure Within (names : String → Prop) (i : Nat) (s : State) : Prop where
  lt : i < s.fs.unused
  names : ∀ name, s.fs.dir name = some i → names name

-- No step gives a log a name, but for the live one.
theorem Within.step {names : String → Prop} (hlive : ¬ names live) (h : Within names i s)
    (hm : Moved s a t) : Within names i t := by
  have hsame : t.fs = s.fs → Within names i t := fun hfs ↦ ⟨hfs ▸ h.lt, hfs ▸ h.names⟩
  cases hm with
  | pass => exact hsame rfl
  | @prune entries _ =>
    have hp := (Pruned.refl s).foldl entries
    refine ⟨lt_of_lt_of_eq h.lt hp.unused.symm, fun name hname ↦ ?_⟩
    rcases hp.names name with hkept | ⟨hnone, -⟩
    · exact h.names name (hkept.symm.trans hname)
    · cases hnone.symm.trans hname
  | noDir _ => exact hsame rfl
  | @archive renamed phase _ =>
    rcases s.archive_cases renamed with ⟨harchive, -⟩ | ⟨j, fs, -, hj, harchive, -, hunused, hdir⟩
    · refine hsame ?_
      rw [harchive]
      rfl
    · rw [harchive]
      refine ⟨lt_of_lt_of_eq h.lt hunused.symm, fun name hname ↦ ?_⟩
      have hname' : fs.dir name = some i := hname
      rw [hdir] at hname'
      split at hname'
      · rw [hname'] at hj
        exact absurd (h.names live hj) hlive
      · split at hname'
        · cases hname'
        · exact h.names name hname'
  | opened _ =>
    rcases s.openLive_cases with ⟨j, -, hopen⟩ | ⟨fs, -, hopen, -, hunused, hdir⟩
    · refine hsame ?_
      rw [hopen]
      rfl
    · rw [hopen]
      refine ⟨lt_of_lt_of_eq (Nat.lt_succ_of_lt h.lt) hunused.symm, fun name hname ↦ ?_⟩
      have hname' : fs.dir name = some i := hname
      rw [hdir] at hname'
      by_cases heq : name = live
      · rw [heq, update_self] at hname'
        exact absurd (Option.some.inj hname') (Nat.ne_of_gt h.lt)
      · rw [update_of_ne heq] at hname'
        exact h.names name hname'
  | notOpened _ => exact hsame rfl
  | line _ => exact ⟨h.lt, h.names⟩
  | exit => exact hsame rfl

theorem Within.run {names : String → Prop} (hlive : ¬ names live) (h : Within names i s)
    (hrun : Run next s tr t) : Within names i t :=
  hrun.invariant (C := fun _ ↦ True) h (fun _ _ _ _ hv _ hn ↦ hv.step hlive (next_moved hn))
    fun _ _ ↦ trivial

theorem Within.not_named (h : Within (fun _ ↦ False) i s) : ¬ Named i tr s := by
  rintro ⟨name, hname, -⟩
  exact h.names name hname

-- The name that the start takes is the only one the log has.
theorem Removes.within (h : Removes i e) (hm : Moved e.pre e.act t) :
    Within (fun _ ↦ False) i t := by
  obtain ⟨entries, entry, hact, hentry, htakes, hname⟩ := h
  rw [hact] at hm
  cases hm with
  | prune _ =>
    have hp := (Pruned.refl e.pre).foldl entries
    refine ⟨lt_of_lt_of_eq (e.pre.fs.ok.lt _ _ hname) hp.unused.symm, fun name hi ↦ ?_⟩
    have hold : e.pre.fs.dir name = some i := by
      rcases hp.names name with hkept | ⟨hnone, -⟩
      · exact hkept.symm.trans hi
      · cases hnone.symm.trans hi
    rw [e.pre.fs.ok.inj name entry.name i hold hname] at hi
    cases (hp.taken entry hentry htakes).symm.trans hi

theorem Archives.dir_eq {j : Nat} (h : Archives j e) (hm : Moved e.pre e.act t) :
    t.fs.unused = e.pre.fs.unused ∧
      ∀ name, t.fs.dir name = if name = archiveName e.pre.timestamp then some j
        else if name = live then none else e.pre.fs.dir name := by
  obtain ⟨hact, hlive⟩ := h
  rw [hact] at hm
  cases hm with
  | archive _ =>
    rcases e.pre.archive_cases true with
      ⟨-, hnone⟩ | ⟨j', fs, -, hlive', harchive, -, hunused, hdir⟩
    · cases (hnone rfl).symm.trans hlive
    · cases hlive.symm.trans hlive'
      rw [harchive]
      exact ⟨hunused, hdir⟩

theorem Archives.within (h : Archives i e) (hm : Moved e.pre e.act t) :
    Within (· = archiveName e.pre.timestamp) i t := by
  obtain ⟨hunused, hdir⟩ := h.dir_eq hm
  refine ⟨lt_of_lt_of_eq (e.pre.fs.ok.lt live i h.2) hunused.symm, fun name hname ↦ ?_⟩
  by_contra hne
  rw [hdir, if_neg hne] at hname
  split at hname
  · cases hname
  · rename_i hnot
    exact hnot (e.pre.fs.ok.inj name live i hname h.2)

-- The name that the log has is given to another one.
theorem Within.replaced {j : Nat} (h : Within (· = archiveName e.pre.timestamp) i e.pre)
    (hne : j ≠ i) (harchives : Archives j e) (hm : Moved e.pre e.act t) :
    Within (fun _ ↦ False) i t := by
  obtain ⟨hunused, hdir⟩ := harchives.dir_eq hm
  refine ⟨lt_of_lt_of_eq h.lt hunused.symm, fun name hname ↦ ?_⟩
  rw [hdir] at hname
  split at hname
  · exact hne (Option.some.inj hname)
  · rename_i hnot
    split at hname
    · cases hname
    · exact hnot (h.names name hname)

theorem Expired.not_named (h : Expired i tr) (hrun : Run next s tr t) : ¬ Named i tr t := by
  obtain ⟨tr₁, e, tr₂, rfl, hremoves, -⟩ := h
  obtain ⟨u, -, hnext, hrest⟩ := hrun.cut
  exact ((hremoves.within (next_moved hnext)).run id hrest).not_named

theorem Collided.not_named (h : Collided i tr) (hrun : Run next s tr t) : ¬ Named i tr t := by
  obtain ⟨tr₁, e, tr₂, rfl, ⟨j, hne, harchives⟩, x, hx, hx', hsame⟩ := h
  obtain ⟨u, hbefore, hnext, hrest⟩ := hrun.cut
  obtain ⟨l₁, l₂, rfl⟩ := List.append_of_mem hx
  obtain ⟨v, -, hnext', hbetween⟩ := hbefore.cut
  have hx := hx'.within (next_moved hnext')
  rw [hsame] at hx
  have he := hx.run (archiveName_ne_live _).symm hbetween
  exact ((he.replaced hne harchives (next_moved hnext)).run id hrest).not_named

/-- However often sessions end, are cut off or fail to rename or to remove a file: a log that was
made has every line written to it and nothing else.  It is found as the live log or under the name
it was given, if and only if no start has taken it away, which it does more than three days after
the last line, and no other log has been archived in the same second. -/
theorem logs_kept (h : Run next (start fs modified now) tr s) (hfirst : fs.unused ≤ i)
    (hi : i < s.fs.unused) :
    s.fs.data i = written i tr ∧ (Named i tr s ↔ ¬ Expired i tr ∧ ¬ Collided i tr) := by
  refine ⟨(inv h).data i hfirst hi, fun hnamed ↦ ⟨fun hexpired ↦ hexpired.not_named h hnamed,
    fun hcollided ↦ hcollided.not_named h hnamed⟩, ?_⟩
  rintro ⟨hexpired, hcollided⟩
  rcases (inv h).kept i hfirst hi with hnamed | hexpired' | hcollided'
  · exact hnamed
  · exact absurd hexpired' hexpired
  · exact absurd hcollided' hcollided

def sampleStart : State := start Fs.empty (fun _ ↦ 0) 0

/-- A session that writes a line and is archived when it ends. -/
def sampleSession (bytes : Bytes) : List Action :=
  [.prepareLogDir true [], .archiveCurrentLog true, .setup true, .line bytes,
    .archiveCurrentLog true, .exit]

/-- The step does not take the first log away, nor does it archive another one in second zero. -/
def sparesFirst (e : Step) : Bool :=
  match e.act with
  | .prepareLogDir _ entries => entries.all fun entry ↦
      !(e.pre.takes entry && decide (e.pre.fs.dir entry.name = some 0))
  | .archiveCurrentLog _ => (e.pre.fs.dir live).all fun i ↦ decide (i = 0 ↔ e.pre.timestamp = 0)
  | _ => true

theorem not_expired_of_spares (h : ∀ e ∈ tr, sparesFirst e = true) : ¬ Expired 0 tr := by
  rintro ⟨tr₁, e, tr₂, rfl, ⟨entries, entry, hact, hentry, htakes, hname⟩, -⟩
  have he := h e (List.mem_append_right _ (List.mem_cons_self ..))
  unfold sparesFirst at he
  rw [hact] at he
  have hspared := List.all_eq_true.mp he entry hentry
  rw [htakes, hname] at hspared
  cases hspared

theorem not_collided_of_spares (h : ∀ e ∈ tr, sparesFirst e = true) : ¬ Collided 0 tr := by
  rintro ⟨tr₁, e, tr₂, rfl, ⟨j, hne, hact, hlive⟩, x, hx, ⟨hact', hlive'⟩, hsame⟩
  have he := h e (List.mem_append_right _ (List.mem_cons_self ..))
  have hx := h x (List.mem_append_left _ hx)
  unfold sparesFirst at he hx
  rw [hact] at he
  rw [hact'] at hx
  rw [hlive, Option.all_some, decide_eq_true_eq] at he
  rw [hlive', Option.all_some, decide_eq_true_eq, hsame] at hx
  exact hne (he.mpr (hx.mp rfl))

-- Two sessions, a second apart; the log of the second one is taken away six days later.
theorem logs_kept_sample : ∃ tr s, Run next sampleStart tr s ∧ s.fs.data 0 = written 0 tr ∧
    Named 0 tr s ∧ ¬ Named 1 tr s := by
  obtain ⟨tr₁, e, tr₂, s, hrun, hact, hp⟩ := exists_run_at next sampleStart
    (sampleSession [1] ++ [.pass secondNanos] ++ sampleSession [2] ++ [.pass (2 * threeDays)])
    (.prepareLogDir true [⟨archiveName 1, true⟩]) [.archiveCurrentLog true, .setup true, .line [3]]
    (fun tr₁ e tr₂ s ↦ s.fs.unused = 3 && (tr₁ ++ e :: tr₂).all sparesFirst &&
      e.pre.takes ⟨archiveName 1, true⟩ && e.pre.fs.dir (archiveName 1) = some 1 &&
      tr₁.all fun x ↦ decide (x.pre.phase = .running 1 → x.pre.now + threeDays < e.pre.now))
    (by decide +kernel)
  simp only [Bool.and_eq_true, decide_eq_true_eq, List.all_eq_true] at hp
  obtain ⟨⟨⟨⟨hunused, hspares⟩, htakes⟩, hname⟩, hlines⟩ := hp
  obtain ⟨hdata, hnamed⟩ := logs_kept (i := 0) hrun (Nat.le_refl _) (by omega)
  refine ⟨_, s, hrun, hdata, hnamed.mpr ⟨not_expired_of_spares hspares,
    not_collided_of_spares hspares⟩, fun hsecond ↦ ?_⟩
  have hexpired : Expired 1 (tr₁ ++ e :: tr₂) := ⟨tr₁, e, tr₂, rfl,
    ⟨_, _, hact, List.mem_singleton_self _, htakes, hname⟩,
    fun x hx hw ↦ hlines x hx hw.1⟩
  exact ((logs_kept (i := 1) hrun (Nat.zero_le _) (by omega)).2.mp hsecond).1 hexpired

/-! ## One session -/

def isSetup (e : Step) : Bool :=
  match e.act with
  | .setup opened => opened
  | _ => false

def lineBytes (e : Step) : Bytes :=
  match e.act with
  | .line bytes => bytes
  | _ => []

/-- The lines up to the next session. -/
def session (tr : List Step) : Bytes := (tr.takeWhile fun e ↦ !isSetup e).flatMap lineBytes

/-- The directory is there, and the file is renamed. -/
def Works (e : Step) : Prop :=
  e.act ≠ .archiveCurrentLog false ∧ ∀ entries, e.act ≠ .prepareLogDir false entries

theorem session_snoc : session (tr ++ [e]) = session tr ++
    if (tr.all fun e ↦ !isSetup e) then lineBytes e else [] := by
  unfold session
  rw [List.takeWhile_append]
  by_cases hall : (tr.all fun e ↦ !isSetup e) = true
  · have hself : (tr.takeWhile fun e ↦ !isSetup e) = tr :=
      List.takeWhile_eq_self_iff.mpr (List.all_eq_true.mp hall)
    rw [hself, if_pos rfl, if_pos hall, List.flatMap_append]
    congr 1
    cases he : isSetup e with
    | false => simp [he]
    | true =>
      have hnone : lineBytes e = [] := by
        unfold isSetup at he
        unfold lineBytes
        split at he
        · rename_i hact
          rw [hact]
        · cases he
      rw [hnone]
      simp [he]
  · have hne : (tr.takeWhile fun e ↦ !isSetup e).length ≠ tr.length := by
      intro hlen
      refine hall (List.all_eq_true.mpr (List.takeWhile_eq_self_iff.mp ?_))
      exact (List.takeWhile_prefix _).eq_of_length hlen
    rw [if_neg hne, if_neg hall, List.append_nil]

/-- There is no log when the logger is about to be set up. -/
def Clean (s : State) : Prop := s.phase = .prepared → s.fs.dir live = none

theorem Clean.step (h : Clean s) (hworks : Works ⟨s, a, ()⟩) (hm : Moved s a t) : Clean t := by
  intro hphase
  cases hm with
  | pass => exact h hphase
  | prune _ => cases hphase
  | noDir _ => exact absurd rfl (hworks.2 _)
  | @archive renamed phase _ =>
    cases renamed with
    | false => exact absurd rfl hworks.1
    | true =>
      rcases s.archive_cases true with ⟨hsame, hnone⟩ | ⟨j, fs, -, -, harchive, -, -, hdir⟩
      · rw [hsame]
        exact hnone rfl
      · rw [harchive]
        show fs.dir live = none
        rw [hdir, if_neg (archiveName_ne_live _).symm, if_pos rfl]
  | opened hprepared =>
    rcases s.openLive_cases with ⟨j, -, hopen⟩ | ⟨fs, -, hopen, -⟩ <;> rw [hopen] at hphase <;>
      cases hphase
  | notOpened _ => cases hphase
  | line hrunning => cases hrunning.symm.trans hphase
  | exit => cases hphase

/-- The session that writes to `i` is the one that has gone on since the trace began. -/
structure Writer (i : Nat) (tr : List Step) (s : State) : Prop where
  clean : Clean s
  lt : i < s.fs.unused
  running : ∀ j, s.phase = .running j → (j = i ↔ (tr.all fun e ↦ !isSetup e) = true)
  written : written i tr = session tr

theorem Writer.step (h : Writer i tr s) (hworks : Works ⟨s, a, ()⟩) (hm : Moved s a t) :
    Writer i (tr ++ [⟨s, a, ()⟩]) t := by
  have hclean := h.clean.step hworks hm
  -- a step that writes no line
  have hquiet : lineBytes ⟨s, a, ()⟩ = [] → (∀ i, ¬ Writes i ⟨s, a, ()⟩) →
      LogFiles.written i (tr ++ [⟨s, a, ()⟩]) = session (tr ++ [⟨s, a, ()⟩]) := by
    intro hline hwrites
    rw [written_snoc, session_snoc, wrote_eq_nil (hwrites i), hline, h.written]
    split <;> rfl
  have hno : (∀ bytes, a ≠ .line bytes) → ∀ i, ¬ Writes i (⟨s, a, ()⟩ : Step) := by
    rintro ha i ⟨-, bytes, hact⟩
    exact ha bytes hact
  have hall : isSetup ⟨s, a, ()⟩ = false → ((tr ++ [(⟨s, a, ()⟩ : Step)]).all fun e ↦ !isSetup e) =
      tr.all fun e ↦ !isSetup e := by
    intro he
    rw [List.all_append, List.all_cons, he]
    simp
  cases hm with
  | pass =>
    exact ⟨hclean, h.lt, fun j hj ↦ (hall rfl).symm ▸ h.running j hj, hquiet rfl (hno (by simp))⟩
  | @prune entries _ =>
    have hp := (Pruned.refl s).foldl entries
    exact ⟨hclean, lt_of_lt_of_eq h.lt hp.unused.symm, fun j hj ↦ (by cases hj),
      hquiet rfl (hno (by simp))⟩
  | noDir _ => exact absurd rfl (hworks.2 _)
  | @archive renamed phase hphase =>
    refine ⟨hclean, ?_, fun j hj ↦ ?_, hquiet rfl (hno (by simp))⟩
    · rcases s.archive_cases renamed with ⟨hsame, -⟩ | ⟨j, fs, -, -, harchive, -, hunused, -⟩
      · rw [hsame]
        exact h.lt
      · rw [harchive]
        exact lt_of_lt_of_eq h.lt hunused.symm
    · rw [hall rfl]
      rcases hphase with ⟨-, rfl⟩ | ⟨j', -, rfl⟩
      · cases hj
      · exact h.running j hj
  | opened hprepared =>
    rcases s.openLive_cases with ⟨j, hlive, -⟩ | ⟨fs, -, hopen, -, hunused, -⟩
    · rw [h.clean hprepared] at hlive
      cases hlive
    · have hlt := h.lt
      refine ⟨hclean, ?_, fun j hj ↦ ?_, hquiet rfl (hno (by simp))⟩
      · rw [hopen]
        show i < fs.unused
        omega
      · rw [hopen] at hj
        cases hj
        rw [List.all_append]
        exact iff_of_false (Nat.ne_of_gt hlt) (by simp [isSetup])
  | notOpened _ => exact ⟨hclean, h.lt, fun j hj ↦ (by cases hj), hquiet rfl (hno (by simp))⟩
  | @line bytes j hphase =>
    refine ⟨hclean, h.lt, fun j hj ↦ (hall rfl).symm ▸ h.running j hj, ?_⟩
    have hwrote : wrote i (⟨s, .line bytes, ()⟩ : Step) = if j = i then bytes else [] := by
      unfold wrote
      simp only [hphase, Phase.running.injEq]
    have hsame : (if j = i then bytes else []) =
        if (tr.all fun e ↦ !isSetup e) = true then bytes else [] := by
      by_cases hij : j = i
      · rw [if_pos hij, if_pos ((h.running j hphase).mp hij)]
      · rw [if_neg hij, if_neg fun ht ↦ hij ((h.running j hphase).mpr ht)]
    rw [written_snoc, session_snoc, hwrote, h.written, hsame]
    rfl
  | exit => exact ⟨hclean, h.lt, fun j hj ↦ (by cases hj), hquiet rfl (hno (by simp))⟩

/-- Where the directory can be made and the log renamed, every session has a log of its own: it
holds what the session wrote, whether it ended or was cut off, and nothing of another session. -/
theorem sessions_apart {tr₁ tr₂ : List Step}
    (h : Run next (start fs modified now) (tr₁ ++ e :: tr₂) s) (hsetup : e.act = .setup true)
    (hworks : ∀ x ∈ tr₁ ++ e :: tr₂, Works x) :
    s.fs.data e.pre.fs.unused = session tr₂ := by
  obtain ⟨u, h₁, hnext, h₂⟩ := h.cut
  have hbefore : Inv fs.unused tr₁ e.pre ∧ Clean e.pre :=
    ⟨inv h₁, h₁.invariant (C := Works) (fun hphase ↦ by cases hphase)
      (fun _ _ _ _ hc hw hn ↦ hc.step hw (next_moved hn))
      fun x hx ↦ hworks x (List.mem_append_left _ hx)⟩
  obtain ⟨hinv, hclean⟩ := hbefore
  obtain ⟨v, a, o⟩ := e
  dsimp only at hsetup hnext hinv hclean ⊢
  subst hsetup
  have hm := next_moved hnext
  have hu : Writer v.fs.unused [] u := by
    cases hm with
    | opened hprepared =>
      rcases v.openLive_cases with ⟨j, hlive, -⟩ | ⟨fs', -, hopen, -, hunused, -⟩
      · rw [hclean hprepared] at hlive
        cases hlive
      · rw [hopen]
        refine ⟨fun hphase ↦ (by cases hphase), ?_, fun j hj ↦ ?_, rfl⟩
        · show v.fs.unused < fs'.unused
          omega
        · cases hj
          exact iff_of_true rfl rfl
  have hend : Writer v.fs.unused tr₂ s := by
    refine h₂.history (P := Writer v.fs.unused) (C := Works) hu
      (fun _ _ _ _ _ hw hworks hn ↦ hw.step hworks (next_moved hn)) fun x hx ↦ ?_
    exact hworks x (List.mem_append_right _ (List.mem_cons_of_mem _ hx))
  have hnone : written v.fs.unused (tr₁ ++ [⟨v, .setup true, ()⟩]) = [] := by
    refine written_eq_nil fun x hx hw ↦ ?_
    rcases List.mem_append.mp hx with hx | hx
    · exact Nat.lt_irrefl _ (hinv.writes x hx _ hw).1
    · rw [List.mem_singleton.mp hx] at hw
      obtain ⟨-, bytes, hact⟩ := hw
      cases hact
  rw [(inv h).data v.fs.unused hinv.first_le hend.lt, List.append_cons]
  unfold written at hnone ⊢
  rw [List.flatMap_append, hnone]
  exact hend.written

-- The first session is cut off, and the second one archives its log.
theorem sessions_apart_sample : ∃ tr s, Run next sampleStart tr s ∧ s.fs.data 0 = [1] := by
  obtain ⟨tr₁, e, tr₂, s, hrun, hact, hp⟩ := exists_run_at next sampleStart
    [.prepareLogDir true [], .archiveCurrentLog true] (.setup true)
    ([.line [1], .exit] ++ sampleSession [2])
    (fun tr₁ e tr₂ _ ↦ e.pre.fs.unused = 0 && session tr₂ = [1] &&
      (tr₁ ++ e :: tr₂).all fun x ↦ match x.act with
        | .archiveCurrentLog renamed => renamed
        | .prepareLogDir created _ => created
        | _ => true) (by decide +kernel)
  simp only [Bool.and_eq_true, decide_eq_true_eq, List.all_eq_true] at hp
  obtain ⟨⟨hunused, hsession⟩, hacts⟩ := hp
  have hapart := sessions_apart hrun hact fun x hx ↦
    ⟨fun hx' ↦ by simpa [hx'] using hacts x hx, fun _ hx' ↦ by simpa [hx'] using hacts x hx⟩
  rw [hunused, hsession] at hapart
  exact ⟨_, s, hrun, hapart⟩

end LabStreamGate.Desktop.LogFiles
