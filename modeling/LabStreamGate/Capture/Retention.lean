import LabStreamGate.Capture.Writer
import LabStreamGate.Library.Eviction

/-!
# Retention of captures

`cleanup_capture_files` removes what is older than some days, and then the oldest captures as long
as all of them together are too large.  Any removal may fail.
-/

namespace LabStreamGate.Capture

/-! ## The directory tree -/

/-- How `read_dir` goes. -/
inductive ReadDir
  | done
  | notFound
  | failed
  deriving DecidableEq, Repr

/-- What a directory holds, in the order in which it is read. -/
inductive Entries
  | nil
  | file (name : String) (modified : Option SystemTime) (size : UInt64) (rest : Entries)
  | directory (name : String) (read : ReadDir) (entries rest : Entries)

namespace Entries

def names : Entries → List String
  | nil => []
  | file name _ _ rest => name :: rest.names
  | directory name _ _ rest => name :: rest.names

/-- No two entries of a directory have one name. -/
def Distinct : Entries → Prop
  | nil => True
  | file name _ _ rest => name ∉ rest.names ∧ rest.Distinct
  | directory name _ entries rest => name ∉ rest.names ∧ entries.Distinct ∧ rest.Distinct

/-- Every directory can be read. -/
def readable : Entries → Bool
  | nil => true
  | file _ _ _ rest => rest.readable
  | directory _ read entries rest => read == .done && entries.readable && rest.readable

end Entries

/-- The directory of all captures. -/
structure CaptureTree where
  read : ReadDir
  entries : Entries
  distinct : entries.Distinct

/-- A file, by its path under the directory of all captures. -/
structure CaptureFile where
  path : List String
  modified : SystemTime
  size : UInt64
  deriving DecidableEq, Repr

/-! ## `collect_pcaps` -/

/-- `Path::extension`: what stands after the last point, if the name has more before it. -/
def extension (name : String) : Option String :=
  (rsplitOnce '.' name).bind fun parts ↦ if parts.1 = "" then none else some parts.2

def unixEpoch : SystemTime := ⟨0⟩

/-- What comes of the entries of a directory once they are to be read. -/
def ReadDir.collected (read : ReadDir) (files : Option (List CaptureFile)) :
    Option (List CaptureFile) :=
  match read with
  | .done => files
  | .notFound => some []
  | .failed => none

def Entries.collectPcaps (path : List String) : Entries → Option (List CaptureFile)
  | .nil => some []
  | .file name modified size rest =>
    (rest.collectPcaps path).map fun files ↦
      if extension name = some "pcap" then
        ⟨path ++ [name], modified.getD unixEpoch, size⟩ :: files
      else files
  | .directory name read entries rest =>
    (read.collected (entries.collectPcaps (path ++ [name]))).bind fun inner ↦
      (rest.collectPcaps path).map fun files ↦ inner ++ files

def collectPcaps (tree : CaptureTree) : Option (List CaptureFile) :=
  tree.read.collected (tree.entries.collectPcaps [])

/-! ## `cleanup_capture_files` -/

def SystemTime.checkedSub (time : SystemTime) (secs : Nat) : Option SystemTime :=
  if time.nanos / 1000000000 - secs < -(2 ^ 63) then none
  else some ⟨time.nanos - secs * 1000000000⟩

def cutoff (now : SystemTime) (retentionDays : UInt64) : SystemTime :=
  (now.checkedSub (min (retentionDays.toNat * 86400) (2 ^ 64 - 1))).getD unixEpoch

def isOlder (cutoff : SystemTime) (file : CaptureFile) : Bool := file.modified.nanos < cutoff.nanos

/-- The order of `sort_by_key`. -/
def notAfter (a b : CaptureFile) : Prop := a.modified.nanos ≤ b.modified.nanos

instance : DecidableRel notAfter := fun a b ↦
  inferInstanceAs (Decidable (a.modified.nanos ≤ b.modified.nanos))

/-- `iter().sum()`. -/
def totalSize : List CaptureFile → UInt64
  | [] => 0
  | file :: files => file.size + totalSize files

section

variable (fails : List String → Bool)

/-- The files that the first loop tries to remove. -/
def removeOld (cutoff : SystemTime) (files : List CaptureFile) : List CaptureFile :=
  files.filter (isOlder cutoff)

/-- The files that the second loop tries to remove; `total` is the size of what is left. -/
def removeExcess (maxTotalBytes : UInt64) : UInt64 → List CaptureFile → List CaptureFile
  | _, [] => []
  | total, file :: files =>
    if total ≤ maxTotalBytes then []
    else
      -- `saturating_sub`
      let left := if total < file.size then 0 else total - file.size
      file :: removeExcess maxTotalBytes (if fails file.path then total else left) files

/-- The files whose removal is tried, in this order; none where the captures cannot be read. -/
def cleanupCaptureFiles (now : SystemTime) (retentionDays maxTotalBytes : UInt64)
    (tree : CaptureTree) : Option (List CaptureFile) :=
  (collectPcaps tree).map fun files ↦
    let old := removeOld (cutoff now retentionDays) files
    let isGone := fun path ↦ old.any fun file ↦ file.path == path && !fails file.path
    let files := files.filter fun file ↦ !isGone file.path
    let files := files.insertionSort notAfter
    old ++ removeExcess fails maxTotalBytes (totalSize files) files

end

/-! ## The files of a tree -/

/-- All files, whatever their names. -/
def Entries.allFiles (path : List String) : Entries → List CaptureFile
  | .nil => []
  | .file name modified size rest =>
    ⟨path ++ [name], modified.getD unixEpoch, size⟩ :: rest.allFiles path
  | .directory name _ entries rest => entries.allFiles (path ++ [name]) ++ rest.allFiles path

def CaptureFile.isPcap (file : CaptureFile) : Bool :=
  file.path.getLast?.bind extension == some "pcap"

def CaptureTree.allFiles (tree : CaptureTree) : List CaptureFile :=
  if tree.read = .done then tree.entries.allFiles [] else []

/-- The captures of a tree. -/
def CaptureTree.pcaps (tree : CaptureTree) : List CaptureFile :=
  tree.allFiles.filter CaptureFile.isPcap

def CaptureTree.Readable (tree : CaptureTree) : Prop :=
  tree.read ≠ .failed ∧ tree.entries.readable = true

variable {tree : CaptureTree} {entries : Entries} {path : List String} {file : CaptureFile}

theorem Entries.collectPcaps_eq (h : entries.readable = true) :
    entries.collectPcaps path = some ((entries.allFiles path).filter CaptureFile.isPcap) := by
  induction entries generalizing path with
  | nil => rfl
  | file name modified size rest ih =>
    rw [collectPcaps, ih h, allFiles, List.filter_cons, Option.map_some]
    simp [CaptureFile.isPcap]
  | directory name read entries rest ihEntries ihRest =>
    simp only [readable, Bool.and_eq_true, beq_iff_eq] at h
    obtain ⟨⟨rfl, hentries⟩, hrest⟩ := h
    rw [collectPcaps, ihEntries hentries, ihRest hrest, allFiles, List.filter_append]
    rfl

/-- All captures are found. -/
theorem collectPcaps_eq (h : tree.Readable) : collectPcaps tree = some tree.pcaps := by
  rw [collectPcaps, Entries.collectPcaps_eq h.2, CaptureTree.pcaps, CaptureTree.allFiles]
  cases hread : tree.read with
  | done => rfl
  | notFound => rfl
  | failed => exact absurd hread h.1

theorem Entries.exists_name (h : file ∈ entries.allFiles path) :
    ∃ name ∈ entries.names, path ++ [name] <+: file.path := by
  induction entries generalizing path with
  | nil => cases h
  | file name modified size rest ih =>
    rcases List.mem_cons.mp h with rfl | h
    · exact ⟨name, List.mem_cons_self, List.prefix_refl _⟩
    · obtain ⟨name', hname', hpre⟩ := ih h
      exact ⟨name', List.mem_cons_of_mem name hname', hpre⟩
  | directory name read entries rest ihEntries ihRest =>
    rcases List.mem_append.mp h with h | h
    · obtain ⟨inner, -, hpre⟩ := ihEntries h
      exact ⟨name, List.mem_cons_self, (List.prefix_append _ _).trans hpre⟩
    · obtain ⟨name', hname', hpre⟩ := ihRest h
      exact ⟨name', List.mem_cons_of_mem name hname', hpre⟩

theorem name_eq_of_isPrefix {name name' : String} {path' : List String}
    (h : path ++ [name] <+: path') (h' : path ++ [name'] <+: path') : name = name' := by
  have hle : (path ++ [name]).length ≤ (path ++ [name']).length := by simp
  have hpre := List.prefix_of_prefix_length_le h h' hle
  have heq := hpre.eq_of_length (by simp)
  simpa using heq

/-- No two files of a tree have one path. -/
theorem Entries.allFiles_nodup (h : entries.Distinct) :
    ((entries.allFiles path).map CaptureFile.path).Nodup := by
  induction entries generalizing path with
  | nil => exact List.nodup_nil
  | file name modified size rest ih =>
    rw [allFiles, List.map_cons, List.nodup_cons]
    refine ⟨fun hmem ↦ ?_, ih h.2⟩
    obtain ⟨file, hfile, heq⟩ := List.mem_map.mp hmem
    obtain ⟨name', hname', hpre⟩ := exists_name hfile
    rw [heq] at hpre
    exact h.1 (name_eq_of_isPrefix hpre (List.prefix_refl _) ▸ hname')
  | directory name read entries rest ihEntries ihRest =>
    rw [allFiles, List.map_append, List.nodup_append]
    refine ⟨ihEntries h.2.1, ihRest h.2.2, ?_⟩
    intro p hp q hq heq
    obtain ⟨file, hfile, rfl⟩ := List.mem_map.mp hp
    obtain ⟨file', hfile', rfl⟩ := List.mem_map.mp hq
    obtain ⟨inner, -, hpre⟩ := exists_name hfile
    obtain ⟨name', hname', hpre'⟩ := exists_name hfile'
    rw [← heq] at hpre'
    have hdir : path ++ [name] <+: file.path := (List.prefix_append _ _).trans hpre
    exact h.1 (name_eq_of_isPrefix hpre' hdir ▸ hname')

theorem CaptureTree.pcaps_nodup (tree : CaptureTree) :
    (tree.pcaps.map CaptureFile.path).Nodup := by
  have hall : (tree.allFiles.map CaptureFile.path).Nodup := by
    unfold allFiles
    split
    · exact Entries.allFiles_nodup tree.distinct
    · exact List.nodup_nil
  exact hall.sublist (List.filter_sublist.map _)

/-! ## What is removed -/

variable {fails : List String → Bool} {now limit : SystemTime}
  {retentionDays maxTotalBytes : UInt64} {files removed : List CaptureFile}

def CaptureFile.bytes (file : CaptureFile) : Nat := file.size.toNat

theorem totalSize_toNat (h : (files.map CaptureFile.bytes).sum < 2 ^ 64) :
    (totalSize files).toNat = (files.map CaptureFile.bytes).sum := by
  induction files with
  | nil => rfl
  | cons file files ih =>
    rw [List.map_cons, List.sum_cons] at h
    rw [totalSize, List.map_cons, List.sum_cons, UInt64.toNat_add, ih (by omega)]
    exact Nat.mod_eq_of_lt h

/-- As long as the total is right the loop is an eviction. -/
theorem removeExcess_eq {total : UInt64} {spared : Nat}
    (htotal : total.toNat = spared + (files.map CaptureFile.bytes).sum) :
    removeExcess fails maxTotalBytes total files =
      evict CaptureFile.bytes (fun file ↦ fails file.path) maxTotalBytes.toNat total.toNat
        files := by
  induction files generalizing total spared with
  | nil => rfl
  | cons file files ih =>
    have hle : file.size ≤ total := by
      rw [List.map_cons, List.sum_cons] at htotal
      rw [UInt64.le_iff_toNat_le]
      change file.bytes ≤ total.toNat
      omega
    have hleft : (if total < file.size then 0 else total - file.size) = total - file.size :=
      if_neg (UInt64.not_lt.mpr hle)
    have hnext : (if fails file.path then total else total - file.size).toNat =
        if fails file.path then total.toNat else total.toNat - file.bytes := by
      split
      · rfl
      · exact UInt64.toNat_sub_of_le _ _ hle
    have hrest := @total_step _ CaptureFile.bytes (fun file ↦ fails file.path) _ _ files file htotal
    rw [removeExcess, evict]
    by_cases hfits : total ≤ maxTotalBytes
    · rw [if_pos hfits, if_pos (UInt64.le_iff_toNat_le.mp hfits)]
    · have hfits' : ¬total.toNat ≤ maxTotalBytes.toNat := fun h ↦
        hfits (UInt64.le_iff_toNat_le.mpr h)
      rw [if_neg hfits, if_neg hfits', hleft]
      dsimp only
      rw [ih (hnext.trans hrest), hnext]

/-- The removal of a file has been tried, with success. -/
def Removed (fails : List String → Bool) (tried : List CaptureFile) (file : CaptureFile) : Prop :=
  file ∈ tried ∧ fails file.path = false

/-- The removal of a file has been tried, without success. -/
def Failed (fails : List String → Bool) (tried : List CaptureFile) (file : CaptureFile) : Prop :=
  file ∈ tried ∧ fails file.path = true

/-- The size of all captures that are left. -/
def bytesLeft (fails : List String → Bool) (tried : List CaptureFile) (tree : CaptureTree) : Nat :=
  sizeLeft CaptureFile.bytes (fun file ↦ fails file.path) tried tree.pcaps

/-- What retention is for. -/
structure Retains (fails : List String → Bool) (limit : SystemTime) (maxTotalBytes : UInt64)
    (tree : CaptureTree) (tried : List CaptureFile) : Prop where
  pcaps : ∀ file ∈ tried, file ∈ tree.allFiles ∧ file.isPcap = true
  enough : bytesLeft fails tried tree ≤ maxTotalBytes.toNat ∨
    ∀ file ∈ tree.pcaps, ¬Removed fails tried file → Failed fails tried file
  needed : ∀ before file after, tried = before ++ file :: after → isOlder limit file = false →
    maxTotalBytes.toNat < bytesLeft fails before tree ∧
      ∀ earlier later, tree.pcaps.insertionSort notAfter = earlier ++ file :: later →
        ∀ file' ∈ earlier, Removed fails before file' ∨ Failed fails before file'
  old : ∀ file ∈ tree.pcaps, isOlder limit file = true →
    ¬Removed fails tried file → Failed fails tried file

theorem removed_or_failed {tried : List CaptureFile} (h : file ∈ tried) :
    Removed fails tried file ∨ Failed fails tried file := by
  cases hfails : fails file.path with
  | false => exact .inl ⟨h, hfails⟩
  | true => exact .inr ⟨h, hfails⟩

theorem failed_of_not_removed {tried : List CaptureFile} (h : file ∈ tried)
    (hleft : ¬Removed fails tried file) : Failed fails tried file :=
  (removed_or_failed h).resolve_left hleft

/-- The files that still exist after the first loop. -/
theorem filter_exists (hnodup : (files.map CaptureFile.path).Nodup) (old : List CaptureFile)
    (hold : old ⊆ files) :
    (files.filter fun file ↦
        !old.any fun gone ↦ gone.path == file.path && !fails gone.path) =
      files.filter fun file ↦ file ∉ old ∨ fails file.path = true := by
  refine List.filter_congr fun file hfile ↦ ?_
  rw [Bool.eq_iff_iff]
  simp only [Bool.not_eq_true', List.any_eq_false, Bool.and_eq_true, beq_iff_eq,
    decide_eq_true_eq, not_and]
  constructor
  · intro h
    by_cases hmem : file ∈ old
    · exact .inr (by simpa using h file hmem rfl)
    · exact .inl hmem
  · intro h gone hgone hpath
    -- files with one path are one file
    have hsame : gone = file := List.inj_on_of_nodup_map hnodup (hold hgone) hfile hpath
    rw [hsame] at hgone ⊢
    simpa [hgone] using h

instance : IsTrans CaptureFile notAfter := ⟨fun _ _ _ h h' ↦ Int.le_trans h h'⟩

instance : Std.Total notAfter := ⟨fun a b ↦ Int.le_total a.modified.nanos b.modified.nanos⟩

section

variable (tree) (fails) (limit)

/-- A capture still exists after the first loop. -/
def keeps (file : CaptureFile) : Bool :=
  file ∉ removeOld limit tree.pcaps ∨ fails file.path = true

/-- What the second loop goes through. -/
def keptFiles : List CaptureFile :=
  (tree.pcaps.filter (keeps tree fails limit)).insertionSort notAfter

/-- What the second loop tries to remove. -/
def excessFiles (maxTotalBytes : UInt64) : List CaptureFile :=
  evict CaptureFile.bytes (fun file ↦ fails file.path) maxTotalBytes.toNat
    ((keptFiles tree fails limit).map CaptureFile.bytes).sum (keptFiles tree fails limit)

end

/-- What no longer exists after the first loop has been tried in it. -/
theorem mem_removeOld_or_keeps :
    file ∈ removeOld limit tree.pcaps ∨ keeps tree fails limit file = true := by
  by_cases hold : file ∈ removeOld limit tree.pcaps
  · exact .inl hold
  · exact .inr (decide_eq_true (.inl hold))

theorem mem_keptFiles : file ∈ keptFiles tree fails limit ↔
    file ∈ tree.pcaps ∧ keeps tree fails limit file = true := by
  rw [keptFiles, List.mem_insertionSort, List.mem_filter]

theorem keptFiles_nodup : (keptFiles tree fails limit).Nodup :=
  (List.perm_insertionSort _ _).nodup_iff.mpr (tree.pcaps_nodup.of_map.filter _)

theorem bytesLeft_append (later : List CaptureFile) :
    bytesLeft fails (removeOld limit tree.pcaps ++ later) tree =
      sizeLeft CaptureFile.bytes (fun file ↦ fails file.path) later
        (keptFiles tree fails limit) := by
  rw [bytesLeft, sizeLeft_append]
  exact sizeLeft_perm (List.perm_insertionSort _ _).symm

/-- What is tried is what the first loop tries, and an eviction of the rest. -/
theorem cleanupCaptureFiles_eq (h : tree.Readable)
    (htotal : (tree.pcaps.map CaptureFile.bytes).sum < 2 ^ 64)
    (hlimit : limit = cutoff now retentionDays) :
    cleanupCaptureFiles fails now retentionDays maxTotalBytes tree =
      some (removeOld limit tree.pcaps ++ excessFiles tree fails limit maxTotalBytes) := by
  have hkept : ((keptFiles tree fails limit).map CaptureFile.bytes).sum < 2 ^ 64 := by
    have hperm : ((keptFiles tree fails limit).map CaptureFile.bytes).sum =
        ((tree.pcaps.filter (keeps tree fails limit)).map CaptureFile.bytes).sum :=
      ((List.perm_insertionSort _ _).map _).sum_eq
    have hle := (@List.filter_sublist _ (keeps tree fails limit) tree.pcaps).map CaptureFile.bytes
    rw [hperm]
    exact Nat.lt_of_le_of_lt (List.Sublist.sum_le_sum hle fun _ _ ↦ Nat.zero_le _) htotal
  have hsum := totalSize_toNat hkept
  rw [cleanupCaptureFiles, collectPcaps_eq h, Option.map_some, ← hlimit]
  dsimp only
  rw [filter_exists tree.pcaps_nodup (removeOld limit tree.pcaps) (List.filter_subset_self _),
    excessFiles, ← hsum]
  exact congrArg (fun files ↦ some (removeOld limit tree.pcaps ++ files))
    (removeExcess_eq (hsum.trans (Nat.zero_add _).symm))

/-- The second loop follows the order of all captures. -/
theorem keptFiles_split {tried after earlier later : List CaptureFile}
    (hkept : keptFiles tree fails limit = tried ++ file :: after)
    (hsorted : tree.pcaps.insertionSort notAfter = earlier ++ file :: later) :
    tried = earlier.filter (keeps tree fails limit) := by
  have hmem : file ∈ keptFiles tree fails limit := by rw [hkept]; simp
  have hkeeps := (mem_keptFiles.mp hmem).2
  have hfilter : keptFiles tree fails limit = earlier.filter (keeps tree fails limit) ++
      file :: later.filter (keeps tree fails limit) := by
    rw [keptFiles, ← filter_insertionSort, hsorted, List.filter_append, List.filter_cons,
      if_pos hkeeps]
  have hnodup := @keptFiles_nodup tree fails limit
  rw [hkept, List.nodup_middle, List.nodup_cons, List.mem_append, not_or] at hnodup
  have hparts := hkept.symm.trans hfilter
  exact (List.append_cons_inj_of_notMem hnodup.1.1 hnodup.1.2).mp hparts |>.1

theorem excessFiles_enough :
    bytesLeft fails (removeOld limit tree.pcaps ++ excessFiles tree fails limit maxTotalBytes)
        tree ≤ maxTotalBytes.toNat ∨
      excessFiles tree fails limit maxTotalBytes = keptFiles tree fails limit := by
  have henough := @evict_enough _ CaptureFile.bytes (fun file ↦ fails file.path)
    maxTotalBytes.toNat _ 0 _ _ (@keptFiles_nodup tree fails limit) (Nat.zero_add _).symm
  rw [Nat.zero_add] at henough
  rw [bytesLeft_append]
  exact henough

theorem excessFiles_needed {before after : List CaptureFile}
    (h : excessFiles tree fails limit maxTotalBytes = before ++ file :: after) :
    maxTotalBytes.toNat < bytesLeft fails (removeOld limit tree.pcaps ++ before) tree := by
  have hneeded := evict_needed keptFiles_nodup (Nat.zero_add _).symm h
  rw [Nat.zero_add] at hneeded
  rw [bytesLeft_append]
  exact hneeded

theorem excessFiles_isPrefix :
    excessFiles tree fails limit maxTotalBytes <+: keptFiles tree fails limit :=
  evict_isPrefix

/-- All that the order of all captures has before a file is tried before it. -/
theorem excessFiles_order {before after earlier later : List CaptureFile} {file' : CaptureFile}
    (h : excessFiles tree fails limit maxTotalBytes = before ++ file :: after)
    (hsorted : tree.pcaps.insertionSort notAfter = earlier ++ file :: later)
    (hmem : file' ∈ earlier) : file' ∈ removeOld limit tree.pcaps ++ before := by
  obtain ⟨rest, hrest⟩ := h ▸ @excessFiles_isPrefix tree fails limit maxTotalBytes
  rw [List.append_assoc, List.cons_append] at hrest
  rw [keptFiles_split hrest.symm hsorted, List.mem_append, List.mem_filter]
  exact mem_removeOld_or_keeps.imp_right fun hkeeps ↦ ⟨hmem, hkeeps⟩

theorem not_mem_removeOld (h : isOlder limit file = false) : file ∉ removeOld limit files := by
  intro hmem
  rw [(List.mem_filter.mp hmem).2] at h
  exact Bool.noConfusion h

/-- What is not old is tried in the second loop. -/
theorem excessFiles_of_young {before after : List CaptureFile} (hyoung : isOlder limit file = false)
    (h : removeOld limit tree.pcaps ++ excessFiles tree fails limit maxTotalBytes =
      before ++ file :: after) :
    ∃ before', before = removeOld limit tree.pcaps ++ before' ∧
      excessFiles tree fails limit maxTotalBytes = before' ++ file :: after := by
  rcases List.append_eq_append_iff.mp h with hparts | ⟨rest, hold, hrest⟩
  · exact hparts
  · cases rest with
    | nil => exact ⟨[], by simpa using hold.symm, by simpa using hrest.symm⟩
    | cons first rest =>
      obtain ⟨rfl, -⟩ := List.cons.inj hrest
      have hmem : file ∈ removeOld limit tree.pcaps := by rw [hold]; simp
      exact absurd hmem (not_mem_removeOld hyoung)

/-- Retention is sound, sufficient and minimal, whatever removals fail. -/
theorem cleanup_retains (h : tree.Readable)
    (htotal : (tree.pcaps.map CaptureFile.bytes).sum < 2 ^ 64) :
    ∃ tried, cleanupCaptureFiles fails now retentionDays maxTotalBytes tree = some tried ∧
      Retains fails (cutoff now retentionDays) maxTotalBytes tree tried := by
  refine ⟨_, cleanupCaptureFiles_eq h htotal rfl, ?_⟩
  generalize cutoff now retentionDays = limit
  constructor
  case pcaps =>
    intro file hfile
    have hpcap : file ∈ tree.pcaps := by
      rcases List.mem_append.mp hfile with hold | hexcess
      · exact (List.mem_filter.mp hold).1
      · exact (mem_keptFiles.mp (excessFiles_isPrefix.subset hexcess)).1
    exact List.mem_filter.mp hpcap
  case enough =>
    refine excessFiles_enough.imp_right fun hall file hfile hleft ↦ ?_
    refine failed_of_not_removed (List.mem_append.mpr ?_) hleft
    rw [hall, mem_keptFiles]
    exact mem_removeOld_or_keeps.imp_right fun hkeeps ↦ ⟨hfile, hkeeps⟩
  case needed =>
    intro before file after hsplit hyoung
    obtain ⟨before, rfl, hexcess⟩ := excessFiles_of_young hyoung hsplit
    refine ⟨excessFiles_needed hexcess, fun earlier later hsorted file' hfile' ↦ ?_⟩
    exact removed_or_failed (excessFiles_order hexcess hsorted hfile')
  case old =>
    intro file hfile hold hleft
    refine failed_of_not_removed (List.mem_append.mpr (.inl ?_)) hleft
    exact List.mem_filter.mpr ⟨hfile, hold⟩

/-- An old capture, two younger ones, and another file. -/
def sampleTree : CaptureTree where
  read := .done
  entries := .directory "lab" .done
      (.file "a.pcap" (some ⟨0⟩) 5 (.file "b.pcap" (some ⟨90000000000000⟩) 5 .nil))
    (.file "c.pcap" (some ⟨90000000000001⟩) 5 (.file "notes.txt" none 5 .nil))
  distinct := by simp [Entries.Distinct, Entries.names]

/-- One of the younger captures cannot be removed, so that the other one has to go too. -/
theorem cleanup_retains_sample :
    ∃ tried, cleanupCaptureFiles (fun path ↦ path == ["lab", "b.pcap"]) ⟨100000000000000⟩ 1 7
        sampleTree = some tried ∧
      Retains (fun path ↦ path == ["lab", "b.pcap"]) (cutoff ⟨100000000000000⟩ 1) 7 sampleTree
        tried :=
  cleanup_retains ⟨by decide, by decide⟩ (by decide +kernel)

end LabStreamGate.Capture
