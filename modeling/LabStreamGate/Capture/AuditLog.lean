import LabStreamGate.Capture.Session
import LabStreamGate.Gateway.Step
import LabStreamGate.Library.Lines
import LabStreamGate.Library.SocketText

/-!
# The audit files

`append_audit` puts a line at the end of the file of an instance.  A file that has grown to its full
size is first moved to the place of the one before it, which is lost.
-/

namespace LabStreamGate.Capture

open Function
open Gateway (FilePath)

/-- The files of a disk; appending opens them anew each time. -/
abbrev Disk := FilePath → Option Bytes

def Disk.content (disk : Disk) (path : FilePath) : Bytes := (disk path).getD []

def newline : UInt8 := 10

/-- How the calls of one `append_audit` go.  What a write leaves unfinished fails the next call,
which waits for it. -/
structure AuditIo where
  dirMade : Bool
  sized : Bool
  removed : Bool
  renamed : Bool
  opened : Bool
  line : Written
  ending : Written
  flushed : Bool
  deriving DecidableEq, Repr

def AuditIo.ok : AuditIo := ⟨true, true, true, true, true, .all, .all, true⟩

/-- The bytes that reach the file. -/
def Written.bytes : Written → Bytes → Bytes
  | .all, data => data
  | .failed count, data => data.take count

def auditPath (root instanceId : String) : FilePath :=
  ⟨root ++ "/audit", safeSegment instanceId ++ ".jsonl"⟩

def rotatedPath (root instanceId : String) : FilePath :=
  (auditPath root instanceId).withExtension "jsonl.1"

def rotationSize : Nat := 16 * 1024 * 1024

section

variable (io : AuditIo)

/-- The file has its full size, as far as its size can be read. -/
def rotates (disk : Disk) (path : FilePath) : Bool :=
  io.sized && (disk path).any fun content ↦ decide (rotationSize ≤ content.length)

/-- Moves the file away; whether the old one could be removed is not looked at. -/
def rotate (disk : Disk) (path rotated : FilePath) : Bool × Disk :=
  let disk := if io.removed then update disk rotated none else disk
  if io.renamed then (true, update (update disk rotated (disk path)) path none) else (false, disk)

/-- What the two writes put at the end of the file. -/
def AuditIo.written (line : Bytes) : Bytes :=
  io.line.bytes line ++ if io.line.isAll then io.ending.bytes [newline] else []

def appendLine (disk : Disk) (path : FilePath) (line : Bytes) : Bool × Disk :=
  if io.opened then
    (io.line.isAll && io.ending.isAll && io.flushed,
      update disk path (some (disk.content path ++ io.written line)))
  else (false, disk)

/-- `append_audit`, and whether it returns `Ok`. -/
def appendAudit (root instanceId : String) (line : Bytes) (disk : Disk) : Bool × Disk :=
  if io.dirMade then
    let path := auditPath root instanceId
    if rotates io disk path then
      let moved := rotate io disk path (rotatedPath root instanceId)
      if moved.1 then appendLine io moved.2 path line else moved
    else appendLine io disk path line
  else (false, disk)

end

/-! ## The paths -/

variable {root id id' : String} {io : AuditIo} {disk : Disk} {line : Bytes}

theorem safeSegment_ne_empty {value : String} : safeSegment value ≠ "" := by
  unfold safeSegment
  dsimp only
  split
  · decide
  · assumption

theorem rotatedPath_eq :
    rotatedPath root id = ⟨root ++ "/audit", safeSegment id ++ ".jsonl.1"⟩ := by
  have hname : (safeSegment id ++ ".jsonl").toList =
      (safeSegment id).toList ++ '.' :: "jsonl".toList := by
    rw [String.toList_append]
    rfl
  have hstem : (auditPath root id).fileStem = safeSegment id := by
    rw [FilePath.fileStem, auditPath, rsplitOnce_eq hname (by decide), String.ofList_toList]
    exact if_neg safeSegment_ne_empty
  rw [rotatedPath, FilePath.withExtension, hstem, String.append_assoc]
  rfl

theorem auditPath_ne_rotatedPath : auditPath root id ≠ rotatedPath root id' := by
  rw [rotatedPath_eq]
  intro h
  have hname : safeSegment id ++ ".jsonl" = safeSegment id' ++ ".jsonl.1" :=
    congrArg FilePath.fileName h
  have hlast := congrArg (fun name : String ↦ name.toList.getLast?) hname
  rw [String.toList_append, String.toList_append, List.getLast?_append_of_ne_nil _ (by decide),
    List.getLast?_append_of_ne_nil _ (by decide)] at hlast
  exact absurd hlast (by decide)

theorem append_right_inj_iff {a b suffix : String} : a ++ suffix = b ++ suffix ↔ a = b := by
  rw [← String.toList_inj, String.toList_append, String.toList_append, List.append_cancel_right_eq,
    String.toList_inj]

theorem auditPath_inj :
    auditPath root id = auditPath root id' ↔ safeSegment id = safeSegment id' := by
  rw [auditPath, auditPath, FilePath.mk.injEq, and_iff_right rfl, append_right_inj_iff]

theorem rotatedPath_inj :
    rotatedPath root id = rotatedPath root id' ↔ safeSegment id = safeSegment id' := by
  rw [rotatedPath_eq, rotatedPath_eq, FilePath.mk.injEq, and_iff_right rfl, append_right_inj_iff]

/-! ## The files of a segment -/

/-- What the file holds, and the one before it. -/
structure Generations where
  old : Bytes
  current : Bytes

namespace Generations

variable (io : AuditIo) (files : Generations)

def rotate : Bool × Generations :=
  if io.renamed then (true, ⟨files.current, []⟩)
  else (false, if io.removed then { files with old := [] } else files)

def append (line : Bytes) : Bool × Generations :=
  if io.opened then
    (io.line.isAll && io.ending.isAll && io.flushed,
      { files with current := files.current ++ io.written line })
  else (false, files)

/-- A call as its segment sees it, where the file has its full size or not. -/
def appendAudit (rotates : Bool) (line : Bytes) : Bool × Generations :=
  if io.dirMade then
    if rotates then
      if (files.rotate io).1 then (files.rotate io).2.append io line else files.rotate io
    else files.append io line
  else (false, files)

end Generations

def Disk.generations (disk : Disk) (root instanceId : String) : Generations :=
  ⟨disk.content (rotatedPath root instanceId), disk.content (auditPath root instanceId)⟩

theorem content_update {path path' : FilePath} {data : Option Bytes} :
    Disk.content (update disk path data) path' =
      if path' = path then data.getD [] else disk.content path' := by
  unfold Disk.content
  by_cases h : path' = path
  · rw [h, update_self, if_pos rfl]
  · rw [update_of_ne h, if_neg h]

/-- A call and what its segment sees of it have one result and one pair of files. -/
structure Agrees (root instanceId : String) (r : Bool × Disk) (r' : Bool × Generations) : Prop where
  ok : r.1 = r'.1
  files : r.2.generations root instanceId = r'.2

theorem agrees_rotate : Agrees root id (rotate io disk (auditPath root id) (rotatedPath root id))
    ((disk.generations root id).rotate io) := by
  have hne : auditPath root id ≠ rotatedPath root id := auditPath_ne_rotatedPath
  have hmoved : ∀ disk' : Disk, disk' (auditPath root id) = disk (auditPath root id) →
      Disk.generations (update (update disk' (rotatedPath root id) (disk' (auditPath root id)))
        (auditPath root id) none) root id = ⟨disk.content (auditPath root id), []⟩ := by
    intro disk' hsame
    rw [Disk.generations, content_update, content_update, content_update, if_neg hne.symm,
      if_pos rfl, if_pos rfl, hsame]
    rfl
  have hremoved : Disk.generations (update disk (rotatedPath root id) none) root id =
      { disk.generations root id with old := [] } := by
    rw [Disk.generations, content_update, content_update, if_pos rfl, if_neg hne]
    rfl
  unfold rotate Generations.rotate
  by_cases hrenamed : io.renamed = true <;> by_cases hremove : io.removed = true
  · rw [if_pos hrenamed, if_pos hrenamed, if_pos hremove]
    exact ⟨rfl, hmoved _ (update_of_ne hne _ _)⟩
  · rw [if_pos hrenamed, if_pos hrenamed, if_neg hremove]
    exact ⟨rfl, hmoved disk rfl⟩
  · rw [if_neg hrenamed, if_neg hrenamed, if_pos hremove, if_pos hremove]
    exact ⟨rfl, hremoved⟩
  · rw [if_neg hrenamed, if_neg hrenamed, if_neg hremove, if_neg hremove]
    exact ⟨rfl, rfl⟩

theorem agrees_appendLine : Agrees root id (appendLine io disk (auditPath root id) line)
    ((disk.generations root id).append io line) := by
  unfold appendLine Generations.append
  split
  · refine ⟨rfl, ?_⟩
    rw [Disk.generations, content_update, content_update, if_neg auditPath_ne_rotatedPath.symm,
      if_pos rfl]
    rfl
  · exact ⟨rfl, rfl⟩

/-- The segment of a call sees it as `Generations.appendAudit` says. -/
theorem agrees_appendAudit : Agrees root id (appendAudit io root id line disk)
    ((disk.generations root id).appendAudit io (rotates io disk (auditPath root id)) line) := by
  have hmoved : Agrees root id (rotate io disk (auditPath root id) (rotatedPath root id))
    ((disk.generations root id).rotate io) := agrees_rotate
  unfold appendAudit Generations.appendAudit
  by_cases hmade : io.dirMade = true
  · rw [if_pos hmade, if_pos hmade]
    dsimp only
    by_cases hfull : rotates io disk (auditPath root id) = true
    · rw [if_pos hfull, if_pos hfull, hmoved.ok, ← hmoved.files]
      by_cases hrenamed : ((disk.generations root id).rotate io).1 = true
      · rw [if_pos hrenamed, if_pos hrenamed]
        exact agrees_appendLine
      · rw [if_neg hrenamed, if_neg hrenamed]
        exact hmoved
    · rw [if_neg hfull, if_neg hfull]
      exact agrees_appendLine
  · rw [if_neg hmade, if_neg hmade]
    exact ⟨rfl, rfl⟩

/-- The name of an instance counts only as far as it names a segment. -/
theorem appendAudit_congr (h : safeSegment id = safeSegment id') :
    appendAudit io root id line disk = appendAudit io root id' line disk := by
  unfold appendAudit
  rw [auditPath_inj.mpr h, rotatedPath_inj.mpr h]

theorem appendLine_of_ne {path path' : FilePath} (h : path' ≠ path) :
    (appendLine io disk path line).2 path' = disk path' := by
  unfold appendLine
  split
  · exact update_of_ne h _ _
  · rfl

theorem rotate_of_ne {path rotated path' : FilePath} (h : path' ≠ path) (h' : path' ≠ rotated) :
    (rotate io disk path rotated).2 path' = disk path' := by
  have hremove : (if io.removed then update disk rotated none else disk) path' = disk path' := by
    split
    · exact update_of_ne h' _ _
    · rfl
  unfold rotate
  dsimp only
  split
  · rw [← hremove]
    exact (update_of_ne h _ _).trans (update_of_ne h' _ _)
  · exact hremove

/-- A call leaves the files of the other segments alone. -/
theorem appendAudit_other (h : safeSegment id ≠ safeSegment id') :
    (appendAudit io root id line disk).2.generations root id' = disk.generations root id' := by
  have hsame : ∀ path, path ≠ auditPath root id → path ≠ rotatedPath root id →
      (appendAudit io root id line disk).2 path = disk path := by
    intro path hcurrent hold
    unfold appendAudit
    split
    · dsimp only
      split
      · split
        · rw [appendLine_of_ne hcurrent, rotate_of_ne hcurrent hold]
        · exact rotate_of_ne hcurrent hold
      · exact appendLine_of_ne hcurrent
    · rfl
  rw [Disk.generations, Disk.content, Disk.content,
    hsame (rotatedPath root id') auditPath_ne_rotatedPath.symm
      (fun heq ↦ h (rotatedPath_inj.mp heq).symm),
    hsame (auditPath root id') (fun heq ↦ h (auditPath_inj.mp heq).symm) auditPath_ne_rotatedPath]
  rfl

end LabStreamGate.Capture
