import LabStreamGate.Capture.AuditLog

/-!
# What rotation keeps

The two files of a segment hold the last lines that were appended for it, without a gap and with no
line cut.  Where a call fails, lines can be lost, and the next line can be glued to the rest of
another one.
-/

namespace LabStreamGate.Capture

open Gateway (FilePath)

/-- A call of `append_audit`. -/
structure AuditCall where
  instanceId : String
  line : Bytes
  io : AuditIo

/-- The calls come one after the other, under the lock. -/
def auditNext (root : String) (disk : Disk) (call : AuditCall) : Option (Bool × Disk) :=
  some (appendAudit call.io root call.instanceId call.line disk)

variable {root id : String} {disk disk₀ : Disk} {files : Generations} {line : Bytes} {io : AuditIo}
  {tr : List (Event Disk AuditCall Bool)}

/-! ## Calls that nothing fails -/

/-- The lines appended for the segment of an instance. -/
def linesFor (id : String) (tr : List (Event Disk AuditCall Bool)) : List Bytes :=
  tr.filterMap fun e ↦
    if safeSegment e.act.instanceId = safeSegment id then some e.act.line else none

theorem linesFor_snoc {e : Event Disk AuditCall Bool} : linesFor id (tr ++ [e]) = linesFor id tr ++
    if safeSegment e.act.instanceId = safeSegment id then [e.act.line] else [] := by
  rw [linesFor, List.filterMap_append]
  by_cases h : safeSegment e.act.instanceId = safeSegment id <;> simp [linesFor, h]

/-- The files hold the last ones of the lines, and the last of all in the current file. -/
structure HoldsTail (lines : List Bytes) (files : Generations) : Prop where
  suffix : files.old ++ files.current <:+ unlines newline lines
  oldWhole : IsWhole newline files.old
  currentWhole : IsWhole newline files.current
  kept : linesOf newline files.old ++ linesOf newline files.current <:+ lines
  latest : ∀ line, lines.getLast? = some line →
    (linesOf newline files.current).getLast? = some line ∧
      files.current.length < rotationSize + line.length + 1

/-- The same, with the lines that have been lost and those of each file. -/
structure Tail (lines gone old recent : List Bytes) (files : Generations) : Prop where
  parts : lines = gone ++ old ++ recent
  old : files.old = unlines newline old
  current : files.current = unlines newline recent
  latest : ∀ line, lines.getLast? = some line → recent.getLast? = some line ∧
    files.current.length < rotationSize + line.length + 1

theorem Tail.holdsTail {lines gone old recent : List Bytes} (h : Tail lines gone old recent files)
    (hlines : ∀ line ∈ lines, newline ∉ line) : HoldsTail lines files := by
  have hparts := h.parts
  have hold : ∀ line ∈ old, newline ∉ line := fun line hmem ↦ hlines line (by simp [hparts, hmem])
  have hrecent : ∀ line ∈ recent, newline ∉ line := fun line hmem ↦
    hlines line (by simp [hparts, hmem])
  refine ⟨?_, ?_, ?_, ?_, ?_⟩
  · rw [h.old, h.current, hparts, unlines_append, unlines_append, List.append_assoc]
    exact List.suffix_append _ _
  · rw [h.old]
    exact isWhole_unlines hold
  · rw [h.current]
    exact isWhole_unlines hrecent
  · rw [h.old, h.current, linesOf_unlines hold, linesOf_unlines hrecent, hparts, List.append_assoc]
    exact List.suffix_append _ _
  · intro line hlast
    rw [h.current, linesOf_unlines hrecent, ← h.current]
    exact h.latest line hlast

/-- A rotation loses the oldest lines, and any other call none. -/
theorem Tail.append {lines gone old recent : List Bytes} {rotates : Bool}
    (h : Tail lines gone old recent files)
    (hfull : rotates = false → files.current.length < rotationSize) (line : Bytes) :
    ∃ gone' old' recent', Tail (lines ++ [line]) gone' old' recent'
      (files.appendAudit .ok rotates line).2 := by
  cases rotates with
  | true =>
    refine ⟨gone ++ old, recent, [line], ?_, h.current, ?_, ?_⟩
    · rw [h.parts]
    · exact unlines_singleton.symm
    · intro line' hlast
      rw [List.getLast?_concat] at hlast
      cases hlast
      refine ⟨rfl, ?_⟩
      change (line ++ [newline]).length < _
      rw [List.length_append, List.length_singleton]
      have hsize : 0 < rotationSize := by decide
      omega
  | false =>
    refine ⟨gone, old, recent ++ [line], ?_, h.old, ?_, ?_⟩
    · rw [h.parts, List.append_assoc]
    · rw [unlines_append, unlines_singleton, ← h.current]
      rfl
    · intro line' hlast
      rw [List.getLast?_concat] at hlast
      cases hlast
      refine ⟨List.getLast?_concat, ?_⟩
      have hlen := hfull rfl
      change (files.current ++ (line ++ [newline])).length < _
      rw [List.length_append, List.length_append, List.length_singleton]
      omega

theorem length_lt_of_not_rotates {path : FilePath} (h : rotates .ok disk path = false) :
    (disk.content path).length < rotationSize := by
  unfold Disk.content
  cases hcontent : disk path with
  | none => decide
  | some content =>
    rw [rotates, hcontent] at h
    simpa [AuditIo.ok] using h

/-- No files, and no lines. -/
theorem tail_nil (hnone : disk₀ (auditPath root id) = none ∧ disk₀ (rotatedPath root id) = none) :
    Tail [] [] [] [] (disk₀.generations root id) := by
  refine ⟨rfl, ?_, ?_, fun line hlast ↦ by cases hlast⟩
  · rw [Disk.generations, Disk.content, hnone.2]
    rfl
  · rw [Disk.generations, Disk.content, Disk.content, hnone.1]
    rfl

theorem exists_tail (h : Run (auditNext root) disk₀ tr disk)
    (hnone : ∀ id, disk₀ (auditPath root id) = none ∧ disk₀ (rotatedPath root id) = none)
    (hok : ∀ e ∈ tr, e.act.io = .ok) (id : String) :
    ∃ gone old recent, Tail (linesFor id tr) gone old recent (disk.generations root id) := by
  refine h.history (P := fun tr disk ↦ ∃ gone old recent,
    Tail (linesFor id tr) gone old recent (disk.generations root id)) (C := fun e ↦ e.act.io = .ok)
    ⟨[], [], [], tail_nil (hnone id)⟩ ?_ hok
  rintro l v ⟨instanceId, line, io⟩ o w ⟨gone, old, recent, htail⟩ hio hnext
  obtain rfl : io = .ok := hio
  have hw : w = (appendAudit .ok root instanceId line v).2 :=
    (congrArg Prod.snd (Option.some.inj hnext)).symm
  subst hw
  rw [linesFor_snoc]
  by_cases hsegment : safeSegment instanceId = safeSegment id
  · rw [if_pos hsegment, appendAudit_congr hsegment, agrees_appendAudit.files]
    exact htail.append (fun hfull ↦ length_lt_of_not_rotates hfull) line
  · rw [if_neg hsegment, List.append_nil, appendAudit_other hsegment]
    exact ⟨gone, old, recent, htail⟩

/-- From no files on, with no failure, and whatever instances the calls are for: the two files of a
segment hold the last lines appended for it, of which the last is in the current file, and this is
shorter than the full size and one line. -/
theorem audit_tail (h : Run (auditNext root) disk₀ tr disk)
    (hnone : ∀ id, disk₀ (auditPath root id) = none ∧ disk₀ (rotatedPath root id) = none)
    (hok : ∀ e ∈ tr, e.act.io = .ok) (hlines : ∀ e ∈ tr, newline ∉ e.act.line) (id : String) :
    HoldsTail (linesFor id tr) (disk.generations root id) := by
  obtain ⟨gone, old, recent, htail⟩ := exists_tail h hnone hok id
  refine htail.holdsTail fun line hline ↦ ?_
  obtain ⟨e, he, hline⟩ := List.mem_filterMap.mp hline
  rw [Option.ite_none_right_eq_some] at hline
  obtain ⟨-, heq⟩ := hline
  cases heq
  exact hlines e he

theorem appendAudit_first : (appendAudit .ok root id line fun _ ↦ none).2 (auditPath root id) =
    some (line ++ [newline]) := by
  have hempty : rotates .ok (fun _ ↦ none) (auditPath root id) = false := rfl
  simp only [appendAudit, hempty]
  exact Function.update_self (auditPath root id) (some (line ++ [newline])) fun _ ↦ none

-- The first line fills the file, so that the second one moves it.
theorem exists_rotating {id' : String} {first second : Bytes}
    (hid : safeSegment id' = safeSegment id) (hfull : rotationSize ≤ first.length) : ∃ disk₁ disk₂ o₁ o₂,
      Run (auditNext root) (fun _ ↦ none)
        [⟨fun _ ↦ none, ⟨id, first, .ok⟩, o₁⟩, ⟨disk₁, ⟨id', second, .ok⟩, o₂⟩] disk₂ ∧
      (disk₂.generations root id).old = first ++ [newline] ∧
      (disk₂.generations root id).current = second ++ [newline] := by
  refine ⟨(appendAudit .ok root id first fun _ ↦ none).2, (appendAudit .ok root id' second _).2,
    _, _, (Run.nil.snoc rfl).snoc rfl, ?_⟩
  have hcontent := @appendAudit_first root id first
  have hrotates : rotates .ok (appendAudit .ok root id first fun _ ↦ none).2 (auditPath root id) =
      true := by
    rw [rotates, hcontent, Option.any_some, List.length_append]
    exact decide_eq_true (Nat.le_add_right_of_le hfull)
  rw [appendAudit_congr hid, agrees_appendAudit.files, hrotates]
  refine ⟨?_, rfl⟩
  show Disk.content (appendAudit .ok root id first fun _ ↦ none).2 (auditPath root id) = _
  rw [Disk.content, hcontent]
  rfl

-- Two names of one segment, with a rotation between them.
theorem audit_tail_sample : ∃ first tr disk, rotationSize ≤ first.length ∧
    Run (auditNext "/data") (fun _ ↦ none) tr disk ∧ linesFor "lab-1" tr = [first, [91, 93]] ∧
    (disk.generations "/data" "lab-1").old = first ++ [newline] ∧
    (disk.generations "/data" "lab-1").current = [91, 93, newline] ∧
    HoldsTail (linesFor "lab-1" tr) (disk.generations "/data" "lab-1") := by
  obtain ⟨first, hfull, hfirst⟩ : ∃ first : Bytes, rotationSize ≤ first.length ∧
      newline ∉ first := by
    refine ⟨List.replicate rotationSize 123, Nat.le_of_eq List.length_replicate.symm, fun hmem ↦ ?_⟩
    exact absurd (List.eq_of_mem_replicate hmem) (by decide)
  have hsegment : safeSegment "lab.-1" = safeSegment "lab-1" := by decide +kernel
  obtain ⟨disk₁, disk₂, o₁, o₂, hrun, hold, hcurrent⟩ :=
    @exists_rotating "/data" "lab-1" "lab.-1" first [91, 93] hsegment hfull
  refine ⟨first, _, disk₂, hfull, hrun, ?_, hold, hcurrent,
    audit_tail hrun (fun _ ↦ ⟨rfl, rfl⟩) ?_ ?_ "lab-1"⟩
  · simp [linesFor, hsegment]
  · simp
  · have hsecond : newline ∉ [91, 93] := by decide
    exact List.forall_mem_cons.mpr ⟨hfirst, List.forall_mem_singleton.mpr hsecond⟩

/-! ## Calls that fail -/

/-- The call moves the file to the place of the old one. -/
def AuditIo.moves (io : AuditIo) (rotates : Bool) : Bool := io.dirMade && rotates && io.renamed

/-- The call takes the old file away, by removing it or by moving the other one to its place. -/
def AuditIo.drops (io : AuditIo) (rotates : Bool) : Bool :=
  io.dirMade && rotates && (io.removed || io.renamed)

/-- The bytes that the call gets into the current file. -/
def AuditIo.reaches (io : AuditIo) (rotates : Bool) (line : Bytes) : Bytes :=
  if io.dirMade && (!rotates || io.renamed) && io.opened then io.written line else []

-- One row for each way that the calls before the writes can go.
theorem appendAudit_files {rotates : Bool} : (files.appendAudit io rotates line).2 =
    if io.moves rotates then ⟨files.current, io.reaches rotates line⟩
    else
      ⟨if io.drops rotates then [] else files.old, files.current ++ io.reaches rotates line⟩ := by
  unfold Generations.appendAudit AuditIo.moves AuditIo.drops AuditIo.reaches
  cases hmade : io.dirMade <;> cases rotates <;> cases hrenamed : io.renamed <;>
    cases hopened : io.opened <;> cases hremoved : io.removed <;>
    simp [Generations.rotate, Generations.append, hrenamed, hopened, hremoved]

/-- Both files still have whole lines only and every line is still in one of them, so that a line
appended next stands for itself. -/
structure Undamaged (before after : Generations) : Prop where
  oldWhole : IsWhole newline after.old
  currentWhole : IsWhole newline after.current
  kept : ∀ line, line ∈ linesOf newline before.old ∨ line ∈ linesOf newline before.current →
    line ∈ linesOf newline after.old ∨ line ∈ linesOf newline after.current
  next : ∀ line, newline ∉ line → linesOf newline (after.current ++ (line ++ [newline])) =
    linesOf newline after.current ++ [line]

/-- Nothing or whole lines reach the file, and what is in an old file that is taken away is in the
current one, or is what is written. -/
structure Spares (io : AuditIo) (rotates : Bool) (line : Bytes) (files : Generations) : Prop where
  written : io.reaches rotates line = [] ∨ (io.reaches rotates line).getLast? = some newline
  old : io.drops rotates = true → ∀ line' ∈ linesOf newline files.old,
    line' ∈ linesOf newline files.current ∨ line' ∈ linesOf newline (io.reaches rotates line)

theorem undamaged_of_whole {before after : Generations} (hold : IsWhole newline after.old)
    (hcurrent : IsWhole newline after.current)
    (hkept : ∀ line, line ∈ linesOf newline before.old ∨ line ∈ linesOf newline before.current →
      line ∈ linesOf newline after.old ∨ line ∈ linesOf newline after.current) :
    Undamaged before after := by
  refine ⟨hold, hcurrent, hkept, fun line hline ↦ ?_⟩
  rw [hcurrent.linesOf_append, ← unlines_singleton,
    linesOf_unlines (List.forall_mem_singleton.mpr hline)]

theorem undamaged_iff {rotates : Bool} (hold : IsWhole newline files.old)
    (hcurrent : IsWhole newline files.current) :
    Undamaged files (files.appendAudit io rotates line).2 ↔ Spares io rotates line files := by
  rw [appendAudit_files]
  cases hmoves : io.moves rotates with
  | true =>
    have hdrops : io.drops rotates = true := by
      unfold AuditIo.moves at hmoves
      unfold AuditIo.drops
      rw [Bool.and_eq_true] at hmoves
      rw [hmoves.1, hmoves.2, Bool.or_true, Bool.and_true]
    rw [if_pos rfl]
    constructor
    · intro h
      exact ⟨isWhole_iff.mp h.currentWhole, fun _ line' hline' ↦ h.kept line' (.inl hline')⟩
    · intro h
      refine undamaged_of_whole hcurrent (isWhole_iff.mpr h.written) ?_
      rintro line' (hline' | hline')
      · exact h.old hdrops line' hline'
      · exact .inl hline'
  | false =>
    rw [if_neg Bool.false_ne_true]
    have hlines : linesOf newline (files.current ++ io.reaches rotates line) =
        linesOf newline files.current ++ linesOf newline (io.reaches rotates line) :=
      hcurrent.linesOf_append
    constructor
    · intro h
      refine ⟨isWhole_iff.mp (hcurrent.append_iff.mp h.currentWhole), fun hdrops line' hline' ↦ ?_⟩
      have hkept := h.kept line' (.inl hline')
      rw [if_pos hdrops, hlines] at hkept
      exact List.mem_append.mp (hkept.resolve_left List.not_mem_nil)
    · intro h
      refine undamaged_of_whole ?_ (hcurrent.append_iff.mpr (isWhole_iff.mpr h.written)) ?_
      · split
        · rfl
        · exact hold
      · rw [hlines]
        rintro line' (hline' | hline')
        · by_cases hdrops : io.drops rotates = true
          · exact .inr (List.mem_append.mpr (h.old hdrops line' hline'))
          · rw [if_neg hdrops]
            exact .inl hline'
        · exact .inr (List.mem_append_left _ hline')

/-- A call that finds whole lines, and so one that fails, does no damage if and only if the bytes
that it gets into the file are none or end a line, and all lines of an old file that it takes away
are elsewhere. -/
theorem append_undamaged_iff (hold : IsWhole newline (disk.content (rotatedPath root id)))
    (hcurrent : IsWhole newline (disk.content (auditPath root id))) :
    Undamaged (disk.generations root id)
        ((appendAudit io root id line disk).2.generations root id) ↔
      Spares io (rotates io disk (auditPath root id)) line (disk.generations root id) := by
  rw [agrees_appendAudit.files]
  exact undamaged_iff hold hcurrent

/-- The disk is full when the call has opened the file. -/
theorem append_undamaged_iff_sample :
    Undamaged (Disk.generations (fun _ ↦ none) "/data" "lab-1")
      ((appendAudit { AuditIo.ok with line := .failed 0 } "/data" "lab-1" [123, 125]
        (fun _ ↦ none)).2.generations "/data" "lab-1") := by
  have hempty : ∀ path, IsWhole newline (Disk.content (fun _ ↦ none) path) := fun _ ↦ rfl
  exact (append_undamaged_iff (hempty _) (hempty _)).mpr ⟨.inl rfl, fun hdrops ↦ by cases hdrops⟩

/-- A part of the line is written, and the next line is glued to it. -/
theorem failed_append_damages : ¬ ∀ io root id line disk,
    IsWhole newline (Disk.content disk (rotatedPath root id)) →
    IsWhole newline (Disk.content disk (auditPath root id)) →
    (appendAudit io root id line disk).1 = false →
    Undamaged (disk.generations root id)
      ((appendAudit io root id line disk).2.generations root id) := by
  intro hall
  have h := hall { AuditIo.ok with line := .failed 1 } "/data" "lab-1" [123, 125] (fun _ ↦ none)
    rfl rfl rfl
  have hnext := h.next [91, 93] (by decide)
  revert hnext
  decide

end LabStreamGate.Capture
