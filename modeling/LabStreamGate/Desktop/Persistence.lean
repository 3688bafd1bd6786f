import LabStreamGate.Desktop.ScopesFile
import LabStreamGate.Desktop.Step

/-!
# What `scopes.toml` gives back

One call of `write_scopes_to_disk` on its own: which lists come back when the file is read, and what
is left in the file where the call fails or the machine stops on the way.
-/

namespace LabStreamGate.Desktop

variable {toml : TomlText} {scopes before : List ScopeData} {fs fs' : Fs String} {data : Bytes}
  {tr : List WriteEvent} {stage : Option WriteStage}

/-! ## Calls without an error -/

theorem writeNext_write {handle : Handle} {count : Nat} (h : handle.offset < data.length) :
    writeNext (fs, some (.write data handle)) (.wrote count) =
      some ((), (fs.write handle ((data.drop handle.offset).take count)).1,
        some (.write data (fs.write handle ((data.drop handle.offset).take count)).2)) := by
  rw [writeNext, WriteStage.run, if_pos h, Option.map_some]

theorem writeNext_finish {handle : Handle} (h : data.length ≤ handle.offset) :
    writeNext (fs, some (.write data handle)) .done = some ((), fs, none) := by
  rw [writeNext, WriteStage.run, if_pos h, Option.map_some]

/-- A call that meets no error comes to its end. -/
theorem exists_write (fs : Fs String) (data : Bytes) :
    ∃ tr fs', Run writeNext (fs, some (.createDirAll data)) tr (fs', none) ∧
      ∀ e ∈ tr, e.act.isFailed = false := by
  have hopened : Run writeNext (fs, some (.createDirAll data)) _
      ((fs.create scopesFile).1, some (.write data (fs.create scopesFile).2)) :=
    (Run.single (a := .done) rfl).snoc (a := .done) rfl
  by_cases hdone : data.length ≤ (fs.create scopesFile).2.offset
  · refine ⟨_, _, hopened.snoc (writeNext_finish hdone), ?_⟩
    simp [FileIo.isFailed]
  · have hwrite := @writeNext_write (fs.create scopesFile).1 data (fs.create scopesFile).2
      data.length (by omega)
    have hwritten := hopened.snoc hwrite
    refine ⟨_, _, hwritten.snoc (writeNext_finish ?_), ?_⟩
    · simp only [Fs.write, List.length_take, List.length_drop]
      omega
    · simp [FileIo.isFailed]

/-- The text of a list stands for the list where it can be encoded, and for none where not. -/
theorem loadScopes_scopesText :
    loadScopes toml (some (scopesText toml scopes)) = scopes ↔
      serializable toml.fits scopes = true := by
  cases h : serializable toml.fits scopes with
  | true =>
    have hread := parseScopes_scopesText toml h
    simp [loadScopes, hread]
  | false =>
    have hne : scopes ≠ [] := by
      rintro rfl
      cases h
    have hread : loadScopes toml (some (scopesText toml scopes)) = [] := by
      rw [loadScopes, scopesText_of_not_serializable toml h, Option.bind_some, parseScopes_nil]
      rfl
    rw [hread]
    simp [hne.symm]

/-- With a library that takes the integers of 64 bits with sign, scopes that were written without
an error are read back where no setting of theirs holds a null or an integer beyond those. -/
theorem scopes_round_trip (hfits : toml.fits = fitsI64)
    (h : WriteScopes toml scopes fs tr fs' none) (hio : ∀ e ∈ tr, e.act.isFailed = false) :
    loadScopes toml (fs'.read scopesFile) = scopes ↔ serializable fitsI64 scopes = true := by
  rw [read_of_finished h hio, loadScopes_scopesText, hfits]

-- The scope of a request with no body at all.
theorem scopes_round_trip_sample : ∃ toml tr fs',
    WriteScopes toml [requestedScope "https://lab.example" none] Fs.empty tr fs' none ∧
      loadScopes toml (fs'.read scopesFile) = [requestedScope "https://lab.example" none] := by
  obtain ⟨tr, fs', h, hio⟩ := exists_write Fs.empty
    (scopesText .compact [requestedScope "https://lab.example" none])
  exact ⟨_, tr, fs', h, (scopes_round_trip rfl h hio).mpr rfl⟩

/-- A website asks for control with settings that hold a null. -/
theorem null_setting_lost : ¬ ∀ (toml : TomlText) files steps s, toml.fits = fitsI64 →
    Run (next toml) (State.idle files) steps s → ∀ tr fs',
      WriteScopes toml s.scopes s.files tr fs' none → (∀ e ∈ tr, e.act.isFailed = false) →
      loadScopes toml (fs'.read scopesFile) = s.scopes := by
  intro hall
  obtain ⟨steps, s, hrun, hs⟩ := exists_run (next .compact) (State.idle Fs.empty)
    [.connect (some sampleOrigin) (.post (some (.obj [("features", .arr [.str "basic"]),
      ("host", .str ""), ("name", .str "Lab"), ("settings", .obj [("pingfall", .null)]),
      ("state", .str "pending")]))), .run 0 .done]
    (fun _ s ↦ !serializable fitsI64 s.scopes) (by decide +kernel)
  obtain ⟨tr, fs', hwrite, hio⟩ := exists_write s.files (scopesText .compact s.scopes)
  have hread := hall _ _ steps s rfl hrun tr fs' hwrite hio
  rw [read_of_finished hwrite hio, loadScopes_scopesText] at hread
  rw [show serializable fitsI64 s.scopes = true from hread] at hs
  cases hs

/-! ## Calls that fail -/

/-- Where a call is when it fails or the machine stops: it has not opened the file, it has emptied
it, or it has put all the text of a list that can be encoded into it. -/
inductive FailurePoint
  | opening
  | truncated
  | written
  deriving DecidableEq, Repr

def failurePoint (toml : TomlText) (scopes : List ScopeData) (tr : List WriteEvent) :
    FailurePoint :=
  if tr.any opens = false then .opening
  else if serializable toml.fits scopes ∧ (scopesText toml scopes).length ≤ written tr then .written
  else .truncated

/-- The file parses to one of the two lists. -/
def StandsForOne (toml : TomlText) (before scopes : List ScopeData) (fs : Fs String) : Prop :=
  ∃ content, fs.read scopesFile = some content ∧
    (parseScopes toml content = some before ∨ parseScopes toml content = some scopes)

theorem failurePoint_opening (h : failurePoint toml scopes tr = .opening) :
    tr.any opens = false := by
  unfold failurePoint at h
  split at h
  · assumption
  · split at h <;> cases h

theorem failurePoint_written (h : failurePoint toml scopes tr = .written) :
    serializable toml.fits scopes = true ∧ (scopesText toml scopes).length ≤ written tr := by
  unfold failurePoint at h
  split at h
  · cases h
  · split at h
    · assumption
    · cases h

theorem failurePoint_truncated (h : failurePoint toml scopes tr = .truncated) :
    tr.any opens = true := by
  unfold failurePoint at h
  split at h
  · cases h
  · rename_i hopen
    exact Bool.eq_true_of_not_eq_false hopen

/-- The text of a list that can be encoded is not empty, for the empty text stands for no list. -/
theorem scopesText_ne_nil (h : serializable toml.fits scopes = true) :
    scopesText toml scopes ≠ [] := by
  intro hnil
  have hread := parseScopes_scopesText toml h
  rw [hnil, parseScopes_nil] at hread
  cases hread

theorem not_standsForOne_of_nil (h : fs.read scopesFile = some []) :
    ¬ StandsForOne toml before scopes fs := by
  rintro ⟨content, hread, hparse⟩
  obtain rfl : [] = content := Option.some.inj (h.symm.trans hread)
  rw [parseScopes_nil] at hparse
  rcases hparse with hparse | hparse <;> cases hparse

-- Nothing has been written when the file has just been opened.
theorem exists_truncated (fs : Fs String) : ∃ tr fs' stage,
    WriteScopes toml scopes fs tr fs' stage ∧ failurePoint toml scopes tr = .truncated ∧
      fs'.read scopesFile = some [] := by
  have hrun : WriteScopes toml scopes fs _ (fs.create scopesFile).1 _ :=
    (Run.single (a := .done) rfl).snoc (a := .done) rfl
  refine ⟨_, _, _, hrun, ?_, ?_⟩
  · rw [failurePoint, if_neg (by simp [opens]), if_neg]
    rintro ⟨hser, hle⟩
    exact scopesText_ne_nil hser (List.eq_nil_of_length_eq_zero (Nat.le_zero.mp hle))
  · rcases read_after hrun with ⟨hnot, -⟩ | ⟨-, hempty⟩
    · cases hnot
    · exact hempty

/-- The file stands for the list it held or for the new one after every failure at a point if and
only if that is before the file is opened, or when it has all the text of a list that can be
encoded.  With a list that cannot, every failure in between leaves neither. -/
theorem write_fails_safe {old : Bytes} (hold : fs.read scopesFile = some old)
    (hbefore : parseScopes toml old = some before) (point : FailurePoint) :
    ((∀ tr fs' stage, WriteScopes toml scopes fs tr fs' stage →
        failurePoint toml scopes tr = point → StandsForOne toml before scopes fs') ↔
      point ≠ .truncated) ∧
    (serializable toml.fits scopes = false → ∀ tr fs' stage,
      WriteScopes toml scopes fs tr fs' stage → failurePoint toml scopes tr = .truncated →
        ¬ StandsForOne toml before scopes fs') := by
  refine ⟨⟨?_, ?_⟩, ?_⟩
  · rintro hall rfl
    obtain ⟨tr, fs', stage, hrun, hpoint, hempty⟩ := @exists_truncated toml scopes fs
    exact not_standsForOne_of_nil hempty (hall tr fs' stage hrun hpoint)
  · intro hne tr fs' stage hrun hpoint
    cases point with
    | opening =>
      have hnot := failurePoint_opening hpoint
      rcases read_after hrun with ⟨-, hread⟩ | ⟨hopen, -⟩
      · exact ⟨old, hread.trans hold, .inl hbefore⟩
      · rw [hnot] at hopen
        cases hopen
    | truncated => exact absurd rfl hne
    | written =>
      obtain ⟨hser, hle⟩ := failurePoint_written hpoint
      rcases read_after hrun with ⟨-, hread⟩ | ⟨-, hread⟩
      · exact ⟨old, hread.trans hold, .inl hbefore⟩
      · rw [List.take_of_length_le hle] at hread
        exact ⟨_, hread, .inr (parseScopes_scopesText toml hser)⟩
  · intro hser tr fs' stage hrun hpoint
    have hopen := failurePoint_truncated hpoint
    rcases read_after hrun with ⟨hnot, -⟩ | ⟨-, hread⟩
    · rw [hnot] at hopen
      cases hopen
    · rw [scopesText_of_not_serializable toml hser, List.take_nil] at hread
      exact not_standsForOne_of_nil hread

-- The directory cannot be made, so the earlier list stays.
theorem write_fails_safe_sample : ∃ toml fs tr fs' stage,
    toml.fits (2 ^ 63) = true ∧
      WriteScopes toml [requestedScope "https://lab.example" none] fs tr fs' stage ∧
      (∃ e ∈ tr, e.act.isFailed = true) ∧
      StandsForOne toml [] [requestedScope "https://lab.example" none] fs' := by
  let toml : TomlText := .taking fun i ↦ decide (-2 ^ 63 ≤ i ∧ i < 2 ^ 64)
  obtain ⟨tr, fs, hfirst, hio⟩ := exists_write Fs.empty (scopesText toml [])
  have hwrite : WriteScopes toml [requestedScope "https://lab.example" none] fs _ fs none :=
    Run.single (a := .failed "Permission denied (os error 13)") rfl
  refine ⟨toml, fs, _, fs, none, by decide, hwrite, ⟨_, List.mem_singleton_self _, rfl⟩, ?_⟩
  exact (write_fails_safe (read_of_finished hfirst hio) (parseScopes_scopesText toml rfl)
    .opening).1.mpr (by decide) _ _ _ hwrite rfl

/-- The machine stops after the file was opened and before anything was written. -/
theorem stopped_write_loses_both : ¬ ∀ toml before scopes fs old tr fs' stage,
    fs.read scopesFile = some old → parseScopes toml old = some before →
    WriteScopes toml scopes fs tr fs' stage → StandsForOne toml before scopes fs' := by
  intro hall
  obtain ⟨tr, fs, hfirst, hio⟩ := exists_write Fs.empty (scopesText .compact [])
  obtain ⟨tr', fs', stage, hwrite, -, hempty⟩ :=
    @exists_truncated .compact [requestedScope "https://lab.example" none] fs
  exact not_standsForOne_of_nil hempty (hall _ [] _ fs _ _ _ _ (read_of_finished hfirst hio)
    (parseScopes_scopesText _ rfl) hwrite)

end LabStreamGate.Desktop
