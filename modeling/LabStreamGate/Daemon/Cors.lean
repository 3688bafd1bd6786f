import LabStreamGate.Daemon.Origins

/-!
# The gate before `/pool`, `/heartbeat` and `/access`

The CORS layer lets an origin through that ends with an allowed entry; the status at `/connect`
asks whether the origin is an entry.
-/

namespace LabStreamGate.Daemon

/-- The predicate of `build_router`. -/
def corsAllows (allowed : List String) (origin : HeaderValue) : Bool :=
  allowed.any fun o ↦ endsWith (originText origin) o

variable {s : Origins} {allowed : List String} {value : HeaderValue} {text : String}

theorem originText_eq (h : value.toStr = some text) : originText value = text := by
  rw [originText, h, Option.getD_some]

theorem corsAllows_iff (h : value.toStr = some text) :
    corsAllows allowed value = true ↔ ∃ o ∈ allowed, o.toList <:+ text.toList := by
  simp only [corsAllows, originText_eq h, List.any_eq_true, endsWith_iff]

theorem getCorsStatus_accepted_iff (h : value.toStr = some text) :
    getCorsStatus s (some value) = .accepted ↔ text ∈ s.allowed := by
  rw [getCorsStatus_some, originText_eq h]
  split_ifs with hallowed <;> simp_all

/-- For one origin the gate and the status agree where the origin is an entry or ends with none;
for every origin they do so where no entry could be the text of a header. -/
theorem cors_agrees_with_status (s : Origins) :
    (∀ value text, HeaderValue.toStr value = some text →
      ((corsAllows s.allowed value = true ↔ getCorsStatus s (some value) = .accepted) ↔
        text ∈ s.allowed ∨ ∀ o ∈ s.allowed, ¬ o.toList <:+ text.toList)) ∧
    ((∀ value text, HeaderValue.toStr value = some text →
        (corsAllows s.allowed value = true ↔ getCorsStatus s (some value) = .accepted)) ↔
      ∀ o ∈ s.allowed, ¬ IsHeaderText o) := by
  constructor
  · intro value text h
    rw [corsAllows_iff h, getCorsStatus_accepted_iff h]
    constructor
    · intro hagree
      by_cases hmem : text ∈ s.allowed
      · exact .inl hmem
      · exact .inr fun o ho hends ↦ hmem (hagree.mp ⟨o, ho, hends⟩)
    · rintro (hmem | hnone)
      · exact ⟨fun _ ↦ hmem, fun _ ↦ ⟨text, hmem, List.suffix_refl _⟩⟩
      · exact ⟨fun ⟨o, ho, hends⟩ ↦ absurd hends (hnone o ho),
          fun hmem ↦ absurd (List.suffix_refl _) (hnone text hmem)⟩
  · constructor
    · intro hagree o ho htext
      -- some longer origin ends with the entry and is no entry itself
      obtain ⟨value, longer, hvalue, hends, hnew⟩ := htext.exists_new s.allowed
      have hpasses := (corsAllows_iff hvalue).mpr ⟨o, ho, hends⟩
      exact hnew ((getCorsStatus_accepted_iff hvalue).mp ((hagree value longer hvalue).mp hpasses))
    · intro hhidden value text h
      rw [corsAllows_iff h, getCorsStatus_accepted_iff h]
      constructor
      · rintro ⟨o, ho, hends⟩
        exact absurd (IsHeaderText.suffix ⟨value, h⟩ hends) (hhidden o ho)
      · exact fun hmem ↦ ⟨text, hmem, List.suffix_refl _⟩

def sampleHeader (text : String) : HeaderValue := ⟨text.toUTF8.toList⟩

-- An origin that does not end with the entry is turned down by both.
theorem cors_agrees_with_status_sample :
    corsAllows ["https://lab.example"] (sampleHeader "https://lab.example.evil") = false ∧
      getCorsStatus ⟨["https://lab.example"], []⟩ (some (sampleHeader "https://lab.example.evil")) ≠
        .accepted := by
  have hagree := ((cors_agrees_with_status ⟨["https://lab.example"], []⟩).1
    (sampleHeader "https://lab.example.evil") "https://lab.example.evil" (by decide +kernel)).mpr
    (.inr (by decide +kernel))
  have hclosed : corsAllows ["https://lab.example"] (sampleHeader "https://lab.example.evil") = false :=
    by decide +kernel
  exact ⟨hclosed, fun haccepted ↦ Bool.false_ne_true (hclosed ▸ hagree.mpr haccepted)⟩

/-- Where a host is allowed by its bare name, look-alikes pass the gate. -/
theorem look_alike_passes : ¬ ∀ tr s, Run next Origins.empty tr s →
    ∀ value text, HeaderValue.toStr value = some text →
      (corsAllows s.allowed value = true ↔ getCorsStatus s (some value) = .accepted) := by
  intro hall
  obtain ⟨tr, s, hrun, hp⟩ := exists_run next Origins.empty
    [.addPendingOrigin "lab.example", .addAllowedOrigin "lab.example"]
    (fun _ s ↦ corsAllows s.allowed (sampleHeader "https://evil-lab.example") ∧
      getCorsStatus s (some (sampleHeader "https://evil-lab.example")) = .forbidden)
    (by decide +kernel)
  rw [decide_eq_true_eq] at hp
  have haccepted := (hall tr s hrun (sampleHeader "https://evil-lab.example")
    "https://evil-lab.example" (by decide +kernel)).mp hp.1
  rw [hp.2] at haccepted
  cases haccepted

end LabStreamGate.Daemon
