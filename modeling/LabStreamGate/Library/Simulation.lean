import LabStreamGate.Library.Run

/-!
# Simulation between transition systems

A second system simulates a first one where every step of the first is answered by steps of the
second that show an observer the same.  What the observer sees of a run of the first is then also
seen of a run of the second.
-/

namespace LabStreamGate

variable {σ τ α β ω ψ ε : Type*} {next : σ → α → Option (ω × σ)}
  {next' : τ → β → Option (ψ × τ)} {see : Event σ α ω → List ε} {see' : Event τ β ψ → List ε}

/-- What has been seen of the steps of a trace. -/
def seen (see : Event σ α ω → List ε) (tr : List (Event σ α ω)) : List ε := tr.flatMap see

@[simp] theorem seen_nil : seen see [] = [] := rfl

@[simp] theorem seen_append (tr tr' : List (Event σ α ω)) :
    seen see (tr ++ tr') = seen see tr ++ seen see tr' := List.flatMap_append

@[simp] theorem seen_singleton (e : Event σ α ω) : seen see [e] = see e := List.flatMap_singleton ..

theorem mem_seen {tr : List (Event σ α ω)} {x : ε} : x ∈ seen see tr ↔ ∃ e ∈ tr, x ∈ see e :=
  List.mem_flatMap

/-- Where no step shows more than one thing, a trace can be cut at anything it shows. -/
theorem seen_cut {tr : List (Event σ α ω)} {l₁ l₂ : List ε} {x : ε}
    (hone : ∀ e ∈ tr, (see e).length ≤ 1) (h : seen see tr = l₁ ++ x :: l₂) :
    ∃ tr₁ e tr₂, tr = tr₁ ++ e :: tr₂ ∧ seen see tr₁ = l₁ ∧ see e = [x] ∧ seen see tr₂ = l₂ := by
  induction tr generalizing l₁ with
  | nil => simp at h
  | cons e tr ih =>
    rw [List.forall_mem_cons] at hone
    obtain ⟨he, htr⟩ := hone
    rw [seen, List.flatMap_cons] at h
    match hsee : see e, he with
    | [], _ =>
      rw [hsee, List.nil_append] at h
      obtain ⟨tr₁, e', tr₂, rfl, h₁, he', h₂⟩ := ih htr h
      exact ⟨e :: tr₁, e', tr₂, rfl, by rw [seen, List.flatMap_cons, hsee]; exact h₁, he', h₂⟩
    | [y], _ =>
      rw [hsee, List.singleton_append] at h
      cases l₁ with
      | nil =>
        obtain ⟨rfl, htail⟩ := List.cons.inj h
        exact ⟨[], e, tr, rfl, rfl, hsee, htail⟩
      | cons z l₁ =>
        obtain ⟨rfl, htail⟩ := List.cons.inj h
        obtain ⟨tr₁, e', tr₂, rfl, h₁, he', h₂⟩ := ih htr htail
        refine ⟨e :: tr₁, e', tr₂, rfl, ?_, he', h₂⟩
        rw [seen, List.flatMap_cons, hsee, List.singleton_append]
        exact congrArg (y :: ·) h₁

/-- `t` answers a step that showed `l`: some steps from it show `l` too and end where `P` holds. -/
def Answers (next' : τ → β → Option (ψ × τ)) (see' : Event τ β ψ → List ε) (t : τ) (l : List ε)
    (P : τ → Prop) : Prop :=
  ∃ tr t', Run next' t tr t' ∧ seen see' tr = l ∧ P t'

namespace Answers

variable {t : τ} {l l' : List ε} {P Q : τ → Prop}

/-- A step that showed nothing may be answered by none. -/
theorem stutter (h : P t) : Answers next' see' t [] P := ⟨[], t, Run.nil, rfl, h⟩

variable (see') in
theorem single {a : β} {o : ψ} {t' : τ} (hnext : next' t a = some (o, t')) (h : P t') :
    Answers next' see' t (see' ⟨t, a, o⟩) P :=
  ⟨_, t', Run.single hnext, seen_singleton _, h⟩

theorem mono (h : Answers next' see' t l P) (hPQ : ∀ t', P t' → Q t') :
    Answers next' see' t l Q := by
  obtain ⟨tr, t', hrun, hseen, hP⟩ := h
  exact ⟨tr, t', hrun, hseen, hPQ t' hP⟩

/-- Two answers, one after the other. -/
theorem trans (h : Answers next' see' t l P) (h' : ∀ t', P t' → Answers next' see' t' l' Q) :
    Answers next' see' t (l ++ l') Q := by
  obtain ⟨tr₁, t₁, hrun₁, hseen₁, hP⟩ := h
  obtain ⟨tr₂, t₂, hrun₂, hseen₂, hQ⟩ := h' t₁ hP
  exact ⟨tr₁ ++ tr₂, t₂, hrun₁.append hrun₂, by rw [seen_append, hseen₁, hseen₂], hQ⟩

end Answers

/-- The states that `rel` puts side by side stay so: each step of the first system is answered by
the second. -/
structure Simulation (next : σ → α → Option (ω × σ)) (see : Event σ α ω → List ε)
    (next' : τ → β → Option (ψ × τ)) (see' : Event τ β ψ → List ε) (rel : σ → τ → Prop) : Prop where
  step : ∀ {s s' t a o}, rel s t → next s a = some (o, s') →
    Answers next' see' t (see ⟨s, a, o⟩) (rel s')

namespace Simulation

variable {rel : σ → τ → Prop} {s s' : σ} {t : τ} {tr : List (Event σ α ω)}

-- By induction on the run, whose last step is answered last.
theorem run (sim : Simulation next see next' see' rel) (hrel : rel s t) (h : Run next s tr s') :
    Answers next' see' t (seen see tr) (rel s') := by
  induction h with
  | nil => exact .stutter hrel
  | snoc _ hnext ih =>
    rw [seen_append, seen_singleton]
    exact ih.trans fun t' hrel' ↦ sim.step hrel' hnext

end Simulation

end LabStreamGate
