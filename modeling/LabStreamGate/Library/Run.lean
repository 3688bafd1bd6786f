import Mathlib.Data.List.Induction

/-!
# Runs of a transition system

A system is given by one partial function `next`: from a state and an action to the output the
environment sees and the state after it, or `none` where the action is not possible there.  A run
keeps every step it made, so that a statement can speak about what came earlier and what came
later.  The rules below turn a fact about one step into a fact about every run.
-/

namespace LabStreamGate

/-- One step of a run: the state it started from, the action taken and what was seen of it. -/
structure Event (σ α ω : Type*) where
  pre : σ
  act : α
  out : ω

variable {σ α ω : Type*}

/-- `Run next s tr t`: from `s` the steps `tr` lead to `t`. -/
inductive Run (next : σ → α → Option (ω × σ)) (s : σ) : List (Event σ α ω) → σ → Prop
  | nil : Run next s [] s
  | snoc {tr t a o u} : Run next s tr t → next t a = some (o, u) →
      Run next s (tr ++ [⟨t, a, o⟩]) u

variable {next : σ → α → Option (ω × σ)} {s t u : σ} {tr tr' : List (Event σ α ω)}

namespace Run

theorem single {a : α} {o : ω} (h : next s a = some (o, t)) : Run next s [⟨s, a, o⟩] t :=
  Run.snoc Run.nil h

-- By induction on the second run, whose steps are put at the end.
theorem append (h : Run next s tr t) (h' : Run next t tr' u) : Run next s (tr ++ tr') u := by
  induction h' with
  | nil => simpa using h
  | snoc _ hstep ih =>
    rw [← List.append_assoc]
    exact Run.snoc ih hstep

-- A run is built from its end, so its last step can be taken off.
theorem snoc_inv {e : Event σ α ω} (h : Run next s (tr ++ [e]) u) :
    Run next s tr e.pre ∧ next e.pre e.act = some (e.out, u) := by
  generalize hl : tr ++ [e] = l at h
  cases h with
  | nil => simp at hl
  | snoc hrun hstep =>
    obtain ⟨rfl, he⟩ := List.append_inj' hl rfl
    cases he
    exact ⟨hrun, hstep⟩

theorem nil_inv (h : Run next s [] t) : t = s := by
  generalize hl : ([] : List (Event σ α ω)) = l at h
  cases h with
  | nil => rfl
  | snoc _ _ => simp at hl

/-- A run can be cut after any of its steps. -/
theorem split (h : Run next s (tr ++ tr') u) : ∃ t, Run next s tr t ∧ Run next t tr' u := by
  induction tr' using List.reverseRecOn generalizing u with
  | nil => exact ⟨u, by simpa using h, Run.nil⟩
  | append_singleton tr' e ih =>
    rw [← List.append_assoc] at h
    obtain ⟨hrun, hstep⟩ := h.snoc_inv
    obtain ⟨t, h₁, h₂⟩ := ih hrun
    exact ⟨t, h₁, Run.snoc h₂ hstep⟩

/-- The step `e` of a run, with what came before it and what came after it. -/
theorem cut {e : Event σ α ω} (h : Run next s (tr ++ e :: tr') t) :
    ∃ u, Run next s tr e.pre ∧ next e.pre e.act = some (e.out, u) ∧ Run next u tr' t := by
  rw [List.append_cons] at h
  obtain ⟨u, h₁, h₂⟩ := h.split
  exact ⟨u, h₁.snoc_inv.1, h₁.snoc_inv.2, h₂⟩

/-- A run of a system is a run of a part of it, when every step is some steps of that part. -/
theorem project {τ β ψ : Type*} {next' : τ → β → Option (ψ × τ)} (proj : σ → τ)
    (steps : Event σ α ω → List (Event τ β ψ)) (h : Run next s tr t)
    (hstep : ∀ v a o w, next v a = some (o, w) → Run next' (proj v) (steps ⟨v, a, o⟩) (proj w)) :
    Run next' (proj s) (tr.flatMap steps) (proj t) := by
  induction h with
  | nil => exact nil
  | snoc _ hnext ih =>
    rw [List.flatMap_append, List.flatMap_singleton]
    exact ih.append (hstep _ _ _ _ hnext)

/-- Where no action is possible a run does not go on. -/
theorem eq_of_stuck (h : Run next s tr t) (hs : ∀ a, next s a = none) : t = s := by
  induction h with
  | nil => rfl
  | snoc _ hstep ih =>
    rw [ih, hs] at hstep
    cases hstep

/-- An invariant of every step that meets `C` is an invariant of every run whose steps all do. -/
theorem invariant {I : σ → Prop} {C : Event σ α ω → Prop} (h : Run next s tr t) (h₀ : I s)
    (hstep : ∀ v a o w, I v → C ⟨v, a, o⟩ → next v a = some (o, w) → I w)
    (hC : ∀ e ∈ tr, C e) : I t := by
  induction h with
  | nil => exact h₀
  | snoc _ hnext ih =>
    rw [List.forall_mem_append] at hC
    exact hstep _ _ _ _ (ih hC.1) (hC.2 _ (List.mem_singleton_self _)) hnext

/-- The same for a property that also looks back at the steps made so far. -/
theorem history {P : List (Event σ α ω) → σ → Prop} {C : Event σ α ω → Prop}
    (h : Run next s tr t) (h₀ : P [] s)
    (hstep : ∀ l v a o w, P l v → C ⟨v, a, o⟩ → next v a = some (o, w) →
      P (l ++ [⟨v, a, o⟩]) w)
    (hC : ∀ e ∈ tr, C e) : P tr t := by
  induction h with
  | nil => exact h₀
  | snoc _ hnext ih =>
    rw [List.forall_mem_append] at hC
    exact hstep _ _ _ _ _ (ih hC.1) (hC.2 _ (List.mem_singleton_self _)) hnext

/-- Where every step keeps `P` if and only if it meets `Q`, `P` is so all along a run if and only if
all its steps meet `Q`. -/
theorem forall_prefix_iff {P : List (Event σ α ω) → σ → Prop}
    {Q : List (Event σ α ω) → Event σ α ω → Prop} (h : Run next s tr t) (h₀ : P [] s)
    (hstep : ∀ l v a o w, Run next s l v → P l v → next v a = some (o, w) →
      (P (l ++ [⟨v, a, o⟩]) w ↔ Q l ⟨v, a, o⟩)) :
    (∀ tr₁ tr₂ u, tr = tr₁ ++ tr₂ → Run next s tr₁ u → P tr₁ u) ↔
      ∀ tr₁ e tr₂, tr = tr₁ ++ e :: tr₂ → Q tr₁ e := by
  constructor
  · intro hP tr₁ e tr₂ htr
    rw [htr] at h
    obtain ⟨u, hrun, hnext, -⟩ := h.cut
    have hpre := hP tr₁ (e :: tr₂) e.pre htr hrun
    rw [List.append_cons] at htr
    exact (hstep tr₁ e.pre e.act e.out u hrun hpre hnext).mp (hP _ tr₂ u htr (hrun.snoc hnext))
  · intro hQ tr₁ tr₂ u htr hrun
    induction hrun generalizing tr₂ with
    | nil => exact h₀
    | snoc hrun hnext ih =>
      rw [← List.append_cons] at htr
      exact (hstep _ _ _ _ _ hrun (ih _ htr) hnext).mpr (hQ _ _ tr₂ htr)

end Run

/-! ## Steps that come to an end -/

/-- Where `I` holds, the steps that meet `C` keep it and make `f` less. -/
def Descends (next : σ → α → Option (ω × σ)) (I : σ → Prop) (C : Event σ α ω → Prop)
    (f : σ → Nat) : Prop :=
  ∀ v a o w, I v → C ⟨v, a, o⟩ → next v a = some (o, w) → I w ∧ f w < f v

namespace Descends

variable {I : σ → Prop} {C : Event σ α ω → Prop} {f : σ → Nat}

theorem run (hstep : Descends next I C f) (h : Run next s tr t) (h₀ : I s) (hC : ∀ e ∈ tr, C e) :
    I t ∧ f t + tr.length ≤ f s := by
  induction h with
  | nil => exact ⟨h₀, Nat.le_refl _⟩
  | snoc _ hnext ih =>
    rw [List.forall_mem_append, List.forall_mem_singleton] at hC
    obtain ⟨hI, hle⟩ := ih hC.1
    obtain ⟨hI', hlt⟩ := hstep _ _ _ _ hI hC.2 hnext
    rw [List.length_append, List.length_singleton]
    exact ⟨hI', by omega⟩

-- By induction on what is left of `f`.
theorem exists_last (hstep : Descends next I C f) (h₀ : I s) :
    ∃ tr t, Run next s tr t ∧ (∀ e ∈ tr, C e) ∧ I t ∧
      ∀ a o u, next t a = some (o, u) → ¬ C ⟨t, a, o⟩ := by
  induction hn : f s using Nat.strongRecOn generalizing s with
  | ind n ih =>
    by_cases hlast : ∀ a o u, next s a = some (o, u) → ¬ C ⟨s, a, o⟩
    · exact ⟨[], s, .nil, List.forall_mem_nil _, h₀, hlast⟩
    · push Not at hlast
      obtain ⟨a, o, u, hnext, hC⟩ := hlast
      obtain ⟨hI, hlt⟩ := hstep s a o u h₀ hC hnext
      obtain ⟨tr, t, hrun, htr, hI', hlast⟩ := ih (f u) (hn ▸ hlt) hI rfl
      exact ⟨⟨s, a, o⟩ :: tr, t, (Run.single hnext).append hrun,
        List.forall_mem_cons.mpr ⟨hC, htr⟩, hI', hlast⟩

end Descends

/-- Some step of the trace is `P`, and `Q` holds of the steps after it. -/
def Once (P : Event σ α ω → Prop) (Q : List (Event σ α ω) → Prop)
    (tr : List (Event σ α ω)) : Prop :=
  ∃ tr₁ e tr₂, tr = tr₁ ++ e :: tr₂ ∧ P e ∧ Q tr₂

namespace Once

variable {P : Event σ α ω → Prop} {Q Q' : List (Event σ α ω) → Prop} {e : Event σ α ω}

/-- What has happened stays so, and what came after it may come to more. -/
theorem snoc (h : Once P Q tr) (hQ : ∀ l, Q l → Q' (l ++ [e])) : Once P Q' (tr ++ [e]) := by
  obtain ⟨tr₁, e', tr₂, rfl, hP, hq⟩ := h
  exact ⟨tr₁, e', tr₂ ++ [e], by simp, hP, hQ tr₂ hq⟩

theorem last (hP : P e) (hQ : Q []) : Once P Q (tr ++ [e]) :=
  ⟨tr, e, [], rfl, hP, hQ⟩

theorem mono (h : Once P Q tr) (hQ : ∀ l, Q l → Q' l) : Once P Q' tr := by
  obtain ⟨tr₁, e, tr₂, rfl, hP, hq⟩ := h
  exact ⟨tr₁, e, tr₂, rfl, hP, hQ tr₂ hq⟩

/-- The step looked for is the last one, or one before it. -/
theorem append_singleton_iff :
    Once P Q (tr ++ [e]) ↔ P e ∧ Q [] ∨ Once P (fun l ↦ Q (l ++ [e])) tr := by
  constructor
  · rintro ⟨tr₁, e', tr₂, htr, hP, hQ⟩
    rcases List.eq_nil_or_concat tr₂ with rfl | ⟨tr₂, e'', rfl⟩
    · obtain ⟨-, he⟩ := List.append_inj' htr rfl
      cases he
      exact .inl ⟨hP, hQ⟩
    · rw [List.concat_eq_append] at htr hQ
      rw [← List.cons_append, ← List.append_assoc] at htr
      obtain ⟨hinit, he⟩ := List.append_inj' htr rfl
      cases he
      exact .inr ⟨tr₁, e', tr₂, hinit, hP, hQ⟩
  · rintro (⟨hP, hQ⟩ | h)
    · exact last hP hQ
    · exact h.snoc fun _ hl ↦ hl

/-- Where every later step has to meet `R`, the last one either is the step looked for or meets
it. -/
theorem snoc_iff {R : Event σ α ω → Prop} :
    Once P (fun later ↦ ∀ e ∈ later, R e) (tr ++ [e]) ↔
      P e ∨ Once P (fun later ↦ ∀ e ∈ later, R e) tr ∧ R e := by
  rw [append_singleton_iff]
  simp only [List.forall_mem_append, List.forall_mem_singleton]
  constructor
  · rintro (⟨hP, -⟩ | h)
    · exact .inl hP
    · obtain ⟨tr₁, e', tr₂, rfl, hP, hl, he⟩ := h
      exact .inr ⟨⟨tr₁, e', tr₂, rfl, hP, hl⟩, he⟩
  · rintro (hP | ⟨h, he⟩)
    · exact .inl ⟨hP, by simp⟩
    · exact .inr (h.mono fun _ hl ↦ ⟨hl, he⟩)

end Once

/-- Takes the actions of a list one after the other and keeps the steps made. -/
def exec (next : σ → α → Option (ω × σ)) : σ → List α → Option (List (Event σ α ω) × σ)
  | s, [] => some ([], s)
  | s, a :: as =>
    (next s a).bind fun r ↦ (exec next r.2 as).map fun q ↦ (⟨s, a, r.1⟩ :: q.1, q.2)

-- By induction on the actions.
theorem exec_run {as : List α} (h : exec next s as = some (tr, t)) : Run next s tr t := by
  induction as generalizing s tr t with
  | nil =>
    cases h
    exact Run.nil
  | cons a as ih =>
    simp only [exec, Option.bind_eq_some_iff, Option.map_eq_some_iff, Prod.mk.injEq] at h
    obtain ⟨r, hr, q, hq, rfl, rfl⟩ := h
    exact (Run.single hr).append (ih hq)

/-- An action list whose run passes the test `p` shows that a run passing it exists. -/
theorem exists_run (next : σ → α → Option (ω × σ)) (s : σ) (as : List α)
    (p : List (Event σ α ω) → σ → Bool)
    (h : (exec next s as).map (fun q ↦ p q.1 q.2) = some true) :
    ∃ tr t, Run next s tr t ∧ p tr t = true := by
  obtain ⟨⟨tr, t⟩, hq, hp⟩ := Option.map_eq_some_iff.mp h
  exact ⟨tr, t, exec_run hq, hp⟩

/-- The same with one step picked out. -/
theorem exists_run_at (next : σ → α → Option (ω × σ)) (s : σ) (as₁ : List α) (a : α)
    (as₂ : List α) (p : List (Event σ α ω) → Event σ α ω → List (Event σ α ω) → σ → Bool)
    (h : ((exec next s as₁).bind fun q₁ ↦ (next q₁.2 a).bind fun r ↦
      (exec next r.2 as₂).map fun q₂ ↦ p q₁.1 ⟨q₁.2, a, r.1⟩ q₂.1 q₂.2) = some true) :
    ∃ tr₁ e tr₂ t, Run next s (tr₁ ++ e :: tr₂) t ∧ e.act = a ∧ p tr₁ e tr₂ t = true := by
  simp only [Option.bind_eq_some_iff, Option.map_eq_some_iff] at h
  obtain ⟨q₁, h₁, r, hr, q₂, h₂, hp⟩ := h
  refine ⟨_, _, _, _, ?_, rfl, hp⟩
  rw [List.append_cons]
  exact (Run.snoc (exec_run h₁) hr).append (exec_run h₂)

end LabStreamGate
